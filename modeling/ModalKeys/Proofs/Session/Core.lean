import ModalKeys.Proofs.Session.Invariant
import ModalKeys.Proofs.Session.Moves

namespace ModalKeys

/-- The command of an effect that sends one. -/
def Effect.command? : Effect → Option Text
  | .send command => some command
  | .set _ _ => none

namespace Session

/-- The commands that are queued for the host. -/
def sent (s : Session) : List Text := s.outbox.filterMap Effect.command?

/-- What the matching of typed text depends on, and what it sends. The display of the input, the
hints and the history are no part of it. -/
structure Core where
  keyboard : Keyboard
  keymap : Keymap
  mode : Text
  defaultMode : Text
  modeConfig : Assoc (Assoc Text)
  typing : Bool
  sent : List Text

namespace Core

def clearLine (c : Core) : Core := { c with keyboard := c.keyboard.clearLine }

def clearChord (c : Core) : Core := { c with keyboard := c.keyboard.clearChord }

def withStack (c : Core) (k : Stack) : Core := { c with keymap := { c.keymap with stack := k } }

/-- In another mode. The bind in progress ends in any but the stack mode. -/
def inMode (c : Core) (mode : Text) : Core :=
  { c with mode, keymap := if mode = stackMode then c.keymap else c.keymap.reset }

def send (c : Core) (commands : List Text) : Core := { c with sent := c.sent ++ commands }

end Core

def core (s : Session) : Core :=
  ⟨s.keyboard, s.keymap, s.mode, s.defaultMode, s.modeConfig, s.isTyping, s.sent⟩

theorem core_withStack (s : Session) (k : Stack) : (s.withStack k).core = s.core.withStack k := rfl

theorem keyboard_assign (s : Session) (name value : Text) :
    (s.assign name value).keyboard = s.keyboard := by
  unfold assign noteVariable
  dsimp only
  split
  · split <;> rfl
  · rfl

theorem sent_emit_set (s : Session) (name value : Text) : (s.emit (.set name value)).sent = s.sent := by
  simp [sent, emit, Effect.command?]

theorem sent_assign (s : Session) (name value : Text) : (s.assign name value).sent = s.sent := by
  unfold assign
  split
  · rw [sent, outbox_noteVariable]
    exact sent_emit_set s name value
  · rfl

/-- Variables other than the mode and the typing toggle do not count. -/
theorem core_assign {name : Text} (hm : name ≠ modeName) (ht : name ≠ typingName) (s : Session)
    (value : Text) : (s.assign name value).core = s.core := by
  have hf : Frame (name = ·) s (s.assign name value) := frame_assign rfl s value
  have htyping : (s.assign name value).isTyping = s.isTyping := by
    unfold isTyping Variables.isEnabled Variables.getD
    rw [hf.vars typingName ht]
  rw [core, keyboard_assign, hf.keymap, hf.mode_eq hm, hf.defaultMode, hf.modeConfig, htyping,
    sent_assign]
  rfl

theorem core_display {name : Text} (h : name ∈ promptName :: displayNames) (s : Session)
    (value : Text) : (s.assign name value).core = s.core := by
  have hall : ∀ n ∈ promptName :: displayNames, n ≠ modeName ∧ n ≠ typingName := by decide
  exact core_assign (hall name h).1 (hall name h).2 s value

section Display

variable (s : Session)

theorem core_stopCompletion : s.stopCompletion.core = s.core := core_display (by decide) _ _

theorem core_clearLine : s.clearLine.core = s.core.clearLine := by
  rw [clearLine, core_stopCompletion, core_display (by decide)]
  rfl

theorem get?_clearLine : s.clearLine.vars.get? lineName = none := by
  unfold clearLine stopCompletion
  rw [get?_assign, if_neg (by decide)]
  change (Session.vars (assign _ lineName [])).get? lineName = none
  rw [get?_assign, if_pos rfl]
  rfl

theorem core_clearChord : s.clearChord.core = s.core.clearChord := by
  rw [clearChord, core_display (by decide)]
  rfl

theorem core_refreshHints : s.refreshHints.core = s.core := by
  unfold refreshHints
  split
  · exact core_stopCompletion s
  · split
    · exact core_display (by decide) s _
    · rfl

theorem core_showChord (m : Modifiers) (old : Input) : (s.showChord m old).core = s.core := by
  obtain h | ⟨value, h⟩ := s.showChord_cases m old
  · rw [h]
  · rw [h]
    exact core_display (by decide) s value

theorem core_showLine (old : Input) : (s.showLine old).core = s.core := by
  obtain h | ⟨value, h⟩ := s.showLine_cases old
  · rw [h]
  · rw [h]
    exact core_display (by decide) s value

theorem core_refresh (m : Modifiers) (old : Input) : (s.refresh m old).core = s.core := by
  unfold refresh
  dsimp only
  rw [core_showLine, core_showChord]
  split
  · rfl
  · exact core_refreshHints s

end Display

section Reactions

variable {s : Session}

theorem core_enteredMode (hc : s.modeConfig = []) (mode : Text) :
    (s.enteredMode mode).core =
      { s.core with keymap := if mode = stackMode then s.keymap else s.keymap.reset } := by
  have ha : s.assignAll ((s.modeConfig.get? mode).getD []) = s := by rw [hc]; rfl
  unfold enteredMode
  rw [ha]
  dsimp only
  split
  · rfl
  · exact core_display (by decide) _ _

/-- Without a configuration for the modes a switch just changes the mode. -/
theorem core_setMode (hc : s.modeConfig = []) {mode : Text} (h : s.mode ≠ s.target mode) :
    (s.setMode mode).core = s.core.inMode (s.target mode) := by
  let u : Session := { s with vars := s.vars.set modeName (s.target mode) }
  have hm : u.mode = s.target mode := mode_inMode s (s.target mode)
  have ht : u.isTyping = s.isTyping := by
    have hv : u.vars.get? typingName = s.vars.get? typingName := by
      rw [Variables.get?_set, if_neg (by decide)]
    unfold isTyping Variables.isEnabled Variables.getD
    rw [hv]
  have hu : (u.emit (.set modeName (s.target mode))).core = { s.core with mode := s.target mode } := by
    change Core.mk s.keyboard s.keymap u.mode s.defaultMode s.modeConfig u.isTyping _ = _
    rw [hm, ht, sent_emit_set]
    rfl
  rw [setMode_of_ne h]
  have he := core_enteredMode (s := u.emit (.set modeName (s.target mode))) hc (s.target mode)
  rw [hu] at he
  exact he

/-- A prompt without a preset clears the line. -/
theorem core_prompted {p : Prompt} (h : p.preset = []) :
    (s.prompted p).core = s.core.clearLine := by
  have hp : p.preset.isEmpty = true := by rw [h]; rfl
  unfold prompted
  dsimp only
  rw [if_pos hp]
  split
  · exact core_clearLine s
  · rw [core_display (by decide), core_clearLine]

theorem core_send (command : Text) : (s.send command).core = s.core.send [command] := by
  have h : (s.send command).sent = s.sent ++ [command] := List.filterMap_append
  exact congrArg (fun sent => { s.core with sent }) h

theorem core_performAll_send (cs : List Text) (s : Session) :
    (s.performAll (cs.map .send)).core = s.core.send cs := by
  induction cs generalizing s with
  | nil => rw [Core.send, List.append_nil]; rfl
  | cons c cs ih =>
    change ((s.send c).performAll (cs.map .send)).core = _
    rw [ih, core_send]
    exact congrArg (fun sent => { s.core with sent }) (List.append_assoc s.sent [c] cs)

/-- A run of a command bind sends the expansions of its templates. -/
theorem core_run {b : Bind} {templates : List Text} (hb : b.action = .commands templates)
    (args : List Text) :
    (s.run b args).core = s.core.send (templates.map (Template.expand args)) := by
  have he : b.effects args .empty = .ok ((templates.map (Template.expand args)).map .send) := by
    have hk : b.checkKeywords .empty = .ok () := rfl
    unfold Bind.effects
    rw [hk, hb, List.map_map]
    rfl
  unfold run
  dsimp only
  rw [he]
  exact core_performAll_send _ _

end Reactions

section Matching

variable {s : Session} {rs : List Reaction} {k : Stack} {note : Notification} {text : Text}

/-- Reactions that fill in no line are all there is to a notification. -/
theorem dispatch_of_step (hs : s.keymap.step s.mode note text = (rs, k))
    (hf : ∀ r ∈ rs, r.fillsLine = false) (changed : Session → Option Session) :
    s.dispatch changed note text = some (rs.foldl follow (s.withStack k)) := by
  change (s.keymap.step s.mode note text).1.foldlM (react changed)
    (s.withStack (s.keymap.step s.mode note text).2) = _
  rw [hs]
  exact foldlM_react _ _ hf

theorem update_of_step {m : Modifiers} (hc : s.input.chording = false)
    (hs : s.keymap.step s.mode (.commandUpdate m) s.input.line = (rs, k))
    (hf : ∀ r ∈ rs, r.fillsLine = false) :
    s.update m = some ((rs.foldl follow (s.withStack k)).refresh m s.input) := by
  obtain ⟨limit, hl⟩ : ∃ limit, s.limit = limit + 1 := Nat.exists_eq_succ_of_ne_zero (by
    simp [Session.limit])
  rw [update, hl, updateWithin, hc, if_neg Bool.false_ne_true, dispatch_of_step hs hf]
  rfl

end Matching

end Session

end ModalKeys
