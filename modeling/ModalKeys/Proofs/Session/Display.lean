import ModalKeys.Proofs.Keyboard.Pressed
import ModalKeys.Proofs.Session.Unwritten

namespace ModalKeys

/-- Holds when a reaction puts the display in order by itself. -/
def Reaction.displays : Reaction → Bool
  | .clearActive | .prompt _ => true
  | _ => false

/-- A key press clears the line in place of an update only with the line. -/
theorem Keyboard.line_press_cleared {k : Keyboard} {field key : Text} {typing : Bool}
    (h : (k.press field key typing).1 = .cleared) :
    (k.press field key typing).2.input.line = [] := by
  have hp := k.pressed field key typing
  generalize k.press field key typing = pressed at hp h ⊢
  cases hp with
  | cleared => rfl
  | _ => cases h

theorem Keyboard.input_addModmap {k k' : Keyboard} {source target : Text}
    (h : k.addModmap source target = .ok k') : k'.input = k.input := by
  unfold addModmap at h
  dsimp only at h
  split at h
  · cases h
  · cases h
    rfl

theorem Keyboard.input_addIgnore {k k' : Keyboard} {rule : Text} (h : k.addIgnore rule = .ok k') :
    k'.input = k.input := by
  unfold addIgnore at h
  dsimp only at h
  split at h
  · cases h
  · split at h
    · cases h
      rfl
    · cases h

namespace Session

/-- What the host shows of the line. -/
def shown (s : Session) : Option Text := s.vars.get? lineName

/-- Holds when the host shows the line with the cursor in it, and nothing for an empty line. -/
def Displayed (s : Session) : Prop :=
  s.shown = if s.input.line = [] then none else some s.input.markup

/-- Holds when two sessions agree on the line, on the cursor in it and on what is shown. -/
structure SameLine (s s' : Session) : Prop where
  before : s'.input.before = s.input.before
  after : s'.input.after = s.input.after
  shown : s'.shown = s.shown

section SameLine

variable {s s' s'' : Session}

theorem SameLine.refl (s : Session) : SameLine s s := ⟨rfl, rfl, rfl⟩

theorem SameLine.trans (h : SameLine s s') (h' : SameLine s' s'') : SameLine s s'' :=
  ⟨h'.before.trans h.before, h'.after.trans h.after, h'.shown.trans h.shown⟩

theorem SameLine.line_eq (h : SameLine s s') : s'.input.line = s.input.line := by
  rw [Input.line, Input.line, h.before, h.after]

theorem Displayed.of_sameLine (hd : Displayed s) (h : SameLine s s') : Displayed s' := by
  have hm : s'.input.markup = s.input.markup := by
    rw [Input.markup, Input.markup, h.before, h.after]
  rw [Displayed, h.shown, h.line_eq, hm]
  exact hd

theorem SameLine.of_input (hi : s'.input = s.input) (h : s'.shown = s.shown) : SameLine s s' :=
  ⟨congrArg Input.before hi, congrArg Input.after hi, h⟩

theorem SameLine.of_keyboard (hk : s'.keyboard = s.keyboard) (h : s'.shown = s.shown) :
    SameLine s s' := of_input (congrArg Keyboard.input hk) h

theorem SameLine.assign (s : Session) {name : Text} (hn : name ≠ lineName) (value : Text) :
    SameLine s (s.assign name value) :=
  .of_keyboard (keyboard_assign s name value) (by rw [Session.shown, get?_assign, if_neg hn]; rfl)

theorem SameLine.stopCompletion (s : Session) : SameLine s s.stopCompletion :=
  (⟨rfl, rfl, rfl⟩ : SameLine s { s with completion := s.completion.stop }).trans
    (.assign _ (by decide) _)

theorem SameLine.refreshHints (s : Session) : SameLine s s.refreshHints := by
  unfold Session.refreshHints
  split
  · exact stopCompletion s
  · split
    · exact assign s (by decide) _
    · exact refl s

theorem SameLine.clearChord (s : Session) : SameLine s s.clearChord :=
  (⟨rfl, rfl, rfl⟩ : SameLine s { s with keyboard := s.keyboard.clearChord }).trans
    (.assign _ (by decide) _)

theorem SameLine.showChord (s : Session) (modifiers : Modifiers) (old : Input) :
    SameLine s (s.showChord modifiers old) := by
  obtain h | ⟨value, h⟩ := s.showChord_cases modifiers old
  · rw [h]
    exact refl s
  · rw [h]
    exact assign s (by decide) value

end SameLine

/-- Holds when the line is empty and nothing is shown. -/
structure Cleared (s : Session) : Prop where
  line : s.input.line = []
  shown : s.shown = none

theorem Cleared.displayed {s : Session} (h : Cleared s) : Displayed s := by
  rw [Displayed, h.shown, if_pos h.line]

theorem Cleared.of_sameLine {s s' : Session} (hc : Cleared s) (h : SameLine s s') : Cleared s' :=
  ⟨h.line_eq.trans hc.line, h.shown.trans hc.shown⟩

theorem cleared_clearLine (s : Session) : Cleared s.clearLine :=
  ⟨congrArg (·.keyboard.input.line) (core_clearLine s), get?_clearLine s⟩

section Refresh

variable {s : Session} {old : Input}

theorem assigned_markup (i : Input) : Variables.assigned i.markup = some i.markup := by
  refine if_neg fun h => ?_
  rw [List.isEmpty_iff] at h
  simp [Input.markup] at h

/-- The display of the line is in order after it has been brought up to date, if it was in order or
had the same line or an empty one to show. -/
theorem displayed_showLine (ht : s.isTyping = true)
    (h : s.input.line = old.line ∨ s.input.line = [] ∨ Displayed s) :
    Displayed (s.showLine old) := by
  have hk (value : Text) : (s.assign lineName value).input = s.input :=
    congrArg Keyboard.input (keyboard_assign s lineName value)
  unfold showLine
  rw [if_pos ht]
  by_cases he : s.input.line = []
  · rw [if_pos (List.isEmpty_iff.2 he)]
    refine Cleared.displayed ⟨?_, ?_⟩
    · rw [hk, he]
    · rw [shown, get?_assign, if_pos rfl]
      rfl
  · rw [if_neg (mt List.isEmpty_iff.1 he)]
    split
    · rw [Displayed, shown, hk, get?_assign, if_pos rfl, assigned_markup, if_neg he]
    · next hl => exact (h.resolve_left hl).resolve_left he

theorem isTyping_refresh (s : Session) (modifiers : Modifiers) (old : Input) :
    (s.refresh modifiers old).isTyping = s.isTyping :=
  congrArg Core.typing (core_refresh s modifiers old)

theorem displayed_refresh (modifiers : Modifiers) (ht : s.isTyping = true)
    (h : s.input.line = old.line ∨ s.input.line = [] ∨ Displayed s) :
    Displayed (s.refresh modifiers old) := by
  have hints : SameLine s (if old.chording then s else s.refreshHints) := by
    split
    · exact .refl s
    · exact .refreshHints s
  have hs := hints.trans (.showChord _ modifiers old)
  have htyping : ((if old.chording then s else s.refreshHints).showChord modifiers old).isTyping =
      true := by
    have hc : ((if old.chording then s else s.refreshHints).showChord modifiers old).core = s.core := by
      rw [core_showChord]
      split
      · rfl
      · exact core_refreshHints s
    exact (congrArg Core.typing hc).trans ht
  refine displayed_showLine htyping ?_
  rw [hs.line_eq]
  exact h.imp_right (·.imp_right (·.of_sameLine hs))

end Refresh

section Turn

variable {s : Session}

/-- What is no display reaction only writes variables. -/
theorem Unwritten.follow {α : Type} {f : Session → α} (hf : Unwritten f) {r : Reaction}
    (h : r.displays = false) (s : Session) : f (s.follow r) = f s := by
  cases r with
  | run b args => exact hf.run s b args
  | clearActive => cases h
  | enterStack => exact hf.setMode s stackMode
  | prompt p => cases h
  | leaveStack restore => exact (hf.setMode _ _).trans (hf.assign s promptName [])

/-- A display reaction that fills in no line leaves it as it is or clears it. -/
theorem follow_of_displays {r : Reaction} (h : r.displays = true) (hf : r.fillsLine = false)
    (s : Session) : SameLine s (s.follow r) ∨ Cleared (s.follow r) := by
  cases r with
  | run b args => cases h
  | clearActive =>
    change SameLine s s.clearActive ∨ Cleared s.clearActive
    unfold clearActive
    split
    · exact .inl (.clearChord s)
    · exact .inr (cleared_clearLine s)
  | enterStack => cases h
  | prompt p =>
    have hl : Cleared (if p.label.isEmpty then s.clearLine
        else s.clearLine.assign promptName p.label) := by
      split
      · exact cleared_clearLine s
      · exact (cleared_clearLine s).of_sameLine (.assign _ (by decide) _)
    right
    change Cleared (s.prompted p)
    unfold prompted
    dsimp only
    by_cases hp : p.preset.isEmpty = true
    · rw [if_pos hp]
      exact hl
    · have hc : p.isCommand = true := by simpa [Reaction.fillsLine, hp] using hf
      rw [if_neg hp, if_pos hc]
      exact hl.of_sameLine ⟨rfl, rfl, rfl⟩
  | leaveStack restore => cases h

theorem line_follow {r : Reaction} (hf : r.fillsLine = false) (s : Session) :
    (s.follow r).input.line = s.input.line ∨ (s.follow r).input.line = [] := by
  cases h : r.displays with
  | false => exact .inl (congrArg (·.input.line) (unwritten_keyboard.follow h s))
  | true => exact (follow_of_displays h hf s).imp (·.line_eq) (·.line)

theorem line_foldl_follow {rs : List Reaction} (hf : ∀ r ∈ rs, r.fillsLine = false) (s : Session) :
    (rs.foldl follow s).input.line = s.input.line ∨ (rs.foldl follow s).input.line = [] := by
  refine List.foldlRecOn
    (motive := fun t : Session => t.input.line = s.input.line ∨ t.input.line = []) rs follow (.inl rfl)
    fun t ht r hr => ?_
  rcases line_follow (hf r hr) t with h | h
  · rwa [h]
  · exact .inr h

theorem not_fillsLine {note : Notification} {text : Text} (h : ¬ s.fillsLine note text = true) :
    ∀ r ∈ (s.keymap.step s.mode note text).1, r.fillsLine = false := by
  unfold fillsLine at h
  simpa using h

/-- Holds when no reaction but those of the display changes what is shown. -/
def sparesLine : Session → List Reaction → Bool
  | _, [] => true
  | s, r :: rs => (r.displays || (s.follow r).shown = s.shown) && (s.follow r).sparesLine rs

theorem Displayed.follow (h : Displayed s) {r : Reaction} (hf : r.fillsLine = false)
    (hs : r.displays = true ∨ (s.follow r).shown = s.shown) : Displayed (s.follow r) := by
  cases hd : r.displays with
  | false =>
    have hshown := hs.resolve_left (by simp [hd])
    exact h.of_sameLine (.of_keyboard (unwritten_keyboard.follow hd s) hshown)
  | true => exact (follow_of_displays hd hf s).elim h.of_sameLine (·.displayed)

theorem Displayed.foldl_follow {rs : List Reaction} (h : Displayed s)
    (hf : ∀ r ∈ rs, r.fillsLine = false) (hs : s.sparesLine rs = true) :
    Displayed (rs.foldl Session.follow s) := by
  induction rs generalizing s with
  | nil => exact h
  | cons r rs ih =>
    rw [sparesLine, Bool.and_eq_true, Bool.or_eq_true, decide_eq_true_eq] at hs
    exact ih (h.follow (hf r List.mem_cons_self) hs.1)
      (fun d hd => hf d (List.mem_cons_of_mem r hd)) hs.2

end Turn

section Update

variable {s s' : Session}

/-- However the line comes out of an update, it is displayed: it has not changed, it has been
cleared, or the update of the line that was filled in has displayed it. -/
theorem displayed_updateWithin (limit : Nat) (modifiers : Modifiers) :
    ∀ s s', s.keymap.Reachable → updateWithin limit modifiers s = some s' → s'.isTyping = true →
      Displayed s' := by
  -- On the limit: a line that is filled in is updated under the limit below, after all else that the
  -- turn brings about, so whatever the reactions before it have written is displayed over.
  induction limit generalizing modifiers with
  | zero => intro s s' _ hu; cases hu
  | succ limit ih =>
    intro s s' hk hu ht
    obtain ⟨matched, hm, rfl⟩ := Option.map_eq_some_iff.1 hu
    rw [isTyping_refresh] at ht
    refine displayed_refresh modifiers ht ?_
    have hdispatch : ∃ note text, s.dispatch (updateWithin limit ∅) note text = some matched := by
      split at hm
      · exact ⟨_, _, hm⟩
      · exact ⟨_, _, hm⟩
    obtain ⟨note, text, hd⟩ := hdispatch
    rw [dispatch_eq hk.sound] at hd
    split at hd
    · exact .inr (.inr (ih ∅ _ _ (reachable_turn hk note text) hd ht))
    · next hf =>
      cases hd
      exact (line_foldl_follow (not_fillsLine hf) _).imp_right .inl

theorem displayed_edit (hk : s.keymap.Reachable) {i : Input} (he : s.edit i = some s')
    (ht : s'.isTyping = true) : Displayed s' :=
  displayed_updateWithin _ _ _ _ (show (s.withInput i).keymap.Reachable from hk) he ht

theorem displayed_edit? (hk : s.keymap.Reachable) (h : Displayed s) {i : Option Input}
    (he : s.edit? i = some s') (ht : s'.isTyping = true) : Displayed s' := by
  unfold edit? at he
  split at he
  · exact displayed_edit hk he ht
  · cases he
    exact h

/-- Holds when nothing that comes of a notification changes what is shown, the display apart. -/
def turnSparesLine (s : Session) (note : Notification) (text : Text) : Bool :=
  (s.withStack (s.keymap.step s.mode note text).2).sparesLine (s.keymap.step s.mode note text).1

/-- A notification that is no update of the line leaves the display to its reactions. -/
theorem displayed_notify (hk : s.keymap.Reachable) (h : Displayed s) {note : Notification}
    {text : Text} (hs : s.turnSparesLine note text = true) (hn : s.notify note text = some s')
    (ht : s'.isTyping = true) : Displayed s' := by
  unfold notify at hn
  rw [dispatch_eq hk.sound] at hn
  split at hn
  · exact displayed_updateWithin _ _ _ _ (reachable_turn hk note text) hn ht
  · next hf =>
    cases hn
    have hw : SameLine s (s.withStack (s.keymap.step s.mode note text).2) := ⟨rfl, rfl, rfl⟩
    exact (h.of_sameLine hw).foldl_follow (not_fillsLine hf) hs

end Update

section Events

variable {s s' : Session}

/-- Holds when nobody but the display changes what is shown of the line. What is written while the
line is updated is displayed over and does not count, so this is about the submission of a chord and
about events that themselves set a mode or a variable. -/
def eventSparesLine (s : Session) : Event → Bool
  | .keyRelease field key =>
    match s.keyboard.release field key with
    | (.named (some modifiers), keyboard) =>
      { s with keyboard }.turnSparesLine (.chordExec modifiers) keyboard.input.chordText
    | _ => true
  | e => (s.direct? e).all fun s' => s'.shown = s.shown

theorem sameLine_keyboard_release (s : Session) (field key : Text) :
    SameLine s { s with keyboard := (s.keyboard.release field key).2 } := by
  have hi : (s.keyboard.release field key).2.input.before = s.input.before ∧
      (s.keyboard.release field key).2.input.after = s.input.after := by
    unfold Keyboard.release
    dsimp only
    split
    · exact ⟨rfl, rfl⟩
    · exact ⟨rfl, rfl⟩
  exact ⟨hi.1, hi.2, rfl⟩

theorem displayed_keyPress (hk : s.keymap.Reachable) {field key : Text}
    (hp : s.keyPress field key = some s') (ht : s'.isTyping = true) : Displayed s' := by
  unfold keyPress at hp
  dsimp only at hp
  split at hp
  · exact displayed_updateWithin _ _ _ _
      (show Keymap.Reachable { s with keyboard := _ }.keymap from hk) hp ht
  · next hc =>
    cases hp
    refine Cleared.displayed ⟨?_, ?_⟩
    · exact (congrArg (fun k : Keyboard => k.input.line) (keyboard_assign _ lineName [])).trans
        (Keyboard.line_press_cleared hc)
    · rw [shown, get?_assign, if_pos rfl]
      rfl

theorem Displayed.keyRelease (hk : s.keymap.Reachable) (h : Displayed s) {field key : Text}
    (hs : s.eventSparesLine (.keyRelease field key) = true) (hr : s.keyRelease field key = some s')
    (ht : s'.isTyping = true) : Displayed s' := by
  have hb := h.of_sameLine (sameLine_keyboard_release s field key)
  unfold eventSparesLine at hs
  unfold Session.keyRelease at hr
  dsimp only at hs
  generalize s.keyboard.release field key = released at hs hr hb
  obtain ⟨release, keyboard⟩ := released
  dsimp only at hr hb
  cases release with
  | printable => cases hr; exact hb
  | named exec =>
    cases exec with
    | none => cases hr; exact hb.of_sameLine (.clearChord _)
    | some modifiers =>
      -- It is the chord that is submitted, so nothing displays the line afterwards.
      obtain ⟨matched, hm, rfl⟩ := Option.map_eq_some_iff.1 hr
      have htyping : matched.isTyping = true :=
        (congrArg Core.typing (core_clearChord matched)).symm.trans ht
      have hd := displayed_notify (s := { s with keyboard }) hk hb hs hm htyping
      exact hd.of_sameLine (.clearChord matched)

theorem displayed_submit (hs : s.submit = some s') : Displayed s' := by
  obtain ⟨matched, -, rfl⟩ := Option.map_eq_some_iff.1 hs
  exact (cleared_clearLine matched).displayed

theorem Displayed.showHistory (hk : s.keymap.Reachable) (h : Displayed s)
    {found : Option Text × History} (hs : s.showHistory found = some s')
    (ht : s'.isTyping = true) : Displayed s' := by
  unfold Session.showHistory at hs
  dsimp only at hs
  split at hs
  · exact displayed_edit (show Keymap.Reachable { s with history := _ }.keymap from hk) hs ht
  · cases hs
    exact h.of_sameLine ⟨rfl, rfl, rfl⟩

theorem Displayed.startCompletion (hk : s.keymap.Reachable) (h : Displayed s)
    (hs : s.startCompletion = some s') (ht : s'.isTyping = true) : Displayed s' := by
  unfold Session.startCompletion at hs
  split at hs
  · cases hs
    exact h.of_sameLine (.stopCompletion s)
  · next p _ =>
    have hb : Displayed { s with completion := (s.completion.advance p).2 } :=
      h.of_sameLine ⟨rfl, rfl, rfl⟩
    have hbk : Keymap.Reachable { s with completion := (s.completion.advance p).2 }.keymap := hk
    dsimp only at hs
    split at hs
    · cases hs
      exact hb
    · obtain ⟨matched, hm, rfl⟩ := Option.map_eq_some_iff.1 hs
      have htyping : matched.isTyping = true :=
        (congrArg Core.typing (core_stopCompletion matched)).symm.trans ht
      exact (displayed_edit hbk hm htyping).of_sameLine (.stopCompletion matched)
    · obtain ⟨matched, hm, rfl⟩ := Option.map_eq_some_iff.1 hs
      have htyping : matched.isTyping = true :=
        (congrArg Core.typing (core_refreshHints matched)).symm.trans ht
      refine Displayed.of_sameLine ?_ (.refreshHints matched)
      split at hm
      · cases hm
        exact hb
      · exact displayed_edit hbk hm htyping

theorem Displayed.define (h : Displayed s) (d : Except SyntaxError Definition) :
    Displayed (s.define d).session := by
  cases d with
  | error e => exact h
  | ok d => exact h.of_sameLine ⟨rfl, rfl, rfl⟩

theorem Displayed.addModmap (h : Displayed s) (source target : Text) :
    Displayed (s.addModmap source target).session := by
  unfold Session.addModmap
  split
  · next hm => exact h.of_sameLine (.of_input (Keyboard.input_addModmap hm) rfl)
  · exact h

theorem Displayed.addIgnore (h : Displayed s) (rule : Text) :
    Displayed (s.addIgnore rule).session := by
  unfold Session.addIgnore
  split
  · next hm => exact h.of_sameLine (.of_input (Keyboard.input_addIgnore hm) rfl)
  · exact h

/-- An event that sets a mode or a variable leaves the line alone. -/
theorem Displayed.direct (h : Displayed s) {e : Event}
    (hs : (s.direct? e).all (fun s' => s'.shown = s.shown) = true) (he : s.direct? e = some s') :
    Displayed s' := by
  rw [he, Option.all_some, decide_eq_true_eq] at hs
  exact h.of_sameLine (.of_keyboard (unwritten_keyboard.direct he) hs)

theorem Displayed.withVariable (h : Displayed s) {next : Session} (hn : Displayed next)
    (name : Text) : Displayed (s.withVariable name next).session := by
  unfold Session.withVariable
  split
  · exact hn
  · exact h

/-- After an event the line is displayed, if it was before. -/
theorem Displayed.handle (hk : s.keymap.Reachable) (h : Displayed s) {e : Event} {reply : Reply}
    (hs : s.eventSparesLine e = true) (hr : s.handle e = some reply)
    (ht : reply.session.isTyping = true) : Displayed reply.session := by
  have accepted {x : Option Session} (hx : ∀ s', x = some s' → s'.isTyping = true → Displayed s')
      (he : x.map Reply.accepted = some reply) : Displayed reply.session := by
    obtain ⟨s', hs', rfl⟩ := Option.map_eq_some_iff.1 he
    exact hx s' hs' ht
  cases e with
  | keyPress field key => exact accepted (fun _ => displayed_keyPress hk) hr
  | keyRelease field key => exact accepted (fun _ => h.keyRelease hk hs) hr
  | setLine t => exact accepted (fun _ => displayed_edit hk) hr
  | inject t => exact accepted (fun _ => displayed_edit hk) hr
  | append t => exact accepted (fun _ => displayed_edit hk) hr
  | backspace => exact accepted (fun _ => displayed_edit? hk h) hr
  | delete => exact accepted (fun _ => displayed_edit? hk h) hr
  | stripWord seps => exact accepted (fun _ => displayed_edit? hk h) hr
  | submit => exact accepted (fun _ he _ => displayed_submit he) hr
  | moveCursor target => exact accepted (fun _ => displayed_edit hk) hr
  | historyPrev => exact accepted (fun _ => h.showHistory hk) hr
  | historyNext => exact accepted (fun _ => h.showHistory hk) hr
  | historySearch key => exact accepted (fun _ => h.showHistory hk) hr
  | startCompletion => exact accepted (fun _ => h.startCompletion hk) hr
  | clearLine => cases hr; exact (cleared_clearLine s).displayed
  | stopCompletion => cases hr; exact h.of_sameLine (.stopCompletion s)
  | builtins names => cases hr; exact h.of_sameLine ⟨rfl, rfl, rfl⟩
  | modmap source target => cases hr; exact h.addModmap source target
  | ignoreKey rule => cases hr; exact h.addIgnore rule
  | bind line => cases hr; exact h.define _
  | modeBind line => cases hr; exact h.define _
  | modeConfig mode name value =>
    cases hr
    exact h.withVariable (h.direct (e := .modeConfig mode name value) hs rfl) name
  | modeChanged mode => cases hr; exact h.direct (e := .modeChanged mode) hs rfl
  | variableSet name value =>
    cases hr
    exact h.withVariable (h.direct (e := .variableSet name value) hs rfl) name

/-- Binds that are added and effects that are handed out write no variable. -/
def requestSparesLine (s : Session) : Request → Bool
  | .event e => s.eventSparesLine e
  | _ => true

/-- Holds when the display of the line is on after each request and nobody else changes what is
shown. -/
def undisturbed : Session → List Request → Bool
  | _, [] => true
  | s, r :: rs =>
    s.requestSparesLine r && (s.serve r).all fun s' => s'.isTyping && s'.undisturbed rs

theorem Displayed.serve (hk : s.keymap.Reachable) (h : Displayed s) {r : Request}
    (hs : s.requestSparesLine r = true) (hr : s.serve r = some s') (ht : s'.isTyping = true) :
    Displayed s' := by
  cases r with
  | event e =>
    obtain ⟨reply, hreply, rfl⟩ := Option.map_eq_some_iff.1 hr
    exact h.handle hk hs hreply ht
  | bind mode b =>
    cases hr
    exact h.of_sameLine ⟨rfl, rfl, rfl⟩
  | drain =>
    cases hr
    exact h.of_sameLine ⟨rfl, rfl, rfl⟩

theorem Displayed.serveAll (hk : s.keymap.Reachable) (h : Displayed s) {rs : List Request}
    (hu : s.undisturbed rs = true) (hs : s.serveAll rs = some s') : Displayed s' := by
  induction rs generalizing s with
  | nil => cases hs; exact h
  | cons r rs ih =>
    obtain ⟨next, hn, hrest⟩ := Option.bind_eq_some_iff.1 hs
    rw [undisturbed, hn, Option.all_some, Bool.and_eq_true, Bool.and_eq_true] at hu
    obtain ⟨hr, ht, hu'⟩ := hu
    have hk' : next.keymap.Reachable := reachable_invariant.serve hk
      (fun _ _ _ he => (writes_direct he).reachable hk) hn
    exact ih hk' (h.serve hk hr hn ht) hu' hrest

end Events

/-- A session starts without input. -/
theorem input_start (settings : Settings) (r : Registry) : (start settings r).input = .empty := by
  have hk : (start settings r).keyboard = _ :=
    (unwritten_keyboard.setMode _ []).trans ((unwritten_keyboard.assignAll _ settings.vars).trans
      (unwritten_keyboard.configureAll _ settings.modeConfig))
  refine (congrArg Keyboard.input hk).trans ?_
  have empty : Keyboard.empty.input = .empty := rfl
  refine List.foldlRecOn (motive := fun t : Keyboard => t.input = .empty) settings.ignoreKeys _
    (List.foldlRecOn (motive := fun t : Keyboard => t.input = .empty) settings.modmaps _ empty
      fun t ht modmap _ => ?_) fun t ht rule _ => ?_
  · dsimp only
    split
    · next hm => exact (Keyboard.input_addModmap hm).trans ht
    · exact ht
  · split
    · next hm => exact (Keyboard.input_addIgnore hm).trans ht
    · exact ht

theorem line_start (settings : Settings) (r : Registry) : (start settings r).input.line = [] := by
  rw [input_start]
  rfl

/-- As long as the display of the line is on and nobody else changes what is shown, the host shows
the line with the cursor in it after every request, and nothing for an empty line. -/
theorem line_displayed {settings : Settings} (es : List Registry.Edit) {rs : List Request}
    {s : Session} (h : (start settings (Registry.empty.editAll es)).vars.get? lineName = none)
    (hu : (start settings (Registry.empty.editAll es)).undisturbed rs = true)
    (hs : (start settings (Registry.empty.editAll es)).serveAll rs = some s) :
    (s.input.line = [] → s.vars.get? lineName = none) ∧
      (s.input.line ≠ [] → s.vars.get? lineName = some s.input.markup) := by
  have hd : Displayed s :=
    (Cleared.displayed ⟨line_start settings _, h⟩).serveAll (reachable_start settings es) hu hs
  exact ⟨fun he => hd.trans (if_pos he), fun hne => hd.trans (if_neg hne)⟩

/-- A chord that is submitted shows a prompt, which fills in the line. -/
theorem line_displayed_after_preset :
    ∃ s, (start .initial (Registry.empty.editAll [])).serveAll
        [.event (.modeBind "command <Ctrl>x!<uri:http://>_ = uri %s".toList),
          .event (.setLine "ab".toList), .event (.keyPress "Control".toList ['x']),
          .event (.keyPress [] "Control".toList),
          .event (.keyRelease [] "Control".toList)] = some s ∧
      s.input.line = "http://".toList ∧ s.vars.get? lineName = some s.input.markup := by
  have hline : ((start .initial (Registry.empty.editAll [])).serveAll
      [.event (.modeBind "command <Ctrl>x!<uri:http://>_ = uri %s".toList),
        .event (.setLine "ab".toList), .event (.keyPress "Control".toList ['x']),
        .event (.keyPress [] "Control".toList), .event (.keyRelease [] "Control".toList)]).map
          (·.input.line) = some "http://".toList := by decide +kernel
  obtain ⟨s, hs, hl⟩ := Option.map_eq_some_iff.1 hline
  have hd := line_displayed [] (by decide +kernel) (by decide +kernel) hs
  exact ⟨s, hs, hl, hd.2 (by rw [hl]; decide)⟩

end Session

end ModalKeys
