import ModalKeys.Proofs.Session.Display
import ModalKeys.Proofs.Session.Nesting

namespace ModalKeys

/-- Holds when a prompt of the bind fills in the line. -/
def Bind.fillsLine (b : Bind) : Bool :=
  b.pattern.prompts.any fun p => (Reaction.prompt p).fillsLine

/-- Holds of presses and releases. -/
def Event.isKey : Event → Bool
  | .keyPress .. | .keyRelease .. => true
  | _ => false

namespace Keymap.Outcome

variable {k : Keymap} {mode : Text} {note : Notification} {text : Text} {reactions : List Reaction}
  {stack : Stack} (ho : k.Outcome mode note text reactions stack)

include ho

/-- If no candidate has a prompt that fills in the line, it is not filled in. -/
theorem fillsLine_eq_false (hc : ∀ b ∈ k.candidates mode, b.fillsLine = false) :
    reactions.any (·.fillsLine) = false := by
  cases ho with
  | idle | unwound | live | completed => rfl
  | alone =>
    unfold Fit.runAlone
    split <;> rfl
  | @moved fit later fitted more =>
    have hfit : fit.bind.fillsLine = false := hc _ (fitted.mem_candidates List.mem_cons_self)
    have hprompt : ((fit.bind.prompt? (k.stack.depth + 1)).toList.map Reaction.prompt).any
        (·.fillsLine) = false := by
      rw [List.any_eq_false]
      intro r hr
      obtain ⟨p, hp, rfl⟩ := List.mem_map.1 hr
      have hmem : p ∈ fit.bind.pattern.prompts := List.mem_of_getElem? (Option.mem_toList.1 hp)
      exact List.any_eq_false.1 hfit p hmem
    rw [List.any_append, List.any_append, hprompt]
    split <;> split <;> rfl

end Keymap.Outcome

namespace Session

/-- Holds when no bind has a prompt that fills in the line. -/
def Unfilled (s : Session) : Prop := ∀ b ∈ s.allBinds, b.fillsLine = false

/-- Holds when the line is left as it was or empty, with no further binds. -/
structure Shrinks (s s' : Session) : Prop where
  line : s'.input.line = s.input.line ∨ s'.input.line = []
  binds : s'.allBinds ⊆ s.allBinds
  reachable : s'.keymap.Reachable

section Shrinks

variable {s s' s'' : Session} {note : Notification} {text : Text}

theorem Unfilled.of_shrinks (h : s.Unfilled) (hs : s.Shrinks s') : s'.Unfilled :=
  fun b hb => h b (hs.binds hb)

theorem Shrinks.trans (h : s.Shrinks s') (h' : s'.Shrinks s'') : s.Shrinks s'' := by
  refine ⟨?_, List.Subset.trans h'.binds h.binds, h'.reachable⟩
  rcases h'.line with hl | hl
  · rw [hl]
    exact h.line
  · exact .inr hl

theorem Shrinks.of_frame (hk : s.keymap.Reachable) (hl : s'.input.line = s.input.line)
    (hf : Frame (· ∈ displayNames) s s') : s.Shrinks s' where
  line := .inl hl
  binds := by
    rw [allBinds, hf.keymap]
    exact List.Subset.refl _
  reachable := by
    rw [hf.keymap]
    exact hk

theorem Unfilled.fillsLine_eq_false (h : s.Unfilled) (hk : s.keymap.Reachable) :
    s.fillsLine note text = false :=
  (Keymap.step_outcome hk.sound s.mode note text).fillsLine_eq_false fun b hb =>
    h b (mem_allBinds_of_candidates hk hb)

theorem Unfilled.turn (h : s.Unfilled) (hk : s.keymap.Reachable) (note : Notification) (text : Text) :
    s.Shrinks (s.turn note text) where
  line := line_foldl_follow (not_fillsLine (by simp [h.fillsLine_eq_false hk])) _
  binds := allBinds_turn hk
  reachable := reachable_turn hk note text

theorem Shrinks.refresh (hk : s.keymap.Reachable) (m : Modifiers) (old : Input) :
    s.Shrinks (s.refresh m old) :=
  .of_frame hk (congrArg (·.keyboard.input.line) (core_refresh s m old)) (frame_refresh s m old)

theorem Shrinks.clearChord (hk : s.keymap.Reachable) : s.Shrinks s.clearChord :=
  .of_frame hk (congrArg (·.keyboard.input.line) (core_clearChord s)) (frame_clearChord s)

theorem Unfilled.update (h : s.Unfilled) (hk : s.keymap.Reachable) (m : Modifiers) :
    ∃ s', s.update m = some s' ∧ s.Shrinks s' := by
  obtain ⟨limit, -, hu⟩ := s.update_eq m
  have hd : (s.onChange m).session = s := s.session_onChange m
  have hturn := h.turn hk (s.onChange m).note (s.onChange m).text
  have hrun : (s.onChange m).run limit =
      some (s.turn (s.onChange m).note (s.onChange m).text) := by
    rw [Dispatch.run, hd, dispatch_eq hk.sound, h.fillsLine_eq_false hk]
    rfl
  rw [hu, hrun]
  exact ⟨_, rfl, hturn.trans (.refresh hturn.reachable m s.input)⟩

theorem Unfilled.notify (h : s.Unfilled) (hk : s.keymap.Reachable) (note : Notification)
    (text : Text) : s.notify note text = some (s.turn note text) := by
  rw [Session.notify, dispatch_eq hk.sound, h.fillsLine_eq_false hk]
  rfl

end Shrinks

section Keys

variable {s : Session} (h : s.Unfilled) (hk : s.keymap.Reachable) (field key : Text)

include h hk

theorem Unfilled.keyPress : ∃ s', s.keyPress field key = some s' ∧
    Shrinks { s with keyboard := (s.keyboard.press field key s.isTyping).2 } s' := by
  unfold Session.keyPress
  generalize s.keyboard.press field key s.isTyping = pressed
  obtain ⟨press, keyboard⟩ := pressed
  cases press with
  | update m => exact Unfilled.update (s := { s with keyboard }) h hk m
  | cleared =>
    refine ⟨_, rfl, .of_frame hk ?_ (frame_display (by decide) _ _)⟩
    exact congrArg (·.input.line) (keyboard_assign { s with keyboard } lineName [])

theorem Unfilled.keyRelease : ∃ s', s.keyRelease field key = some s' ∧ s.Shrinks s' := by
  have hline := (sameLine_keyboard_release s field key).line_eq
  unfold Session.keyRelease
  generalize s.keyboard.release field key = released at hline ⊢
  obtain ⟨release, keyboard⟩ := released
  have hs : s.Shrinks { s with keyboard } := .of_frame hk hline (frame_keyboard s keyboard)
  cases release with
  | printable => exact ⟨_, rfl, hs⟩
  | named exec =>
    cases exec with
    | none => exact ⟨_, rfl, hs.trans (.clearChord hk)⟩
    | some m =>
      have hn := Unfilled.notify (s := { s with keyboard }) h hk (.chordExec m)
        keyboard.input.chordText
      have ht := Unfilled.turn (s := { s with keyboard }) h hk (.chordExec m)
        keyboard.input.chordText
      refine ⟨_, congrArg (Option.map Session.clearChord) hn, ?_⟩
      exact (hs.trans ht).trans (.clearChord ht.reachable)

end Keys

/-- Holds of a press of the blank while no chord is active. -/
def insertsBlank (s : Session) : Event → Bool
  | .keyPress field key =>
    !s.keyboard.chorded field && Keyboard.isSpace (s.keyboard.mapKey key)
  | _ => false

/-- What a key types while no chord is active. -/
def typed? (s : Session) : Event → Option Text
  | .keyPress field key => if s.keyboard.chorded field then none else s.keyboard.types? key
  | _ => none

section Off

variable {s s' : Session} {e : Event}

theorem Unfilled.serve (h : s.Unfilled) (hk : s.keymap.Reachable) (he : e.isKey = true) :
    ∃ s', s.serve (.event e) = some s' ∧ s'.Unfilled ∧ s'.keymap.Reachable := by
  cases e with
  | keyPress field key =>
    obtain ⟨s', hs', hshrinks⟩ := h.keyPress hk field key
    refine ⟨s', ?_, fun b hb => h b (hshrinks.binds hb), hshrinks.reachable⟩
    rw [Session.serve, handle, map_session_accepted, hs']
  | keyRelease field key =>
    obtain ⟨s', hs', hshrinks⟩ := h.keyRelease hk field key
    refine ⟨s', ?_, h.of_shrinks hshrinks, hshrinks.reachable⟩
    rw [Session.serve, handle, map_session_accepted, hs']
  | _ => cases he

/-- Where no prompt fills in the line, key events always have a result. -/
theorem Unfilled.serveAll {es : List Event} (h : s.Unfilled) (hk : s.keymap.Reachable)
    (hes : ∀ e ∈ es, e.isKey = true) :
    ∃ s', s.serveAll (es.map .event) = some s' ∧ s'.Unfilled ∧ s'.keymap.Reachable := by
  induction es generalizing s with
  | nil => exact ⟨s, rfl, h, hk⟩
  | cons e es ih =>
    obtain ⟨next, hn, hu, hk'⟩ := h.serve hk (hes e List.mem_cons_self)
    obtain ⟨s', hs', hend⟩ := ih hu hk' fun e he => hes e (List.mem_cons_of_mem _ he)
    exact ⟨s', Option.bind_eq_some_iff.2 ⟨next, hn, hs'⟩, hend⟩

/-- While typing is off, a press adds nothing to the line unless it is one of the blank. -/
theorem line_press_off {k : Keyboard} {field key : Text}
    (h : (!k.chorded field && Keyboard.isSpace (k.mapKey key)) = false) :
    (k.press field key false).2.input.line = k.input.line ∨
      (k.press field key false).2.input.line = [] := by
  have hp := k.pressed field key false
  generalize k.press field key false = pressed at hp ⊢
  cases hp with
  | blank plain blank => simp [plain, blank] at h
  | cleared => exact .inr rfl
  | chord | ignored | held => exact .inl rfl

/-- A key that would type a character clears the line, and that is all. -/
theorem keyPress_off {field key text : Text} (hoff : s.isTyping = false)
    (hplain : s.keyboard.chorded field = false)
    (hsolid : Keyboard.isSpace (s.keyboard.mapKey key) = false)
    (htypes : s.keyboard.types? key = some text) :
    ∃ s', s.keyPress field key = some s' ∧ s'.input.line = [] ∧ s'.ran = s.ran ∧ s'.sent = s.sent := by
  let keyboard : Keyboard := { s.keyboard with input := (s.keyboard.ready field).clearLine }
  let cleared : Session := { s with keyboard }
  have hframe : Frame (· ∈ displayNames) cleared (cleared.assign lineName []) :=
    frame_display (by decide) cleared []
  refine ⟨cleared.assign lineName [], ?_, ?_, hframe.ran, sent_assign cleared lineName []⟩
  · unfold keyPress
    rw [hoff, Keyboard.press_of_solid hplain hsolid htypes]
    rfl
  · exact congrArg (·.input.line) (keyboard_assign cleared lineName [])

/-- The blank is inserted with typing on or off. -/
theorem serve_blank {field key : Text} (h : s.insertsBlank (.keyPress field key) = true) :
    s.serve (.event (.keyPress field key)) =
      (s.withInput ({ s.input with chording := false }.insert [' '])).update
        (s.keyboard.modifiers field) := by
  obtain ⟨hplain, hblank⟩ := Bool.and_eq_true_iff.1 h
  have hplain : s.keyboard.chorded field = false := by simpa using hplain
  rw [Session.serve, handle, map_session_accepted, Session.keyPress,
    Keyboard.press_of_blank hplain hblank, Keyboard.ready_of_plain hplain]
  rfl

theorem Unfilled.serve_off (h : s.Unfilled) (hk : s.keymap.Reachable) (he : e.isKey = true)
    (hoff : s.isTyping = false) (hsolid : s.insertsBlank e = false) :
    ∃ s', s.serve (.event e) = some s' ∧ (s'.input.line = s.input.line ∨ s'.input.line = []) ∧
      (s.typed? e ≠ none → s'.input.line = [] ∧ s'.ran = s.ran ∧ s'.sent = s.sent) := by
  cases e with
  | keyPress field key =>
    have hserve : s.serve (.event (.keyPress field key)) = s.keyPress field key := by
      rw [Session.serve, handle, map_session_accepted]
    rw [hserve]
    cases htyped : s.typed? (.keyPress field key) with
    | some text =>
      have hplain : s.keyboard.chorded field = false := by
        by_contra hchorded
        rw [typed?, if_pos (by simpa using hchorded)] at htyped
        cases htyped
      rw [typed?, hplain, if_neg Bool.false_ne_true] at htyped
      rw [insertsBlank, hplain, Bool.not_false, Bool.true_and] at hsolid
      obtain ⟨s', hs', hline, hrest⟩ := keyPress_off hoff hplain hsolid htyped
      exact ⟨s', hs', .inr hline, fun _ => ⟨hline, hrest⟩⟩
    | none =>
      obtain ⟨s', hs', hshrinks⟩ := h.keyPress hk field key
      refine ⟨s', hs', ?_, fun hne => absurd rfl hne⟩
      rw [hoff] at hshrinks
      rcases hshrinks.line with hl | hl
      · rw [hl]
        exact line_press_off hsolid
      · exact .inr hl
  | keyRelease field key =>
    obtain ⟨s', hs', hshrinks⟩ := h.keyRelease hk field key
    refine ⟨s', ?_, hshrinks.line, fun hne => absurd rfl hne⟩
    rw [Session.serve, handle, map_session_accepted, hs']
  | _ => cases he

end Off

/-- Where no prompt fills in the line, any key events have a result, and while typing is off none of
them adds to the line, apart from the blank without a chord. A key that would type a character
leaves the line empty and runs no bind. The blank is inserted and matched as with typing on. -/
theorem typing_off {s : Session} (hk : s.keymap.Reachable) (h : s.Unfilled) {es : List Event}
    (hes : ∀ e ∈ es, e.isKey = true) :
    (∃ s', s.serveAll (es.map .event) = some s') ∧
    ∀ earlier e later t, es = earlier ++ e :: later →
      s.serveAll (earlier.map .event) = some t → t.isTyping = false →
      (t.insertsBlank e = false → ∃ t', t.serve (.event e) = some t' ∧
        (t'.input.line = t.input.line ∨ t'.input.line = []) ∧
        (t.typed? e ≠ none → t'.input.line = [] ∧ t'.ran = t.ran ∧ t'.sent = t.sent)) ∧
      (t.insertsBlank e = true → ∃ m, t.serve (.event e) =
        (t.withInput ({ t.input with chording := false }.insert [' '])).update m) := by
  constructor
  · obtain ⟨s', hs', -⟩ := h.serveAll hk hes
    exact ⟨s', hs'⟩
  · rintro earlier e later t rfl ht hoff
    have he : e.isKey = true := hes e (by simp)
    obtain ⟨t', ht', hu, hk'⟩ := h.serveAll hk fun e he => hes e (List.mem_append_left _ he)
    obtain rfl : t' = t := Option.some.inj (ht'.symm.trans ht)
    refine ⟨hu.serve_off hk' he hoff, fun hblank => ?_⟩
    cases e with
    | keyPress field key => exact ⟨_, serve_blank hblank⟩
    | _ => cases hblank

/-- Requests that bind a chord, type a line and turn typing off. -/
def silencedRequests : List Request :=
  [.event (.modeBind "command <Ctrl>x = cut".toList), .event (.setLine "ab".toList),
    .event (.variableSet typingName ['0'])]

/-- The keys of the chord, and then a character. -/
def chordThenCharacter : List Event :=
  [.keyPress [] "Control_L".toList, .keyPress [] ['x'], .keyRelease [] "Control_L".toList]

/-- The chord runs its bind, and the character after it clears the line. -/
theorem typing_off_character :
    ∃ s t t', (start .initial (Registry.empty.editAll [])).serveAll silencedRequests = some s ∧
      s.serveAll (chordThenCharacter.map .event) = some t ∧ t.isTyping = false ∧
      t.input.line = "ab".toList ∧ t.sent = ["cut".toList] ∧
      t.serve (.event (.keyPress [] ['c'])) = some t' ∧ t'.input.line = [] ∧ t'.ran = t.ran := by
  have hview : ((start .initial (Registry.empty.editAll [])).serveAll silencedRequests).any (fun s =>
      s.allBinds.all (!·.fillsLine) && (s.serveAll (chordThenCharacter.map .event)).any fun t =>
        !t.isTyping && (t.input.line = "ab".toList ∧ t.sent = ["cut".toList] : Bool) &&
          !t.insertsBlank (.keyPress [] ['c']) && (t.typed? (.keyPress [] ['c'])).isSome) = true := by
    decide +kernel
  obtain ⟨s, hs, hview⟩ := (Option.any_eq_true _ _).1 hview
  obtain ⟨hbinds, hview⟩ := Bool.and_eq_true_iff.1 hview
  obtain ⟨t, ht, hview⟩ := (Option.any_eq_true _ _).1 hview
  obtain ⟨hview, htyped⟩ := Bool.and_eq_true_iff.1 hview
  obtain ⟨hview, hsolid⟩ := Bool.and_eq_true_iff.1 hview
  obtain ⟨hoff, hview⟩ := Bool.and_eq_true_iff.1 hview
  obtain ⟨hline, hsent⟩ := of_decide_eq_true hview
  have hoff : t.isTyping = false := by simpa using hoff
  have hsolid : t.insertsBlank (.keyPress [] ['c']) = false := by simpa using hsolid
  have hunfilled : s.Unfilled := fun b hb => by simpa using List.all_eq_true.1 hbinds b hb
  have hkeys : ∀ e ∈ chordThenCharacter ++ [.keyPress [] ['c']], e.isKey = true := by decide
  obtain ⟨-, hall⟩ := typing_off (reachable_serveAll _ [] _ hs) hunfilled hkeys
  obtain ⟨hother, -⟩ := hall chordThenCharacter (.keyPress [] ['c']) [] t rfl ht hoff
  obtain ⟨t', ht', -, hcleared⟩ := hother hsolid
  obtain ⟨hempty, hran, -⟩ := hcleared (Option.isSome_iff_ne_none.1 htyped)
  exact ⟨s, t, t', hs, ht, hoff, hline, hsent, ht', hempty, hran⟩

/-- The blank is added to the line although typing is off. -/
theorem typing_off_blank :
    ∃ s s', (start .initial (Registry.empty.editAll [])).serveAll
        [.event (.variableSet typingName ['0'])] = some s ∧
      s.isTyping = false ∧ s.allBinds = [] ∧ s.input.line = [] ∧
      s.keyPress [] "space".toList = some s' ∧ s'.input.chording = false ∧
      s'.input.line = [' '] := by
  have hview : ((start .initial (Registry.empty.editAll [])).serveAll
      [.event (.variableSet typingName ['0'])]).any (fun s => !s.isTyping && s.allBinds.isEmpty &&
        s.input.line.isEmpty && (s.keyPress [] "space".toList).any fun s' =>
          (s'.input.chording = false ∧ s'.input.line = [' '] : Bool)) = true := by decide +kernel
  obtain ⟨s, hs, hview⟩ := (Option.any_eq_true _ _).1 hview
  obtain ⟨hview, hnext⟩ := Bool.and_eq_true_iff.1 hview
  obtain ⟨hview, hline⟩ := Bool.and_eq_true_iff.1 hview
  obtain ⟨hoff, hbinds⟩ := Bool.and_eq_true_iff.1 hview
  obtain ⟨s', hs', hnext⟩ := (Option.any_eq_true _ _).1 hnext
  obtain ⟨hover, hblank⟩ := of_decide_eq_true hnext
  exact ⟨s, s', hs, by simpa using hoff, List.isEmpty_iff.1 hbinds, List.isEmpty_iff.1 hline, hs',
    hover, hblank⟩

end Session

end ModalKeys
