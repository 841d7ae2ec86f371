import ModalKeys.Proofs.Keymap.Reachable

namespace ModalKeys

/-- Holds when the segment of a bind at a depth captures. -/
def Bind.captures (b : Bind) (depth : Nat) : Bool :=
  (b.segment? depth).any (·.trigger.captures)

namespace Keymap

/-- Holds when a bind is run without what is on the stack. -/
def runsAlone (k : Keymap) (b : Bind) : Bool := k.stack.depth = 0 || b.isGlobal

/-- The arguments of a bind once its segment at the depth of the stack has matched a text. -/
def argsOf (k : Keymap) (b : Bind) (text : Text) : List Text :=
  if k.runsAlone b then b.captured k.stack.depth text
  else k.stack.args ++ b.captured k.stack.depth text

/-- Holds when the run of a bind on the stack is its last. -/
def runsOut (k : Keymap) (b : Bind) (note : Notification) : Bool :=
  note.exec || !b.captures k.stack.depth

/-- What follows the run of a bind whose last segment fits. -/
def closing (k : Keymap) (b : Bind) (note : Notification) : List Reaction :=
  if k.runsAlone b then (if b.captures k.stack.depth then [] else [.clearActive])
  else if k.runsOut b note then [.leaveStack k.stack.lastMode]
  else []

/-- The keymap after the run of a bind whose last segment fits. -/
def closed (k : Keymap) (mode : Text) (note : Notification) (text : Text) (b : Bind) : Keymap :=
  if k.runsAlone b then k
  else if k.runsOut b note then k.reset
  else { k with stack := k.kept mode note text }

/-- What is asked for ahead of the prompt of a bind that goes on. -/
def opening (k : Keymap) (mode text : Text) (b : Bind) : List Reaction :=
  (if mode = stackMode then [] else [.enterStack]) ++
    if Stack.liveNext b (k.stack.depth + 1)
      then [.run b (k.stack.args ++ b.captured k.stack.depth text ++ [[]])] else []

section Fitted

variable {k : Keymap} {mode : Text} {note : Notification} {text : Text} {fit : Fit}
  {later : List Bind} (hf : k.Fitted mode note text fit later)

include hf

theorem Fitted.goesOn_eq : fit.bind.goesOn k.stack.depth = fit.segment.more :=
  (Bind.more_eq hf.segment).symm

theorem Fitted.captured_eq : fit.bind.captured k.stack.depth text = fit.captured := by
  simp [Bind.captured, hf.segment, hf.captured]

theorem Fitted.captures_eq : fit.bind.captures k.stack.depth = fit.segment.trigger.captures := by
  simp [Bind.captures, hf.segment]

/-- The bind of a fit runs out unless its trigger is live, for the trigger hears the
notification. -/
theorem Fitted.runsOut_eq : k.runsOut fit.bind note = decide (fit.segment.trigger ≠ .live) := by
  have hx : fit.segment.trigger.onExec = note.exec := (of_decide_eq_true hf.fits).2.1
  rw [runsOut, hf.captures_eq, ← hx]
  cases fit.segment.trigger <;> rfl

end Fitted

namespace Outcome

variable {k : Keymap} {mode : Text} {note : Notification} {text : Text}
  {reactions : List Reaction} {stack : Stack} (ho : k.Outcome mode note text reactions stack)

include ho

theorem of_no_match (h : k.matching mode note text = []) :
    ∀ r ∈ reactions, ∃ restore, r = .leaveStack restore := by
  intro r hr
  cases ho with
  | idle unmatched stays => cases hr
  | unwound unmatched stacked ends => exact ⟨_, List.mem_singleton.1 hr⟩
  | alone fitted last free => rw [fitted.matching] at h; cases h
  | live fitted last bound stacked trigger => rw [fitted.matching] at h; cases h
  | completed fitted last bound stacked trigger => rw [fitted.matching] at h; cases h
  | moved fitted more => rw [fitted.matching] at h; cases h

theorem of_last {b : Bind} {later : List Bind} (h : k.matching mode note text = b :: later)
    (hl : b.goesOn k.stack.depth = false) :
    reactions = .run b (k.argsOf b text) :: k.closing b note ∧
      { k with stack } = k.closed mode note text b := by
  cases ho with
  | idle unmatched stays => rw [unmatched] at h; cases h
  | unwound unmatched stacked ends => rw [unmatched] at h; cases h
  | @alone fit _ fitted last free =>
    obtain ⟨rfl, -⟩ := List.cons.inj (fitted.matching.symm.trans h)
    have ha : k.runsAlone fit.bind = true := by
      rcases free with hg | h0
      · simp [runsAlone, hg]
      · simp [runsAlone, h0]
    simp [argsOf, closing, closed, ha, fitted.captured_eq, fitted.captures_eq, Fit.runAlone]
  | @live fit _ fitted last bound stacked trigger =>
    obtain ⟨rfl, -⟩ := List.cons.inj (fitted.matching.symm.trans h)
    have ha : k.runsAlone fit.bind = false := by simp [runsAlone, bound, stacked]
    have ho : k.runsOut fit.bind note = false := by simp [fitted.runsOut_eq, trigger]
    simp [argsOf, closing, closed, ha, ho, fitted.captured_eq]
  | @completed fit _ fitted last bound stacked trigger =>
    obtain ⟨rfl, -⟩ := List.cons.inj (fitted.matching.symm.trans h)
    have ha : k.runsAlone fit.bind = false := by simp [runsAlone, bound, stacked]
    have ho : k.runsOut fit.bind note = true := by simp [fitted.runsOut_eq, trigger]
    simp [argsOf, closing, closed, ha, ho, fitted.captured_eq, reset]
  | @moved fit _ fitted more =>
    obtain ⟨rfl, -⟩ := List.cons.inj (fitted.matching.symm.trans h)
    rw [fitted.goesOn_eq, more] at hl
    cases hl

theorem of_more {b : Bind} {later : List Bind} (h : k.matching mode note text = b :: later)
    (hl : b.goesOn k.stack.depth = true) :
    ∃ prompt, b.prompt? (k.stack.depth + 1) = some prompt ∧
      reactions = k.opening mode text b ++ [.prompt prompt] ∧
      stack = ⟨k.stack.depth + 1, k.stack.args ++ b.captured k.stack.depth text,
        (k.matching mode note text).filter (·.goesOn k.stack.depth), none, k.restored mode⟩ := by
  cases ho with
  | idle unmatched stays => rw [unmatched] at h; cases h
  | unwound unmatched stacked ends => rw [unmatched] at h; cases h
  | @alone fit _ fitted last free =>
    obtain ⟨rfl, -⟩ := List.cons.inj (fitted.matching.symm.trans h)
    rw [fitted.goesOn_eq, last] at hl
    cases hl
  | @live fit _ fitted last bound stacked trigger =>
    obtain ⟨rfl, -⟩ := List.cons.inj (fitted.matching.symm.trans h)
    rw [fitted.goesOn_eq, last] at hl
    cases hl
  | @completed fit _ fitted last bound stacked trigger =>
    obtain ⟨rfl, -⟩ := List.cons.inj (fitted.matching.symm.trans h)
    rw [fitted.goesOn_eq, last] at hl
    cases hl
  | @moved fit later' fitted more =>
    obtain ⟨rfl, rfl⟩ := List.cons.inj (fitted.matching.symm.trans h)
    have hp := Bind.prompt?_isSome (of_decide_eq_true hl)
    obtain ⟨prompt, hp⟩ := Option.isSome_iff_exists.1 hp
    refine ⟨prompt, hp, ?_, ?_⟩
    · by_cases hm : mode = stackMode <;> simp [opening, hm, hp, fitted.captured_eq]
    · simp [fitted.matching, hl, fitted.captured_eq]

end Outcome

/-- The rule of the first match. Without a candidate that fits a keymap can only leave its stack. A
first one without further segments is run, alone or with what is on the stack. Any other moves the
stack on, with all that fit and go on. -/
theorem respond_first_match (ops : List Operation) (mode : Text) (note : Notification)
    (text : Text) :
    let k := after ops
    let d := k.stack.depth
    let m := k.matching mode note text
    let (reactions, k') := k.respond mode note text
    (m = [] → ∀ r ∈ reactions, ∃ restore, r = .leaveStack restore) ∧
    (∀ b later, m = b :: later → b.goesOn d = false →
      reactions = .run b (k.argsOf b text) :: k.closing b note ∧
        k' = k.closed mode note text b) ∧
    (∀ b later, m = b :: later → b.goesOn d = true →
      ∃ prompt, b.prompt? (d + 1) = some prompt ∧
        reactions = k.opening mode text b ++ [.prompt prompt] ∧
        k'.stack = ⟨d + 1, k.stack.args ++ b.captured d text, m.filter (·.goesOn d), none,
          k.restored mode⟩) := by
  intro k d m
  have ho := step_outcome (sound_foldl_apply sound_empty ops) mode note text
  exact ⟨ho.of_no_match, fun b later => ho.of_last, fun b later => ho.of_more⟩

end Keymap

end ModalKeys
