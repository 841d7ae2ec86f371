import ModalKeys.Proofs.Session.Core

namespace ModalKeys.Session

/-- Holds of what depends on nothing but the input, the completion and the history, and not on what
of these is noted of a variable. -/
structure Unwritten {α : Type} (f : Session → α) : Prop where
  state : ∀ s vars keymap defaultMode modeConfig outbox ran,
    f { s with vars, keymap, defaultMode, modeConfig, outbox, ran } = f s
  noted : ∀ s name value, f (s.noteVariable name value) = f s

namespace Unwritten

variable {α : Type} {f : Session → α} (hf : Unwritten f) (s : Session)

include hf

theorem assign (name value : Text) : f (s.assign name value) = f s := by
  unfold Session.assign
  split
  · exact (hf.noted _ name value).trans (hf.state s _ _ _ _ _ _)
  · rfl

theorem assignAll (config : Assoc Text) : f (s.assignAll config) = f s := by
  refine List.foldlRecOn (motive := fun t : Session => f t = f s) config _ rfl fun t h entry _ => ?_
  by_cases hn : entry.1 = modeName
  · simpa [hn] using h
  · simpa [hn, hf.assign] using h

theorem enteredMode (mode : Text) : f (s.enteredMode mode) = f s := by
  unfold Session.enteredMode
  dsimp only
  split
  · exact hf.assignAll s _
  · rw [hf.assign]
    exact (hf.state _ _ _ _ _ _ _).trans (hf.assignAll s _)

theorem setMode (mode : Text) : f (s.setMode mode) = f s := by
  by_cases h : s.mode = s.target mode
  · rw [setMode_of_eq h]
  · rw [setMode_of_ne h]
    exact (hf.enteredMode _ _).trans (hf.state s _ _ _ _ _ _)

theorem perform (e : Effect) : f (s.perform e) = f s := by
  cases e with
  | send command => exact hf.state s _ _ _ _ _ _
  | set name value =>
    change f (s.write name value) = f s
    unfold write
    split
    · exact hf.setMode s value
    · exact hf.assign s name value

theorem run (b : Bind) (args : List Text) : f (s.run b args) = f s := by
  rw [run_eq]
  exact List.foldlRecOn (motive := fun t : Session => f t = f s) _ Session.perform
    (hf.state s _ _ _ _ _ _) fun t h e _ => (hf.perform t e).trans h

theorem configureMode (mode name value : Text) : f (s.configureMode mode name value) = f s := by
  unfold Session.configureMode
  dsimp only
  split
  · exact (hf.assign _ name value).trans (hf.state s _ _ _ _ _ _)
  · exact hf.state s _ _ _ _ _ _

theorem configureAll (config : Assoc (Assoc Text)) : f (s.configureAll config) = f s :=
  List.foldlRecOn (motive := fun t : Session => f t = f s) config _ rfl fun _ h entry _ =>
    List.foldlRecOn (motive := fun t : Session => f t = f s) entry.2 _ h fun t h var _ =>
      (hf.configureMode t entry.1 var.1 var.2).trans h

theorem modeChanged (mode : Text) : f (s.modeChanged mode) = f s := by
  unfold Session.modeChanged
  split
  · rfl
  · exact (hf.enteredMode _ mode).trans (hf.state s _ _ _ _ _ _)

theorem variableSet (name value : Text) : f (s.variableSet name value) = f s := by
  have hset := hf.state s (s.vars.set name value) s.keymap s.defaultMode s.modeConfig s.outbox s.ran
  unfold Session.variableSet
  dsimp only
  split
  · split
    · exact (hf.setMode _ []).trans hset
    · exact hf.modeChanged s value
  · split
    · split
      · exact hset
      · have hmode := hf.state s (s.vars.set name value) s.keymap value s.modeConfig s.outbox s.ran
        split
        · exact (hf.setMode _ []).trans hmode
        · exact hmode
    · exact (hf.noted _ name value).trans hset

theorem direct {s s' : Session} {e : Event} (h : s.direct? e = some s') : f s' = f s := by
  cases e <;> cases h
  · exact hf.configureMode s _ _ _
  · exact hf.modeChanged s _
  · exact hf.variableSet s _ _

end Unwritten

theorem unwritten_keyboard : Unwritten (·.keyboard) where
  state := fun _ _ _ _ _ _ _ => rfl
  noted := fun s name value => by
    unfold noteVariable
    dsimp only
    split <;> rfl

end ModalKeys.Session
