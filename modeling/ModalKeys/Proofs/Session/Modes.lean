import ModalKeys.Proofs.Keymap.Reachable
import ModalKeys.Proofs.Session.Frame

namespace ModalKeys

/-- What the handler of a run asks for. A bind has no keyword arguments to refuse then. -/
def Run.effects (r : Run) : List Effect := (r.bind.effects r.args .empty).toOption.getD []

namespace Session

/-- The mode that a switch to a name leads to. -/
def target (s : Session) (mode : Text) : Text := if mode.isEmpty then s.defaultMode else mode

theorem target_of_ne_nil (s : Session) {mode : Text} (h : mode ≠ []) : s.target mode = mode := by
  simp [target, h]

/-- The session in a mode. In any mode but the stack mode nothing is in progress. -/
def inMode (s : Session) (mode : Text) : Session :=
  { s with
    vars := s.vars.set modeName mode
    keymap := if mode = stackMode then s.keymap else s.keymap.reset }

theorem mode_inMode (s : Session) (mode : Text) : (s.inMode mode).mode = mode := by
  have hv := Variables.get?_set s.vars modeName modeName mode
  rw [if_pos rfl] at hv
  change ((s.vars.set modeName mode).get? modeName).getD [] = mode
  rw [hv, Variables.assigned]
  cases mode <;> rfl

theorem keymap_inMode_of_ne (s : Session) {mode : Text} (h : mode ≠ stackMode) :
    (s.inMode mode).keymap = s.keymap.reset := if_neg h

theorem keymap_inMode_stackMode (s : Session) : (s.inMode stackMode).keymap = s.keymap := by
  simp [inMode]

/-- What follows the entry into a mode keeps the mode. -/
theorem frame_enteredMode (s : Session) (mode : Text) :
    Frame (· ≠ modeName) { s with keymap := if mode = stackMode then s.keymap else s.keymap.reset }
      (s.enteredMode mode) := by
  have ha : Frame (· ≠ modeName) s (s.assignAll ((s.modeConfig.get? mode).getD [])) :=
    frame_assignAll (fun _ _ _ hn => hn) s
  have hp (t : Session) : Frame (· ≠ modeName) t (t.assign promptName []) :=
    frame_assign (by decide) t []
  unfold enteredMode
  dsimp only
  split
  · exact ha
  · exact ha.reset.trans (hp _)

/-- Outside of the stack mode no prompt is left. -/
theorem prompt_enteredMode (s : Session) {mode : Text} (h : mode ≠ stackMode) :
    (s.enteredMode mode).vars.get? promptName = none := by
  unfold enteredMode
  rw [if_neg h, get?_assign, if_pos rfl]
  rfl

theorem setMode_of_eq {s : Session} {mode : Text} (h : s.mode = s.target mode) :
    s.setMode mode = s := if_pos h

theorem setMode_of_ne {s : Session} {mode : Text} (h : s.mode ≠ s.target mode) :
    s.setMode mode =
      ({ s with vars := s.vars.set modeName (s.target mode) }.emit
        (.set modeName (s.target mode))).enteredMode (s.target mode) := if_neg h

/-- A switch to another mode. -/
theorem frame_setMode {s : Session} {mode : Text} (h : s.mode ≠ s.target mode) :
    Frame (· ≠ modeName) (s.inMode (s.target mode)) (s.setMode mode) := by
  rw [setMode_of_ne h]
  have he := frame_enteredMode ({ s with vars := s.vars.set modeName (s.target mode) }.emit
    (.set modeName (s.target mode))) (s.target mode)
  exact ⟨he.keymap, he.defaultMode, he.modeConfig, he.ran, he.vars⟩

/-- A switch to another mode that the host has made. -/
theorem frame_modeChanged {s : Session} {mode : Text} (hn : mode ≠ []) (h : s.mode ≠ mode) :
    Frame (· ≠ modeName) (s.inMode mode) (s.modeChanged mode) := by
  unfold modeChanged
  rw [if_neg (by simp [hn, h])]
  exact frame_enteredMode { s with vars := s.vars.set modeName mode } mode

/-- After a switch the session is in the mode that it leads to. -/
theorem mode_setMode (s : Session) (mode : Text) : (s.setMode mode).mode = s.target mode := by
  by_cases h : s.mode = s.target mode
  · rw [setMode_of_eq h, h]
  · rw [(frame_setMode h).mode_eq (by simp), mode_inMode]

theorem modeChanged_of_eq {s : Session} {mode : Text} (h : mode = [] ∨ s.mode = mode) :
    s.modeChanged mode = s := if_pos (by simpa using h)

/-- The prompt is gone after a switch out of the stack mode. -/
theorem prompt_setMode {s : Session} {mode : Text} (h : s.target mode ≠ stackMode)
    (hm : s.mode ≠ s.target mode) : (s.setMode mode).vars.get? promptName = none := by
  rw [setMode_of_ne hm]
  exact prompt_enteredMode _ h

/-- Holds when `s'` comes from `s` by writes and configuration. They may end the bind in progress,
but run none. -/
structure Writes (s s' : Session) : Prop where
  keymap : s'.keymap = s.keymap ∨ s'.keymap = s.keymap.reset
  ran : s'.ran = s.ran

namespace Writes

variable {s s' s'' : Session}

theorem refl (s : Session) : Writes s s := ⟨.inl rfl, rfl⟩

theorem trans (h : Writes s s') (h' : Writes s' s'') : Writes s s'' := by
  refine ⟨?_, h'.ran.trans h.ran⟩
  rcases h.keymap with hk | hk <;> rcases h'.keymap with hk' | hk' <;> rw [hk', hk]
  · exact .inl rfl
  · exact .inr rfl
  · exact .inr rfl
  · exact .inr rfl

theorem of_frame {written : Text → Prop} (h : Frame written s s') : Writes s s' :=
  ⟨.inl h.keymap, h.ran⟩

theorem inMode (s : Session) (mode : Text) : Writes s (s.inMode mode) := by
  refine ⟨?_, rfl⟩
  unfold Session.inMode
  dsimp only
  split
  · exact .inl rfl
  · exact .inr rfl

theorem setMode (s : Session) (mode : Text) : Writes s (s.setMode mode) := by
  by_cases h : s.mode = s.target mode
  · rw [setMode_of_eq h]
    exact refl s
  · exact (inMode s _).trans (of_frame (frame_setMode h))

theorem modeChanged (s : Session) (mode : Text) : Writes s (s.modeChanged mode) := by
  by_cases h : mode = [] ∨ s.mode = mode
  · rw [modeChanged_of_eq h]
    exact refl s
  · obtain ⟨hn, hm⟩ := not_or.1 h
    exact (inMode s mode).trans (of_frame (frame_modeChanged hn hm))

theorem assign (s : Session) (name value : Text) : Writes s (s.assign name value) :=
  of_frame (frame_assign rfl s value : Frame (name = ·) s _)

theorem write (s : Session) (name value : Text) : Writes s (s.write name value) := by
  unfold Session.write
  split
  · exact setMode s value
  · exact assign s name value

theorem perform (s : Session) (e : Effect) : Writes s (s.perform e) := by
  cases e with
  | send command => exact of_frame (frame_send s command : Frame (· ∈ displayNames) _ _)
  | set name value => exact write s name value

theorem performAll (s : Session) (es : List Effect) : Writes s (s.performAll es) :=
  List.foldlRecOn es _ (refl s) fun t h e _ => h.trans (perform t e)

theorem configureMode (s : Session) (mode name value : Text) :
    Writes s (s.configureMode mode name value) := by
  have hc (config : Assoc (Assoc Text)) : Writes s { s with modeConfig := config } :=
    ⟨.inl rfl, rfl⟩
  unfold Session.configureMode
  dsimp only
  split
  · exact (hc _).trans (assign _ name value)
  · exact hc _

theorem variableSet (s : Session) (name value : Text) : Writes s (s.variableSet name value) := by
  have hset : Writes s { s with vars := s.vars.set name value } := ⟨.inl rfl, rfl⟩
  unfold Session.variableSet
  dsimp only
  split
  · split
    · exact hset.trans (setMode _ [])
    · exact modeChanged s value
  · split
    · split
      · exact hset
      · have hd : Writes s { s with vars := s.vars.set name value, defaultMode := value } :=
          ⟨.inl rfl, rfl⟩
        split
        · exact hd.trans (setMode _ [])
        · exact hd
    · exact hset.trans (of_frame (frame_noteVariable _ name value : Frame (· ∈ displayNames) _ _))

theorem reachable (h : Writes s s') (hk : s.keymap.Reachable) : s'.keymap.Reachable := by
  rcases h.keymap with h | h <;> rw [h]
  · exact hk
  · exact hk.reset

end Writes

/-- The session with runs at the end of its log. -/
def logged (s : Session) (rs : List Run) : Session := { s with ran := s.ran ++ rs }

theorem logged_nil (s : Session) : s.logged [] = s := by simp [logged]

theorem logged_append (s : Session) (rs rs' : List Run) :
    s.logged (rs ++ rs') = (s.logged rs).logged rs' := by simp [logged]

theorem Writes.logged {s s' : Session} (h : Writes s s') (rs : List Run) :
    Writes (s.logged rs) (s'.logged rs) :=
  ⟨h.keymap, congrArg (· ++ rs) h.ran⟩

/-- A run is logged, and then its handler writes what it likes. -/
theorem run_eq (s : Session) (b : Bind) (args : List Text) :
    s.run b args = (s.logged [⟨b, args⟩]).performAll (Run.effects ⟨b, args⟩) := by
  unfold run Run.effects
  dsimp only
  split
  · next he => rw [he]; rfl
  · next he => rw [he]; rfl

theorem writes_run (s : Session) (b : Bind) (args : List Text) :
    Writes (s.logged [⟨b, args⟩]) (s.run b args) := by
  rw [run_eq]
  exact Writes.performAll _ _

/-- A handler that does not write the mode writes nothing but what its effects name. -/
theorem frame_performAll {written : Text → Prop} {es : List Effect}
    (h : ∀ name value, .set name value ∈ es → name ≠ modeName ∧ written name) (s : Session) :
    Frame written s (s.performAll es) := by
  refine List.foldlRecOn es _ (Frame.refl s) fun t ht e he => ht.trans ?_
  cases e with
  | send command => exact frame_send t command
  | set name value =>
    obtain ⟨hn, hw⟩ := h name value he
    have hp : t.perform (.set name value) = t.assign name value := if_neg hn
    rw [hp]
    exact frame_assign hw t value

end Session

end ModalKeys
