import ModalKeys.Session.Handle

namespace ModalKeys.Session

/-- The variables that only display the input. -/
def displayNames : List Text := [lineName, chordName, hintsName]

/-- Holds when `s'` differs from `s` at most in its input, its records, its effects and the
variables that `written` holds of. -/
structure Frame (written : Text → Prop) (s s' : Session) : Prop where
  keymap : s'.keymap = s.keymap
  defaultMode : s'.defaultMode = s.defaultMode
  modeConfig : s'.modeConfig = s.modeConfig
  ran : s'.ran = s.ran
  vars : ∀ name, ¬ written name → s'.vars.get? name = s.vars.get? name

namespace Frame

variable {written : Text → Prop} {s s' s'' : Session}

theorem refl (s : Session) : Frame written s s := ⟨rfl, rfl, rfl, rfl, fun _ _ => rfl⟩

theorem trans (h : Frame written s s') (h' : Frame written s' s'') : Frame written s s'' :=
  ⟨h'.keymap.trans h.keymap, h'.defaultMode.trans h.defaultMode,
    h'.modeConfig.trans h.modeConfig, h'.ran.trans h.ran,
    fun name hn => (h'.vars name hn).trans (h.vars name hn)⟩

theorem mono {more : Text → Prop} (h : Frame written s s')
    (hw : ∀ name, written name → more name) : Frame more s s' :=
  ⟨h.keymap, h.defaultMode, h.modeConfig, h.ran, fun name hn => h.vars name (mt (hw name) hn)⟩

theorem reset (h : Frame written s s') :
    Frame written { s with keymap := s.keymap.reset } { s' with keymap := s'.keymap.reset } :=
  ⟨congrArg Keymap.reset h.keymap, h.defaultMode, h.modeConfig, h.ran, h.vars⟩

theorem mode_eq (h : Frame written s s') (hm : ¬ written modeName) : s'.mode = s.mode := by
  simp only [mode, Variables.getD, h.vars modeName hm]

end Frame

/-- An assignment leaves its value. -/
theorem get?_assign (s : Session) (name value other : Text) :
    (s.assign name value).vars.get? other =
      if name = other then Variables.assigned value else s.vars.get? other := by
  rw [← Variables.get?_set]
  unfold assign
  cases hc : s.vars.changes name value with
  | true =>
    unfold noteVariable
    simp only [if_true]
    split <;> rfl
  | false => exact (Variables.set_of_not_changes hc other).symm

section Frame

variable {written : Text → Prop}

theorem frame_set {name : Text} (h : written name) (s : Session) (value : Text) :
    Frame written s { s with vars := s.vars.set name value } := by
  refine ⟨rfl, rfl, rfl, rfl, fun other ho => ?_⟩
  rw [Variables.get?_set, if_neg]
  rintro rfl
  exact ho h

theorem frame_emit (s : Session) (e : Effect) : Frame written s (s.emit e) :=
  ⟨rfl, rfl, rfl, rfl, fun _ _ => rfl⟩

theorem frame_noteVariable (s : Session) (name value : Text) :
    Frame written s (s.noteVariable name value) := by
  unfold noteVariable
  dsimp only
  split <;> exact ⟨rfl, rfl, rfl, rfl, fun _ _ => rfl⟩

theorem frame_assign {name : Text} (h : written name) (s : Session) (value : Text) :
    Frame written s (s.assign name value) := by
  unfold assign
  split
  · exact ((frame_set h s value).trans (frame_emit _ _)).trans (frame_noteVariable _ _ _)
  · exact Frame.refl s

theorem frame_assignAll {config : Assoc Text}
    (h : ∀ name value, (name, value) ∈ config → name ≠ modeName → written name) (s : Session) :
    Frame written s (s.assignAll config) := by
  induction config generalizing s with
  | nil => exact Frame.refl s
  | cons entry config ih =>
    obtain ⟨name, value⟩ := entry
    have ht := fun s => ih (fun n v hm => h n v (List.mem_cons_of_mem _ hm)) s
    change Frame written s
      ((if name = modeName then s else s.assign name value).assignAll config)
    by_cases hn : name = modeName
    · rw [if_pos hn]
      exact ht s
    · rw [if_neg hn]
      exact (frame_assign (h name value (by simp) hn) s value).trans (ht _)

theorem frame_withInput (s : Session) (i : Input) : Frame written s (s.withInput i) :=
  ⟨rfl, rfl, rfl, rfl, fun _ _ => rfl⟩

theorem frame_send (s : Session) (command : Text) : Frame written s (s.send command) :=
  frame_emit s (.send command)

theorem frame_drain (s : Session) : Frame written s s.drain.2 :=
  ⟨rfl, rfl, rfl, rfl, fun _ _ => rfl⟩

theorem frame_keyboard (s : Session) (k : Keyboard) : Frame written s { s with keyboard := k } :=
  ⟨rfl, rfl, rfl, rfl, fun _ _ => rfl⟩

theorem frame_history (s : Session) (h : History) : Frame written s { s with history := h } :=
  ⟨rfl, rfl, rfl, rfl, fun _ _ => rfl⟩

theorem frame_completion (s : Session) (c : Completion) :
    Frame written s { s with completion := c } :=
  ⟨rfl, rfl, rfl, rfl, fun _ _ => rfl⟩

end Frame

section Display

theorem frame_display {name : Text} (h : name ∈ displayNames) (s : Session) (value : Text) :
    Frame (· ∈ displayNames) s (s.assign name value) := frame_assign h s value

theorem frame_stopCompletion (s : Session) : Frame (· ∈ displayNames) s s.stopCompletion :=
  (frame_completion s _).trans (frame_display (by simp [displayNames]) _ _)

theorem frame_clearLine (s : Session) : Frame (· ∈ displayNames) s s.clearLine :=
  ((frame_keyboard s _).trans (frame_display (by simp [displayNames]) _ _)).trans
    (frame_stopCompletion _)

theorem frame_clearChord (s : Session) : Frame (· ∈ displayNames) s s.clearChord :=
  (frame_keyboard s _).trans (frame_display (by simp [displayNames]) _ _)

theorem frame_clearActive (s : Session) : Frame (· ∈ displayNames) s s.clearActive := by
  unfold clearActive
  split
  · exact frame_clearChord s
  · exact frame_clearLine s

theorem frame_refreshHints (s : Session) : Frame (· ∈ displayNames) s s.refreshHints := by
  unfold refreshHints
  split
  · exact frame_stopCompletion s
  · split
    · exact frame_display (by simp [displayNames]) s _
    · exact Frame.refl s

/-- Showing the chord comes to a write of its variable at most. -/
theorem showChord_cases (s : Session) (modifiers : Modifiers) (old : Input) :
    s.showChord modifiers old = s ∨
      ∃ value, s.showChord modifiers old = s.assign chordName value := by
  unfold showChord
  split
  · dsimp only
    split
    · exact .inr ⟨_, rfl⟩
    · split
      · exact .inr ⟨_, rfl⟩
      · exact .inl rfl
  · exact .inl rfl

/-- Showing the line comes to a write of its variable at most. -/
theorem showLine_cases (s : Session) (old : Input) :
    s.showLine old = s ∨ ∃ value, s.showLine old = s.assign lineName value := by
  unfold showLine
  split
  · split
    · exact .inr ⟨_, rfl⟩
    · split
      · exact .inr ⟨_, rfl⟩
      · exact .inl rfl
  · exact .inl rfl

theorem frame_showChord (s : Session) (modifiers : Modifiers) (old : Input) :
    Frame (· ∈ displayNames) s (s.showChord modifiers old) := by
  obtain h | ⟨value, h⟩ := s.showChord_cases modifiers old
  · rw [h]
    exact Frame.refl s
  · rw [h]
    exact frame_display (by simp [displayNames]) s value

theorem frame_showLine (s : Session) (old : Input) :
    Frame (· ∈ displayNames) s (s.showLine old) := by
  obtain h | ⟨value, h⟩ := s.showLine_cases old
  · rw [h]
    exact Frame.refl s
  · rw [h]
    exact frame_display (by simp [displayNames]) s value

/-- Bringing the display up to date writes nothing else. -/
theorem frame_refresh (s : Session) (modifiers : Modifiers) (old : Input) :
    Frame (· ∈ displayNames) s (s.refresh modifiers old) := by
  unfold refresh
  dsimp only
  split
  · exact (frame_showChord s modifiers old).trans (frame_showLine _ old)
  · exact ((frame_refreshHints s).trans (frame_showChord _ modifiers old)).trans
      (frame_showLine _ old)

end Display

end ModalKeys.Session
