import ModalKeys.Proofs.Session.Invariant
import ModalKeys.Proofs.Session.Modes

namespace ModalKeys

/-- From a mode that fits its stack a keymap stays with the mode or asks for the stack mode first of
all. -/
theorem Keymap.Outcome.entersStack {P : Text → Prop} (hP : P stackMode) {k : Keymap}
    {mode : Text} {note : Notification} {text : Text} {reactions : List Reaction} {stack : Stack}
    (ho : k.Outcome mode note text reactions stack) (hk : k.stack.depth ≠ 0 → P mode) :
    (stack.depth ≠ 0 → P mode) ∨
      (mode ≠ stackMode ∧ ∃ rest, reactions = .enterStack :: rest) := by
  cases ho with
  | idle unmatched stays => exact .inl (by rwa [kept_depth])
  | unwound unmatched stacked ends => exact .inl fun h => absurd rfl h
  | alone fitted last free => exact .inl hk
  | live fitted last bound stacked trigger => exact .inl (by rwa [kept_depth])
  | completed fitted last bound stacked trigger => exact .inl fun h => absurd rfl h
  | moved fitted more =>
    by_cases hm : mode = stackMode
    · exact .inl fun _ => hm ▸ hP
    · rw [if_pos hm]
      exact .inr ⟨hm, _, rfl⟩

namespace Session

/-- A session whose stack is empty in any mode that `P` does not hold of. Where the mode can be
unset for want of a default mode, `P` holds of that too. -/
structure StackedIn (P : Text → Prop) (s : Session) : Prop where
  stacked : s.keymap.stack.depth ≠ 0 → P s.mode
  unset : s.defaultMode = [] → P []

namespace StackedIn

variable {P : Text → Prop} {s : Session}

theorem frame {written : Text → Prop} {s' : Session} (h : StackedIn P s)
    (hf : Frame written s s') (hm : ¬ written modeName) : StackedIn P s' := by
  refine ⟨?_, ?_⟩
  · rw [hf.keymap, hf.mode_eq hm]
    exact h.stacked
  · rw [hf.defaultMode]
    exact h.unset

theorem assign (h : StackedIn P s) {name : Text} (hn : name ≠ modeName) (value : Text) :
    StackedIn P (s.assign name value) :=
  h.frame (frame_assign rfl s value : Frame (name = ·) s _) hn

theorem configureMode (h : StackedIn P s) (mode name value : Text) :
    StackedIn P (s.configureMode mode name value) := by
  have hc (config : Assoc (Assoc Text)) : StackedIn P { s with modeConfig := config } :=
    ⟨h.stacked, h.unset⟩
  unfold Session.configureMode
  dsimp only
  split
  · next ha => exact (hc _).assign (of_decide_eq_true (Bool.and_eq_true_iff.1 ha).2) value
  · exact hc _

variable (hP : P stackMode)

include hP

theorem inMode (hu : s.defaultMode = [] → P []) (mode : Text) :
    StackedIn P (s.inMode mode) := by
  by_cases hm : mode = stackMode
  · subst hm
    exact ⟨fun _ => by rwa [mode_inMode], hu⟩
  · refine ⟨fun hs => ?_, hu⟩
    rw [keymap_inMode_of_ne s hm] at hs
    exact absurd rfl hs

/-- After a switch to another mode the stack is right, whatever mode it was in. -/
theorem setMode_of_ne (hu : s.defaultMode = [] → P []) {mode : Text}
    (hm : s.mode ≠ s.target mode) : StackedIn P (s.setMode mode) :=
  (inMode hP hu _).frame (frame_setMode hm) (by simp)

theorem setMode (h : StackedIn P s) (mode : Text) : StackedIn P (s.setMode mode) := by
  by_cases hm : s.mode = s.target mode
  · rw [setMode_of_eq hm]
    exact h
  · exact setMode_of_ne hP h.unset hm

theorem modeChanged (h : StackedIn P s) (mode : Text) : StackedIn P (s.modeChanged mode) := by
  by_cases hm : mode = [] ∨ s.mode = mode
  · rw [modeChanged_of_eq hm]
    exact h
  · obtain ⟨hn, hm⟩ := not_or.1 hm
    exact (inMode hP h.unset mode).frame (frame_modeChanged hn hm) (by simp)

theorem write (h : StackedIn P s) (name value : Text) : StackedIn P (s.write name value) := by
  unfold Session.write
  split
  · exact h.setMode hP value
  · next hn => exact h.assign hn value

theorem perform (h : StackedIn P s) (e : Effect) : StackedIn P (s.perform e) := by
  cases e with
  | send command => exact h.frame (frame_send s command : Frame (· ∈ displayNames) _ _) (by decide)
  | set name value => exact h.write hP name value

theorem run (h : StackedIn P s) (b : Bind) (args : List Text) : StackedIn P (s.run b args) := by
  rw [run_eq]
  have hl : StackedIn P (s.logged [⟨b, args⟩]) := ⟨h.stacked, h.unset⟩
  exact List.foldlRecOn _ _ hl fun _ ht e _ => ht.perform hP e

theorem follow (h : StackedIn P s) (r : Reaction) : StackedIn P (s.follow r) := by
  cases r with
  | run b args => exact h.run hP b args
  | clearActive => exact h.frame (frame_clearActive s) (by decide)
  | enterStack => exact h.setMode hP stackMode
  | prompt p => exact h.frame (frame_prompted s p) (by decide)
  | leaveStack restore => exact (h.assign (by decide) []).setMode hP (restore.getD [])

theorem foldl_follow (h : StackedIn P s) (rs : List Reaction) :
    StackedIn P (rs.foldl Session.follow s) :=
  List.foldlRecOn _ _ h fun _ ht r _ => ht.follow hP r

/-- The stack is right after a turn, though the keymap may be ahead of the mode on the way. -/
theorem turn (hk : s.keymap.Reachable) (h : StackedIn P s) (note : Notification) (text : Text) :
    StackedIn P (s.turn note text) := by
  have ho := Keymap.step_outcome hk.sound s.mode note text
  unfold Session.turn
  generalize s.keymap.step s.mode note text = result at ho ⊢
  rcases ho.entersStack hP h.stacked with hs | ⟨hn, rest, hr⟩
  · have ht : StackedIn P (s.withStack result.2) := ⟨hs, h.unset⟩
    exact ht.foldl_follow hP _
  · have hm : (s.withStack result.2).mode ≠ (s.withStack result.2).target stackMode := by
      rw [target_of_ne_nil _ (by decide)]
      exact hn
    have hu : (s.withStack result.2).defaultMode = [] → P [] := h.unset
    have ht : StackedIn P ((s.withStack result.2).follow .enterStack) :=
      setMode_of_ne hP hu hm
    rw [hr, List.foldl_cons]
    exact ht.foldl_follow hP rest

theorem invariant : Invariant fun s => s.keymap.Reachable ∧ StackedIn P s :=
  .of_reachable (fun _ _ hf h => h.frame hf (by decide))
    (fun _ note text hk h => h.turn hP hk note text) fun _ _ h => ⟨h.stacked, h.unset⟩

theorem variableSet (h : StackedIn P s) (name value : Text) :
    StackedIn P (s.variableSet name value) := by
  have hset (hn : name ≠ modeName) : StackedIn P { s with vars := s.vars.set name value } :=
    h.frame (frame_set rfl s value : Frame (name = ·) s _) hn
  unfold Session.variableSet
  dsimp only
  split
  · split
    · next hn hv =>
      -- The mode is unset for a moment. Without a default mode it stays so.
      have hm : mode { s with vars := s.vars.set name value } = [] := by
        rw [hn, List.isEmpty_iff.1 hv]
        exact mode_inMode s []
      by_cases hd : s.defaultMode = []
      · have hs : StackedIn P { s with vars := s.vars.set name value } :=
          ⟨fun _ => hm ▸ h.unset hd, h.unset⟩
        exact hs.setMode hP []
      · refine setMode_of_ne (s := { s with vars := s.vars.set name value }) hP h.unset ?_
        rw [hm]
        exact Ne.symm hd
    · exact h.modeChanged hP value
  · next hn =>
    split
    · split
      · exact hset hn
      · next hv =>
        have hne : value ≠ [] := by simpa using hv
        have hd : StackedIn P { s with vars := s.vars.set name value, defaultMode := value } :=
          ⟨(hset hn).stacked, fun he => absurd he hne⟩
        split
        · exact hd.setMode hP []
        · exact hd
    · exact (hset hn).frame (frame_noteVariable _ name value : Frame (· ∈ displayNames) _ _)
        (by decide)

theorem direct (h : StackedIn P s) {e : Event} {s' : Session} (he : s.direct? e = some s') :
    StackedIn P s' := by
  cases e <;> cases he
  · exact h.configureMode _ _ _
  · exact h.modeChanged hP _
  · exact h.variableSet hP _ _

theorem start {settings : Settings} (hu : settings.defaultMode = [] → P []) (r : Registry) :
    StackedIn P (Session.start settings r) :=
  start_induction settings r (fun _ => ⟨fun h => absurd rfl h, hu⟩)
    (fun _ mode name value h => h.configureMode mode name value)
    (fun _ _ value hn h => h.assign hn value) (fun _ mode h => h.setMode hP mode)

/-- However a session is used, its stack is right. -/
theorem serveAll {settings : Settings} (hu : settings.defaultMode = [] → P [])
    (es : List Registry.Edit) (rs : List Request)
    (hs : (Session.start settings (Registry.empty.editAll es)).serveAll rs = some s) :
    s.keymap.Reachable ∧ StackedIn P s :=
  (invariant hP).serveAll ⟨reachable_start settings es, start hP hu _⟩
    (fun _ _ _ _ h he => ⟨(writes_direct he).reachable h.1, h.2.direct hP he⟩) hs

end StackedIn

/-- A session with a default mode whose stack is empty in any mode but the stack mode. -/
structure Tied (s : Session) : Prop where
  defaultMode : s.defaultMode ≠ []
  stacked : s.keymap.stack.depth ≠ 0 → s.mode = stackMode

namespace Tied

variable {s : Session}

theorem iff_stackedIn : Tied s ↔ StackedIn (· = stackMode) s :=
  ⟨fun h => ⟨h.stacked, fun he => absurd he h.defaultMode⟩,
    fun h => ⟨fun he => absurd (h.unset he) (by decide), h.stacked⟩⟩

theorem invariant : Invariant fun s => s.keymap.Reachable ∧ Tied s := by
  simpa only [iff_stackedIn] using StackedIn.invariant (P := (· = stackMode)) rfl

theorem direct (h : Tied s) {e : Event} {s' : Session} (he : s.direct? e = some s') : Tied s' :=
  iff_stackedIn.2 (StackedIn.direct (P := (· = stackMode)) rfl (iff_stackedIn.1 h) he)

theorem start {settings : Settings} (hd : settings.defaultMode ≠ []) (r : Registry) :
    Tied (Session.start settings r) :=
  iff_stackedIn.2 (StackedIn.start (P := (· = stackMode)) rfl (fun he => absurd he hd) r)

end Tied

/-- However a session with a default mode is used, a bind is in progress in the stack mode only. -/
theorem stacked_only_in_stackMode {settings : Settings} (hd : settings.defaultMode ≠ [])
    (es : List Registry.Edit) (rs : List Request) {s : Session}
    (hs : (Session.start settings (Registry.empty.editAll es)).serveAll rs = some s) :
    (s.keymap.stack.depth ≠ 0 → s.mode = stackMode) ∧
      (s.mode ≠ stackMode → s.keymap.stack = Stack.empty) := by
  obtain ⟨hk, h⟩ := Tied.invariant.serveAll ⟨reachable_start settings es, Tied.start hd _⟩
    (fun _ _ _ _ h he => ⟨(writes_direct he).reachable h.1, h.2.direct he⟩) hs
  refine ⟨h.stacked, fun hm => hk.sound.stack.eq_empty ?_⟩
  exact Decidable.byContradiction fun hd => hm (h.stacked hd)

/-- A bind with a prompt is in progress, in the stack mode, once its first segment is typed. -/
theorem stacked_after_prompt :
    ∃ s, (Session.start .initial (Registry.empty.editAll [])).serveAll
        [.event (.modeBind "command f<go:>_ = go %s".toList), .event (.keyPress [] ['f'])] = some s ∧
      s.keymap.stack.depth = 1 ∧ s.mode = stackMode := by
  have hd : ((Session.start .initial (Registry.empty.editAll [])).serveAll
      [.event (.modeBind "command f<go:>_ = go %s".toList), .event (.keyPress [] ['f'])]).map
        (·.keymap.stack.depth) = some 1 := by decide +kernel
  obtain ⟨s, hs, hd⟩ := Option.map_eq_some_iff.1 hd
  have hm := (stacked_only_in_stackMode (by decide) [] _ hs).1 (by rw [hd]; decide)
  exact ⟨s, hs, hd, hm⟩

end Session

end ModalKeys
