import ModalKeys.Proofs.Session.Invariant

namespace ModalKeys

/-- Holds when a run writes none of some variables. -/
def Run.Spares (names : List Text) (r : Run) : Prop :=
  ∀ name value, .set name value ∈ r.effects → name ∉ names

/-- Holds when an event itself writes none of some variables, now or whenever a mode is entered. -/
def Event.Spares (names : List Text) : Event → Prop
  | .modeConfig _ name _ => name ∉ names
  | .modeChanged mode => mode = [] ∨ Session.modeName ∉ names
  | .variableSet name _ => name ∉ names
  | _ => True

namespace Session

/-- The variables that a bind in progress writes, and that it puts back. -/
def stackNames : List Text := [modeName, promptName]

/-- In a mode, with nothing in progress and without a prompt. -/
structure AtRest (mode : Text) (s : Session) : Prop where
  stack : s.keymap.stack.depth = 0
  mode : s.mode = mode
  prompt : s.vars.get? promptName = none

/-- In the stack mode, with a bind in progress that was begun in a mode. -/
structure InProgress (begun : Text) (s : Session) : Prop where
  stack : s.keymap.stack.depth ≠ 0
  mode : s.mode = stackMode
  lastMode : s.keymap.stack.lastMode = some begun

def Restores (mode : Text) (s : Session) : Prop := AtRest mode s ∨ InProgress mode s

/-- Holds when two sessions agree on the keymap, the mode and the prompt. -/
structure Alike (s s' : Session) : Prop where
  keymap : s'.keymap = s.keymap
  mode : s'.mode = s.mode
  prompt : s'.vars.get? promptName = s.vars.get? promptName

section Alike

variable {s s' : Session} {m : Text}

theorem Frame.alike {written : Text → Prop} (h : Frame written s s')
    (hw : ∀ name, written name → name ∉ stackNames) : Alike s s' where
  keymap := h.keymap
  mode := h.mode_eq fun hm => hw _ hm (by decide)
  prompt := h.vars promptName fun hp => hw _ hp (by decide)

theorem Alike.trans {s'' : Session} (h : Alike s s') (h' : Alike s' s'') : Alike s s'' :=
  ⟨h'.keymap.trans h.keymap, h'.mode.trans h.mode, h'.prompt.trans h.prompt⟩

theorem Alike.assign {name : Text} (h : name ∉ stackNames) (s : Session) (value : Text) :
    Alike s (s.assign name value) :=
  (frame_assign rfl s value : Frame (name = ·) s _).alike fun _ hn => hn ▸ h

theorem Alike.display (h : Frame (· ∈ displayNames) s s') : Alike s s' :=
  h.alike (by decide)

theorem Alike.run {b : Bind} {args : List Text} (h : Run.Spares stackNames ⟨b, args⟩) (s : Session) :
    Alike s (s.run b args) := by
  have hf : Frame (· ∉ stackNames) (s.logged [⟨b, args⟩]) (s.run b args) := by
    rw [run_eq]
    refine frame_performAll (fun name value he => ?_) _
    have hn := h name value he
    exact ⟨fun hm => hn (by simp [hm, stackNames]), hn⟩
  have ha := hf.alike fun _ hn => hn
  exact ⟨ha.keymap, ha.mode, ha.prompt⟩

theorem AtRest.alike (h : AtRest m s) (ha : Alike s s') : AtRest m s' where
  stack := by rw [ha.keymap, h.stack]
  mode := ha.mode.trans h.mode
  prompt := ha.prompt.trans h.prompt

theorem InProgress.of_eq (h : InProgress m s) (hk : s'.keymap = s.keymap)
    (hm : s'.mode = s.mode) : InProgress m s' where
  stack := by
    rw [hk]
    exact h.stack
  mode := hm.trans h.mode
  lastMode := by rw [hk, h.lastMode]

theorem InProgress.live (h : InProgress m s) (c : Bool) {r : Run}
    (hr : c = true → r.Spares stackNames) :
    InProgress m ((if c then [.run r.bind r.args] else []).foldl follow s) := by
  cases c with
  | false => exact h
  | true =>
    have ha := Alike.run (hr rfl) s
    exact h.of_eq ha.keymap ha.mode

theorem InProgress.prompts (h : InProgress m s) (p : Option Prompt) :
    InProgress m ((p.toList.map .prompt).foldl follow s) := by
  cases p with
  | none => exact h
  | some p =>
    have hf := frame_prompted s p
    exact h.of_eq hf.keymap (hf.mode_eq (by decide))

theorem Restores.alike (h : Restores m s) (ha : Alike s s') : Restores m s' :=
  h.imp (·.alike ha) (·.of_eq ha.keymap ha.mode)

end Alike

section Turn

variable {s : Session} {m : Text}

theorem Restores.inProgress (h : Restores m s) (hd : s.keymap.stack.depth ≠ 0) :
    InProgress m s :=
  h.resolve_left fun hr => hd hr.stack

/-- A stack of the same depth that gives back the same mode changes nothing. -/
theorem Restores.withStack (h : Restores m s) {k : Stack} (hd : k.depth = s.keymap.stack.depth)
    (hl : k.lastMode = s.keymap.stack.lastMode) : Restores m (s.withStack k) := by
  rcases h with h | h
  · exact .inl ⟨hd.trans h.stack, h.mode, h.prompt⟩
  · exact .inr ⟨fun h0 => h.stack (hd.symm.trans h0), h.mode, hl.trans h.lastMode⟩

/-- To leave the stack mode for the mode that was begun in is to be at rest there. -/
theorem atRest_leaveStack (hm : m ≠ stackMode) (hn : m ≠ []) (hs : s.mode = stackMode) :
    AtRest m (s.follow (.leaveStack (some m))) := by
  have ht : (s.assign promptName []).target m = m := target_of_ne_nil _ hn
  have ha : (s.assign promptName []).mode = s.mode :=
    (frame_assign rfl s [] : Frame (promptName = ·) s _).mode_eq (by decide)
  have hne : (s.assign promptName []).mode ≠ (s.assign promptName []).target m := by
    rw [ha, hs, ht]
    exact hm.symm
  change AtRest m ((s.assign promptName []).setMode m)
  refine ⟨?_, ?_, ?_⟩
  · rw [(frame_setMode hne).keymap, ht, keymap_inMode_of_ne _ hm]
    rfl
  · rw [mode_setMode, ht]
  · exact prompt_setMode (by rw [ht]; exact hm) hne

/-- The stack mode is entered, if need be, with a stack that gives back the mode so far. -/
theorem inProgress_entered (hm : m ≠ stackMode) (hn : m ≠ []) (h : Restores m s) {k : Stack}
    (hd : k.depth ≠ 0) (hl : k.lastMode = s.keymap.restored s.mode) :
    InProgress m ((if s.mode ≠ stackMode then [.enterStack] else []).foldl follow (s.withStack k)) := by
  by_cases hs : s.mode = stackMode
  · rw [if_neg (not_not_intro hs)]
    have hp : InProgress m s := h.resolve_left fun hr => hm (hr.mode.symm.trans hs)
    refine ⟨hd, hs, ?_⟩
    change k.lastMode = some m
    rw [hl, Keymap.restored, if_neg (not_not_intro hs), hp.lastMode]
  · rw [if_pos hs]
    have hr : AtRest m s := h.resolve_right fun hp => hs hp.mode
    have ht : (s.withStack k).target stackMode = stackMode := target_of_ne_nil _ (by decide)
    have hk : ((s.withStack k).setMode stackMode).keymap = (s.withStack k).keymap := by
      rw [(frame_setMode (by rw [ht]; exact hs)).keymap, ht, keymap_inMode_stackMode]
    refine ⟨?_, ?_, ?_⟩
    · rw [List.foldl_cons, List.foldl_nil, follow, hk]
      exact hd
    · rw [List.foldl_cons, List.foldl_nil, follow, mode_setMode, ht]
    · rw [List.foldl_cons, List.foldl_nil, follow, hk]
      change k.lastMode = some m
      rw [hl, Keymap.restored, if_pos hs, hr.mode]
      simp [hn]

/-- Whatever comes of a notification, a turn whose handlers spare the mode and the prompt gives back
the mode or holds it. -/
theorem Restores.turn (hk : s.keymap.Sound) (hm : m ≠ stackMode) (hn : m ≠ []) (h : Restores m s)
    {note : Notification} {text : Text} (hs : ∀ r ∈ s.runs note text, r.Spares stackNames) :
    Restores m (s.turn note text) := by
  have ho := Keymap.step_outcome hk s.mode note text
  unfold runs at hs
  unfold Session.turn
  generalize (s.keymap.step s.mode note text).1 = reactions at ho hs ⊢
  generalize (s.keymap.step s.mode note text).2 = stack at ho ⊢
  cases ho with
  | idle unmatched stays => exact h.withStack (Keymap.kept_depth ..) (Keymap.kept_lastMode ..)
  | unwound unmatched stacked ends =>
    have hp := h.inProgress stacked
    rw [hp.lastMode]
    exact .inl (atRest_leaveStack hm hn hp.mode)
  | @alone fit _ fitted last free =>
    have hr := hs ⟨fit.bind, fit.captured⟩ (by simp [Fit.runAlone, Reaction.run?])
    have hrun : Restores m (s.run fit.bind fit.captured) := h.alike (Alike.run hr s)
    unfold Fit.runAlone
    by_cases hc : fit.segment.trigger.captures = true
    · rw [if_pos hc]
      exact hrun
    · rw [if_neg hc]
      exact hrun.alike (Alike.display (frame_clearActive _))
  | @live fit _ fitted last bound stacked trigger =>
    have hr := hs ⟨fit.bind, s.keymap.stack.args ++ fit.captured⟩ (by simp [Reaction.run?])
    have hw := h.withStack (Keymap.kept_depth s.keymap s.mode note text)
      (Keymap.kept_lastMode s.keymap s.mode note text)
    exact hw.alike (Alike.run hr _)
  | @completed fit _ fitted last bound stacked trigger =>
    -- The handler runs with the stack gone and the stack mode still on, so neither side of the
    -- property holds until the stack mode is left.
    have hr := hs ⟨fit.bind, s.keymap.stack.args ++ fit.captured⟩ (by simp [Reaction.run?])
    have hp := h.inProgress stacked
    have ha := Alike.run hr (s.withStack .empty)
    rw [hp.lastMode]
    exact .inl (atRest_leaveStack hm hn (ha.mode.trans hp.mode))
  | @moved fit later fitted more =>
    rw [List.foldl_append, List.foldl_append]
    have he : InProgress m ((if s.mode ≠ stackMode then [.enterStack] else []).foldl follow
        (s.withStack ⟨s.keymap.stack.depth + 1, s.keymap.stack.args ++ fit.captured,
          fit.bind :: later.filter (·.goesOn s.keymap.stack.depth), none,
          s.keymap.restored s.mode⟩)) := inProgress_entered hm hn h (Nat.succ_ne_zero _) rfl
    have hl := he.live (Stack.liveNext fit.bind (s.keymap.stack.depth + 1))
      (r := ⟨fit.bind, s.keymap.stack.args ++ fit.captured ++ [[]]⟩)
      fun hl => hs _ (by simp [hl, Reaction.run?])
    exact .inr (hl.prompts _)

end Turn

section Events

variable {s s' : Session} {m : Text}

/-- An event that spares the mode and the prompt may still set the default mode. -/
theorem Alike.direct {e : Event} (he : e.Spares stackNames) (hm : s.mode ≠ [])
    (hs : s.direct? e = some s') : Alike s s' := by
  cases e with
  | modeConfig mode name value =>
    cases hs
    have hc (config : Assoc (Assoc Text)) : Alike s { s with modeConfig := config } :=
      ⟨rfl, rfl, rfl⟩
    unfold configureMode
    dsimp only
    split
    · exact (hc _).trans (Alike.assign he _ value)
    · exact hc _
  | modeChanged mode =>
    cases hs
    have hn : mode = [] := he.resolve_right fun h => h (by decide)
    rw [modeChanged_of_eq (.inl hn)]
    exact ⟨rfl, rfl, rfl⟩
  | variableSet name value =>
    cases hs
    have hset : Alike s { s with vars := s.vars.set name value } :=
      (frame_set rfl s value : Frame (name = ·) s _).alike fun _ hn => hn ▸ he
    have hmode : name ≠ modeName := fun h => he (by simp [h, stackNames])
    unfold variableSet
    dsimp only
    rw [if_neg hmode]
    split
    · split
      · exact hset
      · have hd : Alike s { s with vars := s.vars.set name value, defaultMode := value } :=
          ⟨hset.keymap, hset.mode, hset.prompt⟩
        have hne : ¬ (Session.mode { s with vars := s.vars.set name value, defaultMode := value }).isEmpty := by
          rw [hd.mode]
          simpa using hm
        rw [if_neg hne]
        exact hd
    · exact hset.trans (Alike.display (frame_noteVariable _ name value))
  | _ => cases hs

/-- The mode is given back or held, unless a bind that was run since the log had some length has
not spared it. -/
structure Steady (mode : Text) (n : Nat) (s : Session) : Prop where
  logged : n ≤ s.ran.length
  restores : (∀ r ∈ s.ran.drop n, r.Spares stackNames) → Restores mode s

theorem Steady.invariant (hm : m ≠ stackMode) (hn : m ≠ []) (n : Nat) :
    Invariant fun s => s.keymap.Reachable ∧ Steady m n s := by
  refine .of_reachable ?_ ?_ ?_
  · intro s s' hf h
    refine ⟨by rw [hf.ran]; exact h.logged, fun hs => ?_⟩
    rw [hf.ran] at hs
    exact (h.restores hs).alike (Alike.display hf)
  · intro s note text hk h
    have hr := ran_turn s note text
    refine ⟨by rw [hr, List.length_append]; exact Nat.le_add_right_of_le h.logged, fun hs => ?_⟩
    -- The log only grows, so what has spared the mode by now had done so before the turn.
    rw [hr, List.drop_append_of_le_length h.logged] at hs
    have h0 := h.restores fun r hm => hs r (List.mem_append_left _ hm)
    exact h0.turn hk.sound hm hn fun r hm => hs r (List.mem_append_right _ hm)
  · exact fun s e h => ⟨h.logged, fun hs => (h.restores hs).imp (fun h => ⟨h.stack, h.mode, h.prompt⟩)
      fun h => ⟨h.stack, h.mode, h.lastMode⟩⟩

theorem Restores.mode_ne_nil (hn : m ≠ []) (h : Restores m s) : s.mode ≠ [] := by
  rcases h with h | h <;> rw [h.mode]
  · exact hn
  · decide

theorem Steady.direct (hn : m ≠ []) {n : Nat} (h : Steady m n s) {e : Event}
    (he : e.Spares stackNames) (hs : s.direct? e = some s') : Steady m n s' := by
  have hr := (writes_direct hs).ran
  refine ⟨by rw [hr]; exact h.logged, fun hsp => ?_⟩
  rw [hr] at hsp
  have h0 := h.restores hsp
  exact h0.alike (Alike.direct he (h0.mode_ne_nil hn) hs)

end Events

/-- From rest in a mode a session is always at rest in it again, or holds it for when the bind in
progress ends, as long as no event and no handler writes the mode or the prompt. -/
theorem mode_restored {s s' : Session} {mode : Text} (hk : s.keymap.Reachable)
    (hm : mode ≠ stackMode) (hn : mode ≠ []) (h : AtRest mode s) {rs : List Request}
    (he : ∀ e, .event e ∈ rs → e.Spares stackNames) (hs : s.serveAll rs = some s')
    (hr : ∀ r ∈ s'.ran.drop s.ran.length, r.Spares stackNames) :
    AtRest mode s' ∨ InProgress mode s' := by
  have h0 : Steady mode s.ran.length s := ⟨Nat.le_refl _, fun _ => .inl h⟩
  have h' := (Steady.invariant hm hn s.ran.length).serveAll ⟨hk, h0⟩
    (fun e hm _ _ h hd => ⟨(writes_direct hd).reachable h.1, h.2.direct hn (he e hm) hd⟩) hs
  exact h'.2.restores hr

/-- A bind with a prompt is begun, answered and submitted; its command spares the mode. -/
theorem mode_restored_after_prompt :
    ∃ s s', (start .initial (Registry.empty.editAll [])).serveAll
        [.event (.modeBind "command f<go:>_ = go %s".toList)] = some s ∧
      s.serveAll [.event (.keyPress [] ['f']), .event (.setLine ['x']), .event .submit] = some s' ∧
      (AtRest "command".toList s' ∨ InProgress "command".toList s') := by
  have hb : ((start .initial (Registry.empty.editAll [])).serveAll
      [.event (.modeBind "command f<go:>_ = go %s".toList)]).map
        (fun s => (s.keymap.stack.depth, s.mode, s.vars.get? promptName)) =
      some (0, "command".toList, none) := by decide +kernel
  have hr : ((start .initial (Registry.empty.editAll [])).serveAll
      [.event (.modeBind "command f<go:>_ = go %s".toList)]).map (fun s =>
        (s.serveAll [.event (.keyPress [] ['f']), .event (.setLine ['x']), .event .submit]).map
          (·.ran.map Run.effects)) = some (some [[.send "go x".toList]]) := by decide +kernel
  obtain ⟨s, hs, hb⟩ := Option.map_eq_some_iff.1 hb
  rw [hs] at hr
  obtain ⟨s', hs', hr⟩ := Option.map_eq_some_iff.1 (Option.some.inj hr)
  simp only [Prod.mk.injEq] at hb
  obtain ⟨hd, hm, hp⟩ := hb
  refine ⟨s, s', hs, hs', mode_restored (reachable_serveAll _ [] _ hs) (by decide) (by decide)
    ⟨hd, hm, hp⟩ (by simp [Event.Spares]) hs' fun r hm name value he => ?_⟩
  have hmem : r.effects ∈ s'.ran.map Run.effects := List.mem_map_of_mem (List.mem_of_mem_drop hm)
  rw [hr, List.mem_singleton] at hmem
  rw [hmem] at he
  cases List.mem_singleton.1 he

end Session

end ModalKeys
