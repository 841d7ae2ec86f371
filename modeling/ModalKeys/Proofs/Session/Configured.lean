import ModalKeys.Proofs.Session.Calls

namespace ModalKeys

namespace Assoc

variable {β : Type}

def keys (m : Assoc β) : List Text := m.map Prod.fst

theorem keys_put (m : Assoc β) (key : Text) (value : β) :
    (m.put key value).keys = if key ∈ m.keys then m.keys else m.keys ++ [key] := by
  induction m with
  | nil => rfl
  | cons entry m ih =>
    obtain ⟨k, v⟩ := entry
    unfold keys at ih ⊢
    by_cases hk : k = key
    · simp [put, hk]
    · rw [put, if_neg hk, List.map_cons, List.map_cons, ih]
      by_cases hm : key ∈ m.map Prod.fst
      · rw [if_pos hm, if_pos (List.mem_cons_of_mem k hm)]
      · rw [if_neg hm, if_neg (by simpa [Ne.symm hk] using hm)]
        rfl

theorem nodup_keys_put {m : Assoc β} (h : m.keys.Nodup) (key : Text) (value : β) :
    (m.put key value).keys.Nodup := by
  rw [keys_put]
  split
  · exact h
  · next hk =>
    refine List.nodup_append.2 ⟨h, List.pairwise_singleton _ key, fun k hm other ho => ?_⟩
    rintro rfl
    exact hk (List.mem_singleton.1 ho ▸ hm)

end Assoc

/-- An event that reports a mode, or that there is none. -/
def Event.asksMode : Event → Bool
  | .modeChanged _ => true
  | .variableSet name _ => name = Session.modeName
  | _ => false

namespace Session

variable {s t : Session}

/-- What is configured for a variable in a mode. -/
def configured? (s : Session) (mode name : Text) : Option Text :=
  (s.modeConfig.get? mode).bind (·.get? name)

/-- Holds when no variable is configured twice for a mode. -/
def ConfiguredOnce (s : Session) : Prop :=
  ∀ mode config, s.modeConfig.get? mode = some config → config.keys.Nodup

theorem ConfiguredOnce.of_eq (h : s.ConfiguredOnce) (hc : t.modeConfig = s.modeConfig) :
    t.ConfiguredOnce := by
  unfold ConfiguredOnce
  rw [hc]
  exact h

theorem configuredOnce_stable : Stable ConfiguredOnce where
  state := fun _ _ _ _ _ _ h => h
  completion := fun _ _ _ h => h
  configured := fun s mode name value h other config hg => by
    unfold Session.configured at hg
    rw [Assoc.get?_put] at hg
    split at hg
    · cases hg
      refine Assoc.nodup_keys_put ?_ name value
      cases hm : s.modeConfig.get? mode with
      | none => exact List.nodup_nil
      | some config => exact h mode config hm
    · exact h other config hg
  mode := fun _ _ _ _ h => h
  noted := fun s name value h => h.of_eq (by rw [noteVariable_eq])
  history := fun _ _ _ _ h => h

section Entered

/-- Each of the configured variables is written once, and has its value from then on. -/
theorem get?_assignAll {config : Assoc Text} (hk : config.keys.Nodup) (s : Session) {name value : Text}
    (hn : name ≠ modeName) (hg : config.get? name = some value) :
    (s.assignAll config).vars.get? name = Variables.assigned value := by
  induction config generalizing s with
  | nil => cases hg
  | cons entry config ih =>
    obtain ⟨other, v⟩ := entry
    obtain ⟨hnew, hk⟩ := List.nodup_cons.1 hk
    change ((if other = modeName then s else s.assign other v).assignAll config).vars.get? name = _
    rw [Assoc.get?] at hg
    split at hg
    · next ho =>
      subst ho
      cases hg
      rw [if_neg hn]
      have hlater : Frame (· ≠ other) (s.assign other value)
          ((s.assign other value).assignAll config) :=
        frame_assignAll (fun n v hm _ he => hnew (List.mem_map.2 ⟨(n, v), hm, he⟩)) _
      rw [hlater.vars other (not_not_intro rfl), get?_assign, if_pos rfl]
    · exact ih hk _ hg

/-- On the way into a mode the prompt is cleared last, unless the mode is the stack mode. -/
theorem get?_enteredMode (h : s.ConfiguredOnce) {mode name value : Text} (hn : name ≠ modeName)
    (hg : s.configured? mode name = some value) :
    (s.enteredMode mode).vars.get? name =
      if name = promptName ∧ mode ≠ stackMode then none else Variables.assigned value := by
  obtain ⟨config, hc, hv⟩ := Option.bind_eq_some_iff.1 hg
  have hall := get?_assignAll (h mode config hc) s hn hv
  by_cases hp : name = promptName ∧ mode ≠ stackMode
  · rw [if_pos hp, hp.1]
    exact prompt_enteredMode s hp.2
  · rw [if_neg hp, ← hall]
    unfold enteredMode
    rw [hc]
    dsimp only
    split
    · rfl
    · next hm =>
      rw [get?_assign, if_neg fun he => hp ⟨he.symm, hm⟩]
      rfl

end Entered

section Switch

/-- A call that asks for a mode. -/
def Call.asksMode (c : Call) : Bool :=
  match c with
  | .setMode _ | .modeChanged _ => true
  | .variableSet name _ => name = modeName
  | c => c.event?.any Event.asksMode

/-- Holds when `t` comes from the entry into its mode, with the configuration of `s`. -/
def Entered (s t : Session) : Prop :=
  ∃ u : Session, u.modeConfig = s.modeConfig ∧ t = u.enteredMode t.mode

theorem entered_setMode {mode : Text} (hne : (s.setMode mode).mode ≠ s.mode) :
    s.Entered (s.setMode mode) := by
  have h : s.mode ≠ s.target mode := fun he => hne (by rw [setMode_of_eq he])
  refine ⟨{ s with vars := s.vars.set modeName (s.target mode) }.emit
    (.set modeName (s.target mode)), rfl, ?_⟩
  rw [mode_setMode]
  exact setMode_of_ne h

theorem entered_modeChanged {mode : Text} (hne : (s.modeChanged mode).mode ≠ s.mode) :
    s.Entered (s.modeChanged mode) := by
  obtain ⟨hn, hm⟩ : mode ≠ [] ∧ s.mode ≠ mode :=
    not_or.1 fun h => hne (by rw [modeChanged_of_eq h])
  have hmode : (s.modeChanged mode).mode = mode := by
    rw [(frame_modeChanged hn hm).mode_eq (by simp), mode_inMode]
  refine ⟨{ s with vars := s.vars.set modeName mode }, rfl, ?_⟩
  rw [hmode]
  exact if_neg (by simp [hn, hm])

/-- Without a default mode, the report that there is no mode is only noted. -/
theorem entered_variableSet {value : Text} (hne : (s.variableSet modeName value).mode ≠ s.mode) :
    s.Entered (s.variableSet modeName value) ∨ (s.variableSet modeName value).mode = [] ∧
      s.variableSet modeName value = { s with vars := s.vars.set modeName [] } := by
  unfold variableSet at hne ⊢
  dsimp only at hne ⊢
  rw [if_pos rfl] at hne ⊢
  cases value with
  | cons c cs => exact .inl (entered_modeChanged hne)
  | nil =>
    let unset : Session := { s with vars := s.vars.set modeName [] }
    have hmode : unset.mode = [] := by
      change ((s.vars.set modeName []).get? modeName).getD [] = []
      rw [Variables.get?_set, if_pos rfl]
      rfl
    change s.Entered (unset.setMode []) ∨ (unset.setMode []).mode = [] ∧ unset.setMode [] = unset
    by_cases hd : unset.mode = unset.target []
    · rw [setMode_of_eq hd]
      exact .inr ⟨hmode, rfl⟩
    · have he : unset.Entered (unset.setMode []) :=
        entered_setMode (by rw [mode_setMode]; exact Ne.symm hd)
      exact .inl he

theorem handle_of_asksMode {e : Event} {reply : Reply} (he : e.asksMode = true)
    (h : s.handle e = some reply) :
    (∃ mode, reply.session = s.modeChanged mode) ∨
      ∃ value, reply.session = s.variableSet modeName value := by
  cases e with
  | modeChanged mode => cases h; exact .inl ⟨mode, rfl⟩
  | variableSet name value =>
    obtain rfl : name = modeName := of_decide_eq_true he
    cases h
    exact .inr ⟨value, rfl⟩
  | _ => cases he

theorem call_of_asksMode {c : Call} (hc : c.asksMode = true) (h : s.call c = some t) :
    (∃ mode, t = s.setMode mode) ∨ (∃ mode, t = s.modeChanged mode) ∨
      ∃ value, t = s.variableSet modeName value := by
  cases c with
  | setMode mode => cases h; exact .inl ⟨mode, rfl⟩
  | modeChanged mode => cases h; exact .inr (.inl ⟨mode, rfl⟩)
  | variableSet name value =>
    obtain rfl : name = modeName := of_decide_eq_true hc
    cases h
    exact .inr (.inr ⟨value, rfl⟩)
  | request r =>
    cases r with
    | event e =>
      obtain ⟨reply, hr, rfl⟩ := Option.map_eq_some_iff.1 h
      exact .inr (handle_of_asksMode hc hr)
    | bind | drain => cases hc
  | line l =>
    obtain ⟨reply, hr, rfl⟩ := Option.map_eq_some_iff.1 h
    obtain ⟨e, he, hasks⟩ := (Option.any_eq_true _ _).1 hc
    unfold handleLine at hr
    split at hr
    · next hp => rw [Call.event?, hp] at he; cases he
    · next hp =>
      rw [Call.event?, hp] at he
      cases he
      exact .inr (handle_of_asksMode hasks hr)
  | configureMode | perform | clearChord | keymap => cases hc

end Switch

/-- However a session has been used, a switch to another mode leaves each variable that is
configured for that mode with the value that it has there; only the prompt is unset again, unless
the mode is the stack mode. The report that there is no mode enters none where there is no default
mode, and writes nothing. -/
theorem configured_in_force {settings : Settings} {r : Registry} {calls : List Call}
    (hs : (start settings r).callAll calls = some s) {c : Call} (hc : c.asksMode = true)
    (ht : s.call c = some t) (hne : t.mode ≠ s.mode) :
    (∀ name value, name ≠ modeName → s.configured? t.mode name = some value →
      t.vars.get? name =
        if name = promptName ∧ t.mode ≠ stackMode then none else Variables.assigned value) ∨
    t.mode = [] ∧ (∀ mode, c ≠ .setMode mode) ∧ t = { s with vars := s.vars.set modeName [] } := by
  have honce : s.ConfiguredOnce := configuredOnce_stable.callAll hs
    (configuredOnce_stable.start settings r fun _ _ _ hg => nomatch hg)
  have in_force (he : s.Entered t) : ∀ name value, name ≠ modeName →
      s.configured? t.mode name = some value → t.vars.get? name =
        if name = promptName ∧ t.mode ≠ stackMode then none else Variables.assigned value := by
    intro name value hn hg
    obtain ⟨u, hu, htu⟩ := he
    have hconfigured : u.configured? t.mode name = some value := by rwa [configured?, hu]
    have hv := get?_enteredMode (honce.of_eq hu) hn hconfigured
    rwa [← htu] at hv
  by_cases hset : ∃ mode, c = .setMode mode
  · obtain ⟨mode, rfl⟩ := hset
    cases ht
    exact .inl (in_force (entered_setMode hne))
  · rcases call_of_asksMode hc ht with ⟨mode, rfl⟩ | ⟨mode, rfl⟩ | ⟨value, rfl⟩
    · exact .inl (in_force (entered_setMode hne))
    · exact .inl (in_force (entered_modeChanged hne))
    · rcases entered_variableSet hne with he | ⟨hmode, hunset⟩
      · exact .inl (in_force he)
      · exact .inr ⟨hmode, not_exists.1 hset, hunset⟩

/-- The host takes the session out of a bind in progress to a mode for which the volume is
configured and a status is cleared. -/
theorem configured_in_force_insert :
    ∃ s t, (start .initial .empty).callAll
        [.line "MODE_CONFIG insert volume = 7".toList, .line "MODE_CONFIG insert status =".toList,
          .line "VARIABLE_SET status busy".toList,
          .line "MODE_BIND command o<uri:>_ = uri %s".toList,
          .request (.event (.keyPress [] ['o']))] = some s ∧
      s.keymap.stack.depth = 1 ∧ s.vars.get? "status".toList = some "busy".toList ∧
      s.call (.line "VARIABLE_SET mode insert".toList) = some t ∧ t.mode = "insert".toList ∧
      t.vars.get? "volume".toList = some ['7'] ∧ t.vars.get? "status".toList = none := by
  have hview : ((start .initial .empty).callAll
      [.line "MODE_CONFIG insert volume = 7".toList, .line "MODE_CONFIG insert status =".toList,
        .line "VARIABLE_SET status busy".toList, .line "MODE_BIND command o<uri:>_ = uri %s".toList,
        .request (.event (.keyPress [] ['o']))]).any (fun s =>
      (decide (s.keymap.stack.depth = 1) &&
        (decide (s.vars.get? "status".toList = some "busy".toList) &&
          (decide (s.configured? "insert".toList "volume".toList = some ['7']) &&
            decide (s.configured? "insert".toList "status".toList = some [])))) &&
        (decide (s.mode = stackMode) &&
          (s.call (.line "VARIABLE_SET mode insert".toList)).any (·.mode = "insert".toList))) =
      true := by
    decide +kernel
  obtain ⟨s, hs, hview⟩ := (Option.any_eq_true _ _).1 hview
  simp only [Bool.and_eq_true, decide_eq_true_eq, Option.any_eq_true] at hview
  obtain ⟨⟨hdepth, hbusy, hvolume, hstatus⟩, hstack, t, ht, hmode⟩ := hview
  have hne : t.mode ≠ s.mode := by
    rw [hmode, hstack]
    decide
  have hall := (configured_in_force hs (by decide +kernel) ht hne).resolve_right
    (fun h => absurd (hmode.symm.trans h.1) (by decide))
  rw [hmode] at hall
  exact ⟨s, t, hs, hdepth, hbusy, ht, hmode, hall _ _ (by decide) hvolume,
    hall _ _ (by decide) hstatus⟩

/-- A prompt that is configured for a mode is not there when the mode has been entered, although it
is written at once where it is configured in that mode. -/
theorem configured_in_force_unprompted :
    ∃ s t, (start .initial .empty).callAll
        [.configureMode "insert".toList promptName "go:".toList] = some s ∧
      s.mode = "command".toList ∧ s.configured? "insert".toList promptName = some "go:".toList ∧
      s.call (.modeChanged "insert".toList) = some t ∧ t.mode = "insert".toList ∧
      t.vars.get? promptName = none ∧
      (t.configureMode "insert".toList promptName "go:".toList).vars.get? promptName =
        some "go:".toList := by
  have hview : ((start .initial .empty).callAll
      [.configureMode "insert".toList promptName "go:".toList]).any (fun s =>
      (decide (s.mode = "command".toList) &&
        decide (s.configured? "insert".toList promptName = some "go:".toList)) &&
        (s.call (.modeChanged "insert".toList)).any (fun t =>
          (decide (t.mode = "insert".toList) && decide (t.vars.get? promptName = none)) &&
            decide ((t.configureMode "insert".toList promptName "go:".toList).vars.get? promptName =
              some "go:".toList))) = true := by
    decide +kernel
  obtain ⟨s, hs, hview⟩ := (Option.any_eq_true _ _).1 hview
  simp only [Bool.and_eq_true, decide_eq_true_eq, Option.any_eq_true] at hview
  obtain ⟨⟨hmode, hconfigured⟩, t, ht, ⟨hinsert, hnone⟩, hactive⟩ := hview
  exact ⟨s, t, hs, hmode, hconfigured, ht, hinsert, hnone, hactive⟩

end Session

end ModalKeys
