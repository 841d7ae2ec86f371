import ModalKeys.Proofs.Session.EmptyHistory
import ModalKeys.Proofs.Session.Recorded

namespace ModalKeys

theorem Completion.addVariable_of_mem {c : Completion} {name : Text} (h : '@' :: name ∈ c.candidates) :
    c.addVariable name = c := by
  unfold addVariable
  rw [TextSet.insert_of_mem h]

theorem History.stop_eq_iff {h : History} (hr : h.Rests) : h.stop = h ↔ h.isBrowsing = false := by
  constructor
  · intro hs
    rw [← hs]
    rfl
  · intro hb
    exact hr (Option.isNone_iff_eq_none.1 (Option.isSome_eq_false_iff.1 hb))

namespace Session

variable {s t : Session}

/-- Holds when every variable that is held can be completed, the two modes aside. -/
def Offered (s : Session) : Prop :=
  ∀ name value, name ≠ modeName → name ≠ defaultModeName → s.vars.get? name = some value →
    '@' :: name ∈ s.completion.candidates

/-- Whoever sets a variable, it can be completed from then on. -/
theorem offered_stable : Stable Offered where
  state := fun _ _ _ _ _ _ h => h
  completion := fun s c kept h name value hm hd hg => kept _ (h name value hm hd hg)
  configured := fun _ _ _ _ h => h
  mode := fun s name value hn h other v hm hd hg => by
    have hne : name ≠ other := by
      rintro rfl
      exact hn.elim hm hd
    change (s.vars.set name value).get? other = some v at hg
    rw [Variables.get?_set, if_neg hne] at hg
    exact h other v hm hd hg
  noted := fun s name value h other v hm hd hg => by
    rw [noteVariable_eq] at hg ⊢
    change (s.vars.set name value).get? other = some v at hg
    refine TextSet.mem_insert.2 ?_
    by_cases ho : name = other
    · exact .inl (by rw [ho])
    · rw [Variables.get?_set, if_neg ho] at hg
      exact .inr (h other v hm hd hg)
  history := fun _ _ _ _ h => h

/-- The report of a value that is held, where it can be completed and the history is at the
prompt. -/
theorem variableSet_of_get? (ho : s.Offered) (hp : s.AtPrompt) {name value : Text}
    (hm : name ≠ modeName) (hd : name ≠ defaultModeName) (hv : value ≠ [])
    (hg : s.vars.get? name = some value) :
    s.variableSet name value =
      if name = promptName then { s with history := s.history.stop } else s := by
  have hvars : s.vars.set name value = s.vars :=
    Variables.set_of_get? (by simp [hg, Variables.assigned, hv])
  have hcompletion : s.completion.addVariable name = s.completion :=
    Completion.addVariable_of_mem (ho name value hm hd hg)
  unfold variableSet
  dsimp only
  rw [if_neg hm, if_neg hd, hvars, noteVariable_eq, hcompletion]
  split
  · next hn =>
    have hprompt : value = s.history.prompt := by
      rw [hp, Variables.getD, ← hn, hg]
      rfl
    rw [hprompt]
    rfl
  · rfl

/-- However a session has been used, the report of a value that is held leaves it as it is. Only the
report of the prompt may tell: it ends a browse that is in progress. -/
theorem reported_again {settings : Settings} {r : Registry} {calls : List Call}
    (hs : (start settings r).callAll calls = some s) {name value : Text} (hm : name ≠ modeName)
    (hd : name ≠ defaultModeName) (hv : value ≠ []) (hg : s.vars.get? name = some value) :
    ∃ t, t = (if name = promptName then { s with history := s.history.stop } else s) ∧
      s.variableSet name value = t ∧
      (s.handle (.variableSet name value)).map (·.session) = some t ∧
      (t = s ↔ ¬(name = promptName ∧ s.history.isBrowsing = true)) := by
  have ho : s.Offered := offered_stable.callAll hs
    (offered_stable.start settings r fun _ _ _ _ _ hg => nomatch hg)
  have hp : s.AtPrompt := atPrompt_stable.callAll hs (atPrompt_stable.start settings r fun _ => rfl)
  have hrests : s.history.Rests := rests_stable.callAll hs (rests_start settings r)
  have hset := variableSet_of_get? ho hp hm hd hv hg
  refine ⟨_, rfl, hset, ?_, ?_⟩
  · change some (s.withVariable name (s.variableSet name value)).session = _
    unfold withVariable checkVariableName
    by_cases hname : isVariableName name
    · rw [if_pos hname, hset]
      rfl
    · -- A report under a name that is refused cannot be the one of the prompt.
      have hne : name ≠ promptName := by
        rintro rfl
        exact hname rfl
      rw [if_neg hname, if_neg hne]
      rfl
  · split
    · next hn =>
      have hstop : { s with history := s.history.stop } = s ↔ s.history.stop = s.history :=
        ⟨congrArg Session.history, fun h => by rw [h]⟩
      rw [hstop, History.stop_eq_iff hrests]
      simp [hn]
    · next hn => simp [hn]

/-- A browse goes on after the report of a volume that is held. -/
theorem reported_again_volume :
    ∃ s, (start .initial .empty).callAll
        [.variableSet "volume".toList ['7'], .request (.event .historyPrev)] = some s ∧
      s.history.isBrowsing = true ∧ s.vars.get? "volume".toList = some ['7'] ∧
      (s.handle (.variableSet "volume".toList ['7'])).map (·.session) = some s := by
  have hview : ((start .initial .empty).callAll
      [.variableSet "volume".toList ['7'], .request (.event .historyPrev)]).any (fun s =>
        s.history.isBrowsing && decide (s.vars.get? "volume".toList = some ['7'])) = true := by
    decide +kernel
  obtain ⟨s, hs, hview⟩ := (Option.any_eq_true _ _).1 hview
  obtain ⟨hbrowsing, hheld⟩ := Bool.and_eq_true_iff.1 hview
  have hheld : s.vars.get? "volume".toList = some ['7'] := of_decide_eq_true hheld
  obtain ⟨t, hkept, -, ht, -⟩ := reported_again hs (by decide) (by decide) (by decide) hheld
  rw [if_neg (by decide)] at hkept
  exact ⟨s, hs, hbrowsing, hheld, hkept ▸ ht⟩

/-- The prompt was shown when its bind went on the stack. Its report comes while the lines submitted
there are browsed, and the step on after it no longer brings back what was typed before. -/
theorem reported_again_ends_browse :
    ∃ s t u v, (start .initial .empty).callAll
        [.line "MODE_BIND command o<uri:>_ = uri %s".toList, .request (.event (.keyPress [] ['o'])),
          .request (.event (.setLine "a.org".toList)), .request (.event .submit),
          .request (.event (.keyPress [] ['o'])), .request (.event (.keyPress [] ['b'])),
          .request (.event .historyPrev)] = some s ∧
      s.vars.get? promptName = some "uri:".toList ∧ s.history.isBrowsing = true ∧
      s.serve (.event (.variableSet promptName "uri:".toList)) = some t ∧
      t.history.isBrowsing = false ∧
      s.serve (.event .historyNext) = some u ∧ u.input.line = ['b'] ∧
      t.serve (.event .historyNext) = some v ∧ v.input.line = "a.org".toList := by
  have hview : ((start .initial .empty).callAll
      [.line "MODE_BIND command o<uri:>_ = uri %s".toList, .request (.event (.keyPress [] ['o'])),
        .request (.event (.setLine "a.org".toList)), .request (.event .submit),
        .request (.event (.keyPress [] ['o'])), .request (.event (.keyPress [] ['b'])),
        .request (.event .historyPrev)]).any (fun s =>
      (decide (s.vars.get? promptName = some "uri:".toList) && s.history.isBrowsing) &&
        ((s.serve (.event .historyNext)).any (·.input.line = ['b']) &&
          (s.serve (.event (.variableSet promptName "uri:".toList))).any (fun t =>
            !t.history.isBrowsing &&
              (t.serve (.event .historyNext)).any (·.input.line = "a.org".toList)))) = true := by
    decide +kernel
  obtain ⟨s, hs, hview⟩ := (Option.any_eq_true _ _).1 hview
  obtain ⟨hbrowses, hview⟩ := Bool.and_eq_true_iff.1 hview
  obtain ⟨hshown, hbrowsing⟩ := Bool.and_eq_true_iff.1 hbrowses
  obtain ⟨hnext, hview⟩ := Bool.and_eq_true_iff.1 hview
  obtain ⟨u, hu, hdraft⟩ := (Option.any_eq_true _ _).1 hnext
  obtain ⟨t, ht, hview⟩ := (Option.any_eq_true _ _).1 hview
  obtain ⟨hended, hview⟩ := Bool.and_eq_true_iff.1 hview
  obtain ⟨v, hv, hlost⟩ := (Option.any_eq_true _ _).1 hview
  exact ⟨s, t, u, v, hs, of_decide_eq_true hshown, hbrowsing, ht, by simpa using hended, hu,
    of_decide_eq_true hdraft, hv, of_decide_eq_true hlost⟩

end Session

end ModalKeys
