import ModalKeys.Proofs.History.Browsing
import ModalKeys.Proofs.Session.Calls

namespace ModalKeys

namespace History

theorem linesAt_stepBack (h : History) (prompt : Text) :
    h.stepBack.2.linesAt prompt = h.linesAt prompt := by
  unfold stepBack
  dsimp only
  split <;> rfl

theorem linesAt_keepDraft (h : History) (current prompt : Text) :
    (h.keepDraft current).linesAt prompt = h.linesAt prompt := by
  unfold keepDraft
  split <;> rfl

theorem linesAt_next (h : History) (prompt : Text) : h.next.2.linesAt prompt = h.linesAt prompt := by
  unfold next
  split
  · rfl
  · split <;> rfl

end History

namespace Session

variable {s t : Session}

/-- Holds when the history is at the prompt that is shown. -/
def AtPrompt (s : Session) : Prop := s.history.prompt = s.vars.getD promptName []

/-- Whoever sets the prompt, the history follows. -/
theorem atPrompt_stable : Stable AtPrompt where
  state := fun _ _ _ _ _ _ h => h
  completion := fun _ _ _ h => h
  configured := fun _ _ _ _ h => h
  mode := fun s name value hn h => by
    have hp : name ≠ promptName := by rcases hn with rfl | rfl <;> decide
    change s.history.prompt = (s.vars.set name value).getD promptName []
    rw [Variables.getD, Variables.get?_set, if_neg hp]
    exact h
  noted := fun s name value h => by
    rw [noteVariable_eq]
    change (if name = promptName then s.history.setPrompt value else s.history).prompt =
      (s.vars.set name value).getD promptName []
    rw [Variables.getD, Variables.get?_set]
    split
    · cases value <;> rfl
    · exact h
  history := fun _ _ kept _ h => kept.trans h

section Lines

/-- Neither a deed nor a report records a line. -/
theorem linesAt_lasting (prompt : Text) (lines : List Text) :
    Lasting (·.history.linesAt prompt = lines) where
  state := fun _ _ _ _ _ _ h => h
  completion := fun _ _ _ h => h
  configured := fun _ _ _ _ h => h
  mode := fun _ _ _ _ h => h
  noted := fun s name value h => by
    rw [noteVariable_eq]
    dsimp only
    split <;> exact h

/-- Holds of a call that submits the line. -/
def Call.submits (c : Call) : Bool :=
  match c.event? with
  | some .submit => true
  | _ => false

/-- A submission is no report of the host. -/
theorem Call.reported?_of_submits {c : Call} (h : c.submits = true) : c.reported? = none := by
  unfold submits at h
  split at h
  · next he =>
    unfold event? at he
    split at he
    · cases he
      rfl
    · rw [reported?, he]
      rfl
    · cases he
  · cases h

/-- Of the events only a submission has a line recorded, at the prompt that is shown. -/
theorem linesAt_consulted (s : Session) (c : Call) (prompt : Text) :
    (s.consulted c.event?).history.linesAt prompt = s.history.linesAt prompt ++
      if c.submits ∧ s.input.line ≠ [] ∧ s.vars.getD promptName [] = prompt then [s.input.line]
      else [] := by
  have used {lines : List Text} (hl : lines = s.history.linesAt prompt) (hc : c.submits = false) :
      lines = s.history.linesAt prompt ++
        if c.submits ∧ s.input.line ≠ [] ∧ s.vars.getD promptName [] = prompt then [s.input.line]
        else [] := by
    rw [hl, hc, if_neg (by simp), List.append_nil]
  unfold consulted
  split
  · next he =>
    have hc : c.submits = true := by rw [Call.submits, he]
    rw [History.linesAt_record, hc]
    simp
  · next he =>
    refine used ?_ (by rw [Call.submits, he])
    exact (History.linesAt_stepBack _ prompt).trans (History.linesAt_keepDraft _ _ prompt)
  · next he => exact used (History.linesAt_next _ prompt) (by rw [Call.submits, he])
  · next he =>
    refine used ?_ (by rw [Call.submits, he])
    exact (History.linesAt_stepBack _ prompt).trans (History.linesAt_keepDraft _ _ prompt)
  · next hne _ _ _ =>
    refine used rfl ?_
    unfold Call.submits
    split
    · next he => exact absurd he hne
    · rfl

end Lines

/-- However a session has been used, its history is at the prompt that is shown. From there each
call leaves the lines of every prompt as they are, but that a submission adds the submitted line,
unless it is empty, to the lines that were being browsed. -/
theorem line_recorded {settings : Settings} {r : Registry} {calls : List Call}
    (hs : (start settings r).callAll calls = some s) :
    s.history.prompt = s.vars.getD promptName [] ∧
    ∀ c t, s.call c = some t → ∀ prompt, t.history.linesAt prompt = s.history.linesAt prompt ++
      if c.submits ∧ s.input.line ≠ [] ∧ s.history.prompt = prompt then [s.input.line] else [] := by
  have hp : s.AtPrompt := atPrompt_stable.callAll hs (atPrompt_stable.start settings r fun _ => rfl)
  refine ⟨hp, fun c t hc prompt => ?_⟩
  let u : Session := { s with outbox := c.kept s.outbox }
  have htold : (u.told c.reported?).history.linesAt prompt = s.history.linesAt prompt :=
    (linesAt_lasting prompt _).told _ rfl
  have ht : t.history.linesAt prompt = _ := (linesAt_lasting prompt _).deeds (deeds_call hc) rfl
  rw [ht, linesAt_consulted, htold]
  cases hsub : c.submits with
  | false => simp
  | true =>
    rw [Call.reported?_of_submits hsub, hp]
    rfl

/-- The bind that takes the submitted line ends, and its prompt with it. The line is still recorded
at that prompt. -/
theorem line_recorded_at_closed_prompt :
    ∃ s t, (start .initial .empty).callAll [.line "MODE_BIND command o<uri:>_ = uri %s".toList,
        .request (.event (.keyPress [] ['o'])), .request (.event (.setLine "a.org".toList))] = some s ∧
      s.call (.request (.event .submit)) = some t ∧
      s.history.prompt = "uri:".toList ∧ t.history.prompt = [] ∧
      t.history.linesAt "uri:".toList = s.history.linesAt "uri:".toList ++ ["a.org".toList] ∧
      t.history.linesAt [] = s.history.linesAt [] := by
  have hview : ((start .initial .empty).callAll
      [.line "MODE_BIND command o<uri:>_ = uri %s".toList, .request (.event (.keyPress [] ['o'])),
        .request (.event (.setLine "a.org".toList))]).any (fun s =>
      decide (s.input.line = "a.org".toList) && (decide (s.history.prompt = "uri:".toList) &&
        (s.call (.request (.event .submit))).any (·.history.prompt = []))) = true := by
    decide +kernel
  obtain ⟨s, hs, hview⟩ := (Option.any_eq_true _ _).1 hview
  obtain ⟨hline, hview⟩ := Bool.and_eq_true_iff.1 hview
  obtain ⟨hshown, hview⟩ := Bool.and_eq_true_iff.1 hview
  obtain ⟨t, ht, hclosed⟩ := (Option.any_eq_true _ _).1 hview
  have hline : s.input.line = "a.org".toList := of_decide_eq_true hline
  have hshown : s.history.prompt = "uri:".toList := of_decide_eq_true hshown
  have hlines := (line_recorded hs).2 _ t ht
  rw [hline, hshown] at hlines
  refine ⟨s, t, hs, ht, hshown, of_decide_eq_true hclosed, ?_, ?_⟩
  · rw [hlines]
    rfl
  · rw [hlines, if_neg (by simp), List.append_nil]

end Session

end ModalKeys
