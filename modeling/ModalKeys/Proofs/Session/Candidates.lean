import ModalKeys.Proofs.Completion.Steps
import ModalKeys.Proofs.Session.Echoes
import ModalKeys.Proofs.Session.Mirror

namespace ModalKeys.Session

variable {s t : Session}

theorem candidate_stable (word : Text) : Stable (word ∈ ·.completion.candidates) where
  state := fun _ _ _ _ _ _ h => h
  completion := fun _ _ kept h => kept word h
  configured := fun _ _ _ _ h => h
  mode := fun _ _ _ _ h => h
  noted := fun s name value h => by
    rw [noteVariable_eq]
    exact TextSet.mem_insert.2 (.inr h)
  history := fun _ _ _ _ h => h

/-- Holds when the variables that are written by the queued effects can be completed. -/
def Noted (s : Session) : Prop :=
  ∀ name value, name ≠ modeName → .set name value ∈ s.outbox → '@' :: name ∈ s.completion.candidates

theorem Noted.assign (h : s.Noted) (name value : Text) : (s.assign name value).Noted := by
  unfold Session.assign
  split
  · rw [noteVariable_eq]
    intro other v hm hw
    refine TextSet.mem_insert.2 ?_
    rcases List.mem_append.1 hw with hw | hw
    · exact .inr (h other v hm hw)
    · cases List.mem_singleton.1 hw
      exact .inl rfl
  · exact h

theorem Noted.deed (h : s.Noted) (hd : Deed s t) : t.Noted := by
  cases hd with
  | keyboard => exact h
  | keymap => exact h
  | completion c kept => exact fun name value hm hw => kept _ (h name value hm hw)
  | configured => exact h
  | log => exact h
  | send command =>
    intro name value hm hw
    rcases List.mem_append.1 hw with hw | hw
    · exact h name value hm hw
    · cases List.mem_singleton.1 hw
  | assign name value plain => exact h.assign name value
  | switch mode other =>
    intro name value hm hw
    rcases List.mem_append.1 hw with hw | hw
    · exact h name value hm hw
    · cases List.mem_singleton.1 hw
      exact absurd rfl hm

theorem Noted.moves (h : s.Noted) (hm : Moves s t) : t.Noted := by
  induction hm with
  | refl => exact h
  | tail _ hm ih =>
    cases hm with
    | deed hd => exact ih.deed hd
    | history => exact ih

theorem Noted.call (h : s.Noted) {c : Call} (hc : s.call c = some t) : t.Noted := by
  refine Noted.moves (fun name value hm hw => ?_) (moves_call hc)
  rw [outbox_told] at hw
  have hkept : .set name value ∈ s.outbox := by
    unfold Call.kept at hw
    split at hw
    · cases hw
    · exact hw
  exact (candidate_stable _).told _ (h name value hm hkept)

theorem noted_start (settings : Settings) (r : Registry) : (start settings r).Noted := by
  obtain ⟨k, hm⟩ := moves_start settings r
  exact Noted.moves (fun _ _ _ hw => absurd hw List.not_mem_nil) hm

/-- What the session has written itself can be completed, also when the effect has long been handed
out. -/
theorem candidate_of_queued {settings : Settings} {r : Registry} {calls : List Call}
    (hs : (start settings r).callAll calls = some s) {name value : Text} (hm : name ≠ modeName)
    (hq : .set name value ∈ (start settings r).queuedOver calls) :
    '@' :: name ∈ s.completion.candidates := by
  have hall : s.Noted ∧ (.set name value ∈ (start settings r).outbox ++
      ((start settings r).steps calls).flatMap Step.queued → '@' :: name ∈ s.completion.candidates) := by
    refine steps_induction (P := fun done s => s.Noted ∧ (.set name value ∈ (start settings r).outbox ++
      done.flatMap Step.queued → '@' :: name ∈ s.completion.candidates)) hs ?_ ?_
    · have hn := noted_start settings r
      exact ⟨hn, fun hw => hn name value hm (by simpa using hw)⟩
    · rintro done u c v ⟨hn, hdone⟩ hc
      have hv := hn.call hc
      refine ⟨hv, fun hw => ?_⟩
      rw [List.flatMap_append, ← List.append_assoc] at hw
      rcases List.mem_append.1 hw with hw | hw
      · exact (candidate_stable _).call hc (hdone hw)
      · rw [List.flatMap_singleton] at hw
        exact hv name value hm (List.mem_of_mem_drop hw)
  exact hall.2 hq

/-- However a session has been used, every variable that it holds can be completed from all that it
begins with, but for the mode, and for the default mode unless the session itself has written it. -/
theorem variable_offered {settings : Settings} {r : Registry} {calls : List Call}
    (hs : (start settings r).callAll calls = some s) {name value : Text}
    (hv : s.vars.get? name = some value) (hm : name ≠ modeName)
    (hd : name = defaultModeName → ∃ v, .set name v ∈ (start settings r).queuedOver calls)
    {word : Text} (hw : word <+: '@' :: name) :
    '@' :: name ∈ s.completion.candidates ∧ '@' :: name ∈ s.completion.hints word := by
  have hc : '@' :: name ∈ s.completion.candidates := by
    by_cases hn : name = defaultModeName
    · obtain ⟨v, hq⟩ := hd hn
      exact candidate_of_queued hs hm hq
    · have ho : s.Offered := offered_stable.callAll hs
        (offered_stable.start settings r fun _ _ _ _ _ hg => nomatch hg)
      exact ho name value hm hn hv
  exact ⟨hc, Completion.mem_hints.2 ⟨hc, hw⟩⟩

/-- A mode comes with a default mode of its own, so that the session has written one when it is
entered. -/
theorem variable_offered_default :
    ∃ s, (start .initial .empty).callAll
        [.line "MODE_CONFIG insert default_mode = insert".toList, .line "MODE_CHANGED insert".toList,
          .request .drain] = some s ∧
      s.vars.get? defaultModeName = some "insert".toList ∧
      '@' :: defaultModeName ∈ s.completion.candidates ∧
      '@' :: defaultModeName ∈ s.completion.hints "@de".toList := by
  have hview : ((start .initial .empty).callAll
      [.line "MODE_CONFIG insert default_mode = insert".toList, .line "MODE_CHANGED insert".toList,
        .request .drain]).any (fun s =>
      decide (s.vars.get? defaultModeName = some "insert".toList)) = true := by
    decide +kernel
  obtain ⟨s, hs, hview⟩ := (Option.any_eq_true _ _).1 hview
  have hv : s.vars.get? defaultModeName = some "insert".toList := of_decide_eq_true hview
  have hq : .set defaultModeName "insert".toList ∈ (start .initial .empty).queuedOver
      [.line "MODE_CONFIG insert default_mode = insert".toList, .line "MODE_CHANGED insert".toList,
        .request .drain] := by
    decide +kernel
  exact ⟨s, hs, hv, variable_offered hs hv (by decide) (fun _ => ⟨_, hq⟩) (by decide)⟩

/-- The mode is held from the start and cannot be completed, and neither can a default mode that the
host has reported. -/
theorem variable_not_offered :
    ∃ s, (start .initial .empty).callAll [.line "VARIABLE_SET default_mode insert".toList] = some s ∧
      s.vars.get? modeName = some "command".toList ∧ '@' :: modeName ∉ s.completion.candidates ∧
      s.vars.get? defaultModeName = some "insert".toList ∧
      '@' :: defaultModeName ∉ s.completion.candidates := by
  have hview : ((start .initial .empty).callAll
      [.line "VARIABLE_SET default_mode insert".toList]).any (fun s =>
      decide (s.vars.get? modeName = some "command".toList ∧
        '@' :: modeName ∉ s.completion.candidates ∧
        s.vars.get? defaultModeName = some "insert".toList ∧
        '@' :: defaultModeName ∉ s.completion.candidates)) = true := by
    decide +kernel
  obtain ⟨s, hs, hview⟩ := (Option.any_eq_true _ _).1 hview
  exact ⟨s, hs, of_decide_eq_true hview⟩

end ModalKeys.Session
