import ModalKeys.Proofs.Session.Calls

namespace ModalKeys

namespace Variables

/-- The variables of a host once an effect has reached it. -/
def apply (v : Variables) : Effect → Variables
  | .send _ => v
  | .set name value => v.set name value

def applyAll (v : Variables) (es : List Effect) : Variables := es.foldl apply v

/-- The variables of a host that has set one of them by itself, if it has. -/
def reported (v : Variables) : Option (Text × Text) → Variables
  | none => v
  | some (name, value) => v.set name value

/-- Holds when each write among some effects changes the value that is held when it comes up. -/
def Telling (v : Variables) (es : List Effect) : Prop :=
  ∀ i name value, es[i]? = some (.set name value) →
    (v.applyAll (es.take i)).changes name value = true

theorem telling_nil (v : Variables) : v.Telling [] := by
  intro i name value h
  cases h

theorem telling_append {v : Variables} {es es' : List Effect} (h : v.Telling es)
    (h' : (v.applyAll es).Telling es') : v.Telling (es ++ es') := by
  intro i name value hi
  by_cases hl : i < es.length
  · rw [List.getElem?_append_left hl] at hi
    have ht : (es ++ es').take i = es.take i := List.take_append_of_le_length (Nat.le_of_lt hl)
    rw [ht]
    exact h i name value hi
  · have hle : es.length ≤ i := Nat.le_of_not_lt hl
    rw [List.getElem?_append_right hle] at hi
    have ht : (es ++ es').take i = es ++ es'.take (i - es.length) := by
      rw [List.take_append, List.take_of_length_le hle]
    rw [ht, applyAll, List.foldl_append]
    exact h' (i - es.length) name value hi

theorem telling_singleton {v : Variables} {e : Effect}
    (h : ∀ name value, e = .set name value → v.changes name value = true) : v.Telling [e] := by
  intro i name value hi
  cases i with
  | zero => exact h name value (Option.some.inj hi)
  | succ i => cases hi

end Variables

namespace Session

/-- Holds when `s'` comes from `s` by queueing some effects, of which the writes are just those that
its variables have gone through. -/
structure Queues (s : Session) (es : List Effect) (s' : Session) : Prop where
  outbox : s'.outbox = s.outbox ++ es
  vars : s'.vars = s.vars.applyAll es
  telling : s.vars.Telling es

namespace Queues

variable {s s' s'' : Session} {es es' : List Effect}

theorem none (ho : s'.outbox = s.outbox) (hv : s'.vars = s.vars) : Queues s [] s' :=
  ⟨by rw [ho, List.append_nil], hv, Variables.telling_nil _⟩

theorem trans (h : Queues s es s') (h' : Queues s' es' s'') : Queues s (es ++ es') s'' := by
  refine ⟨?_, ?_, ?_⟩
  · rw [h'.outbox, h.outbox, List.append_assoc]
  · rw [h'.vars, h.vars, Variables.applyAll, Variables.applyAll, Variables.applyAll,
      List.foldl_append]
  · have ht := h'.telling
    rw [h.vars] at ht
    exact Variables.telling_append h.telling ht

theorem assign (s : Session) (name value : Text) : ∃ es, Queues s es (s.assign name value) := by
  unfold Session.assign
  split
  · next hc =>
    refine ⟨[.set name value], ?_, ?_, ?_⟩
    · rw [outbox_noteVariable]
      rfl
    · rw [vars_noteVariable]
      rfl
    · refine Variables.telling_singleton fun n v he => ?_
      cases he
      exact hc
  · exact ⟨[], none rfl rfl⟩

/-- A switch to another mode changes the value of the mode, also when there was none. -/
theorem switch {mode : Text} (h : s.mode ≠ mode) :
    Queues s [.set modeName mode]
      ({ s with vars := s.vars.set modeName mode }.emit (.set modeName mode)) := by
  refine ⟨rfl, rfl, Variables.telling_singleton fun n v he => ?_⟩
  cases he
  rw [Variables.changes, bne_iff_ne]
  intro hg
  have hm : s.mode = (Variables.assigned mode).getD [] := by rw [Session.mode, Variables.getD, hg]
  have ha : (Variables.assigned mode).getD [] = mode := by cases mode <;> rfl
  exact h (hm.trans ha)

end Queues

theorem Deed.queues {s s' : Session} (h : Deed s s') : ∃ es, Queues s es s' := by
  cases h with
  | keyboard k => exact ⟨[], .none rfl rfl⟩
  | keymap k => exact ⟨[], .none rfl rfl⟩
  | completion c kept => exact ⟨[], .none rfl rfl⟩
  | configured mode name value => exact ⟨[], .none rfl rfl⟩
  | log rs => exact ⟨[], .none rfl rfl⟩
  | send command =>
    exact ⟨[.send command], rfl, rfl, Variables.telling_singleton fun n v he => nomatch he⟩
  | assign name value plain => exact Queues.assign s name value
  | switch mode other => exact ⟨_, Queues.switch other⟩

theorem Move.queues {s s' : Session} (h : Move s s') : ∃ es, Queues s es s' := by
  cases h with
  | deed h => exact h.queues
  | history h kept rests => exact ⟨[], .none rfl rfl⟩

theorem Moves.queues {s s' : Session} (h : Moves s s') : ∃ es, Queues s es s' := by
  induction h with
  | refl => exact ⟨[], .none rfl rfl⟩
  | tail _ hm ih =>
    obtain ⟨es, hs⟩ := ih
    obtain ⟨es', ht⟩ := hm.queues
    exact ⟨es ++ es', hs.trans ht⟩

theorem vars_told (s : Session) (report : Option (Text × Text)) :
    (s.told report).vars = s.vars.reported report := by
  cases report with
  | none => rfl
  | some r => exact vars_heard s r.1 r.2

theorem outbox_told (s : Session) (report : Option (Text × Text)) :
    (s.told report).outbox = s.outbox := by
  cases report with
  | none => rfl
  | some r => exact outbox_heard s r.1 r.2

/-- The effects that a step queues. -/
def Step.queued (step : Step) : List Effect :=
  step.after.outbox.drop (step.call.kept step.before.outbox).length

/-- The effects that a session has queued once it has been used, whether or not it still holds
them. -/
def queuedOver (s : Session) (calls : List Call) : List Effect :=
  s.outbox ++ (s.steps calls).flatMap Step.queued

/-- Once the report of the host has been taken in, a step comes down to the effects that it
queues. -/
theorem queues_call {s t : Session} {c : Call} (h : s.call c = some t) :
    Queues (Session.told { s with outbox := c.kept s.outbox } c.reported?) (Step.mk s c t).queued t := by
  obtain ⟨queued, hq⟩ := (moves_call h).queues
  have ho := hq.outbox
  rw [outbox_told] at ho
  have he : (Step.mk s c t).queued = queued := by
    rw [Step.queued, ho]
    exact List.drop_left
  rw [he]
  exact hq

/-- A session comes to its first state by the effects that it then has queued. -/
theorem queues_start (settings : Settings) (r : Registry) :
    ∃ k, Moves ⟨k, .ofRegistry r, .empty, .empty, .empty, settings.defaultMode, [], [], []⟩
        (start settings r) ∧
      Queues ⟨k, .ofRegistry r, .empty, .empty, .empty, settings.defaultMode, [], [], []⟩
        (start settings r).outbox (start settings r) := by
  obtain ⟨k, hk⟩ := moves_start settings r
  obtain ⟨queued, hq⟩ := hk.queues
  have ho : (start settings r).outbox = queued := hq.outbox
  rw [ho]
  exact ⟨k, hk, hq⟩

/-- A session begins with the variables that its first writes leave with a host that has none.
From then on each step leaves the variables that were held before it, with what the host reports set
first, and then the queued writes made in their order, each of which changes something. -/
theorem mirror_follows_host :
    (∀ settings r, (start settings r).vars = Variables.empty.applyAll (start settings r).outbox ∧
      Variables.empty.Telling (start settings r).outbox) ∧
    ∀ (s : Session) (calls : List Call), ∀ step ∈ s.steps calls, ∃ queued,
      step.after.outbox = step.call.kept step.before.outbox ++ queued ∧
      step.after.vars = (step.before.vars.reported step.call.reported?).applyAll queued ∧
      (step.before.vars.reported step.call.reported?).Telling queued := by
  constructor
  · intro settings r
    obtain ⟨k, hk⟩ := moves_start settings r
    obtain ⟨queued, hq⟩ := hk.queues
    have ho : (start settings r).outbox = queued := hq.outbox
    rw [ho]
    exact ⟨hq.vars, hq.telling⟩
  · intro s calls step h
    obtain ⟨queued, hq⟩ := (moves_call (call_of_mem_steps h)).queues
    have ho := hq.outbox
    have hv := hq.vars
    have ht := hq.telling
    rw [outbox_told] at ho
    rw [vars_told] at hv ht
    exact ⟨queued, ho, hv, ht⟩

/-- The host takes a session out of the stack mode, which then unsets its prompt. -/
theorem mirror_after_report :
    ∃ step ∈ (start .initial .empty).steps
        [.line "MODE_BIND command f<go:>_ = go %s".toList, .request (.event (.keyPress [] ['f'])),
          .line "VARIABLE_SET mode insert".toList],
      step.call.reported? = some (modeName, "insert".toList) ∧ ∃ queued,
        step.after.outbox = step.call.kept step.before.outbox ++ queued ∧
        step.after.vars = (step.before.vars.reported step.call.reported?).applyAll queued ∧
        (step.before.vars.reported step.call.reported?).Telling queued := by
  have hr : ((start .initial .empty).steps
      [.line "MODE_BIND command f<go:>_ = go %s".toList, .request (.event (.keyPress [] ['f'])),
        .line "VARIABLE_SET mode insert".toList])[2]?.map (·.call.reported?) =
          some (some (modeName, "insert".toList)) := by decide +kernel
  obtain ⟨step, hs, hr⟩ := Option.map_eq_some_iff.1 hr
  have hm := List.mem_of_getElem? hs
  exact ⟨step, hm, hr, mirror_follows_host.2 _ _ _ hm⟩

end Session

end ModalKeys
