import Mathlib.Data.List.Induction
import ModalKeys.Proofs.Session.Mirror

namespace ModalKeys

/-- The value that an effect writes to a variable. -/
def Effect.value? (name : Text) : Effect → Option Text
  | .set other value => if other = name then some value else none
  | .send _ => none

/-- The last write of a variable leaves its value. -/
theorem Variables.get?_applyAll (v : Variables) (name : Text) (es : List Effect) :
    (v.applyAll es).get? name =
      match (es.filterMap (Effect.value? name)).getLast? with
      | some value => assigned value
      | none => v.get? name := by
  induction es using List.reverseRecOn with
  | nil => rfl
  | append_singleton es e ih =>
    have hlast : v.applyAll (es ++ [e]) = (v.applyAll es).apply e := List.foldl_append
    rw [hlast, List.filterMap_append]
    cases e with
    | send command =>
      rw [apply, ih]
      simp [Effect.value?]
    | set other value =>
      rw [apply, get?_set]
      by_cases ho : other = name
      · simp [Effect.value?, ho]
      · rw [if_neg ho, ih]
        simp [Effect.value?, ho]

/-- What is said of the default mode: by a report of the host, or by a write of the session
itself. -/
inductive Saying
  | reported (mode : Text)
  | written (mode : Text)
  deriving DecidableEq

namespace Saying

def mode : Saying → Text
  | reported mode | written mode => mode

/-- The default mode that a report puts in place. The empty one leaves it. -/
def default? : Saying → Option Text
  | reported mode => if mode.isEmpty then none else some mode
  | written _ => none

theorem default?_getLast {said : List Saying} {mode : Text} (h : said.getLast? = some (.reported mode))
    (hm : mode ≠ []) : (said.filterMap default?).getLast? = some mode := by
  obtain ⟨before, rfl⟩ := List.getLast?_eq_some_iff.1 h
  simp [default?, hm]

end Saying

namespace Session

def Call.saying? (c : Call) : Option Saying :=
  c.reported?.bind fun (name, mode) => if name = defaultModeName then some (.reported mode) else none

/-- What some effects say of the default mode. -/
def written (es : List Effect) : List Saying :=
  (es.filterMap (Effect.value? defaultModeName)).map .written

def Step.sayings (step : Step) : List Saying :=
  step.call.saying?.toList ++ written step.queued

/-- All that is said of the default mode from the effects of a session on, over a run. -/
def sayings (s : Session) (calls : List Call) : List Saying :=
  written s.outbox ++ (s.steps calls).flatMap Step.sayings

/-- Holds when a session has the default mode that the host has reported last, if any, and the
variable that has been reported or written last. -/
structure Tracks (s : Session) (initial : Text) (said : List Saying) : Prop where
  held : s.defaultMode = (said.filterMap Saying.default?).getLast?.getD initial
  mirrored : s.vars.get? defaultModeName = said.getLast?.bind fun x => Variables.assigned x.mode

section Tracks

variable {s t : Session} {initial : Text} {said : List Saying}

theorem Deed.defaultMode_eq (h : Deed s t) : t.defaultMode = s.defaultMode := by
  cases h with
  | assign name value plain =>
    have hf : Frame (name = ·) s (s.assign name value) := frame_assign rfl s value
    exact hf.defaultMode
  | _ => rfl

theorem Moves.defaultMode_eq (h : Moves s t) : t.defaultMode = s.defaultMode := by
  induction h with
  | refl => rfl
  | tail _ hm ih =>
    cases hm with
    | deed hd => exact hd.defaultMode_eq.trans ih
    | history => exact ih

theorem defaultMode_heard (s : Session) (name value : Text) :
    (s.heard name value).defaultMode =
      if name = defaultModeName ∧ value ≠ [] then value else s.defaultMode := by
  unfold heard
  dsimp only
  by_cases hm : name = modeName
  · have hd : name ≠ defaultModeName := by rw [hm]; decide
    rw [if_pos hm, if_neg fun h => hd h.1]
  · rw [if_neg hm]
    by_cases hd : name = defaultModeName
    · cases value <;> simp [hd]
    · rw [if_neg hd, if_neg fun h => hd h.1, noteVariable_eq]

theorem default?_written (es : List Effect) : (written es).filterMap Saying.default? = [] := by
  rw [written, List.filterMap_map, List.filterMap_eq_nil_iff]
  exact fun _ _ => rfl

/-- A report sets both. -/
theorem Tracks.told (h : s.Tracks initial said) (c : Call) :
    (s.told c.reported?).Tracks initial (said ++ c.saying?.toList) := by
  unfold Call.saying?
  cases c.reported? with
  | none =>
    rw [Option.bind_none, Option.toList_none, List.append_nil]
    exact h
  | some r =>
    obtain ⟨name, mode⟩ := r
    by_cases hd : name = defaultModeName
    · constructor
      · rw [Session.told, defaultMode_heard, h.held]
        cases mode <;> simp [hd, Saying.default?]
      · rw [Session.told, vars_heard, Variables.get?_set]
        simp [hd, Saying.mode]
    · constructor
      · rw [Session.told, defaultMode_heard, h.held]
        simp [hd]
      · rw [Session.told, vars_heard, Variables.get?_set, h.mirrored]
        simp [hd]

/-- A write of the session sets the variable only. -/
theorem Tracks.queues (h : s.Tracks initial said) {es : List Effect} (hq : Queues s es t)
    (hd : t.defaultMode = s.defaultMode) : t.Tracks initial (said ++ written es) := by
  constructor
  · rw [hd, h.held, List.filterMap_append, default?_written, List.append_nil]
  · rw [hq.vars, Variables.get?_applyAll, h.mirrored, List.getLast?_append, written, List.getLast?_map]
    cases (es.filterMap (Effect.value? defaultModeName)).getLast? <;> rfl

theorem Tracks.call (h : s.Tracks initial said) {c : Call} (hc : s.call c = some t) :
    t.Tracks initial (said ++ (Step.mk s c t).sayings) := by
  have hkept : Session.Tracks { s with outbox := c.kept s.outbox } initial said := ⟨h.held, h.mirrored⟩
  have ht := (hkept.told c).queues (queues_call hc) (moves_call hc).defaultMode_eq
  rwa [List.append_assoc] at ht

theorem tracks_start (settings : Settings) (r : Registry) :
    (start settings r).Tracks settings.defaultMode (written (start settings r).outbox) := by
  obtain ⟨k, hm, hq⟩ := queues_start settings r
  have hs : Tracks ⟨k, .ofRegistry r, .empty, .empty, .empty, settings.defaultMode, [], [], []⟩
      settings.defaultMode [] := ⟨rfl, rfl⟩
  exact hs.queues hq hm.defaultMode_eq

theorem Tracks.callAll {settings : Settings} {r : Registry} {calls : List Call}
    (hs : (start settings r).callAll calls = some s) :
    s.Tracks settings.defaultMode ((start settings r).sayings calls) := by
  refine steps_induction (P := fun done s =>
    s.Tracks settings.defaultMode (written (start settings r).outbox ++ done.flatMap Step.sayings)) hs ?_ ?_
  · simpa using tracks_start settings r
  · intro done u c v hu hc
    have hv := hu.call hc
    simpa using hv

/-- The two agree just if the last word on the variable is not a write of another mode. -/
theorem Tracks.agree_iff (h : s.Tracks initial said) :
    (∀ mode, s.vars.get? defaultModeName = some mode → s.defaultMode = mode) ↔
      ∀ mode, said.getLast? = some (.written mode) → mode = [] ∨ mode = s.defaultMode := by
  have hm := h.mirrored
  constructor
  · intro hall mode hw
    rw [hw] at hm
    cases mode with
    | nil => exact .inl rfl
    | cons c cs => exact .inr (hall _ hm).symm
  · intro hall mode hg
    rw [hm] at hg
    obtain ⟨x, hx, hg⟩ := Option.bind_eq_some_iff.1 hg
    have hv : x.mode = mode ∧ mode ≠ [] := by
      unfold Variables.assigned at hg
      split at hg
      · cases hg
      · next hne =>
        cases hg
        exact ⟨rfl, by simpa using hne⟩
    obtain ⟨rfl, hne⟩ := hv
    cases x with
    | reported mode => rw [h.held, Saying.default?_getLast hx hne]; rfl
    | written mode => exact ((hall mode hx).resolve_left hne).symm

end Tracks

/-- However a session has been used, its default mode is the last one that the host has reported, or
else the one of the settings, and a request for no mode leads there. The variable holds another mode
just if the session itself has written that mode to it and nothing has been said of it since. -/
theorem default_mode_followed {settings : Settings} {r : Registry} {calls : List Call} {s : Session}
    (hs : (start settings r).callAll calls = some s) :
    (s.setMode []).mode = s.defaultMode ∧ (s.variableSet modeName []).mode = s.defaultMode ∧
    s.defaultMode = (((start settings r).sayings calls).filterMap Saying.default?).getLast?.getD
      settings.defaultMode ∧
    ((∀ mode, s.vars.get? defaultModeName = some mode → s.defaultMode = mode) ↔
      ∀ mode, ((start settings r).sayings calls).getLast? = some (.written mode) →
        mode = [] ∨ mode = s.defaultMode) := by
  have hf := Tracks.callAll hs
  refine ⟨mode_setMode s [], ?_, hf.held, hf.agree_iff⟩
  have hv : s.variableSet modeName [] = Session.setMode { s with vars := s.vars.set modeName [] } [] := by
    unfold variableSet
    rfl
  rw [hv]
  exact mode_setMode _ []

/-- A configuration writes the variable, and a report comes after it. -/
theorem default_mode_followed_report :
    ∃ s, (start .initial .empty).callAll
        [.line "MODE_CONFIG command default_mode = status".toList,
          .line "VARIABLE_SET default_mode insert".toList] = some s ∧
      s.vars.get? defaultModeName = some "insert".toList ∧ s.defaultMode = "insert".toList ∧
      (s.setMode []).mode = "insert".toList := by
  have hview : ((start .initial .empty).callAll
      [.line "MODE_CONFIG command default_mode = status".toList,
        .line "VARIABLE_SET default_mode insert".toList]).any (fun s =>
      decide (s.vars.get? defaultModeName = some "insert".toList)) = true := by
    decide +kernel
  obtain ⟨s, hs, hview⟩ := (Option.any_eq_true _ _).1 hview
  have hv : s.vars.get? defaultModeName = some "insert".toList := of_decide_eq_true hview
  have hlast : ((start .initial .empty).sayings
      [.line "MODE_CONFIG command default_mode = status".toList,
        .line "VARIABLE_SET default_mode insert".toList]).getLast? =
      some (.reported "insert".toList) := by
    decide +kernel
  obtain ⟨hset, -, -, hagree⟩ := default_mode_followed hs
  have hd := hagree.2 (fun mode hw => nomatch hlast.symm.trans hw) _ hv
  exact ⟨s, hs, hv, hd, hset.trans hd⟩

/-- A default mode that is configured for the mode that is active is written to the variable, and a
request for no mode still leads to the one that was there. -/
theorem default_mode_not_followed :
    ∃ s, (start .initial .empty).callAll
        [.line "MODE_CONFIG command default_mode = insert".toList] = some s ∧
      s.vars.get? defaultModeName = some "insert".toList ∧ s.defaultMode = "command".toList ∧
      (s.setMode []).mode = "command".toList := by
  have hview : ((start .initial .empty).callAll
      [.line "MODE_CONFIG command default_mode = insert".toList]).any (fun s =>
      decide (s.vars.get? defaultModeName = some "insert".toList ∧ s.defaultMode = "command".toList ∧
        (s.setMode []).mode = "command".toList)) = true := by
    decide +kernel
  obtain ⟨s, hs, hview⟩ := (Option.any_eq_true _ _).1 hview
  exact ⟨s, hs, of_decide_eq_true hview⟩

end Session

end ModalKeys
