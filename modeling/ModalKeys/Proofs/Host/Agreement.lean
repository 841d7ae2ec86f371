import ModalKeys.Host
import ModalKeys.Proofs.Event.Report
import ModalKeys.Proofs.Session.Mirror

namespace ModalKeys

namespace Variables

/-- Two maps that hold the same values. -/
def Agree (v w : Variables) : Prop := ∀ name, v.get? name = w.get? name

namespace Agree

variable {u v w : Variables}

theorem refl (v : Variables) : Agree v v := fun _ => rfl

theorem trans (h : Agree u v) (h' : Agree v w) : Agree u w := fun n => (h n).trans (h' n)

theorem set (h : Agree v w) (name value : Text) : Agree (v.set name value) (w.set name value) := by
  intro n
  rw [get?_set, get?_set, h n]

theorem reported (h : Agree v w) (report : Option (Text × Text)) :
    Agree (v.reported report) (w.reported report) := by
  cases report with
  | none => exact h
  | some r => exact h.set r.1 r.2

theorem apply (h : Agree v w) (e : Effect) : Agree (v.apply e) (w.apply e) := by
  cases e with
  | send command => exact h
  | set name value => exact h.set name value

theorem applyAll (h : Agree v w) (es : List Effect) : Agree (v.applyAll es) (w.applyAll es) := by
  induction es generalizing v w with
  | nil => exact h
  | cons e es ih => exact ih (h.apply e)

end Agree

theorem applyAll_append (v : Variables) (es es' : List Effect) :
    v.applyAll (es ++ es') = (v.applyAll es).applyAll es' := List.foldl_append

end Variables

namespace Effect

/-- Holds for a write of the variable. -/
def writes (name : Text) : Effect → Bool
  | send _ => false
  | set other _ => other = name

end Effect

namespace Variables

/-- Assignments to different variables may be swapped. -/
theorem agree_apply_set {e : Effect} {name : Text} (h : e.writes name = false) (v : Variables)
    (value : Text) : Agree ((v.set name value).apply e) ((v.apply e).set name value) := by
  cases e with
  | send command => exact .refl _
  | set other x =>
    have hne : other ≠ name := of_decide_eq_false h
    intro n
    simp only [apply, get?_set]
    by_cases ho : other = n
    · have hn : name ≠ n := fun hn => hne (ho.trans hn.symm)
      rw [if_pos ho, if_neg hn, if_pos ho]
    · rw [if_neg ho, if_neg ho]

theorem agree_applyAll_set {es : List Effect} {name : Text}
    (h : ∀ e ∈ es, e.writes name = false) (v : Variables) (value : Text) :
    Agree ((v.set name value).applyAll es) ((v.applyAll es).set name value) := by
  induction es generalizing v with
  | nil => exact .refl _
  | cons e es ih =>
    have he := agree_apply_set (h e (by simp)) v value
    exact (he.applyAll es).trans (ih (fun d hd => h d (by simp [hd])) (v.apply e))

/-- The variables of a host once it has taken an effect: it assigns what it is told to, and what it
is sent as an assignment. -/
def hear (v : Variables) (e : Effect) : Variables := (v.apply e).reported e.hostAssignment?

def hearAll (v : Variables) (es : List Effect) : Variables := es.foldl hear v

end Variables

namespace Effect

/-- The variable that the echo of an effect reports to the session. -/
def told? (e : Effect) : Option (Text × Text) :=
  e.echo?.bind fun line => (Event.parse line).toOption.bind Event.reported?

/-- A host's assignment is reported as it is. -/
theorem told?_of_hostAssignment? {e : Effect} {name value : Text}
    (h : e.hostAssignment? = some (name, value)) : e.told? = some (name, value) := by
  cases e with
  | set other x => cases h
  | send command =>
    obtain ⟨ha, hn⟩ := Option.filter_eq_some_iff.1 h
    have hp := Event.parse_assignment hn (trimmed_of_assignment? ha)
    unfold told?
    rw [echo?_of_assignment? ha, Option.bind_some, hp]
    exact if_pos hn

end Effect

namespace Host

open Text

/-- An effect that is printed, with those that are queued behind it then. -/
structure Printed where
  effect : Effect
  waiting : List Effect

/-- Holds when the echo reports just what the host assigns, and no write of that variable is on its
way to the host. -/
def Printed.isFaithful (p : Printed) : Bool :=
  match p.effect.hostAssignment? with
  | none => p.effect.told?.isNone
  | some (name, _) => p.waiting.all (!·.writes name)

/-- What is printed, as `print` goes about it with the echo on. -/
def printing : Nat → List Effect → Session → Option (List Printed × Session)
  | _, [], s => some ([], s)
  | 0, _ :: _, _ => none
  | fuel + 1, e :: es, s => do
    let (more, s) := (← reflect true s e).drain
    let (later, s) ← printing fuel (es ++ more) s
    return (⟨e, es⟩ :: later, s)

theorem print_eq_printing (fuel : Nat) (es : List Effect) (s : Session) :
    print true fuel es s =
      (printing fuel es s).map fun (ps, s) => (ps.map (·.effect.line), s) := by
  induction fuel generalizing es s with
  | zero => cases es <;> rfl
  | succ fuel ih =>
    cases es with
    | nil => rfl
    | cons e es =>
      cases hr : reflect true s e with
      | none => simp [print, printing, hr]
      | some t =>
        have hi := ih (es ++ t.drain.1) t.drain.2
        cases hp : printing fuel (es ++ t.drain.1) t.drain.2 <;>
          simp [print, printing, hr, hi, hp]

/-- A line that has been fed, with what it is printed for it. -/
structure Fed where
  line : Text
  refusal : Option Refusal
  printed : List Printed

/-- Blank lines and lines that begin with `#` say nothing. -/
def isRemark (line : Text) : Bool := (trim line).isEmpty || (trim line).head? = some '#'

def feeding (fuel : Nat) (s : Session) (line : Text) : Option (Fed × Session) := do
  if isRemark line then return (⟨line, none, []⟩, s)
  let reply ← s.handleLine (trim line)
  let (printed, s) ← printing fuel reply.session.drain.1 reply.session.drain.2
  return (⟨line, reply.refusal, printed⟩, s)

theorem feed_eq_feeding (fuel : Nat) (s : Session) (line : Text) :
    feed true fuel s line = (feeding fuel s line).map fun (f, s) =>
      ⟨f.printed.map (·.effect.line), f.refusal, s⟩ := by
  unfold feed feeding isRemark
  dsimp only
  split
  · rfl
  · cases hr : s.handleLine (trim line) with
    | none => simp
    | some reply =>
      have hp := print_eq_printing fuel reply.session.drain.1 reply.session.drain.2
      cases hq : printing fuel reply.session.drain.1 reply.session.drain.2 <;>
        simp [flush, hp, hq]

def feedingAll (fuel : Nat) (s : Session) : List Text → Option (List Fed × Session)
  | [] => some ([], s)
  | line :: lines => do
    let (f, s) ← feeding fuel s line
    let (rest, s) ← feedingAll fuel s lines
    return (f :: rest, s)

def transcript (fs : List Fed) : Transcript :=
  ⟨fs.flatMap fun f => f.printed.map (·.effect.line), fs.flatMap (·.refusal.toList)⟩

theorem feedAll_eq_feedingAll (fuel : Nat) (s : Session) (lines : List Text) :
    feedAll true fuel s lines =
      (feedingAll fuel s lines).map fun (fs, s) => (transcript fs, s) := by
  induction lines generalizing s with
  | nil => rfl
  | cons line lines ih =>
    have hf := feed_eq_feeding fuel s line
    cases hg : feeding fuel s line with
    | none => simp [feedAll, feedingAll, hf, hg]
    | some r =>
      have hi := ih r.2
      cases hr : feedingAll fuel r.2 lines <;>
        simp [feedAll, feedingAll, transcript, hf, hg, hi, hr]

section Agreement

variable {s t : Session} {v : Variables}

theorem reflect_queues {e : Effect} (h : reflect true s e = some t) :
    ∃ es, t.outbox = s.outbox ++ es ∧ t.vars = (s.vars.reported e.told?).applyAll es := by
  unfold reflect at h
  rw [if_pos rfl] at h
  unfold Effect.told?
  split at h
  · next he =>
    cases h
    rw [he]
    exact ⟨[], (List.append_nil _).symm, rfl⟩
  · next line he =>
    obtain ⟨reply, hr, rfl⟩ := Option.map_eq_some_iff.1 h
    obtain ⟨es, hq⟩ := (Session.moves_handleLine hr).queues
    have ho := hq.outbox
    have hv := hq.vars
    rw [Session.outbox_told] at ho
    rw [Session.vars_told] at hv
    rw [he]
    exact ⟨es, ho, hv⟩

/-- The echo of one effect: what the host has not got yet stays what the session is ahead by. -/
theorem agree_reflect {e : Effect} {es : List Effect} (h : reflect true s e = some t)
    (hf : (Printed.mk e es).isFaithful = true) (ho : s.outbox = [])
    (ha : s.vars.Agree (v.applyAll (e :: es))) :
    t.vars.Agree ((v.hear e).applyAll (es ++ t.outbox)) := by
  obtain ⟨queued, hq, hv⟩ := reflect_queues h
  have hb : t.outbox = queued := by rw [hq, ho, List.nil_append]
  rw [hv, hb, Variables.applyAll_append]
  refine Variables.Agree.applyAll ?_ queued
  change s.vars.Agree ((v.apply e).applyAll es) at ha
  unfold Printed.isFaithful at hf
  unfold Variables.hear
  split at hf
  · next hn =>
    have ht : e.told? = none := Option.isNone_iff_eq_none.1 hf
    rw [hn, ht]
    exact ha
  · next name value hn =>
    have hw : ∀ d ∈ es, d.writes name = false := by simpa using hf
    rw [hn, Effect.told?_of_hostAssignment? hn]
    exact (ha.set name value).trans fun n =>
      (Variables.agree_applyAll_set hw (v.apply e) value n).symm

theorem agree_printing {fuel : Nat} {es : List Effect} {ps : List Printed}
    (h : printing fuel es s = some (ps, t)) (hf : ∀ p ∈ ps, p.isFaithful = true)
    (ho : s.outbox = []) (ha : s.vars.Agree (v.applyAll es)) :
    t.outbox = [] ∧ t.vars.Agree (v.hearAll (ps.map (·.effect))) := by
  induction fuel generalizing es s ps v with
  | zero =>
    cases es with
    | nil => cases h; exact ⟨ho, ha⟩
    | cons e es => cases h
  | succ fuel ih =>
    cases es with
    | nil => cases h; exact ⟨ho, ha⟩
    | cons e es =>
      obtain ⟨u, hu, h⟩ := Option.bind_eq_some_iff.1 h
      obtain ⟨⟨later, t'⟩, hp, h⟩ := Option.bind_eq_some_iff.1 h
      cases h
      have hu' := agree_reflect hu (hf _ List.mem_cons_self) ho ha
      have hi := ih hp (fun p hp => hf p (List.mem_cons_of_mem _ hp)) rfl hu'
      exact hi

/-- The variable that the host reports by a line. -/
def Fed.report? (f : Fed) : Option (Text × Text) :=
  if isRemark f.line then none else (Event.parse (trim f.line)).toOption.bind Event.reported?

/-- The variables of a host that has reported a line and been given what is printed for it. -/
def Fed.hear (v : Variables) (f : Fed) : Variables :=
  (v.reported f.report?).hearAll (f.printed.map (·.effect))

theorem agree_feeding {fuel : Nat} {line : Text} {f : Fed}
    (h : feeding fuel s line = some (f, t)) (hf : ∀ p ∈ f.printed, p.isFaithful = true)
    (ho : s.outbox = []) (ha : s.vars.Agree v) : t.outbox = [] ∧ t.vars.Agree (f.hear v) := by
  unfold feeding at h
  unfold Fed.hear Fed.report?
  split at h
  · next hr =>
    cases h
    rw [if_pos hr]
    exact ⟨ho, ha⟩
  · next hr =>
    obtain ⟨reply, hl, h⟩ := Option.bind_eq_some_iff.1 h
    obtain ⟨⟨printed, t'⟩, hp, h⟩ := Option.bind_eq_some_iff.1 h
    cases h
    obtain ⟨queued, hq⟩ := (Session.moves_handleLine hl).queues
    have hv := hq.vars
    have hb := hq.outbox
    rw [Session.vars_told] at hv
    rw [Session.outbox_told, ho, List.nil_append] at hb
    rw [if_neg hr]
    refine agree_printing hp hf rfl ?_
    change reply.session.vars.Agree _
    rw [hv, Session.drain, hb]
    exact (ha.reported _).applyAll queued

theorem agree_feedingAll {fuel : Nat} {lines : List Text} {fs : List Fed}
    (h : feedingAll fuel s lines = some (fs, t))
    (hf : ∀ f ∈ fs, ∀ p ∈ f.printed, p.isFaithful = true)
    (ho : s.outbox = []) (ha : s.vars.Agree v) : t.vars.Agree (fs.foldl Fed.hear v) := by
  induction lines generalizing s fs v with
  | nil => cases h; exact ha
  | cons line lines ih =>
    obtain ⟨⟨f, u⟩, hu, h⟩ := Option.bind_eq_some_iff.1 h
    obtain ⟨⟨rest, t'⟩, hr, h⟩ := Option.bind_eq_some_iff.1 h
    cases h
    obtain ⟨ho', ha'⟩ := agree_feeding hu (hf f List.mem_cons_self) ho ha
    have hi := ih hr (fun g hg => hf g (List.mem_cons_of_mem _ hg)) ho' ha'
    exact hi

end Agreement

/-- A run with the echo on: what is printed at its start, then what each line brings about. -/
structure Trace where
  first : List Printed
  fed : List Fed
  session : Session

namespace Trace

def printed (t : Trace) : List Printed := t.first ++ t.fed.flatMap (·.printed)

/-- The variables of a host that begins with none, at the end of the run. -/
def host (t : Trace) : Variables :=
  t.fed.foldl Fed.hear (Variables.empty.hearAll (t.first.map (·.effect)))

end Trace

def trace (fuel : Nat) (s : Session) (lines : List Text) : Option Trace := do
  let (first, s) ← printing fuel s.drain.1 s.drain.2
  let (fed, s) ← feedingAll fuel s lines
  return ⟨first, fed, s⟩

/-- Whatever the settings, the keymap and the lines: as long as each echo reports just what the host
assigns, and no write of the same variable is queued behind its command, the session ends with the
variables of the host. A trace is what the program prints. -/
theorem variables_agree {settings : Settings} {r : Registry} {fuel : Nat} {lines : List Text}
    {t : Trace} (h : trace fuel (.start settings r) lines = some t)
    (faithful : ∀ p ∈ t.printed, p.isFaithful = true) :
    (∃ s, flush true fuel (.start settings r) = some (t.first.map (·.effect.line), s) ∧
      feedAll true fuel s lines = some (transcript t.fed, t.session)) ∧
    t.session.vars.Agree t.host := by
  obtain ⟨⟨first, s⟩, hp, h⟩ := Option.bind_eq_some_iff.1 h
  obtain ⟨⟨fed, u⟩, hf, h⟩ := Option.bind_eq_some_iff.1 h
  cases h
  constructor
  · refine ⟨s, ?_, ?_⟩
    · rw [flush, print_eq_printing, hp]
      rfl
    · rw [feedAll_eq_feedingAll, hf]
      rfl
  · obtain ⟨k, hk⟩ := Session.moves_start settings r
    obtain ⟨queued, hq⟩ := hk.queues
    have hs : (Session.start settings r).vars.Agree (Variables.empty.applyAll queued) := by
      rw [hq.vars]
      exact .refl _
    have hd : (Session.start settings r).drain.1 = queued := hq.outbox
    rw [hd] at hp
    have hfirst : ∀ p ∈ first, p.isFaithful = true := fun p hm =>
      faithful p (List.mem_append_left _ hm)
    have hfed : ∀ f ∈ fed, ∀ p ∈ f.printed, p.isFaithful = true := fun f hf p hm =>
      faithful p (List.mem_append_right _ (List.mem_flatMap.2 ⟨f, hf, hm⟩))
    obtain ⟨ho, ha⟩ := agree_printing hp hfirst rfl hs
    exact agree_feedingAll hf hfed ho ha

/-- A prompt for a volume, whose value is sent as an assignment. -/
theorem variables_agree_of_volume :
    ∃ t, trace 20 (.start .initial .empty)
        ["MODE_BIND command v<vol:>_ = set volume = %s".toList, "KEY_PRESS v".toList,
          "SET_KEYCMD 5".toList, "KEYCMD_EXEC_CURRENT".toList, "VARIABLE_SET font mono".toList] =
        some t ∧
      (∀ p ∈ t.printed, p.isFaithful = true) ∧
      (∃ s, flush true 20 (.start .initial .empty) = some (t.first.map (·.effect.line), s) ∧
        feedAll true 20 s
          ["MODE_BIND command v<vol:>_ = set volume = %s".toList, "KEY_PRESS v".toList,
            "SET_KEYCMD 5".toList, "KEYCMD_EXEC_CURRENT".toList, "VARIABLE_SET font mono".toList] =
          some (transcript t.fed, t.session)) ∧
      t.session.vars.Agree t.host := by
  have hr : (trace 20 (.start .initial .empty)
      ["MODE_BIND command v<vol:>_ = set volume = %s".toList, "KEY_PRESS v".toList,
        "SET_KEYCMD 5".toList, "KEYCMD_EXEC_CURRENT".toList, "VARIABLE_SET font mono".toList]).map
      (·.printed.all (·.isFaithful)) = some true := by decide +kernel
  obtain ⟨t, ht, hf⟩ := Option.map_eq_some_iff.1 hr
  have hall : ∀ p ∈ t.printed, p.isFaithful = true := List.all_eq_true.1 hf
  exact ⟨t, ht, hall, variables_agree ht hall⟩

/-- A command that sets the mode is echoed once the bind is done with. The session has gone back to
the default mode by then, and the host follows it there, while the session takes the echo for a new
mode. -/
theorem variables_disagree_on_mode :
    (trace 20 (.start .initial .empty)
      ["MODE_BIND command f<go:>_ = set mode = insert".toList, "KEY_PRESS f".toList,
        "KEYCMD_EXEC_CURRENT".toList]).map
      (fun t => (t.session.vars.get? Session.modeName, t.host.get? Session.modeName)) =
      some (some "insert".toList, some "command".toList) := by
  decide +kernel

end Host

end ModalKeys
