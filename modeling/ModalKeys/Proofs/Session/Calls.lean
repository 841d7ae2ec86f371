import ModalKeys.Proofs.Session.Invariant
import ModalKeys.Proofs.Session.Moves

namespace ModalKeys

namespace Session

/-- A session comes to its first state by moves, from one that holds no variables yet. -/
theorem moves_start (settings : Settings) (r : Registry) :
    ∃ k, Moves ⟨k, .ofRegistry r, .empty, .empty, .empty, settings.defaultMode, [], [], []⟩
      (start settings r) := by
  refine start_induction (P := fun s => ∃ k, Moves
    ⟨k, .ofRegistry r, .empty, .empty, .empty, settings.defaultMode, [], [], []⟩ s) settings r ?_ ?_ ?_ ?_
  · exact fun k => ⟨k, .refl⟩
  · rintro s mode name value ⟨k, h⟩
    exact ⟨k, h.trans (Deeds.configureMode s mode name value).moves⟩
  · rintro s name value hn ⟨k, h⟩
    exact ⟨k, h.tail (.deed (.assign s name value hn))⟩
  · rintro s mode ⟨k, h⟩
    exact ⟨k, h.trans (Deeds.setMode s mode).moves⟩

/-- What can be asked of a session: besides what its host asks for, a line to be read, a report
whose name is not checked, a change of the mode or of its configuration, an effect of a handler,
and another keymap in place of its own. -/
inductive Call
  | request (r : Request)
  | line (t : Text)
  | modeChanged (mode : Text)
  | variableSet (name value : Text)
  | setMode (mode : Text)
  | configureMode (mode name value : Text)
  | perform (e : Effect)
  | clearChord
  | keymap (k : Keymap)

namespace Call

/-- The variable that the host reports by a call. -/
def reported? : Call → Option (Text × Text)
  | request (.event e) => e.reported?
  | line t => (Event.parse t).toOption.bind Event.reported?
  | modeChanged mode => (Event.modeChanged mode).reported?
  | variableSet name value => some (name, value)
  | _ => none

/-- The event that a call has a session handle, if it is one that uses the history. -/
def event? : Call → Option Event
  | request (.event e) => some e
  | line t => (Event.parse t).toOption
  | _ => none

/-- The effects that are still queued once a call is made. -/
def kept : Call → List Effect → List Effect
  | request .drain, _ => []
  | _, es => es

end Call

def call (s : Session) : Call → Option Session
  | .request r => s.serve r
  | .line t => (s.handleLine t).map (·.session)
  | .modeChanged mode => some (s.modeChanged mode)
  | .variableSet name value => some (s.variableSet name value)
  | .setMode mode => some (s.setMode mode)
  | .configureMode mode name value => some (s.configureMode mode name value)
  | .perform e => some (s.perform e)
  | .clearChord => some s.clearChord
  | .keymap k => some { s with keymap := k }

def callAll (s : Session) (calls : List Call) : Option Session := calls.foldlM call s

/-- A call with the sessions before and after it. -/
structure Step where
  before : Session
  call : Call
  after : Session

/-- The steps of a run, up to a call that does not finish. -/
def steps (s : Session) : List Call → List Step
  | [] => []
  | c :: cs =>
    match s.call c with
    | some t => ⟨s, c, t⟩ :: t.steps cs
    | none => []

theorem call_of_mem_steps {s : Session} {calls : List Call} {step : Step}
    (h : step ∈ s.steps calls) : step.before.call step.call = some step.after := by
  induction calls generalizing s with
  | nil => cases h
  | cons c cs ih =>
    rw [steps] at h
    split at h
    · next t ht =>
      rcases List.mem_cons.1 h with rfl | h
      · exact ht
      · exact ih h
    · cases h

/-- What holds of a run so far, as long as each further call keeps it, holds of all its steps. -/
theorem steps_induction {P : List Step → Session → Prop} {s t : Session} {calls : List Call}
    (hs : s.callAll calls = some t) (start : P [] s)
    (step : ∀ done u c v, P done u → u.call c = some v → P (done ++ [⟨u, c, v⟩]) v) :
    P (s.steps calls) t := by
  induction calls generalizing s P with
  | nil => cases hs; exact start
  | cons c calls ih =>
    obtain ⟨u, hu, ht⟩ := Option.bind_eq_some_iff.1 hs
    rw [steps, hu]
    exact ih (P := fun done => P (⟨s, c, u⟩ :: done)) ht (step [] s c u start hu)
      fun done => step (⟨s, c, u⟩ :: done)

theorem deeds_handleLine {s : Session} {t : Text} {reply : Reply}
    (h : s.handleLine t = some reply) :
    Deeds ((s.told ((Event.parse t).toOption.bind Event.reported?)).consulted
      (Event.parse t).toOption) reply.session := by
  unfold handleLine at h
  split at h
  · next e he =>
    cases h
    rw [he]
    exact .refl
  · next e he =>
    rw [he]
    exact Deeds.handle h

theorem moves_handleLine {s : Session} {t : Text} {reply : Reply}
    (h : s.handleLine t = some reply) :
    Moves (s.told ((Event.parse t).toOption.bind Event.reported?)) reply.session :=
  (Moves.consulted _ _).trans (deeds_handleLine h).moves

/-- All calls come down to deeds after the report and the use of the history, but for the one that
takes the effects away. -/
theorem deeds_call {s t : Session} {c : Call} (h : s.call c = some t) :
    Deeds ((Session.told { s with outbox := c.kept s.outbox } c.reported?).consulted c.event?) t := by
  cases c with
  | request r =>
    cases r with
    | event e =>
      obtain ⟨reply, hr, rfl⟩ := Option.map_eq_some_iff.1 h
      exact Deeds.handle hr
    | bind mode b => cases h; exact .single (.keymap s _)
    | drain => cases h; exact .refl
  | line t =>
    obtain ⟨reply, hr, rfl⟩ := Option.map_eq_some_iff.1 h
    exact deeds_handleLine hr
  | modeChanged mode =>
    have hr : s.handle (.modeChanged mode) = some (.accepted t) := by
      cases h
      rfl
    exact Deeds.handle hr
  | variableSet name value => cases h; exact Deeds.variableSet s name value
  | setMode mode => cases h; exact Deeds.setMode s mode
  | configureMode mode name value => cases h; exact Deeds.configureMode s mode name value
  | perform e => cases h; exact Deeds.perform s e
  | clearChord => cases h; exact Deeds.clearChord s
  | keymap k => cases h; exact .single (.keymap s k)

/-- All calls come down to moves after the report, but for the one that takes the effects away. -/
theorem moves_call {s t : Session} {c : Call} (h : s.call c = some t) :
    Moves (Session.told { s with outbox := c.kept s.outbox } c.reported?) t :=
  (Moves.consulted _ _).trans (deeds_call h).moves

/-- A property that outlasts deeds and what the host reports. It may bear on the completion, the
variables, the history and the configuration of the modes, and so it has to outlast the writes of
these. -/
structure Lasting (P : Session → Prop) : Prop where
  state : ∀ s keyboard keymap defaultMode outbox ran, P s →
    P { s with keyboard, keymap, defaultMode, outbox, ran }
  completion : ∀ s c, (∀ word ∈ s.completion.candidates, word ∈ c.candidates) → P s →
    P { s with completion := c }
  configured : ∀ s mode name value, P s → P (s.configured mode name value)
  mode : ∀ s name value, name = modeName ∨ name = defaultModeName → P s →
    P { s with vars := s.vars.set name value }
  noted : ∀ s name value, P s → P ({ s with vars := s.vars.set name value }.noteVariable name value)

/-- A property that outlasts the use of the history as well. -/
structure Stable (P : Session → Prop) : Prop extends Lasting P where
  history : ∀ s h, h.prompt = s.history.prompt → (s.history.Rests → h.Rests) → P s →
    P { s with history := h }

namespace Lasting

variable {P : Session → Prop} (hP : Lasting P) {s t : Session}

include hP

theorem assign (hs : P s) (name value : Text) : P (s.assign name value) := by
  unfold Session.assign
  split
  · have hn := hP.noted s name value hs
    rw [noteVariable_eq] at hn ⊢
    exact hP.state _ s.keyboard s.keymap s.defaultMode _ s.ran hn
  · exact hs

theorem deed (hd : Deed s t) (hs : P s) : P t := by
  cases hd with
  | keyboard k => exact hP.state s k s.keymap s.defaultMode s.outbox s.ran hs
  | keymap k => exact hP.state s s.keyboard k s.defaultMode s.outbox s.ran hs
  | completion c kept => exact hP.completion s c kept hs
  | configured mode name value => exact hP.configured s mode name value hs
  | log rs => exact hP.state s s.keyboard s.keymap s.defaultMode s.outbox (s.ran ++ rs) hs
  | send command =>
    exact hP.state s s.keyboard s.keymap s.defaultMode (s.outbox ++ [.send command]) s.ran hs
  | assign name value plain => exact hP.assign hs name value
  | switch mode other =>
    exact hP.state _ s.keyboard s.keymap s.defaultMode (s.outbox ++ [.set modeName mode]) s.ran
      (hP.mode s modeName mode (.inl rfl) hs)

theorem deeds (hd : Deeds s t) (hs : P s) : P t := by
  induction hd with
  | refl => exact hs
  | tail _ hd ih => exact hP.deed hd ih

theorem heard (hs : P s) (name value : Text) : P (s.heard name value) := by
  unfold Session.heard
  dsimp only
  split
  · next hn => exact hP.mode s name value (.inl hn) hs
  · split
    · next hn =>
      have hset := hP.mode s name value (.inr hn) hs
      split
      · exact hset
      · exact hP.state _ s.keyboard s.keymap value s.outbox s.ran hset
    · exact hP.noted s name value hs

theorem told (report : Option (Text × Text)) (hs : P s) : P (s.told report) := by
  cases report with
  | none => exact hs
  | some r => exact hP.heard hs r.1 r.2

end Lasting

namespace Stable

variable {P : Session → Prop} (hP : Stable P) {s t : Session}

include hP

theorem moves (h : Moves s t) (hs : P s) : P t := by
  induction h with
  | refl => exact hs
  | tail _ hm ih =>
    cases hm with
    | deed hd => exact hP.deed hd ih
    | history h kept rests => exact hP.history _ h kept rests ih

theorem call {c : Call} (hc : s.call c = some t) (hs : P s) : P t := by
  have hkept := hP.state s s.keyboard s.keymap s.defaultMode (c.kept s.outbox) s.ran hs
  exact hP.moves (moves_call hc) (hP.told _ hkept)

theorem callAll {calls : List Call} (hc : s.callAll calls = some t) (hs : P s) : P t := by
  induction calls generalizing s with
  | nil => cases hc; exact hs
  | cons c calls ih =>
    obtain ⟨next, hn, hc⟩ := Option.bind_eq_some_iff.1 hc
    exact ih hc (hP.call hn hs)

theorem start (settings : Settings) (r : Registry)
    (h : ∀ k, P ⟨k, .ofRegistry r, .empty, .empty, .empty, settings.defaultMode, [], [], []⟩) :
    P (Session.start settings r) := by
  obtain ⟨k, hm⟩ := moves_start settings r
  exact hP.moves hm (h k)

end Stable

theorem serveAll_eq_callAll (s : Session) (rs : List Request) :
    s.serveAll rs = s.callAll (rs.map .request) := by
  unfold callAll
  rw [List.foldlM_map]
  rfl

end Session

end ModalKeys
