import Mathlib.Logic.Relation
import ModalKeys.Proofs.Session.Modes

namespace ModalKeys

namespace History

theorem prompt_record (h : History) (prompt line : Text) : (h.record prompt line).prompt = h.prompt := by
  unfold record
  split <;> rfl

theorem prompt_stepBack (h : History) : h.stepBack.2.prompt = h.prompt := by
  unfold stepBack
  dsimp only
  split <;> rfl

theorem prompt_keepDraft (h : History) (current : Text) : (h.keepDraft current).prompt = h.prompt := by
  unfold keepDraft
  split <;> rfl

theorem prompt_prev (h : History) (current : Text) : (h.prev current).2.prompt = h.prompt := by
  rw [prev, prompt_stepBack, prompt_keepDraft]

theorem prompt_next (h : History) : h.next.2.prompt = h.prompt := by
  unfold next
  split
  · rfl
  · split <;> rfl

theorem prompt_search (h : History) (key current : Text) :
    (h.search key current).2.prompt = h.prompt := by
  rw [search, prompt_stepBack]
  exact prompt_keepDraft h current

/-- Holds when nothing is kept unless a browse is in progress. -/
def Rests (h : History) : Prop := h.cursor = none → h.stop = h

theorem rests_stop (h : History) : h.stop.Rests := fun _ => rfl

theorem Rests.draft {h : History} (hr : h.Rests) (hc : h.cursor = none) : h.draft = none :=
  (congrArg History.draft (hr hc)).symm

theorem rests_record (h : History) (prompt line : Text) : (h.record prompt line).Rests := by
  unfold record
  split <;> exact rests_stop _

theorem rests_stepBack (h : History) : h.stepBack.2.Rests := by
  unfold stepBack
  dsimp only
  split <;> exact fun hc => nomatch hc

theorem Rests.next {h : History} (hr : h.Rests) : h.next.2.Rests := by
  unfold History.next
  split
  · exact hr
  · split
    · exact fun hc => nomatch hc
    · exact rests_stop h

end History

/-- An event by which the host reports a variable that it has set. -/
def Event.reported? : Event → Option (Text × Text)
  | .modeChanged mode => if mode.isEmpty then none else some (Session.modeName, mode)
  | .variableSet name value => if isVariableName name then some (name, value) else none
  | _ => none

namespace Session

/-- The session with a variable configured for a mode. -/
def configured (s : Session) (mode name value : Text) : Session :=
  { s with modeConfig := s.modeConfig.put mode (((s.modeConfig.get? mode).getD []).put name value) }

/-- One thing that a session does by itself without a look at its history. The mode is written by a
switch to another one only. -/
inductive Deed : Session → Session → Prop
  | keyboard (s : Session) (k : Keyboard) : Deed s { s with keyboard := k }
  | keymap (s : Session) (k : Keymap) : Deed s { s with keymap := k }
  | completion (s : Session) (c : Completion)
      (kept : ∀ word ∈ s.completion.candidates, word ∈ c.candidates) :
      Deed s { s with completion := c }
  | configured (s : Session) (mode name value : Text) : Deed s (s.configured mode name value)
  | log (s : Session) (rs : List Run) : Deed s (s.logged rs)
  | send (s : Session) (command : Text) : Deed s (s.send command)
  | assign (s : Session) (name value : Text) (plain : name ≠ modeName) : Deed s (s.assign name value)
  | switch (s : Session) (mode : Text) (other : s.mode ≠ mode) :
      Deed s ({ s with vars := s.vars.set modeName mode }.emit (.set modeName mode))

abbrev Deeds : Session → Session → Prop := Relation.ReflTransGen Deed

/-- One thing that a session does by itself: a deed, or a use of its history. -/
inductive Move : Session → Session → Prop
  | deed {s s' : Session} (h : Deed s s') : Move s s'
  | history (s : Session) (h : History) (kept : h.prompt = s.history.prompt)
      (rests : s.history.Rests → h.Rests) : Move s { s with history := h }

abbrev Moves : Session → Session → Prop := Relation.ReflTransGen Move

/-- The session once it has heard that the host has set a variable. -/
def heard (s : Session) (name value : Text) : Session :=
  let set : Session := { s with vars := s.vars.set name value }
  if name = modeName then set
  else if name = defaultModeName then
    if value.isEmpty then set else { set with defaultMode := value }
  else set.noteVariable name value

/-- The session once it has heard a report, if there is one. -/
def told (s : Session) : Option (Text × Text) → Session
  | none => s
  | some (name, value) => s.heard name value

/-- The session once an event has used the history, if there is one that does. -/
def consulted (s : Session) : Option Event → Session
  | some .submit =>
    { s with history := s.history.record (s.vars.getD promptName []) s.input.line }
  | some .historyPrev => { s with history := (s.history.prev s.input.line).2 }
  | some .historyNext => { s with history := s.history.next.2 }
  | some (.historySearch key) => { s with history := (s.history.search key s.input.line).2 }
  | _ => s

theorem noteVariable_eq (s : Session) (name value : Text) :
    s.noteVariable name value = { s with
      completion := s.completion.addVariable name
      history := if name = promptName then s.history.setPrompt value else s.history } := by
  unfold noteVariable
  dsimp only
  split <;> rfl

theorem vars_noteVariable (s : Session) (name value : Text) :
    (s.noteVariable name value).vars = s.vars := by rw [noteVariable_eq]

theorem outbox_noteVariable (s : Session) (name value : Text) :
    (s.noteVariable name value).outbox = s.outbox := by rw [noteVariable_eq]

theorem vars_heard (s : Session) (name value : Text) :
    (s.heard name value).vars = s.vars.set name value := by
  unfold heard
  dsimp only
  split
  · rfl
  · split
    · split <;> rfl
    · exact vars_noteVariable _ name value

theorem outbox_heard (s : Session) (name value : Text) :
    (s.heard name value).outbox = s.outbox := by
  unfold heard
  dsimp only
  split
  · rfl
  · split
    · split <;> rfl
    · exact outbox_noteVariable _ name value

namespace Deeds

variable {s s' : Session}

theorem one (h : Deed s s') : Deeds s s' := .single h

section Writes

theorem assignAll (s : Session) (config : Assoc Text) : Deeds s (s.assignAll config) := by
  refine List.foldlRecOn config _ (.refl : Deeds s s) fun t h entry _ => ?_
  by_cases hn : entry.1 = modeName
  · simpa [hn] using h
  · simpa [hn] using h.tail (.assign t entry.1 entry.2 hn)

theorem enteredMode (s : Session) (mode : Text) : Deeds s (s.enteredMode mode) := by
  have ha := assignAll s ((s.modeConfig.get? mode).getD [])
  unfold Session.enteredMode
  dsimp only
  split
  · exact ha
  · exact (ha.tail (.keymap _ _)).tail (.assign _ promptName [] (by decide))

theorem setMode (s : Session) (mode : Text) : Deeds s (s.setMode mode) := by
  by_cases h : s.mode = s.target mode
  · rw [setMode_of_eq h]
  · rw [setMode_of_ne h]
    exact (one (.switch s _ h)).trans (enteredMode _ _)

theorem write (s : Session) (name value : Text) : Deeds s (s.write name value) := by
  unfold Session.write
  split
  · exact setMode s value
  · next hn => exact one (.assign s name value hn)

theorem perform (s : Session) (e : Effect) : Deeds s (s.perform e) := by
  cases e with
  | send command => exact one (.send s command)
  | set name value => exact write s name value

theorem run (s : Session) (b : Bind) (args : List Text) : Deeds s (s.run b args) := by
  rw [run_eq]
  exact List.foldlRecOn _ _ (one (.log s _)) fun t h e _ => h.trans (perform t e)

theorem configureMode (s : Session) (mode name value : Text) :
    Deeds s (s.configureMode mode name value) := by
  unfold Session.configureMode
  dsimp only
  split
  · next ha =>
    have hn : name ≠ modeName := of_decide_eq_true (Bool.and_eq_true_iff.1 ha).2
    exact (one (.configured s mode name value)).tail (.assign _ name value hn)
  · exact one (.configured s mode name value)

/-- A report of the mode that the session is in is no news. -/
theorem modeChanged (s : Session) {mode : Text} (hn : mode ≠ []) :
    Deeds (s.heard modeName mode) (s.modeChanged mode) := by
  rw [heard, if_pos rfl]
  by_cases hm : s.mode = mode
  · have hv : s.vars.get? modeName = some mode := by
      unfold Session.mode Variables.getD at hm
      cases hg : s.vars.get? modeName with
      | none => rw [hg] at hm; exact absurd hm.symm hn
      | some m => rw [hg] at hm; exact congrArg some hm
    have hs : s.vars.set modeName mode = s.vars :=
      Variables.set_of_get? (by simp [hv, Variables.assigned, hn])
    rw [modeChanged_of_eq (.inr hm), hs]
  · unfold Session.modeChanged
    rw [if_neg (by simp [hn, hm])]
    exact enteredMode _ mode

theorem variableSet (s : Session) (name value : Text) :
    Deeds (s.heard name value) (s.variableSet name value) := by
  unfold Session.variableSet
  dsimp only
  split
  · next hn =>
    subst hn
    split
    · rw [heard, if_pos rfl]
      exact setMode _ []
    · next hv => exact modeChanged s (by simpa using hv)
  · next hn =>
    rw [heard, if_neg hn]
    split
    · split
      · exact .refl
      · split
        · exact setMode _ []
        · exact .refl
    · exact .refl

end Writes

section Display

theorem stopCompletion (s : Session) : Deeds s s.stopCompletion :=
  (one (.completion s s.completion.stop fun _ h => h)).tail (.assign _ hintsName [] (by decide))

theorem clearLine (s : Session) : Deeds s s.clearLine :=
  ((one (.keyboard s _)).tail (.assign _ lineName [] (by decide))).trans (stopCompletion _)

theorem clearChord (s : Session) : Deeds s s.clearChord :=
  (one (.keyboard s _)).tail (.assign _ chordName [] (by decide))

theorem clearActive (s : Session) : Deeds s s.clearActive := by
  unfold Session.clearActive
  split
  · exact clearChord s
  · exact clearLine s

theorem refreshHints (s : Session) : Deeds s s.refreshHints := by
  unfold Session.refreshHints
  split
  · exact stopCompletion s
  · split
    · exact one (.assign s hintsName _ (by decide))
    · exact .refl

theorem showChord (s : Session) (modifiers : Modifiers) (old : Input) :
    Deeds s (s.showChord modifiers old) := by
  obtain h | ⟨value, h⟩ := s.showChord_cases modifiers old
  · rw [h]
  · rw [h]
    exact one (.assign s chordName value (by decide))

theorem showLine (s : Session) (old : Input) : Deeds s (s.showLine old) := by
  obtain h | ⟨value, h⟩ := s.showLine_cases old
  · rw [h]
  · rw [h]
    exact one (.assign s lineName value (by decide))

theorem refresh (s : Session) (modifiers : Modifiers) (old : Input) :
    Deeds s (s.refresh modifiers old) := by
  unfold Session.refresh
  dsimp only
  split
  · exact (showChord s modifiers old).trans (showLine _ old)
  · exact ((refreshHints s).trans (showChord _ modifiers old)).trans (showLine _ old)

end Display

section Matching

variable {changed : Session → Option Session} (hc : ∀ s s', changed s = some s' → Deeds s s')

include hc

theorem showPrompt {p : Prompt} (h : s.showPrompt changed p = some s') : Deeds s s' := by
  have hl : Deeds s (if p.label.isEmpty then s.clearLine else s.clearLine.assign promptName p.label) := by
    split
    · exact clearLine s
    · exact (clearLine s).tail (.assign _ promptName _ (by decide))
  unfold Session.showPrompt at h
  dsimp only at h
  split at h
  · cases h
    exact hl
  · split at h
    · cases h
      exact hl.tail (.send _ _)
    · exact (hl.tail (.keyboard _ _)).trans (hc _ _ h)

theorem react {r : Reaction} (h : s.react changed r = some s') : Deeds s s' := by
  cases r with
  | run b args => cases h; exact run s b args
  | clearActive => cases h; exact clearActive s
  | enterStack => cases h; exact setMode s stackMode
  | prompt p => exact showPrompt hc h
  | leaveStack restore =>
    cases h
    exact (one (.assign s promptName [] (by decide))).trans (setMode _ _)

theorem foldlM_react {rs : List Reaction} (h : rs.foldlM (Session.react changed) s = some s') :
    Deeds s s' := by
  induction rs generalizing s with
  | nil => cases h; exact .refl
  | cons r rs ih =>
    obtain ⟨t, hr, ht⟩ := Option.bind_eq_some_iff.1 h
    exact (react hc hr).trans (ih ht)

theorem dispatch {note : Notification} {text : Text}
    (h : s.dispatch changed note text = some s') : Deeds s s' :=
  (one (.keymap s _)).trans (foldlM_react hc h)

end Matching

theorem updateWithin (limit : Nat) (modifiers : Modifiers) :
    ∀ s s', Session.updateWithin limit modifiers s = some s' → Deeds s s' := by
  -- On the limit: a line that is filled in is matched under the limit below.
  induction limit generalizing modifiers with
  | zero => intro s s' h; cases h
  | succ limit ih =>
    intro s s' h
    obtain ⟨matched, hm, rfl⟩ := Option.map_eq_some_iff.1 h
    refine Relation.ReflTransGen.trans ?_ (refresh matched modifiers s.input)
    split at hm
    · exact dispatch (ih ∅) hm
    · exact dispatch (ih ∅) hm

theorem notify {note : Notification} {text : Text} (h : s.notify note text = some s') :
    Deeds s s' := dispatch (updateWithin s.limit ∅) h

theorem edit {i : Input} (h : s.edit i = some s') : Deeds s s' :=
  (one (.keyboard s _)).trans (updateWithin _ ∅ _ _ h)

theorem edit? {i : Option Input} (h : s.edit? i = some s') : Deeds s s' := by
  unfold Session.edit? at h
  split at h
  · exact edit h
  · cases h
    exact .refl

section Events

theorem keyPress {field key : Text} (h : s.keyPress field key = some s') : Deeds s s' := by
  have hk := one (.keyboard s (s.keyboard.press field key s.isTyping).2)
  unfold Session.keyPress at h
  dsimp only at h
  split at h
  · exact hk.trans (updateWithin _ _ _ _ h)
  · cases h
    exact hk.tail (.assign _ lineName [] (by decide))

theorem keyRelease {field key : Text} (h : s.keyRelease field key = some s') : Deeds s s' := by
  have hk := one (.keyboard s (s.keyboard.release field key).2)
  unfold Session.keyRelease at h
  dsimp only at h
  split at h
  · cases h
    exact hk
  · cases h
    exact hk.trans (clearChord _)
  · obtain ⟨matched, hm, rfl⟩ := Option.map_eq_some_iff.1 h
    exact (hk.trans (notify hm)).trans (clearChord matched)

theorem submit (h : s.submit = some s') : Deeds (s.consulted (some .submit)) s' := by
  obtain ⟨matched, hm, rfl⟩ := Option.map_eq_some_iff.1 h
  exact (notify hm).trans (clearLine matched)

theorem showHistory {found : Option Text × History} (h : s.showHistory found = some s') :
    Deeds { s with history := found.2 } s' := by
  unfold Session.showHistory at h
  dsimp only at h
  split at h
  · exact edit h
  · cases h
    exact .refl

theorem startCompletion (h : s.startCompletion = some s') : Deeds s s' := by
  unfold Session.startCompletion at h
  split at h
  · cases h
    exact stopCompletion s
  · next p _ =>
    have hk := one (.completion s (s.completion.advance p).2 fun _ h => h)
    dsimp only at h
    split at h
    · cases h
      exact hk
    · obtain ⟨matched, hm, rfl⟩ := Option.map_eq_some_iff.1 h
      exact (hk.trans (edit hm)).trans (stopCompletion matched)
    · obtain ⟨matched, hm, rfl⟩ := Option.map_eq_some_iff.1 h
      refine Relation.ReflTransGen.trans ?_ (refreshHints matched)
      split at hm
      · cases hm
        exact hk
      · exact hk.trans (edit hm)

theorem define (s : Session) (d : Except SyntaxError Definition) : Deeds s (s.define d).session := by
  cases d with
  | error e => exact .refl
  | ok d => exact one (.keymap s _)

theorem addModmap (s : Session) (source target : Text) : Deeds s (s.addModmap source target).session := by
  unfold Session.addModmap
  split
  · exact one (.keyboard s _)
  · exact .refl

theorem addIgnore (s : Session) (rule : Text) : Deeds s (s.addIgnore rule).session := by
  unfold Session.addIgnore
  split
  · exact one (.keyboard s _)
  · exact .refl

theorem withVariable (s : Session) {name : Text} {next : Session}
    (h : isVariableName name = true → Deeds s next) : Deeds s (s.withVariable name next).session := by
  unfold Session.withVariable checkVariableName
  by_cases hn : isVariableName name = true
  · rw [if_pos hn]
    exact h hn
  · rw [if_neg hn]
    exact .refl

/-- Whatever an event asks for, it comes down to deeds after the report, if it is one, and the use
of the history, if it makes one. -/
theorem handle {e : Event} {reply : Reply} (h : s.handle e = some reply) :
    Deeds ((s.told e.reported?).consulted (some e)) reply.session := by
  have accepted {s : Session} {x : Option Session} (hx : ∀ s', x = some s' → Deeds s s')
      (he : x.map Reply.accepted = some reply) : Deeds s reply.session := by
    obtain ⟨s', hs', rfl⟩ := Option.map_eq_some_iff.1 he
    exact hx s' hs'
  cases e with
  | keyPress field key => exact accepted (fun _ => keyPress) h
  | keyRelease field key => exact accepted (fun _ => keyRelease) h
  | setLine t => exact accepted (fun _ => edit) h
  | inject t => exact accepted (fun _ => edit) h
  | append t => exact accepted (fun _ => edit) h
  | backspace => exact accepted (fun _ => edit?) h
  | delete => exact accepted (fun _ => edit?) h
  | stripWord seps => exact accepted (fun _ => edit?) h
  | submit => exact accepted (fun _ => submit) h
  | moveCursor target => exact accepted (fun _ => edit) h
  | historyPrev => exact accepted (fun _ => showHistory) h
  | historyNext => exact accepted (fun _ => showHistory) h
  | historySearch key => exact accepted (fun _ => showHistory) h
  | startCompletion => exact accepted (fun _ => startCompletion) h
  | clearLine => cases h; exact clearLine s
  | stopCompletion => cases h; exact stopCompletion s
  | builtins names =>
    cases h
    exact one (.completion s _ fun word hw => TextSet.mem_insertAll.2 (.inr hw))
  | modmap source target => cases h; exact addModmap s source target
  | ignoreKey rule => cases h; exact addIgnore s rule
  | bind line => cases h; exact define s _
  | modeBind line => cases h; exact define s _
  | modeConfig mode name value =>
    cases h
    exact withVariable s fun _ => configureMode s mode name value
  | modeChanged mode =>
    cases h
    by_cases hm : mode = []
    · rw [hm]
      exact .refl
    · have hr : (Event.modeChanged mode).reported? = some (modeName, mode) := by
        simp [Event.reported?, hm]
      rw [hr]
      exact modeChanged s hm
  | variableSet name value =>
    cases h
    unfold Session.withVariable checkVariableName
    by_cases hn : isVariableName name = true
    · have hr : (Event.variableSet name value).reported? = some (name, value) := if_pos hn
      rw [if_pos hn, hr]
      exact variableSet s name value
    · have hr : (Event.variableSet name value).reported? = none := if_neg hn
      rw [if_neg hn, hr]
      exact .refl

end Events

end Deeds

theorem Deeds.moves {s s' : Session} (h : Deeds s s') : Moves s s' :=
  Relation.ReflTransGen.mono (fun _ _ => Move.deed) s s' h

namespace Moves

variable {s : Session}

theorem consulted (s : Session) (e : Option Event) : Moves s (s.consulted e) := by
  have used {h : History} (kept : h.prompt = s.history.prompt)
      (rests : s.history.Rests → h.Rests) : Moves s { s with history := h } :=
    .single (.history s h kept rests)
  unfold Session.consulted
  split
  · exact used (History.prompt_record _ _ _) fun _ => History.rests_record _ _ _
  · exact used (History.prompt_prev _ _) fun _ => History.rests_stepBack _
  · exact used (History.prompt_next _) .next
  · exact used (History.prompt_search _ _ _) fun _ => History.rests_stepBack _
  · exact .refl

end Moves

end Session

end ModalKeys
