import ModalKeys.Proofs.Keymap.FirstMatch
import ModalKeys.Proofs.Session.Core

namespace ModalKeys

/-- A text that is matched with a notification, and the session at that time. -/
structure Dispatch where
  session : Session
  note : Notification
  text : Text

namespace Dispatch

/-- What comes of a match, if no more than `limit` prompts fill in the line within one another. -/
def run (d : Dispatch) (limit : Nat) : Option Session :=
  d.session.dispatch (Session.updateWithin limit ∅) d.note d.text

def keymap (d : Dispatch) : Keymap := d.session.keymap

def mode (d : Dispatch) : Text := d.session.mode

/-- The binds that fit, in the order in which they are tried. -/
def matching (d : Dispatch) : List Bind := d.keymap.matching d.mode d.note d.text

/-- The depth of the stack on which a text is matched. -/
def depth (d : Dispatch) : Nat := d.keymap.stack.depth

/-- Holds when a prompt of the match fills in the line. -/
def fillsLine (d : Dispatch) : Bool := d.session.fillsLine d.note d.text

/-- The session once all that the match asks for is done, up to the match of a line that is filled
in. -/
def turn (d : Dispatch) : Session := d.session.turn d.note d.text

section Match

variable {d : Dispatch}

theorem dispatch_eq (h : d.keymap.Sound) (changed : Session → Option Session) :
    d.session.dispatch changed d.note d.text =
      if d.fillsLine = true then changed d.turn else some d.turn :=
  Session.dispatch_eq (s := d.session) h changed d.note d.text

theorem run_of_not_fillsLine (h : d.keymap.Sound) (hf : d.fillsLine = false) (limit : Nat) :
    d.run limit = some d.turn := by
  rw [run, dispatch_eq h, hf]
  rfl

theorem run_zero (h : d.keymap.Sound) (hf : d.fillsLine = true) : d.run 0 = none := by
  rw [run, dispatch_eq h, if_pos hf]
  rfl

/-- Nothing comes of a match for which the keymap stays as it is. -/
theorem run_of_idle (hs : d.keymap.step d.mode d.note d.text = ([], d.keymap.stack)) (limit : Nat) :
    d.run limit = some d.session :=
  Session.dispatch_of_step hs (fun _ hr => nomatch hr) _

variable {b : Bind} {later : List Bind}

/-- What a match does whose first bind has no further segments. -/
theorem turn_of_last (h : d.keymap.Sound) (hm : d.matching = b :: later)
    (hl : b.goesOn d.depth = false) :
    d.turn = (d.keymap.closing b d.note).foldl Session.follow
      (Session.run { d.session with keymap := d.keymap.closed d.mode d.note d.text b } b
        (d.keymap.argsOf b d.text)) := by
  obtain ⟨hr, hk⟩ := (Keymap.step_outcome h d.mode d.note d.text).of_last hm hl
  rw [← hk]
  change (d.keymap.step d.mode d.note d.text).1.foldl Session.follow _ = _
  rw [hr]
  rfl

theorem fillsLine_of_last (h : d.keymap.Sound) (hm : d.matching = b :: later)
    (hl : b.goesOn d.depth = false) : d.fillsLine = false := by
  obtain ⟨hr, -⟩ := (Keymap.step_outcome h d.mode d.note d.text).of_last hm hl
  change (d.keymap.step d.mode d.note d.text).1.any (·.fillsLine) = false
  rw [hr, Keymap.closing]
  split
  · split <;> rfl
  · split <;> rfl

/-- A match whose first bind has no further segments runs that bind and no other. -/
theorem ran_of_last (h : d.keymap.Sound) (hm : d.matching = b :: later)
    (hl : b.goesOn d.depth = false) :
    d.turn.ran = d.session.ran ++ [⟨b, d.keymap.argsOf b d.text⟩] := by
  obtain ⟨hr, -⟩ := (Keymap.step_outcome h d.mode d.note d.text).of_last hm hl
  have hclosing : (d.keymap.closing b d.note).filterMap Reaction.run? = [] := by
    unfold Keymap.closing
    split
    · split <;> rfl
    · split <;> rfl
  have hruns : d.session.runs d.note d.text = [⟨b, d.keymap.argsOf b d.text⟩] := by
    change (d.keymap.step d.mode d.note d.text).1.filterMap Reaction.run? = _
    rw [hr]
    exact congrArg (List.cons _) hclosing
  rw [turn, Session.ran_turn, hruns]

/-- What a match does whose first bind goes on. The prompt is the last of it. -/
theorem turn_of_more (h : d.keymap.Sound) (hm : d.matching = b :: later)
    (hg : b.goesOn d.depth = true) :
    ∃ p stack, b.prompt? (d.depth + 1) = some p ∧
      d.turn = ((d.keymap.opening d.mode d.text b).foldl Session.follow
        (d.session.withStack stack)).prompted p ∧
      ((Reaction.prompt p).fillsLine = true → d.fillsLine = true) := by
  obtain ⟨p, hp, hr, -⟩ := (Keymap.step_outcome h d.mode d.note d.text).of_more hm hg
  refine ⟨p, (d.keymap.step d.mode d.note d.text).2, hp, ?_, ?_⟩
  · change (d.keymap.step d.mode d.note d.text).1.foldl Session.follow _ = _
    rw [hr, List.foldl_append]
    rfl
  · intro hf
    change (d.keymap.step d.mode d.note d.text).1.any (·.fillsLine) = true
    rw [hr, List.any_append]
    simp [hf]

end Match

end Dispatch

namespace Session

/-- The match that follows a change of the input. -/
def onChange (s : Session) (modifiers : Modifiers) : Dispatch :=
  if s.input.chording then ⟨s, .chordUpdate modifiers, s.input.chordText⟩
  else ⟨s, .commandUpdate modifiers, s.input.line⟩

/-- The session with a line of the history, if there is one to show. -/
def recalled? (s : Session) (found : Option Text × History) : Option Session :=
  found.1.map fun line => withInput { s with history := found.2 } (s.input.setLine line)

/-- The session with what a request to complete the keyword inserts. -/
def completed? (s : Session) : Option Session :=
  s.keyword?.bind fun p =>
    let (step, completion) := s.completion.advance p
    match step with
    | .nothing => none
    | .finish t => some (withInput { s with completion } (s.input.insert t))
    | .extend t =>
      if t.isEmpty then none else some (withInput { s with completion } (s.input.insert t))

/-- The session with the line as an event leaves it, if the event is an edit of the line. -/
def edited? (s : Session) : Event → Option Session
  | .setLine t => some (s.withInput (s.input.setLine t))
  | .inject t => some (s.withInput (s.input.insert t))
  | .append t => some (s.withInput (s.input.append t))
  | .backspace => s.input.backspace?.map s.withInput
  | .delete => s.input.delete?.map s.withInput
  | .stripWord seps => ((s.input.stripWord? (seps.getD [' '])).map (·.2)).map s.withInput
  | .moveCursor target => some (s.withInput (s.input.moveCursor target))
  | .historyPrev => s.recalled? (s.history.prev s.input.line)
  | .historyNext => s.recalled? s.history.next
  | .historySearch key => s.recalled? (s.history.search key s.input.line)
  | .startCompletion => s.completed?
  | _ => none

/-- The match that an event brings about by itself, if it brings one about. -/
def raised? (s : Session) : Event → Option Dispatch
  | .keyPress field key =>
    match s.keyboard.press field key s.isTyping with
    | (.update modifiers, keyboard) => some (onChange { s with keyboard } modifiers)
    | (.cleared, _) => none
  | .keyRelease field key =>
    match s.keyboard.release field key with
    | (.named (some modifiers), keyboard) =>
      some ⟨{ s with keyboard }, .chordExec modifiers, keyboard.input.chordText⟩
    | _ => none
  | .submit =>
    some ⟨{ s with history := s.history.record (s.vars.getD promptName []) s.input.line },
      .commandExec ∅, s.input.line⟩
  | e => (s.edited? e).map (·.onChange ∅)

/-- What an event still does to a session once its match is over. A submitted line is cleared; all
other events keep the line, and none writes more than the display or sends a command. -/
structure WrapsUp (e : Event) (rest : Session → Session) : Prop where
  frame : ∀ t, Frame (· ∈ displayNames) t (rest t)
  sent : ∀ t, (rest t).sent = t.sent
  line : e ≠ .submit → ∀ t, (rest t).input.before = t.input.before ∧
    (rest t).input.after = t.input.after
  cleared : e = .submit → rest = clearLine

section WrapsUp

variable {e : Event}

theorem WrapsUp.of_core (h : e ≠ .submit) {rest : Session → Session}
    (hf : ∀ t, Frame (· ∈ displayNames) t (rest t)) (hc : ∀ t, (rest t).core = t.core) :
    WrapsUp e rest where
  frame := hf
  sent := fun t => congrArg Core.sent (hc t)
  line := fun _ t => by
    have hi : (rest t).input = t.input := congrArg (·.keyboard.input) (hc t)
    rw [hi]
    exact ⟨rfl, rfl⟩
  cleared := fun he => absurd he h

theorem WrapsUp.refresh (h : e ≠ .submit) (m : Modifiers) (old : Input) :
    WrapsUp e fun t => t.refresh m old :=
  .of_core h (fun t => frame_refresh t m old) fun t => core_refresh t m old

theorem WrapsUp.comp (h : e ≠ .submit) {rest next : Session → Session} (hr : WrapsUp e rest)
    (hn : WrapsUp e next) : WrapsUp e (next ∘ rest) where
  frame := fun t => (hr.frame t).trans (hn.frame (rest t))
  sent := fun t => (hn.sent (rest t)).trans (hr.sent t)
  line := fun he t =>
    ⟨(hn.line he (rest t)).1.trans (hr.line he t).1, (hn.line he (rest t)).2.trans (hr.line he t).2⟩
  cleared := fun he => absurd he h

theorem WrapsUp.clearChord (h : e ≠ .submit) : WrapsUp e Session.clearChord where
  frame := frame_clearChord
  sent := fun t => congrArg Core.sent (core_clearChord t)
  line := fun _ t => by
    have hk : t.clearChord.input = t.input.clearChord :=
      congrArg (·.keyboard.input) (core_clearChord t)
    rw [hk]
    exact ⟨rfl, rfl⟩
  cleared := fun he => absurd he h

theorem WrapsUp.clearLine : WrapsUp .submit Session.clearLine where
  frame := frame_clearLine
  sent := fun t => congrArg Core.sent (core_clearLine t)
  line := fun he => absurd rfl he
  cleared := fun _ => rfl

end WrapsUp

theorem session_onChange (s : Session) (m : Modifiers) : (s.onChange m).session = s := by
  unfold onChange
  split <;> rfl

theorem updateWithin_succ (limit : Nat) (m : Modifiers) (s : Session) :
    updateWithin (limit + 1) m s = ((s.onChange m).run limit).map (·.refresh m s.input) := by
  rw [updateWithin, onChange]
  split <;> rfl

theorem two_le_limit (s : Session) : 2 ≤ s.limit := by
  have hsq := Nat.le_mul_self ((s.allBinds.flatMap (·.pattern.segments)).length + 2)
  rw [limit]
  omega

theorem exists_limit (s : Session) : ∃ limit, s.limit = limit + 1 :=
  Nat.exists_eq_succ_of_ne_zero (Nat.ne_of_gt (Nat.lt_of_lt_of_le Nat.zero_lt_two s.two_le_limit))

/-- The limit depends on the binds only. -/
theorem limit_eq {s t : Session} (h : t.keymap = s.keymap) : t.limit = s.limit := by
  rw [limit, limit, allBinds, allBinds, h]

theorem update_eq (s : Session) (m : Modifiers) :
    ∃ limit, s.limit = limit + 1 ∧
      s.update m = ((s.onChange m).run limit).map (·.refresh m s.input) := by
  obtain ⟨limit, hl⟩ := s.exists_limit
  exact ⟨limit, hl, by rw [update, hl, updateWithin_succ]⟩

/-- A change of the input of which nothing comes is displayed. -/
theorem update_of_idle {s : Session} {m : Modifiers}
    (hs : (s.onChange m).keymap.step (s.onChange m).mode (s.onChange m).note (s.onChange m).text =
      ([], (s.onChange m).keymap.stack)) : s.update m = some (s.refresh m s.input) := by
  obtain ⟨limit, -, he⟩ := s.update_eq m
  rw [he, Dispatch.run_of_idle hs, Option.map_some, session_onChange]

section Events

variable {s t : Session} {e : Event}

/-- An edit bears on the input and its records only. -/
theorem edited_eq (h : s.edited? e = some t) :
    ∃ keyboard history completion, t = { s with keyboard, history, completion } := by
  have recalled {found : Option Text × History} (hf : s.recalled? found = some t) :
      ∃ keyboard history completion, t = { s with keyboard, history, completion } := by
    obtain ⟨line, -, rfl⟩ := Option.map_eq_some_iff.1 hf
    exact ⟨_, found.2, s.completion, rfl⟩
  have mapped {i : Option Input} (hi : i.map s.withInput = some t) :
      ∃ keyboard history completion, t = { s with keyboard, history, completion } := by
    obtain ⟨input, -, rfl⟩ := Option.map_eq_some_iff.1 hi
    exact ⟨_, s.history, s.completion, rfl⟩
  cases e with
  | setLine => cases h; exact ⟨_, s.history, s.completion, rfl⟩
  | inject => cases h; exact ⟨_, s.history, s.completion, rfl⟩
  | append => cases h; exact ⟨_, s.history, s.completion, rfl⟩
  | moveCursor => cases h; exact ⟨_, s.history, s.completion, rfl⟩
  | backspace => exact mapped h
  | delete => exact mapped h
  | stripWord => exact mapped h
  | historyPrev => exact recalled h
  | historyNext => exact recalled h
  | historySearch => exact recalled h
  | startCompletion =>
    obtain ⟨p, -, hp⟩ := Option.bind_eq_some_iff.1 h
    dsimp only at hp
    split at hp
    · cases hp
    · cases hp
      exact ⟨_, s.history, _, rfl⟩
    · split at hp <;> cases hp
      exact ⟨_, s.history, _, rfl⟩
  | _ => cases h

theorem frame_edited (h : s.edited? e = some t) : Frame (· ∈ displayNames) s t := by
  obtain ⟨keyboard, history, completion, rfl⟩ := edited_eq h
  exact ⟨rfl, rfl, rfl, rfl, fun _ _ => rfl⟩

/-- A match begins with the input and its records changed at most. -/
theorem session_of_raised? {d : Dispatch} (h : s.raised? e = some d) :
    ∃ keyboard history completion, d.session = { s with keyboard, history, completion } := by
  have edited (h : (s.edited? e).map (·.onChange ∅) = some d) :
      ∃ keyboard history completion, d.session = { s with keyboard, history, completion } := by
    obtain ⟨t, ht, rfl⟩ := Option.map_eq_some_iff.1 h
    rw [session_onChange]
    exact edited_eq ht
  cases e with
  | keyPress field key =>
    dsimp only [raised?] at h
    split at h
    · next m keyboard _ =>
      cases h
      rw [session_onChange]
      exact ⟨keyboard, s.history, s.completion, rfl⟩
    · cases h
  | keyRelease field key =>
    dsimp only [raised?] at h
    split at h
    · next m keyboard _ =>
      cases h
      exact ⟨keyboard, s.history, s.completion, rfl⟩
    · cases h
  | submit => cases h; exact ⟨s.keyboard, _, s.completion, rfl⟩
  | _ => exact edited h

/-- A request to complete inserts a text and then ends completion or lists the hints, or it does no
more than set the completion. -/
theorem startCompletion_cases (s : Session) :
    (s.completed? = none ∧ ∃ t, s.startCompletion = some t ∧
      Frame (· ∈ displayNames) s t ∧ t.sent = s.sent) ∨
      ∃ t next, s.completed? = some t ∧ WrapsUp .startCompletion next ∧
        s.startCompletion = (t.update ∅).map next := by
  have stops : WrapsUp .startCompletion stopCompletion :=
    .of_core (by simp) frame_stopCompletion core_stopCompletion
  have lists : WrapsUp .startCompletion refreshHints :=
    .of_core (by simp) frame_refreshHints core_refreshHints
  unfold completed? startCompletion
  cases s.keyword? with
  | none =>
    exact .inl ⟨rfl, _, rfl, frame_stopCompletion s, congrArg Core.sent (core_stopCompletion s)⟩
  | some p =>
    rcases ha : s.completion.advance p with ⟨step, completion⟩
    simp only [Option.bind_some, ha]
    cases step with
    | nothing => exact .inl ⟨rfl, _, rfl, frame_completion s completion, rfl⟩
    | finish text => exact .inr ⟨_, _, rfl, stops, rfl⟩
    | extend text =>
      by_cases ht : text.isEmpty = true
      · exact .inl ⟨if_pos ht, _, congrArg (Option.map refreshHints) (if_pos ht),
          (frame_completion s completion).trans (frame_refreshHints _),
          congrArg Core.sent (core_refreshHints _)⟩
      · exact .inr ⟨_, _, if_neg ht, lists, congrArg (Option.map refreshHints) (if_neg ht)⟩

/-- An edit is followed like a change of the input. Completion then ends, or lists its hints. -/
theorem handle_of_edited (h : s.edited? e = some t) :
    e ≠ .submit ∧ ∃ next, WrapsUp e next ∧
      s.handle e = (t.update ∅).map fun u => .accepted (next u) := by
  have plain (he : e ≠ .submit) (hu : s.handle e = (t.update ∅).map .accepted) :
      e ≠ .submit ∧ ∃ next, WrapsUp e next ∧
        s.handle e = (t.update ∅).map fun u => .accepted (next u) :=
    ⟨he, id, .of_core he Frame.refl fun _ => rfl, hu⟩
  have recalled {found : Option Text × History} (hf : s.recalled? found = some t) :
      s.showHistory found = t.update ∅ := by
    obtain ⟨line, hl, rfl⟩ := Option.map_eq_some_iff.1 hf
    rw [showHistory, hl]
    rfl
  have mapped {i : Option Input} (hi : i.map s.withInput = some t) : s.edit? i = t.update ∅ := by
    obtain ⟨input, rfl, rfl⟩ := Option.map_eq_some_iff.1 hi
    rfl
  cases e with
  | setLine => cases h; exact plain (by simp) rfl
  | inject => cases h; exact plain (by simp) rfl
  | append => cases h; exact plain (by simp) rfl
  | moveCursor => cases h; exact plain (by simp) rfl
  | backspace => exact plain (by simp) (congrArg (Option.map Reply.accepted) (mapped h))
  | delete => exact plain (by simp) (congrArg (Option.map Reply.accepted) (mapped h))
  | stripWord => exact plain (by simp) (congrArg (Option.map Reply.accepted) (mapped h))
  | historyPrev => exact plain (by simp) (congrArg (Option.map Reply.accepted) (recalled h))
  | historyNext => exact plain (by simp) (congrArg (Option.map Reply.accepted) (recalled h))
  | historySearch => exact plain (by simp) (congrArg (Option.map Reply.accepted) (recalled h))
  | startCompletion =>
    obtain ⟨hc, -⟩ | ⟨u, next, hc, hn, hu⟩ := s.startCompletion_cases
    · exact nomatch hc.symm.trans h
    · obtain rfl : u = t := Option.some.inj (hc.symm.trans h)
      refine ⟨by simp, next, hn, ?_⟩
      change s.startCompletion.map Reply.accepted = _
      rw [hu, Option.map_map]
      rfl
  | _ => cases h

/-- Holds when `d` is the match of an event, which then only does what is left of it. -/
def Raises (s : Session) (e : Event) (d : Dispatch) : Prop :=
  Frame (· ∈ displayNames) s d.session ∧ ∃ limit rest, s.limit ≤ limit + 1 ∧ WrapsUp e rest ∧
    s.handle e = (d.run limit).map fun t => .accepted (rest t)

theorem raises_of_update {m : Modifiers} {next : Session → Session}
    (hf : Frame (· ∈ displayNames) s t) (he : e ≠ .submit) (hn : WrapsUp e next)
    (hh : s.handle e = (t.update m).map fun u => .accepted (next u)) :
    Raises s e (t.onChange m) := by
  obtain ⟨limit, hl, hu⟩ := t.update_eq m
  refine ⟨?_, limit, _, ?_, .comp he (.refresh he m t.input) hn, ?_⟩
  · rw [session_onChange]
    exact hf
  · exact Nat.le_of_eq (limit_eq hf.keymap ▸ hl)
  · rw [hh, hu, Option.map_map]
    rfl

theorem raises_of_edited {d : Dispatch} (h : (s.edited? e).map (·.onChange ∅) = some d) :
    Raises s e d := by
  obtain ⟨t, ht, rfl⟩ := Option.map_eq_some_iff.1 h
  obtain ⟨he, next, hn, hh⟩ := handle_of_edited ht
  exact raises_of_update (frame_edited ht) he hn hh

theorem raises_of_raised? {d : Dispatch} (h : s.raised? e = some d) : Raises s e d := by
  cases e with
  | keyPress field key =>
    have he : Event.keyPress field key ≠ .submit := by simp
    dsimp only [raised?] at h
    split at h
    · next m keyboard hp =>
      cases h
      refine raises_of_update (frame_keyboard s keyboard) he
        (.of_core he Frame.refl fun _ => rfl) ?_
      change (s.keyPress field key).map Reply.accepted = _
      rw [keyPress, hp]
    · cases h
  | keyRelease field key =>
    dsimp only [raised?] at h
    split at h
    · next m keyboard hr =>
      cases h
      refine ⟨frame_keyboard s keyboard, s.limit, Session.clearChord, Nat.le_succ _,
        .clearChord (by simp), ?_⟩
      change (s.keyRelease field key).map Reply.accepted = _
      rw [keyRelease, hr]
      exact Option.map_map ..
    · cases h
  | submit =>
    cases h
    exact ⟨frame_history s _, s.limit, Session.clearLine, Nat.le_succ _, .clearLine,
      Option.map_map ..⟩
  | _ => exact raises_of_edited h

/-- An event that brings about no match always has a result. -/
theorem handle_of_not_raised (h : s.raised? e = none) : ∃ reply, s.handle e = some reply := by
  have recalled {found : Option Text × History} (hf : s.recalled? found = none) :
      ∃ u, s.showHistory found = some u := by
    rw [showHistory, Option.map_eq_none_iff.1 hf]
    exact ⟨_, rfl⟩
  have mapped {i : Option Input} (hi : i.map s.withInput = none) : ∃ u, s.edit? i = some u := by
    rw [Option.map_eq_none_iff.1 hi]
    exact ⟨s, rfl⟩
  have accepted {x : Option Session} (hx : ∃ u, x = some u) :
      ∃ reply, x.map Reply.accepted = some reply := by
    obtain ⟨u, rfl⟩ := hx
    exact ⟨_, rfl⟩
  have edited {o : Option Session} (ho : o.map (·.onChange ∅) = none) : o = none :=
    Option.map_eq_none_iff.1 ho
  cases e with
  | keyPress field key =>
    apply accepted
    dsimp only [raised?] at h
    split at h
    · cases h
    · next keyboard hp =>
      rw [keyPress, hp]
      exact ⟨_, rfl⟩
  | keyRelease field key =>
    apply accepted
    dsimp only [raised?] at h
    split at h
    · cases h
    · next hn =>
      unfold keyRelease
      cases hr : s.keyboard.release field key with
      | mk release keyboard =>
        cases release with
        | printable => exact ⟨_, rfl⟩
        | named exec =>
          cases exec with
          | none => exact ⟨_, rfl⟩
          | some m => exact absurd hr (hn m keyboard)
  | setLine | inject | append | moveCursor | submit => cases h
  | backspace => exact accepted (mapped (edited h))
  | delete => exact accepted (mapped (edited h))
  | stripWord => exact accepted (mapped (edited h))
  | historyPrev => exact accepted (recalled (edited h))
  | historyNext => exact accepted (recalled (edited h))
  | historySearch => exact accepted (recalled (edited h))
  | startCompletion =>
    apply accepted
    obtain ⟨-, u, hu, -⟩ | ⟨u, next, hc, -⟩ := s.startCompletion_cases
    · exact ⟨u, hu⟩
    · exact nomatch hc.symm.trans (edited h)
  | _ => exact ⟨_, rfl⟩

end Events

end Session

namespace Dispatch

/-- The match of a line that is filled in. -/
def inner (d : Dispatch) : Dispatch := d.turn.onChange ∅

theorem run_succ {d : Dispatch} (h : d.keymap.Sound) (limit : Nat) :
    d.run (limit + 1) =
      if d.fillsLine = true then (d.inner.run limit).map (·.refresh ∅ d.turn.input)
      else some d.turn := by
  rw [run, dispatch_eq h, Session.updateWithin_succ]
  rfl

end Dispatch

end ModalKeys
