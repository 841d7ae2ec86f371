import ModalKeys.Proofs.Completion.Keyword
import ModalKeys.Proofs.Session.Display
import ModalKeys.Proofs.Session.Nesting

namespace ModalKeys

open Text

/-- A key adds to the line only without a chord. -/
theorem Keyboard.before_press {k : Keyboard} {field key : Text} {typing : Bool}
    (h : (k.press field key typing).2.input.chording = true) :
    (k.press field key typing).2.input.before = k.input.before := by
  have hp := k.pressed field key typing
  generalize k.press field key typing = pressed at hp h ⊢
  cases hp with
  | blank plain | typed plain | cleared plain =>
    have hon : k.chorded field = true := h
    rw [plain] at hon
    cases hon
  | chord | ignored | held => rfl

namespace Session

/-- The hints that the host shows. -/
def listed (s : Session) : Option Text := s.vars.get? hintsName

/-- Holds when no keyword is being completed. -/
structure Ended (s : Session) : Prop where
  level : s.completion.level = .off
  listed : s.listed = none

instance (s : Session) : Decidable s.Ended :=
  decidable_of_iff (s.completion.level = .off ∧ s.listed = none)
    ⟨fun h => ⟨h.1, h.2⟩, fun h => ⟨h.level, h.listed⟩⟩

/-- Holds when completion has ended unless there is a keyword to complete. -/
def Tidy (s : Session) : Prop := s.keyword? = none → s.Ended

/-- Holds when two sessions agree on the text before the cursor and on the state of completion. -/
structure SameWord (s s' : Session) : Prop where
  before : s'.input.before = s.input.before
  level : s'.completion.level = s.completion.level
  listed : s'.listed = s.listed

theorem unwritten_level : Unwritten (·.completion.level) where
  state := fun _ _ _ _ _ _ _ => rfl
  noted := fun s name value => by
    unfold noteVariable
    dsimp only
    split <;> rfl

theorem keyword?_eq (s : Session) : s.keyword? = Partial.atEnd? s.input.before :=
  congrArg Partial.atEnd? List.take_left

section SameWord

variable {s s' s'' : Session}

theorem Ended.tidy (h : Ended s) : Tidy s := fun _ => h

theorem SameWord.refl (s : Session) : SameWord s s := ⟨rfl, rfl, rfl⟩

theorem SameWord.trans (h : SameWord s s') (h' : SameWord s' s'') : SameWord s s'' :=
  ⟨h'.before.trans h.before, h'.level.trans h.level, h'.listed.trans h.listed⟩

theorem Ended.of_sameWord (he : Ended s) (h : SameWord s s') : Ended s' :=
  ⟨h.level.trans he.level, h.listed.trans he.listed⟩

theorem Tidy.of_sameWord (ht : Tidy s) (h : SameWord s s') : Tidy s' := by
  intro hk
  rw [keyword?_eq, h.before, ← keyword?_eq] at hk
  exact (ht hk).of_sameWord h

theorem SameWord.of_keyboard (hk : s'.keyboard = s.keyboard)
    (hl : s'.completion.level = s.completion.level) (h : s'.listed = s.listed) : SameWord s s' :=
  ⟨congrArg (·.input.before) hk, hl, h⟩

theorem SameWord.assign (s : Session) {name : Text} (hn : name ≠ hintsName) (value : Text) :
    SameWord s (s.assign name value) :=
  .of_keyboard (keyboard_assign s name value) (unwritten_level.assign s name value) (by
    rw [Session.listed, get?_assign, if_neg hn]
    rfl)

theorem SameWord.clearChord (s : Session) : SameWord s s.clearChord :=
  (⟨rfl, rfl, rfl⟩ : SameWord s { s with keyboard := s.keyboard.clearChord }).trans
    (.assign _ (by decide) _)

theorem SameWord.showChord (s : Session) (modifiers : Modifiers) (old : Input) :
    SameWord s (s.showChord modifiers old) := by
  obtain h | ⟨value, h⟩ := s.showChord_cases modifiers old
  · rw [h]
    exact refl s
  · rw [h]
    exact assign s (by decide) value

theorem SameWord.showLine (s : Session) (old : Input) : SameWord s (s.showLine old) := by
  obtain h | ⟨value, h⟩ := s.showLine_cases old
  · rw [h]
    exact refl s
  · rw [h]
    exact assign s (by decide) value

theorem ended_stopCompletion (s : Session) : Ended s.stopCompletion := by
  constructor
  · exact unwritten_level.assign { s with completion := s.completion.stop } hintsName []
  · rw [listed, stopCompletion, get?_assign, if_pos rfl]
    rfl

theorem ended_clearLine (s : Session) : Ended s.clearLine := ended_stopCompletion _

/-- Wherever the hints are refreshed, completion ends without a keyword. -/
theorem tidy_refreshHints (s : Session) : Tidy s.refreshHints := by
  intro hk
  have hsame : s.refreshHints.keyword? = s.keyword? := by
    have hkeyboard : s.refreshHints.keyboard = s.keyboard :=
      congrArg Core.keyboard (core_refreshHints s)
    rw [keyword?_eq, keyword?_eq, input, input, hkeyboard]
  rw [hsame] at hk
  have hstop : s.refreshHints = s.stopCompletion := by
    unfold refreshHints
    rw [hk]
  rw [hstop]
  exact ended_stopCompletion s

theorem ended_prompted (s : Session) (p : Prompt) : Ended (s.prompted p) := by
  have hl : Ended (if p.label.isEmpty then s.clearLine
      else s.clearLine.assign promptName p.label) := by
    split
    · exact ended_clearLine s
    · exact (ended_clearLine s).of_sameWord (.assign _ (by decide) _)
  unfold prompted
  dsimp only
  split
  · exact hl
  · split
    · exact ⟨hl.level, hl.listed⟩
    · exact ⟨hl.level, hl.listed⟩

/-- After a match without a chord completion has ended if there is no keyword, whatever came of the
match. With a chord nothing is looked at once more. -/
theorem tidy_refresh {s : Session} {old : Input} (modifiers : Modifiers)
    (h : old.chording = true → Tidy s) : Tidy (s.refresh modifiers old) := by
  have hhints : Tidy (if old.chording then s else s.refreshHints) := by
    split
    · next hc => exact h hc
    · exact tidy_refreshHints s
  exact (hhints.of_sameWord (.showChord _ modifiers old)).of_sameWord (.showLine _ old)

end SameWord

section Turn

variable {s : Session}

/-- Holds when no reaction but those of the display changes the hints that are shown. -/
def sparesHints : Session → List Reaction → Bool
  | _, [] => true
  | s, r :: rs => (r.displays || (s.follow r).listed = s.listed) && (s.follow r).sparesHints rs

theorem Tidy.follow (h : Tidy s) {r : Reaction}
    (hs : r.displays = true ∨ (s.follow r).listed = s.listed) : Tidy (s.follow r) := by
  cases hd : r.displays with
  | false =>
    have hlisted := hs.resolve_left (by simp [hd])
    exact h.of_sameWord
      (.of_keyboard (unwritten_keyboard.follow hd s) (unwritten_level.follow hd s) hlisted)
  | true =>
    cases r with
    | clearActive =>
      change Tidy s.clearActive
      unfold clearActive
      split
      · exact h.of_sameWord (.clearChord s)
      · exact (ended_clearLine s).tidy
    | prompt p => exact (ended_prompted s p).tidy
    | run b args => cases hd
    | enterStack => cases hd
    | leaveStack restore => cases hd

theorem Tidy.foldl_follow {rs : List Reaction} (h : Tidy s) (hs : s.sparesHints rs = true) :
    Tidy (rs.foldl Session.follow s) := by
  induction rs generalizing s with
  | nil => exact h
  | cons r rs ih =>
    rw [sparesHints, Bool.and_eq_true, Bool.or_eq_true, decide_eq_true_eq] at hs
    exact ih (h.follow hs.1) hs.2

end Turn

end Session

namespace Dispatch

/-- Holds when nothing that comes of a match changes the hints that are shown, the display apart. -/
def turnSparesHints (d : Dispatch) : Bool :=
  (d.session.withStack (d.keymap.step d.mode d.note d.text).2).sparesHints
    (d.keymap.step d.mode d.note d.text).1

/-- Holds when that is so of a match and of those that it nests, up to a limit. -/
def sparesHints : Nat → Dispatch → Bool
  | 0, d => d.turnSparesHints
  | limit + 1, d => d.turnSparesHints && (!d.fillsLine || d.inner.sparesHints limit)

variable {d : Dispatch} {limit : Nat}

theorem turnSparesHints_of_sparesHints (h : d.sparesHints limit = true) :
    d.turnSparesHints = true := by
  cases limit with
  | zero => exact h
  | succ limit => exact (Bool.and_eq_true_iff.1 h).1

theorem sparesHints_of_succ (h : d.sparesHints (limit + 1) = true) :
    d.sparesHints limit = true := by
  induction limit generalizing d with
  | zero => exact turnSparesHints_of_sparesHints h
  | succ limit ih =>
    rw [sparesHints, Bool.and_eq_true, Bool.or_eq_true] at h ⊢
    exact ⟨h.1, h.2.imp_right ih⟩

theorem tidy_turn (h : d.session.Tidy) (hs : d.turnSparesHints = true) : d.turn.Tidy := by
  have hw : Session.SameWord d.session
      (d.session.withStack (d.keymap.step d.mode d.note d.text).2) := ⟨rfl, rfl, rfl⟩
  exact (h.of_sameWord hw).foldl_follow hs

/-- A match leaves completion in order, with the lines that it fills in. -/
theorem tidy_run {t : Session} (hk : d.keymap.Reachable) (h : d.session.Tidy)
    (hs : d.sparesHints limit = true) (hr : d.run limit = some t) : t.Tidy := by
  -- On the limit: a line that is filled in is matched under the limit below.
  induction limit generalizing d t with
  | zero =>
    cases hf : d.fillsLine with
    | false =>
      rw [run_of_not_fillsLine hk.sound hf] at hr
      cases hr
      exact tidy_turn h hs
    | true =>
      rw [run_zero hk.sound hf] at hr
      cases hr
  | succ limit ih =>
    have hturn : d.turn.Tidy := tidy_turn h (turnSparesHints_of_sparesHints hs)
    rw [run_succ hk.sound] at hr
    split at hr
    · next hf =>
      obtain ⟨inner, hi, rfl⟩ := Option.map_eq_some_iff.1 hr
      rw [sparesHints, Bool.and_eq_true, hf, Bool.not_true, Bool.false_or] at hs
      have hinner : d.inner.session.Tidy := by
        rw [Dispatch.inner, Session.session_onChange]
        exact hturn
      have ht : inner.Tidy := ih (reachable_inner hk) hinner hs.2 hi
      exact Session.tidy_refresh ∅ fun _ => ht
    · cases hr
      exact hturn

end Dispatch

namespace Session

section Events

variable {s s' : Session}

/-- After a change of the input completion is in order, if the chord is not held or it was
before. -/
theorem tidy_update {m : Modifiers} (hk : s.keymap.Reachable) (h : s.input.chording = true → Tidy s)
    (hs : (s.onChange m).sparesHints s.limit = true) (hu : s.update m = some s') : Tidy s' := by
  obtain ⟨limit, hl, he⟩ := s.update_eq m
  rw [hl] at hs
  rw [he] at hu
  obtain ⟨matched, hm, rfl⟩ := Option.map_eq_some_iff.1 hu
  refine tidy_refresh m fun hc => ?_
  have hb : (s.onChange m).session.Tidy := by
    rw [session_onChange]
    exact h hc
  have hkeymap : (s.onChange m).keymap.Reachable := by
    rw [Dispatch.keymap, session_onChange]
    exact hk
  exact Dispatch.tidy_run hkeymap hb (Dispatch.sparesHints_of_succ hs) hm

/-- Holds when nobody but the session changes the hints that are shown, whatever an event brings
about. -/
def eventSparesHints (s : Session) (e : Event) : Bool :=
  (s.raised? e).all (·.sparesHints s.limit) && (s.direct? e).all fun s' => s'.listed = s.listed

/-- Holds when an event takes the cursor away from a word without a look at it: a key clears the
line because typing is off, or the line is edited while a chord is held. -/
def strands (s : Session) : Event → Bool
  | .keyPress field key => (s.keyboard.press field key s.isTyping).1 = .cleared
  | .startCompletion => false
  | e => (s.edited? e).any fun t => t.input.chording && t.keyword?.isNone

theorem tidy_edit {i : Input} (hk : s.keymap.Reachable)
    (h : (i.chording && (s.withInput i).keyword?.isNone) = true → Ended s)
    (hs : ((s.withInput i).onChange ∅).sparesHints s.limit = true) (he : s.edit i = some s') :
    Tidy s' := by
  have htidy (hc : i.chording = true) : Tidy (s.withInput i) := by
    intro hword
    have hended : Ended s := h (by rw [hc, hword]; rfl)
    exact ⟨hended.level, hended.listed⟩
  exact tidy_update (s := s.withInput i) hk htidy hs he

theorem Tidy.edit? (hk : s.keymap.Reachable) (h : Tidy s) {o : Option Input}
    (hf : (o.map s.withInput).any (fun t => t.input.chording && t.keyword?.isNone) = true → Ended s)
    (hs : ((o.map s.withInput).map (·.onChange ∅)).all (·.sparesHints s.limit) = true)
    (he : s.edit? o = some s') : Tidy s' := by
  cases o with
  | none => cases he; exact h
  | some i => exact tidy_edit hk hf hs he

theorem Tidy.showHistory (hk : s.keymap.Reachable) (h : Tidy s) {found : Option Text × History}
    (hf : (s.recalled? found).any (fun t => t.input.chording && t.keyword?.isNone) = true → Ended s)
    (hs : ((s.recalled? found).map (·.onChange ∅)).all (·.sparesHints s.limit) = true)
    (he : s.showHistory found = some s') : Tidy s' := by
  obtain ⟨line?, history⟩ := found
  cases line? with
  | none =>
    cases he
    exact h.of_sameWord ⟨rfl, rfl, rfl⟩
  | some line =>
    refine tidy_edit (s := { s with history }) hk (fun hc => ?_) hs he
    have hended : Ended s := hf hc
    exact ⟨hended.level, hended.listed⟩

theorem Tidy.keyPress (hk : s.keymap.Reachable) (h : Tidy s) {field key : Text}
    (hf : s.strands (.keyPress field key) = true → Ended s)
    (hs : (s.raised? (.keyPress field key)).all (·.sparesHints s.limit) = true)
    (hp : s.keyPress field key = some s') : Tidy s' := by
  have hbefore (hc : (s.keyboard.press field key s.isTyping).2.input.chording = true) :
      (s.keyboard.press field key s.isTyping).2.input.before = s.input.before :=
    Keyboard.before_press hc
  unfold strands at hf
  unfold raised? at hs
  unfold Session.keyPress at hp
  dsimp only at hf hs
  generalize s.keyboard.press field key s.isTyping = pressed at hbefore hf hs hp
  obtain ⟨press, keyboard⟩ := pressed
  cases press with
  | update m =>
    refine tidy_update (s := { s with keyboard }) hk (fun hc => ?_) hs hp
    exact h.of_sameWord ⟨hbefore hc, rfl, rfl⟩
  | cleared =>
    cases hp
    have hended : Ended { s with keyboard } := ⟨(hf (by simp)).level, (hf (by simp)).listed⟩
    exact (hended.of_sameWord (.assign _ (by decide) _)).tidy

theorem Tidy.keyRelease (hk : s.keymap.Reachable) (h : Tidy s) {field key : Text}
    (hs : (s.raised? (.keyRelease field key)).all (·.sparesHints s.limit) = true)
    (hr : s.keyRelease field key = some s') : Tidy s' := by
  have hb : Tidy { s with keyboard := (s.keyboard.release field key).2 } :=
    h.of_sameWord ⟨(sameLine_keyboard_release s field key).before, rfl, rfl⟩
  unfold raised? at hs
  unfold Session.keyRelease at hr
  dsimp only at hs
  generalize s.keyboard.release field key = released at hb hs hr
  obtain ⟨release, keyboard⟩ := released
  cases release with
  | printable => cases hr; exact hb
  | named exec =>
    cases exec with
    | none => cases hr; exact hb.of_sameWord (.clearChord _)
    | some m =>
      obtain ⟨matched, hm, rfl⟩ := Option.map_eq_some_iff.1 hr
      have ht : Tidy matched := Dispatch.tidy_run
        (d := ⟨{ s with keyboard }, .chordExec m, keyboard.input.chordText⟩) hk hb hs hm
      exact ht.of_sameWord (.clearChord matched)

theorem ended_submit (hs : s.submit = some s') : Ended s' := by
  obtain ⟨matched, -, rfl⟩ := Option.map_eq_some_iff.1 hs
  exact ended_clearLine matched

/-- A request to complete leaves completion in order by itself. -/
theorem tidy_startCompletion (hs : s.startCompletion = some s') : Tidy s' := by
  unfold startCompletion at hs
  split at hs
  · cases hs
    exact (ended_stopCompletion s).tidy
  · next p hp =>
    dsimp only at hs
    split at hs
    · cases hs
      intro hk
      rw [keyword?_eq] at hk hp
      exact nomatch hp.symm.trans hk
    · obtain ⟨matched, -, rfl⟩ := Option.map_eq_some_iff.1 hs
      exact (ended_stopCompletion matched).tidy
    · obtain ⟨matched, -, rfl⟩ := Option.map_eq_some_iff.1 hs
      exact tidy_refreshHints matched

theorem Tidy.define (h : Tidy s) (d : Except SyntaxError Definition) :
    Tidy (s.define d).session := by
  cases d with
  | error e => exact h
  | ok d => exact h.of_sameWord ⟨rfl, rfl, rfl⟩

theorem Tidy.addModmap (h : Tidy s) (source target : Text) :
    Tidy (s.addModmap source target).session := by
  unfold Session.addModmap
  split
  · next hm =>
    exact h.of_sameWord ⟨congrArg Input.before (Keyboard.input_addModmap hm), rfl, rfl⟩
  · exact h

theorem Tidy.addIgnore (h : Tidy s) (rule : Text) : Tidy (s.addIgnore rule).session := by
  unfold Session.addIgnore
  split
  · next hm =>
    exact h.of_sameWord ⟨congrArg Input.before (Keyboard.input_addIgnore hm), rfl, rfl⟩
  · exact h

theorem Tidy.direct (h : Tidy s) {e : Event}
    (hs : (s.direct? e).all (fun s' => s'.listed = s.listed) = true) (he : s.direct? e = some s') :
    Tidy s' := by
  rw [he, Option.all_some, decide_eq_true_eq] at hs
  exact h.of_sameWord (.of_keyboard (unwritten_keyboard.direct he) (unwritten_level.direct he) hs)

theorem Tidy.withVariable (h : Tidy s) {next : Session} (hn : Tidy next) (name : Text) :
    Tidy (s.withVariable name next).session := by
  unfold Session.withVariable
  split
  · exact hn
  · exact h

/-- After an event completion has ended if there is no keyword, unless the event strands it. -/
theorem Tidy.handle (hk : s.keymap.Reachable) (h : Tidy s) {e : Event} {reply : Reply}
    (hs : s.eventSparesHints e = true) (hf : s.strands e = true → Ended s)
    (hr : s.handle e = some reply) : Tidy reply.session := by
  obtain ⟨hm, hd⟩ := Bool.and_eq_true_iff.1 hs
  have accepted {x : Option Session} (hx : ∀ s', x = some s' → Tidy s')
      (he : x.map Reply.accepted = some reply) : Tidy reply.session := by
    obtain ⟨s', hs', rfl⟩ := Option.map_eq_some_iff.1 he
    exact hx s' hs'
  cases e with
  | keyPress field key => exact accepted (fun _ => h.keyPress hk hf hm) hr
  | keyRelease field key => exact accepted (fun _ => h.keyRelease hk hm) hr
  | setLine t => exact accepted (fun _ => tidy_edit hk hf hm) hr
  | inject t => exact accepted (fun _ => tidy_edit hk hf hm) hr
  | append t => exact accepted (fun _ => tidy_edit hk hf hm) hr
  | backspace => exact accepted (fun _ => h.edit? hk hf hm) hr
  | delete => exact accepted (fun _ => h.edit? hk hf hm) hr
  | stripWord seps => exact accepted (fun _ => h.edit? hk hf hm) hr
  | submit => exact accepted (fun _ he => (ended_submit he).tidy) hr
  | moveCursor target => exact accepted (fun _ => tidy_edit hk hf hm) hr
  | historyPrev => exact accepted (fun _ => h.showHistory hk hf hm) hr
  | historyNext => exact accepted (fun _ => h.showHistory hk hf hm) hr
  | historySearch key => exact accepted (fun _ => h.showHistory hk hf hm) hr
  | startCompletion => exact accepted (fun _ => tidy_startCompletion) hr
  | clearLine => cases hr; exact (ended_clearLine s).tidy
  | stopCompletion => cases hr; exact (ended_stopCompletion s).tidy
  | builtins names => cases hr; exact h.of_sameWord ⟨rfl, rfl, rfl⟩
  | modmap source target => cases hr; exact h.addModmap source target
  | ignoreKey rule => cases hr; exact h.addIgnore rule
  | bind line => cases hr; exact h.define _
  | modeBind line => cases hr; exact h.define _
  | modeConfig mode name value =>
    cases hr
    exact h.withVariable (h.direct (e := .modeConfig mode name value) hd rfl) name
  | modeChanged mode => cases hr; exact h.direct (e := .modeChanged mode) hd rfl
  | variableSet name value =>
    cases hr
    exact h.withVariable (h.direct (e := .variableSet name value) hd rfl) name

/-- Binds that are added and effects that are handed out write no variable. -/
def requestSparesHints (s : Session) : Request → Bool
  | .event e => s.eventSparesHints e
  | _ => true

/-- Holds when a request leaves no completion stranded. -/
def requestFollowed (s : Session) : Request → Bool
  | .event e => !s.strands e || s.Ended
  | _ => true

/-- Holds when a condition is met by each request and the session that it finds. -/
def throughout (p : Session → Request → Bool) : Session → List Request → Bool
  | _, [] => true
  | s, r :: rs => p s r && (s.serve r).all fun s' => s'.throughout p rs

theorem Tidy.serve (hk : s.keymap.Reachable) (h : Tidy s) {r : Request}
    (hs : s.requestSparesHints r = true) (hf : s.requestFollowed r = true)
    (hr : s.serve r = some s') : Tidy s' := by
  cases r with
  | event e =>
    obtain ⟨reply, hreply, rfl⟩ := Option.map_eq_some_iff.1 hr
    have hended (hstrands : s.strands e = true) : Ended s := by
      rw [requestFollowed, hstrands, Bool.not_true, Bool.false_or] at hf
      exact of_decide_eq_true hf
    exact h.handle hk hs hended hreply
  | bind mode b =>
    cases hr
    exact h.of_sameWord ⟨rfl, rfl, rfl⟩
  | drain =>
    cases hr
    exact h.of_sameWord ⟨rfl, rfl, rfl⟩

theorem Tidy.serveAll (hk : s.keymap.Reachable) (h : Tidy s) {rs : List Request}
    (hu : s.throughout requestSparesHints rs = true) (hf : s.throughout requestFollowed rs = true)
    (hs : s.serveAll rs = some s') : Tidy s' := by
  induction rs generalizing s with
  | nil => cases hs; exact h
  | cons r rs ih =>
    obtain ⟨next, hn, hrest⟩ := Option.bind_eq_some_iff.1 hs
    rw [throughout, hn, Option.all_some, Bool.and_eq_true] at hu hf
    have hk' : next.keymap.Reachable := reachable_invariant.serve hk
      (fun _ _ _ he => (writes_direct he).reachable hk) hn
    exact ih hk' (h.serve hk hu.1 hf.1 hn) hu.2 hf.2 hrest

end Events

/-- A session starts without completion. -/
theorem level_start (settings : Settings) (r : Registry) :
    (start settings r).completion.level = .off :=
  (unwritten_level.setMode _ []).trans ((unwritten_level.assignAll _ settings.vars).trans
    (unwritten_level.configureAll _ settings.modeConfig))

/-- As long as nobody else changes the hints that are shown, after every request that leaves the
cursor where no word ends completion is off and no hints are shown. The exception is a line that is
cleared by a key because typing is off, or edited away from a word while a chord is held, with
completion under way. -/
theorem completion_ended {settings : Settings} (es : List Registry.Edit) {rs : List Request}
    {s : Session} (h : (start settings (Registry.empty.editAll es)).vars.get? hintsName = none)
    (hu : (start settings (Registry.empty.editAll es)).throughout requestSparesHints rs = true)
    (hf : (start settings (Registry.empty.editAll es)).throughout requestFollowed rs = true)
    (hs : (start settings (Registry.empty.editAll es)).serveAll rs = some s)
    (hw : ∀ c, s.input.before.getLast? = some c → Partial.isWordChar c = false) :
    s.completion.level = .off ∧ s.vars.get? hintsName = none := by
  have hstart : Ended (start settings (Registry.empty.editAll es)) := ⟨level_start settings _, h⟩
  have ht : Tidy s := hstart.tidy.serveAll (reachable_start settings es) hu hf hs
  have hk : s.keyword? = none := (keyword?_eq s).trans (Partial.atEnd?_eq_none_iff.2 hw)
  exact ⟨(ht hk).level, (ht hk).listed⟩

/-- Requests after which the hints for a word are listed. -/
def listing : List Request :=
  [.event (.builtins ["scroll".toList, "search".toList]), .event (.setLine ['s']),
    .event .startCompletion, .event .startCompletion]

/-- The cursor goes ahead of the word, after a chord. -/
theorem completion_ended_ahead_of_word :
    ∃ s, (start .initial (Registry.empty.editAll [])).serveAll (listing ++
        [.event (.keyPress [] "Control".toList), .event (.keyRelease [] "Control".toList),
          .event (.moveCursor (.at 0))]) = some s ∧
      s.input.line = ['s'] ∧ s.completion.level = .off ∧ s.vars.get? hintsName = none := by
  have hinput : ((start .initial (Registry.empty.editAll [])).serveAll (listing ++
      [.event (.keyPress [] "Control".toList), .event (.keyRelease [] "Control".toList),
        .event (.moveCursor (.at 0))])).map (fun s => (s.input.before, s.input.after)) =
          some ([], ['s']) := by decide +kernel
  obtain ⟨s, hs, hl⟩ := Option.map_eq_some_iff.1 hinput
  obtain ⟨hbefore, hafter⟩ := Prod.mk.inj hl
  have hw : ∀ c, s.input.before.getLast? = some c → Partial.isWordChar c = false := by
    rw [hbefore]
    exact fun c hc => nomatch hc
  have hended := completion_ended [] (by decide +kernel) (by decide +kernel) (by decide +kernel) hs hw
  refine ⟨s, hs, ?_, hended⟩
  rw [Input.line, hbefore, hafter]
  rfl

/-- A key that clears the line while typing is off leaves the hints of the word that is gone. -/
theorem completion_outlasts_line :
    ∃ s, (start .initial (Registry.empty.editAll [])).vars.get? hintsName = none ∧
      (start .initial (Registry.empty.editAll [])).throughout requestSparesHints (listing ++
        [.event (.variableSet typingName ['0']), .event (.keyPress [] ['a'])]) = true ∧
      (start .initial (Registry.empty.editAll [])).serveAll (listing ++
        [.event (.variableSet typingName ['0']), .event (.keyPress [] ['a'])]) = some s ∧
      (∀ c, s.input.before.getLast? = some c → Partial.isWordChar c = false) ∧
      ¬(s.completion.level = .off ∧ s.vars.get? hintsName = none) := by
  have hstate : ((start .initial (Registry.empty.editAll [])).serveAll (listing ++
      [.event (.variableSet typingName ['0']), .event (.keyPress [] ['a'])])).map
        (fun s => (s.input.line, s.completion.level)) = some ([], .list) := by decide +kernel
  obtain ⟨s, hs, hl⟩ := Option.map_eq_some_iff.1 hstate
  obtain ⟨hline, hlevel⟩ := Prod.mk.inj hl
  refine ⟨s, by decide +kernel, by decide +kernel, hs, ?_, ?_⟩
  · have hbefore : s.input.before = [] := (List.append_eq_nil_iff.1 hline).1
    rw [hbefore]
    exact fun c hc => nomatch hc
  · rw [hlevel]
    exact fun hend => nomatch hend.1

/-- So does an edit of the line while a chord is held. -/
example : ((start .initial .empty).serveAll (listing ++
    [.event (.keyPress [] "Control".toList), .event .backspace])).map
      (fun s => (s.input.line, s.completion.level)) = some ([], .list) := by decide +kernel

end Session

end ModalKeys
