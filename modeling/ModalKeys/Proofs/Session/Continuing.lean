import ModalKeys.Proofs.Completion.Steps
import ModalKeys.Proofs.Session.Completing
import ModalKeys.Proofs.Text.Arguments

namespace ModalKeys

open Text

/-- Holds when a candidate is `@name` for a proper name of a variable. -/
def isVariable : Text → Bool
  | '@' :: name => isVariableName name
  | _ => false

/-- The characters of a name are word characters, apart from the dot. -/
theorem isWordChar_of_mem_variableName {name : Text} (h : isVariableName name = true) {c : Char}
    (hc : c ∈ name) (hdot : c ≠ '.') : Partial.isWordChar c = true := by
  have hname : (c.isAlphanum || c == '_' || c == '.') = true :=
    List.all_eq_true.1 (Bool.and_eq_true_iff.1 h).2 c hc
  have hascii := isAlphanumeric_ascii (Arguments.toNat_lt_of_nameCharacter hname)
  rw [Partial.isWordChar, hascii]
  simpa [hdot] using hname

namespace Partial

variable {word front rest : Text}

theorem atEnd?_mark_cons (hne : word ≠ []) (hsolid : ∀ c ∈ word, isWordChar c = true) :
    atEnd? ('@' :: word) = some ⟨'@' :: word, false⟩ := by
  have hmark : ¬EndsInWord ['@'] := not_endsInWord_iff.2 fun c hc => by
    cases hc
    decide
  exact atEnd?_of_marked (WordRun.of_append hne hsolid hmark) rfl

/-- Behind a dot there is at most a plain keyword, whatever is ahead of it. -/
theorem atEnd?_dot_append (hsolid : ∀ c ∈ rest, isWordChar c = true) :
    atEnd? (front ++ '.' :: rest) = if rest = [] then none else some ⟨rest, false⟩ := by
  have hdot : ¬EndsInWord (front ++ ['.']) := not_endsInWord_iff.2 fun c hc => by
    rw [List.getLast?_concat] at hc
    cases hc
    decide
  rw [List.append_cons]
  split
  · next hnil =>
    rw [hnil, List.append_nil]
    exact atEnd?_eq_none_iff.2 (not_endsInWord_iff.1 hdot)
  · next hne =>
    refine atEnd?_of_plain (WordRun.of_append hne hsolid hdot) ?_ fun before hset => ?_
    · rw [List.getLast?_concat]
      decide
    · exact absurd (hset.isBlank_last List.getLast?_concat) (by decide)

end Partial

theorem Level.raised_of_lists {l : Level} (h : l.lists = true) : l.raised = .complete := by
  cases l with
  | off => cases h
  | once => cases h
  | list => rfl
  | complete => rfl

theorem Level.raised_of_not_lists {l : Level} (h : l.lists = false) : l.raised ≠ .complete := by
  cases l with
  | off => decide
  | once => decide
  | list => cases h
  | complete => cases h

theorem Level.lists_raised_raised (l : Level) : l.raised.raised.lists = true := by
  cases l <;> rfl

namespace Completion

/-- What is filled in is all that several hints share. -/
theorem hints_of_extend {c : Completion} {p : Partial} {x : Text}
    (hx : (c.advance p).1 = .extend x) :
    (∃ g h, c.Hint p.word g ∧ c.Hint p.word h ∧ g ≠ h) ∧
      Longest (c.Hint p.word) (p.word ++ x) ∧ ∀ t, c.Hint (p.word ++ x) t ↔ c.Hint p.word t := by
  rcases c.advance_cases p with ⟨hnone, -⟩ | ⟨t, hone, -, -⟩ | ⟨y, hy, hseveral, -, hlongest, hsame⟩
  · cases hx.symm.trans hnone
  · cases hx.symm.trans hone
  · cases hx.symm.trans hy
    exact ⟨hseveral, hlongest, hsame⟩

/-- Holds when the candidates of `c'` are those of `c`, and maybe variables of the display. -/
structure Grown (c c' : Completion) : Prop where
  kept : ∀ t ∈ c.candidates, t ∈ c'.candidates
  shown : ∀ t ∈ c'.candidates, t ∈ c.candidates ∨ ∃ name ∈ Session.displayNames, t = '@' :: name

namespace Grown

variable {c c' c'' : Completion}

theorem level (c : Completion) (level : Level) : Grown c { c with level } :=
  ⟨fun _ h => h, fun _ h => .inl h⟩

theorem refl (c : Completion) : Grown c c := level c c.level

theorem trans (h : Grown c c') (h' : Grown c' c'') : Grown c c'' :=
  ⟨fun t ht => h'.kept t (h.kept t ht), fun t ht => (h'.shown t ht).elim (h.shown t) .inr⟩

theorem hint (h : Grown c c') {word t : Text} (ht : c.Hint word t) : c'.Hint word t :=
  ⟨h.kept t ht.candidate, ht.begins⟩

theorem addVariable {name : Text} (h : name ∈ Session.displayNames) (c : Completion) :
    Grown c (c.addVariable name) where
  kept := fun _ ht => TextSet.mem_insert.2 (.inr ht)
  shown := fun _ ht => (TextSet.mem_insert.1 ht).elim (fun he => .inr ⟨name, h, he⟩) .inl

end Grown

end Completion

namespace Session

section Display

variable {s : Session} {p : Partial}

theorem grown_assign {name : Text} (h : name ∈ displayNames) (s : Session) (value : Text) :
    s.completion.Grown (s.assign name value).completion := by
  unfold assign noteVariable
  dsimp only
  split
  · split <;> exact .addVariable h s.completion
  · exact .refl _

theorem grown_stopCompletion (s : Session) : s.completion.Grown s.stopCompletion.completion :=
  have hoff : s.completion.Grown s.completion.stop := .level s.completion .off
  hoff.trans (grown_assign (by decide) { s with completion := s.completion.stop } [])

theorem grown_refreshHints (s : Session) : s.completion.Grown s.refreshHints.completion := by
  unfold refreshHints
  split
  · exact grown_stopCompletion s
  · split
    · exact grown_assign (by decide) s _
    · exact .refl _

theorem grown_showChord (s : Session) (m : Modifiers) (old : Input) :
    s.completion.Grown (s.showChord m old).completion := by
  obtain h | ⟨value, h⟩ := s.showChord_cases m old
  · rw [h]
    exact .refl _
  · rw [h]
    exact grown_assign (by decide) s value

theorem grown_showLine (s : Session) (old : Input) :
    s.completion.Grown (s.showLine old).completion := by
  obtain h | ⟨value, h⟩ := s.showLine_cases old
  · rw [h]
    exact .refl _
  · rw [h]
    exact grown_assign (by decide) s value

/-- The display adds its own variables to the candidates, and takes none away. -/
theorem grown_refresh (s : Session) (m : Modifiers) (old : Input) :
    s.completion.Grown (s.refresh m old).completion := by
  have hhints : s.completion.Grown (if old.chording then s else s.refreshHints).completion := by
    split
    · exact .refl _
    · exact grown_refreshHints s
  exact (hhints.trans (grown_showChord _ m old)).trans (grown_showLine _ old)

theorem level_refreshHints (h : s.keyword? = some p) :
    s.refreshHints.completion.level = s.completion.level := by
  unfold refreshHints
  rw [h]
  dsimp only
  split
  · exact unwritten_level.assign s hintsName _
  · rfl

/-- As long as there is a keyword, a refresh leaves completion at its level. -/
theorem level_refresh (h : s.keyword? = some p) (m : Modifiers) (old : Input) :
    (s.refresh m old).completion.level = s.completion.level := by
  have hhints : (if old.chording then s else s.refreshHints).completion.level =
      s.completion.level := by
    split
    · rfl
    · exact level_refreshHints h
  exact ((SameWord.showChord _ m old).trans (.showLine _ old)).level.trans hhints

/-- The hints are listed as they are before the list itself becomes a variable to complete. -/
theorem listed_refreshHints (h : s.keyword? = some p) (hl : s.completion.level.lists = true)
    {t : Text} (ht : s.completion.Hint p.word t) :
    s.refreshHints.listed = some (s.completion.list p.word) := by
  have hlist : (s.completion.list p.word).isEmpty = false := by
    obtain ⟨hint, others, hhints⟩ :=
      List.exists_cons_of_ne_nil (List.ne_nil_of_mem (Completion.mem_hints.2 ht))
    unfold Completion.list
    rw [hhints]
    rfl
  unfold Session.refreshHints
  rw [h]
  dsimp only
  rw [if_pos hl, listed, get?_assign, if_pos rfl, Variables.assigned, hlist,
    if_neg Bool.false_ne_true]

end Display

section Requests

variable {s : Session} {p : Partial}

/-- The session at the level of the next request to complete. -/
def requested (s : Session) : Session :=
  { s with completion := { s.completion with level := s.completion.level.raised } }

theorem startCompletion_of_nothing (hp : s.keyword? = some p)
    (h : (s.completion.advance p).1 = .nothing) : s.startCompletion = some s.requested := by
  unfold startCompletion
  rw [hp]
  dsimp only
  rw [h]
  rfl

theorem startCompletion_of_finish (hp : s.keyword? = some p) {t : Text}
    (h : (s.completion.advance p).1 = .finish t) :
    s.startCompletion = (s.requested.inject t).map stopCompletion := by
  unfold startCompletion
  rw [hp]
  dsimp only
  rw [h]
  rfl

theorem startCompletion_of_extend (hp : s.keyword? = some p) {x : Text}
    (h : (s.completion.advance p).1 = .extend x) :
    s.startCompletion =
      (if x.isEmpty then some s.requested else s.requested.inject x).map refreshHints := by
  unfold startCompletion
  rw [hp]
  dsimp only
  rw [h]
  rfl

/-- Where there are no binds, a text that is injected is displayed and that is all. -/
theorem inject_of_bindless (hk : s.keymap.Reachable) (hb : s.allBinds = []) (t : Text) :
    s.inject t =
      some ((s.withInput (s.input.insert t)).refresh ∅ (s.input.insert t)) :=
  update_of_bindless (s := s.withInput (s.input.insert t)) hk hb ∅

/-- So many further requests to complete. -/
def again (n : Nat) : List Request := List.replicate n (.event .startCompletion)

theorem serveAll_again_succ (s : Session) (n : Nat) :
    s.serveAll (again (n + 1)) = s.startCompletion.bind (·.serveAll (again n)) := by
  have hserve : s.serve (.event .startCompletion) = s.startCompletion := map_session_accepted _
  change (s.serve (.event .startCompletion)).bind (·.serveAll (again n)) = _
  rw [hserve]

end Requests

/-- Holds when a session without binds completes a word at the end of its line that is all that
several hints share. -/
structure Completing (word : Text) (s : Session) : Prop where
  reachable : s.keymap.Reachable
  bindless : s.allBinds = []
  before : s.input.before = word
  after : s.input.after = []
  keyword : s.keyword? = some ⟨word, false⟩
  several : ∃ g h, s.completion.Hint word g ∧ s.completion.Hint word h ∧ g ≠ h
  longest : Completion.Longest (s.completion.Hint word) word

/-- What a request leaves that goes on with a word: the hints are what they were, and they are
listed if the level says so. -/
structure Continued (word : Text) (c : Completion) (s : Session) : Prop where
  completing : s.Completing word
  level : s.completion.level = c.level.raised
  grown : c.Grown s.completion
  listed : c.level.raised.lists = true →
    ∃ c', c.Grown c' ∧ s.listed = some (c'.list word)

section Completing

variable {s s' : Session} {word : Text}

theorem Completing.of_grown (h : s.Completing word) (hk : s'.keyboard = s.keyboard)
    (hm : s'.keymap = s.keymap) (hc : s.completion.Grown s'.completion) : s'.Completing word := by
  have hi : s'.input = s.input := congrArg Keyboard.input hk
  obtain ⟨g, t, hg, ht, hne⟩ := h.several
  refine ⟨hm ▸ h.reachable, ?_, hi ▸ h.before, hi ▸ h.after, ?_, ⟨g, t, hc.hint hg, hc.hint ht, hne⟩,
    fun _ hu => hu.begins, fun r hr => h.longest.longest r fun u hu => hr u (hc.hint hu)⟩
  · rw [allBinds, hm]
    exact h.bindless
  · rw [keyword?_eq, hi, ← keyword?_eq]
    exact h.keyword

/-- With the hints in sight completion goes on, whatever has been displayed before. -/
theorem Completing.continued (h : s.Completing word) {c : Completion}
    (hl : s.completion.level = c.level.raised) (hc : c.Grown s.completion) :
    Continued word c s.refreshHints := by
  have hcompleting : s.refreshHints.Completing word :=
    h.of_grown (congrArg Core.keyboard (core_refreshHints s))
      (congrArg Core.keymap (core_refreshHints s)) (grown_refreshHints s)
  refine ⟨hcompleting, (level_refreshHints h.keyword).trans hl, hc.trans (grown_refreshHints s),
    fun hlists => ?_⟩
  obtain ⟨t, -, ht, -⟩ := h.several
  rw [← hl] at hlists
  exact ⟨s.completion, hc, listed_refreshHints h.keyword hlists ht⟩

/-- The next request takes the word, or it has nothing to fill in. -/
theorem Completing.advance_eq (h : s.Completing word) :
    (s.completion.advance ⟨word, false⟩).1 =
      if s.completion.level.raised = .complete ∧ word ∈ s.completion.candidates
      then .finish [' '] else .extend [] := by
  have haccepts : s.completion.Accepts ⟨word, false⟩ ↔
      s.completion.level.raised = .complete ∧ word ∈ s.completion.candidates :=
    and_congr_right fun _ => ⟨fun hw => hw.candidate, fun hw => ⟨hw, List.prefix_refl word⟩⟩
  obtain ⟨g, t, hg, ht, hne⟩ := h.several
  split
  · next hacc =>
    have hacc := haccepts.2 hacc
    have hfinish := Partial.finish_append ⟨word, false⟩ []
    rw [List.append_nil] at hfinish
    exact (Completion.advance_of_finish hacc.2 (.inr ⟨hacc, rfl⟩)).trans
      (congrArg CompletionStep.finish hfinish)
  · next hacc =>
    obtain ⟨x, hx, hlongest, -⟩ := Completion.advance_of_extend hg ht hne (mt haccepts.1 hacc)
    have hsame : word ++ x = word := hlongest.unique h.longest hg
    rw [hx, List.append_right_eq_self.1 hsame]

theorem Completing.startCompletion (h : s.Completing word)
    (hn : ¬(s.completion.level.raised = .complete ∧ word ∈ s.completion.candidates)) :
    ∃ s', s.startCompletion = some s' ∧ Continued word s.completion s' := by
  have hx := h.advance_eq
  rw [if_neg hn] at hx
  have hr : s.requested.Completing word := h.of_grown rfl rfl (.level _ _)
  exact ⟨_, startCompletion_of_extend h.keyword hx, hr.continued rfl (.level _ _)⟩

theorem Completing.accepted (h : s.Completing word) (hl : s.completion.level.raised = .complete)
    (hw : word ∈ s.completion.candidates) :
    ∃ s', s.startCompletion = some s' ∧ s'.input.before = word ++ [' '] ∧ s'.input.after = [] ∧
      s'.Ended := by
  have hx := h.advance_eq
  rw [if_pos ⟨hl, hw⟩] at hx
  have hinject := inject_of_bindless (s := s.requested) h.reachable h.bindless [' ']
  have hinput : (stopCompletion ((s.requested.withInput (s.input.insert [' '])).refresh ∅
      (s.input.insert [' ']))).input = s.input.insert [' '] :=
    congrArg (·.keyboard.input) ((core_stopCompletion _).trans (core_refresh _ _ _))
  rw [startCompletion_of_finish h.keyword hx, hinject]
  refine ⟨_, rfl, ?_, ?_, ended_stopCompletion _⟩
  · refine (congrArg Input.before hinput).trans ?_
    exact congrArg (· ++ [' ']) h.before
  · exact (congrArg Input.after hinput).trans h.after

end Completing

section Continued

variable {s : Session} {word : Text} {c : Completion}

/-- If the hints are not listed yet, the next request lists them. -/
theorem Continued.next (h : Continued word c s) (hl : c.level.raised.lists = false) :
    ∃ t, s.startCompletion = some t ∧ Continued word s.completion t ∧
      t.completion.level.lists = true := by
  obtain ⟨t, ht, hcont⟩ := h.completing.startCompletion fun hacc =>
    Level.raised_of_not_lists hl (h.level ▸ hacc.1)
  refine ⟨t, ht, hcont, ?_⟩
  rw [hcont.level, h.level]
  exact c.level.lists_raised_raised

theorem Continued.exists_listed (h : Continued word c s) :
    ∃ n t c', n ≤ 1 ∧ s.serveAll (again n) = some t ∧ c.Grown c' ∧
      t.listed = some (c'.list word) := by
  cases hl : c.level.raised.lists with
  | true =>
    obtain ⟨c', hgrown, hlisted⟩ := h.listed hl
    exact ⟨0, s, c', Nat.zero_le 1, rfl, hgrown, hlisted⟩
  | false =>
    obtain ⟨t, ht, hcont, hlists⟩ := h.next hl
    obtain ⟨c', hgrown, hlisted⟩ := hcont.listed (hcont.level ▸ hlists)
    refine ⟨1, t, c', Nat.le_refl 1, ?_, h.grown.trans hgrown, hlisted⟩
    rw [serveAll_again_succ, ht]
    rfl

theorem Continued.exists_accepted (h : Continued word c s) (hw : word ∈ c.candidates) :
    ∃ n t, n ≤ 2 ∧ s.serveAll (again n) = some t ∧ t.input.before = word ++ [' '] ∧
      t.input.after = [] ∧ t.Ended := by
  have hword : word ∈ s.completion.candidates := h.grown.kept word hw
  cases hl : c.level.raised.lists with
  | true =>
    obtain ⟨t, ht, hline⟩ :=
      h.completing.accepted (Level.raised_of_lists (h.level ▸ hl)) hword
    refine ⟨1, t, by decide, ?_, hline⟩
    rw [serveAll_again_succ, ht]
    rfl
  | false =>
    obtain ⟨u, hu, hcont, hlists⟩ := h.next hl
    obtain ⟨t, ht, hline⟩ :=
      hcont.completing.accepted (Level.raised_of_lists hlists) (hcont.grown.kept word hword)
    refine ⟨2, t, Nat.le_refl 2, ?_, hline⟩
    rw [serveAll_again_succ, hu, Option.bind_some, serveAll_again_succ, ht]
    rfl

end Continued

/-- Holds when no keyword has hints: the candidates are variables, and what is before the cursor is
no keyword with a mark. -/
structure Astray (s : Session) : Prop where
  marked : ∀ t ∈ s.completion.candidates, t.head? = some '@'
  unmarked : ∀ p, s.keyword? = some p → p.word ≠ [] ∧ p.word.head? ≠ some '@'

section Astray

variable {s s' : Session}

theorem Astray.of_grown (h : s.Astray) (hi : s'.input = s.input)
    (hc : s.completion.Grown s'.completion) : s'.Astray where
  marked := fun t ht => by
    rcases hc.shown t ht with ht | ⟨name, -, rfl⟩
    · exact h.marked t ht
    · rfl
  unmarked := by
    rw [keyword?_eq, hi, ← keyword?_eq]
    exact h.unmarked

theorem Astray.not_hint (h : s.Astray) {p : Partial} (hp : s.keyword? = some p) (t : Text) :
    ¬s.completion.Hint p.word t := by
  intro ht
  obtain ⟨hne, hhead⟩ := h.unmarked p hp
  obtain ⟨c, word, hword⟩ := List.exists_cons_of_ne_nil hne
  obtain ⟨rest, rfl⟩ := ht.begins
  have hmark := h.marked _ ht.candidate
  rw [hword] at hmark hhead
  exact hhead hmark

theorem Astray.startCompletion (h : s.Astray) :
    ∃ s', s.startCompletion = some s' ∧ s'.input = s.input ∧ s'.Astray := by
  cases hp : s.keyword? with
  | none =>
    have hi : s.stopCompletion.input = s.input :=
      congrArg (·.keyboard.input) (core_stopCompletion s)
    refine ⟨s.stopCompletion, ?_, hi, h.of_grown hi (grown_stopCompletion s)⟩
    unfold Session.startCompletion
    rw [hp]
  | some p =>
    have hnothing := Completion.advance_of_none (h.not_hint hp)
    exact ⟨s.requested, startCompletion_of_nothing hp hnothing, rfl, h.of_grown rfl (.level _ _)⟩

/-- No number of requests fills anything in. -/
theorem Astray.serveAll (h : s.Astray) (n : Nat) :
    ∃ s', s.serveAll (again n) = some s' ∧ s'.input = s.input ∧ s'.Astray := by
  induction n generalizing s with
  | zero => exact ⟨s, rfl, rfl, h⟩
  | succ n ih =>
    obtain ⟨next, hnext, hi, h'⟩ := h.startCompletion
    obtain ⟨s', hs', hi', hastray⟩ := ih h'
    exact ⟨s', by rw [serveAll_again_succ, hnext, Option.bind_some, hs'], hi'.trans hi, hastray⟩

end Astray

/-- Holds when a session without binds has `@q` in its line and the cursor at the end, and all that
it can complete are variables. -/
structure AtVariable (q : Text) (s : Session) : Prop where
  reachable : s.keymap.Reachable
  bindless : s.allBinds = []
  named : ∀ t ∈ s.completion.candidates, isVariable t = true
  before : s.input.before = '@' :: q
  after : s.input.after = []
  nonempty : q ≠ []
  solid : ∀ c ∈ q, Partial.isWordChar c = true

section AtVariable

variable {s : Session} {q x : Text}

theorem AtVariable.keyword (h : s.AtVariable q) : s.keyword? = some ⟨'@' :: q, false⟩ := by
  rw [keyword?_eq, h.before]
  exact Partial.atEnd?_mark_cons h.nonempty h.solid

/-- All that is filled in is part of a name, so apart from dots it is word characters. -/
theorem AtVariable.isWordChar (h : s.AtVariable q) {t : Text}
    (ht : s.completion.Hint ('@' :: (q ++ x)) t) {c : Char} (hc : c ∈ x) (hdot : c ≠ '.') :
    Partial.isWordChar c = true := by
  obtain ⟨rest, rfl⟩ := ht.begins
  have hname : isVariableName (q ++ x ++ rest) = true := h.named _ ht.candidate
  exact isWordChar_of_mem_variableName hname (by simp [hc]) hdot

theorem AtVariable.startCompletion (h : s.AtVariable q)
    (hx : (s.completion.advance ⟨'@' :: q, false⟩).1 = .extend x) :
    ∃ t : Session, s.startCompletion = some t.refreshHints ∧
      t.core = (s.requested.withInput (s.input.insert x)).core ∧
      s.completion.Grown t.completion ∧
      ∀ p, (s.requested.withInput (s.input.insert x)).keyword? = some p →
        t.completion.level = s.completion.level.raised := by
  have hstart := startCompletion_of_extend h.keyword hx
  cases x with
  | nil =>
    refine ⟨s.requested, hstart, ?_, .level _ _, fun _ _ => rfl⟩
    have hi : s.input.insert [] = s.input :=
      congrArg (fun before => { s.input with before }) (List.append_nil _)
    rw [hi]
    rfl
  | cons c x =>
    have hinject : s.requested.inject (c :: x) =
        some ((s.requested.withInput (s.input.insert (c :: x))).refresh ∅
          (s.input.insert (c :: x))) :=
      inject_of_bindless (s := s.requested) h.reachable h.bindless (c :: x)
    rw [if_neg (by simp), hinject, Option.map_some] at hstart
    refine ⟨_, hstart, core_refresh _ _ _, ?_, ?_⟩
    · have hlevel : s.completion.Grown s.requested.completion := .level s.completion _
      exact hlevel.trans (grown_refresh (s.requested.withInput (s.input.insert (c :: x))) ∅ _)
    · intro p hp
      exact level_refresh hp ∅ (s.input.insert (c :: x))

/-- Without a dot all of the text is a keyword. -/
theorem AtVariable.completing (h : s.AtVariable q)
    (hx : (s.completion.advance ⟨'@' :: q, false⟩).1 = .extend x) (hdot : '.' ∉ x) :
    (s.requested.withInput (s.input.insert x)).Completing ('@' :: (q ++ x)) := by
  obtain ⟨⟨g, t, hg, ht, hne⟩, hlongest, hsame⟩ := Completion.hints_of_extend hx
  have hline : s.input.before ++ x = '@' :: (q ++ x) := congrArg (· ++ x) h.before
  have hsolid : ∀ c ∈ q ++ x, Partial.isWordChar c = true := by
    intro c hc
    rcases List.mem_append.1 hc with hc | hc
    · exact h.solid c hc
    · exact h.isWordChar ((hsame g).2 hg) hc fun he => hdot (he ▸ hc)
  have hlevel : s.completion.Grown (s.requested.withInput (s.input.insert x)).completion :=
    .level s.completion _
  have hint {u : Text} (hu : s.completion.Hint ('@' :: q) u) :
      (s.requested.withInput (s.input.insert x)).completion.Hint ('@' :: (q ++ x)) u :=
    hlevel.hint ((hsame u).2 hu)
  refine ⟨h.reachable, h.bindless, hline, h.after, ?_, ⟨g, t, hint hg, hint ht, hne⟩,
    fun _ hu => hu.begins, fun r hr => hlongest.longest r fun u hu => hr u (hint hu)⟩
  rw [keyword?_eq]
  change Partial.atEnd? (s.input.before ++ x) = _
  rw [hline]
  exact Partial.atEnd?_mark_cons (by simp [h.nonempty]) hsolid

/-- With a dot there is no mark in the keyword. -/
theorem AtVariable.astray (h : s.AtVariable q)
    (hx : (s.completion.advance ⟨'@' :: q, false⟩).1 = .extend x) (hdot : '.' ∈ x) :
    (s.requested.withInput (s.input.insert x)).Astray := by
  obtain ⟨⟨g, -, hg, -, -⟩, -, hsame⟩ := Completion.hints_of_extend hx
  obtain ⟨later, earlier, hsplit, hlast⟩ := List.eq_append_cons_of_mem (List.mem_reverse.2 hdot)
  have hx : x = earlier.reverse ++ '.' :: later.reverse := by
    rw [← List.reverse_reverse x, hsplit]
    simp
  have hsolid : ∀ c ∈ later.reverse, Partial.isWordChar c = true := fun c hc =>
    h.isWordChar ((hsame g).2 hg) (by rw [hx]; simp [List.mem_reverse.1 hc])
      fun he => hlast (he ▸ List.mem_reverse.1 hc)
  constructor
  · intro t ht
    have hnamed := h.named t ht
    unfold isVariable at hnamed
    split at hnamed
    · rfl
    · cases hnamed
  · intro p hp
    rw [keyword?_eq] at hp
    change Partial.atEnd? (s.input.before ++ x) = some p at hp
    rw [hx, ← List.append_assoc, Partial.atEnd?_dot_append hsolid] at hp
    split at hp
    · cases hp
    · next hne =>
      cases hp
      refine ⟨hne, fun hhead => ?_⟩
      have hmark := hsolid '@' (List.mem_of_mem_head? hhead)
      exact absurd hmark (by decide)

/-- What is filled in decides how completion stands after the request. -/
theorem AtVariable.extended (h : s.AtVariable q)
    (hx : (s.completion.advance ⟨'@' :: q, false⟩).1 = .extend x) :
    ∃ s', s.startCompletion = some s' ∧ s'.input = s.input.insert x ∧
      s.completion.Grown s'.completion ∧
      ('.' ∉ x → Continued ('@' :: (q ++ x)) s.completion s') ∧ ('.' ∈ x → s'.Astray) := by
  obtain ⟨t, hstart, hcore, hgrown, hlevel⟩ := h.startCompletion hx
  have hinput : t.refreshHints.input = s.input.insert x :=
    congrArg (·.keyboard.input) ((core_refreshHints t).trans hcore)
  have hgrown' : s.completion.Grown t.refreshHints.completion := hgrown.trans (grown_refreshHints t)
  refine ⟨t.refreshHints, hstart, hinput, hgrown', fun hdot => ?_, fun hdot => ?_⟩
  · have hu := h.completing hx hdot
    have ht : t.Completing ('@' :: (q ++ x)) :=
      hu.of_grown (congrArg Core.keyboard hcore) (congrArg Core.keymap hcore)
        ⟨hgrown.kept, hgrown.shown⟩
    exact ht.continued (hlevel _ hu.keyword) hgrown
  · exact (h.astray hx hdot).of_grown hinput ⟨hgrown'.kept, hgrown'.shown⟩

end AtVariable

/-- A request that fills in what the hints for a variable share leaves the whole of it for the
keyword, unless a dot is filled in. The next request then lists the hints at the latest, which are
what they were, and the one after it takes the name, if it is one. With a dot there is no hint for
what is before the cursor, and no number of requests fills anything in. -/
theorem completion_continued {s : Session} {q x : Text} (h : s.AtVariable q)
    (hx : (s.completion.advance ⟨'@' :: q, false⟩).1 = .extend x) :
    ∃ s', s.startCompletion = some s' ∧
      s'.input.before = '@' :: (q ++ x) ∧ s'.input.after = [] ∧
      (s'.keyword? = some ⟨'@' :: (q ++ x), false⟩ ↔ '.' ∉ x) ∧
      s.completion.Grown s'.completion ∧
      (∀ t, t ∉ displayNames.map ('@' :: ·) →
        (s'.completion.Hint ('@' :: (q ++ x)) t ↔ s.completion.Hint ('@' :: q) t)) ∧
      ('.' ∉ x →
        (∃ n t c, n ≤ 1 ∧ s'.serveAll (again n) = some t ∧ s.completion.Grown c ∧
          t.listed = some (c.list ('@' :: (q ++ x)))) ∧
        ('@' :: (q ++ x) ∈ s.completion.candidates →
          ∃ n t, n ≤ 2 ∧ s'.serveAll (again n) = some t ∧
            t.input.before = '@' :: (q ++ x) ++ [' '] ∧ t.input.after = [] ∧ t.Ended)) ∧
      ('.' ∈ x → ∀ n, ∃ t, s'.serveAll (again n) = some t ∧ t.input = s'.input ∧
        ∀ p, t.keyword? = some p → ∀ hint, ¬t.completion.Hint p.word hint) := by
  obtain ⟨s', hstart, hinput, hgrown, hcontinued, hastray⟩ := h.extended hx
  have hsame := (Completion.hints_of_extend hx).2.2
  refine ⟨s', hstart, ?_, ?_, ⟨fun hk hdot => ?_, fun hdot => (hcontinued hdot).completing.keyword⟩,
    hgrown, fun t ht => ⟨fun hhint => ?_, fun hhint => hgrown.hint ((hsame t).2 hhint)⟩,
    fun hdot => ⟨(hcontinued hdot).exists_listed, (hcontinued hdot).exists_accepted⟩,
    fun hdot n => ?_⟩
  · rw [hinput]
    exact congrArg (· ++ x) h.before
  · rw [hinput]
    exact h.after
  · exact ((hastray hdot).unmarked _ hk).2 rfl
  · rcases hgrown.shown t hhint.candidate with hcand | ⟨name, hname, rfl⟩
    · exact (hsame t).1 ⟨hcand, hhint.begins⟩
    · exact absurd (List.mem_map_of_mem hname) ht
  · obtain ⟨t, ht, hi, hfree⟩ := (hastray hdot).serveAll n
    exact ⟨t, ht, hi, fun p hp => hfree.not_hint hp⟩

/-- Holds when a session without binds has `@q` in its line, and a request fills in `x`. -/
def extendsVariable (s : Session) (q x : Text) : Bool :=
  s.allBinds.isEmpty && s.completion.candidates.toList.all isVariable &&
    s.input.before = '@' :: q && s.input.after = [] &&
    (s.completion.advance ⟨'@' :: q, false⟩).1 = .extend x

theorem atVariable_of_extendsVariable {s : Session} (hk : s.keymap.Reachable) {q x : Text}
    (hne : q ≠ []) (hsolid : ∀ c ∈ q, Partial.isWordChar c = true)
    (h : s.extendsVariable q x = true) :
    s.AtVariable q ∧ (s.completion.advance ⟨'@' :: q, false⟩).1 = .extend x := by
  simp only [extendsVariable, Bool.and_eq_true, decide_eq_true_eq, List.isEmpty_iff,
    List.all_eq_true] at h
  obtain ⟨⟨⟨⟨hb, hn⟩, hbefore⟩, hafter⟩, hx⟩ := h
  exact ⟨⟨hk, hb, hn, hbefore, hafter, hne, hsolid⟩, hx⟩

/-- Requests that set two variables and type `@a`. -/
def setTwo (name other : Text) : List Request :=
  [.event (.variableSet name ['1']), .event (.variableSet other ['1']),
    .event (.setLine "@a".toList)]

/-- Of two names with an underscore the shorter one is filled in and then taken. -/
theorem completion_continued_underscore :
    ∃ s s' t n, (start .initial (Registry.empty.editAll [])).serveAll
        (setTwo "a_b".toList "a_bc".toList) = some s ∧ s.AtVariable ['a'] ∧
      (s.completion.advance ⟨"@a".toList, false⟩).1 = .extend "_b".toList ∧
      s.startCompletion = some s' ∧ s'.keyword? = some ⟨"@a_b".toList, false⟩ ∧ n ≤ 2 ∧
      s'.serveAll (again n) = some t ∧ t.input.before = "@a_b ".toList ∧ t.Ended := by
  have hview : ((start .initial (Registry.empty.editAll [])).serveAll
      (setTwo "a_b".toList "a_bc".toList)).any (fun s => s.extendsVariable ['a'] "_b".toList &&
        ("@a_b".toList ∈ s.completion.candidates : Bool)) = true := by decide +kernel
  obtain ⟨s, hs, hview⟩ := (Option.any_eq_true _ _).1 hview
  obtain ⟨hview, hcand⟩ := Bool.and_eq_true_iff.1 hview
  obtain ⟨h, hx⟩ := atVariable_of_extendsVariable (reachable_serveAll _ [] _ hs) (by decide)
    (List.all_eq_true.1 (by decide)) hview
  obtain ⟨s', hs', -, -, hkeyword, -, -, hplain, -⟩ := completion_continued h hx
  have hdot : '.' ∉ "_b".toList := by decide
  obtain ⟨n, t, hn, ht, hline, -, hended⟩ := (hplain hdot).2 (of_decide_eq_true hcand)
  exact ⟨s, s', t, n, hs, h, hx, hs', hkeyword.2 hdot, hn, ht, hline, hended⟩

/-- With a dot in place of the underscore the name is lost for completion. -/
theorem completion_lost_behind_dot :
    ∃ s s', (start .initial (Registry.empty.editAll [])).serveAll
        (setTwo "a.b".toList "a.bc".toList) = some s ∧ s.AtVariable ['a'] ∧
      (s.completion.advance ⟨"@a".toList, false⟩).1 = .extend ".b".toList ∧
      s.startCompletion = some s' ∧ s'.input.before = "@a.b".toList ∧
      s'.keyword? ≠ some ⟨"@a.b".toList, false⟩ ∧
      ∀ n, ∃ t, s'.serveAll (again n) = some t ∧ t.input.before = "@a.b".toList ∧
        ∀ p, t.keyword? = some p → ∀ hint, ¬t.completion.Hint p.word hint := by
  have hview : ((start .initial (Registry.empty.editAll [])).serveAll
      (setTwo "a.b".toList "a.bc".toList)).any (·.extendsVariable ['a'] ".b".toList) = true := by
    decide +kernel
  obtain ⟨s, hs, hview⟩ := (Option.any_eq_true _ _).1 hview
  obtain ⟨h, hx⟩ := atVariable_of_extendsVariable (reachable_serveAll _ [] _ hs) (by decide)
    (List.all_eq_true.1 (by decide)) hview
  obtain ⟨s', hstart, hinput, -, -, hastray⟩ := h.extended hx
  have hastray := hastray (by decide)
  have hbefore : s'.input.before = "@a.b".toList := by
    rw [hinput]
    exact congrArg (· ++ ".b".toList) h.before
  refine ⟨s, s', hs, h, hx, hstart, hbefore, fun hk => (hastray.unmarked _ hk).2 rfl, fun n => ?_⟩
  obtain ⟨t, ht, hi, hfree⟩ := hastray.serveAll n
  exact ⟨t, ht, (congrArg Input.before hi).trans hbefore, fun p hp => hfree.not_hint hp⟩

end Session

end ModalKeys
