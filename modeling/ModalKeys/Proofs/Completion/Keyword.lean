import ModalKeys.Completion
import ModalKeys.Proofs.Text.Offsets

namespace ModalKeys

open Text
open String (utf8Len utf8Len_append)

namespace Partial

/-- The longest run of word characters that ends a text, and what is ahead of it. -/
structure WordRun (left ahead word : Text) : Prop where
  split : left = ahead ++ word
  nonempty : word ≠ []
  solid : ∀ c ∈ word, isWordChar c = true
  longest : ∀ u, u <:+ left → (∀ c ∈ u, isWordChar c = true) → u <:+ word

/-- Holds when the last character of a text is a word character. -/
def EndsInWord (t : Text) : Prop := ∃ c, t.getLast? = some c ∧ isWordChar c = true

/-- Holds when a text ends in the letters `set` and then white space, with `before` ahead of
them. -/
def EndsInSet (t before : Text) : Prop :=
  ∃ gap, gap ≠ [] ∧ (∀ c ∈ gap, isBlank c = true) ∧ t = before ++ "set".toList ++ gap

/-- The grammar of keywords. A run names a variable after a mark, and after the whole word `set`. -/
inductive Keyword (left : Text) : Option Partial → Prop
  | absent (free : ¬EndsInWord left) : Keyword left none
  | marked {ahead word : Text} (run : WordRun left ahead word)
      (mark : ahead.getLast? = some '@') : Keyword left (some ⟨'@' :: word, false⟩)
  | assigned {ahead word before : Text} (run : WordRun left ahead word)
      (follows : EndsInSet ahead before) (whole : ¬EndsInWord before) :
      Keyword left (some ⟨'@' :: word, true⟩)
  | plain {ahead word : Text} (run : WordRun left ahead word)
      (unmarked : ahead.getLast? ≠ some '@')
      (unassigned : ∀ before, EndsInSet ahead before → EndsInWord before) :
      Keyword left (some ⟨word, false⟩)

/-- Holds when the last run of a text follows a longer word that ends in the letters `set`. -/
def FollowsLongerSet (left : Text) : Prop :=
  ∃ ahead word before, WordRun left ahead word ∧ EndsInSet ahead before ∧ EndsInWord before

/-- The keyword that ends a text in memory: the run begins at the byte offset of its first
character, and white space is there if it adds to the bytes. -/
def atEndBytes? (left : Text) : Except Fault (Option Partial) := do
  match ((charOffsets 0 left).reverse.takeWhile fun entry => isWordChar entry.2).getLast? with
  | none => return none
  | some (start, _) => do
    let (before, word) ← cut left start
    let trimmed := trimEnd before
    if before.getLast? = some '@' then return some ⟨'@' :: word, false⟩
    else if utf8Len trimmed < utf8Len before && "set".toList.isSuffixOf trimmed then
      return some ⟨'@' :: word, true⟩
    else return some ⟨word, false⟩

/-- There is no keyword just where the cursor is not after a word. -/
theorem atEnd?_eq_none_iff {t : Text} :
    atEnd? t = none ↔ ∀ c, t.getLast? = some c → isWordChar c = false := by
  have hword : atEnd? t = none ↔ (t.drop (dropEndWhile isWordChar t).length).isEmpty = true := by
    unfold atEnd?
    dsimp only
    split
    · next h => simp [h]
    · next h =>
      split
      · simp [h]
      · split <;> simp [h]
  obtain ⟨word, -, ht⟩ := exists_dropEndWhile_append isWordChar t
  have hdrop : t.drop (dropEndWhile isWordChar t).length = word :=
    (congrArg (List.drop _) ht.symm).trans List.drop_left
  rw [hword, hdrop, List.isEmpty_iff]
  constructor
  · rintro rfl c hc
    rw [List.append_nil] at ht
    rw [← ht] at hc
    exact last_dropEndWhile isWordChar t hc
  · intro hlast
    have hsame : dropEndWhile isWordChar t = t := dropEndWhile_of_last hlast
    rw [hsame] at ht
    exact List.append_right_eq_self.1 ht

section WordRun

variable {left ahead word before : Text}

theorem not_endsInWord_iff {t : Text} :
    ¬EndsInWord t ↔ ∀ c, t.getLast? = some c → isWordChar c = false := by
  simp [EndsInWord]

theorem WordRun.of_append (hne : word ≠ []) (hsolid : ∀ c ∈ word, isWordChar c = true)
    (hlast : ¬EndsInWord ahead) : WordRun (ahead ++ word) ahead word :=
  ⟨rfl, hne, hsolid, fun _ hu hall => suffix_of_last (not_endsInWord_iff.1 hlast) hu hall⟩

/-- What is ahead of the longest run does not end in a word itself. -/
theorem WordRun.not_endsInWord (h : WordRun left ahead word) : ¬EndsInWord ahead := by
  rintro ⟨c, hc, hword⟩
  obtain ⟨front, rfl⟩ := List.getLast?_eq_some_iff.1 hc
  have hlonger : c :: word <:+ left := ⟨front, by rw [h.split, List.append_assoc]; rfl⟩
  have hsuffix := h.longest _ hlonger (List.forall_mem_cons.2 ⟨hword, h.solid⟩)
  have hlength := hsuffix.length_le
  rw [List.length_cons] at hlength
  omega

theorem WordRun.dropEndWhile_eq (h : WordRun left ahead word) :
    dropEndWhile isWordChar left = ahead := by
  rw [h.split]
  exact dropEndWhile_append_of_last (not_endsInWord_iff.1 h.not_endsInWord) h.solid

theorem WordRun.unique {ahead' word' : Text} (h : WordRun left ahead word)
    (h' : WordRun left ahead' word') : ahead = ahead' ∧ word = word' := by
  have hahead : ahead = ahead' := h.dropEndWhile_eq.symm.trans h'.dropEndWhile_eq
  have hsplit : ahead ++ word = ahead' ++ word' := h.split.symm.trans h'.split
  rw [hahead] at hsplit
  exact ⟨hahead, List.append_cancel_left hsplit⟩

theorem exists_wordRun (h : EndsInWord left) : ∃ ahead word, WordRun left ahead word := by
  obtain ⟨word, hsolid, hsplit⟩ := exists_dropEndWhile_append isWordChar left
  have hlast : ¬EndsInWord (dropEndWhile isWordChar left) :=
    not_endsInWord_iff.2 fun c hc => last_dropEndWhile isWordChar left hc
  have hne : word ≠ [] := by
    rintro rfl
    rw [List.append_nil] at hsplit
    exact hlast (hsplit.symm ▸ h)
  have hrun := WordRun.of_append hne hsolid hlast
  rw [hsplit] at hrun
  exact ⟨_, word, hrun⟩

theorem EndsInSet.trimEnd_eq (h : EndsInSet ahead before) :
    trimEnd ahead = before ++ "set".toList := by
  obtain ⟨gap, -, hblank, rfl⟩ := h
  refine dropEndWhile_append_of_last ?_ hblank
  intro c hc
  have hlast : (before ++ "set".toList).getLast? = some 't' := by simp
  rw [hlast] at hc
  cases hc
  rfl

theorem EndsInSet.unique {before' : Text} (h : EndsInSet ahead before)
    (h' : EndsInSet ahead before') : before = before' :=
  List.append_cancel_right (h.trimEnd_eq.symm.trans h'.trimEnd_eq)

theorem EndsInSet.isBlank_last (h : EndsInSet ahead before) {c : Char}
    (hc : ahead.getLast? = some c) : isBlank c = true := by
  obtain ⟨gap, hne, hblank, rfl⟩ := h
  obtain ⟨front, d, rfl⟩ := (List.eq_nil_or_concat gap).resolve_left hne
  rw [List.concat_eq_append, ← List.append_assoc, List.getLast?_concat] at hc
  cases hc
  exact hblank _ (by simp)

theorem EndsInSet.unmarked (h : EndsInSet ahead before) : ahead.getLast? ≠ some '@' :=
  fun hmark => absurd (h.isBlank_last hmark) (by decide)

/-- White space is dropped after the letters `set` just where a text ends in them and in that. -/
theorem endsInSet_iff :
    (∃ before, EndsInSet ahead before) ↔
      (decide ((trimEnd ahead).length < ahead.length) &&
        "set".toList.isSuffixOf (trimEnd ahead)) = true := by
  rw [Bool.and_eq_true, decide_eq_true_eq, List.isSuffixOf_iff_suffix]
  constructor
  · rintro ⟨before, h⟩
    have htrim := h.trimEnd_eq
    obtain ⟨gap, hne, -, rfl⟩ := h
    rw [htrim]
    refine ⟨?_, List.suffix_append _ _⟩
    have hpos := List.length_pos_iff.2 hne
    have hlength : (before ++ "set".toList ++ gap).length =
        (before ++ "set".toList).length + gap.length := List.length_append
    rw [hlength]
    omega
  · rintro ⟨hlt, before, hbefore⟩
    obtain ⟨gap, hblank, hgap⟩ := exists_trimEnd_append ahead
    refine ⟨before, gap, ?_, hblank, by rw [hbefore, hgap]⟩
    rintro rfl
    rw [List.append_nil] at hgap
    rw [hgap] at hlt
    exact Nat.lt_irrefl _ hlt

end WordRun

section Recognised

variable {left ahead word before : Text}

/-- Once the run has been found, the text ahead of it decides. -/
theorem atEnd?_of_run (h : WordRun left ahead word) :
    atEnd? left =
      if ahead.getLast? = some '@' then some ⟨'@' :: word, false⟩
      else if (trimEnd ahead).length < ahead.length && "set".toList.isSuffixOf (trimEnd ahead) then
        some ⟨'@' :: word, true⟩
      else some ⟨word, false⟩ := by
  have hdrop : left.drop ahead.length = word := by rw [h.split, List.drop_left]
  have hword : word.isEmpty = false := Bool.eq_false_iff.2 (mt List.isEmpty_iff.1 h.nonempty)
  unfold atEnd?
  dsimp only
  rw [h.dropEndWhile_eq, hdrop, hword]
  rfl

theorem atEnd?_of_marked (h : WordRun left ahead word) (hmark : ahead.getLast? = some '@') :
    atEnd? left = some ⟨'@' :: word, false⟩ := by
  rw [atEnd?_of_run h, if_pos hmark]

theorem atEnd?_of_set (h : WordRun left ahead word) (hset : EndsInSet ahead before) :
    atEnd? left = some ⟨'@' :: word, true⟩ := by
  rw [atEnd?_of_run h, if_neg hset.unmarked, if_pos (endsInSet_iff.1 ⟨before, hset⟩)]

theorem atEnd?_of_plain (h : WordRun left ahead word) (hmark : ahead.getLast? ≠ some '@')
    (hset : ∀ before, ¬EndsInSet ahead before) : atEnd? left = some ⟨word, false⟩ := by
  rw [atEnd?_of_run h, if_neg hmark, if_neg]
  rw [← endsInSet_iff]
  exact not_exists.2 hset

theorem atEnd?_eq_set_iff :
    atEnd? left = some ⟨'@' :: word, true⟩ ↔
      ∃ ahead before, WordRun left ahead word ∧ EndsInSet ahead before := by
  constructor
  · intro hp
    have hword : EndsInWord left := by
      by_contra hn
      rw [atEnd?_eq_none_iff.2 (not_endsInWord_iff.1 hn)] at hp
      cases hp
    obtain ⟨ahead, run, h⟩ := exists_wordRun hword
    rw [atEnd?_of_run h] at hp
    split at hp
    · cases hp
    · split at hp
      · next hset =>
        cases hp
        obtain ⟨before, hset⟩ := endsInSet_iff.2 hset
        exact ⟨ahead, before, h, hset⟩
      · cases hp
  · rintro ⟨ahead, before, h, hset⟩
    exact atEnd?_of_set h hset

/-- Where no longer word is taken for `set`, the grammar says what is found. -/
theorem keyword_iff (hn : ¬FollowsLongerSet left) (p? : Option Partial) :
    Keyword left p? ↔ atEnd? left = p? := by
  constructor
  · intro hk
    cases hk with
    | absent free => exact atEnd?_eq_none_iff.2 (not_endsInWord_iff.1 free)
    | marked run mark => exact atEnd?_of_marked run mark
    | assigned run follows whole => exact atEnd?_of_set run follows
    | plain run unmarked unassigned =>
      exact atEnd?_of_plain run unmarked fun before hset =>
        hn ⟨_, _, before, run, hset, unassigned before hset⟩
  · rintro rfl
    by_cases hword : EndsInWord left
    · obtain ⟨ahead, word, run⟩ := exists_wordRun hword
      have hwhole : ∀ before, EndsInSet ahead before → ¬EndsInWord before := fun before hset hw =>
        hn ⟨ahead, word, before, run, hset, hw⟩
      by_cases hset : ∃ before, EndsInSet ahead before
      · obtain ⟨before, hset⟩ := hset
        rw [atEnd?_of_set run hset]
        exact .assigned run hset (hwhole before hset)
      · by_cases hmark : ahead.getLast? = some '@'
        · rw [atEnd?_of_marked run hmark]
          exact .marked run hmark
        · rw [atEnd?_of_plain run hmark (not_exists.1 hset)]
          exact .plain run hmark fun before hs => absurd ⟨before, hs⟩ hset
    · rw [atEnd?_eq_none_iff.2 (not_endsInWord_iff.1 hword)]
      exact .absent hword

/-- After a longer word that ends in `set` the set form is not of the grammar. -/
theorem not_keyword_of_longerSet {before : Text} (h : WordRun left ahead word)
    (hset : EndsInSet ahead before) (hw : EndsInWord before) :
    ¬Keyword left (some ⟨'@' :: word, true⟩) := by
  intro hk
  cases hk with
  | assigned run follows whole =>
    obtain ⟨rfl, -⟩ := run.unique h
    exact whole (follows.unique hset ▸ hw)

end Recognised

section Bytes

variable {ahead word : Text}

/-- From the end of a text the characters of its last run are met first, with their offsets. -/
theorem takeWhile_charOffsets (hlast : ¬EndsInWord ahead)
    (hsolid : ∀ c ∈ word, isWordChar c = true) :
    ((charOffsets 0 (ahead ++ word)).reverse.takeWhile fun entry => isWordChar entry.2) =
      (charOffsets (utf8Len ahead) word).reverse := by
  have hfront : (charOffsets 0 ahead).reverse.takeWhile (fun entry => isWordChar entry.2) = [] := by
    obtain rfl | ⟨front, c, rfl⟩ := List.eq_nil_or_concat ahead
    · rfl
    · rw [List.concat_eq_append] at hlast ⊢
      have hc : isWordChar c = false := not_endsInWord_iff.1 hlast c List.getLast?_concat
      rw [charOffsets_append]
      simp [charOffsets, hc]
  have hword : ∀ entry ∈ (charOffsets (utf8Len ahead) word).reverse,
      isWordChar entry.2 = true := by
    intro entry hentry
    apply hsolid
    rw [← map_snd_charOffsets (utf8Len ahead) word]
    exact List.mem_map_of_mem (List.mem_reverse.1 hentry)
  rw [charOffsets_append, Nat.zero_add, List.reverse_append, List.takeWhile_append_of_pos hword,
    hfront, List.append_nil]

/-- A text that is trimmed gets shorter in characters just when it does so in bytes. -/
theorem utf8Len_trimEnd_lt_iff (t : Text) :
    utf8Len (trimEnd t) < utf8Len t ↔ (trimEnd t).length < t.length := by
  obtain ⟨gap, -, hgap⟩ := exists_trimEnd_append t
  have hbytes : utf8Len t = utf8Len (trimEnd t) + utf8Len gap := by
    rw [← utf8Len_append, hgap]
  have hchars : t.length = (trimEnd t).length + gap.length := by rw [← List.length_append, hgap]
  rw [hbytes, hchars]
  cases gap with
  | nil => simp
  | cons c gap =>
    have hpos : 0 < utf8Len (c :: gap) := utf8Len_pos (List.cons_ne_nil c gap)
    rw [List.length_cons]
    omega

theorem atEndBytes?_eq (left : Text) : atEndBytes? left = .ok (atEnd? left) := by
  by_cases hword : EndsInWord left
  · obtain ⟨ahead, word, run⟩ := exists_wordRun hword
    have hrun := takeWhile_charOffsets run.not_endsInWord run.solid
    rw [← run.split] at hrun
    obtain ⟨c, rest, rfl⟩ := List.exists_cons_of_ne_nil run.nonempty
    have hcut := cut_append ahead (c :: rest)
    rw [← run.split] at hcut
    rw [atEnd?_of_run run, atEndBytes?, hrun, List.getLast?_reverse]
    simp only [charOffsets, List.head?_cons, hcut, Fault.ok_bind, utf8Len_trimEnd_lt_iff]
    split
    · rfl
    · split <;> rfl
  · have hnone : ∀ c ∈ ([] : Text), isWordChar c = true := List.forall_mem_nil _
    have hrun := takeWhile_charOffsets hword hnone
    rw [List.append_nil] at hrun
    rw [atEnd?_eq_none_iff.2 (not_endsInWord_iff.1 hword), atEndBytes?, hrun]
    rfl

end Bytes

/-- A keyword is found just where the cursor is after a word, with all the cuts in memory between
characters. It is the keyword of the grammar unless it follows a longer word that ends in the
letters `set`: the set form is found wherever these letters and white space are ahead of the run. -/
theorem at?_keyword (line : Text) (cursor : Nat) :
    let left := line.take cursor
    atEndBytes? left = .ok (at? line cursor) ∧
    (at? line cursor = none ↔ ¬EndsInWord left) ∧
    (∀ word, at? line cursor = some ⟨'@' :: word, true⟩ ↔
      ∃ ahead before, WordRun left ahead word ∧ EndsInSet ahead before) ∧
    ((∀ p?, Keyword left p? ↔ at? line cursor = p?) ↔ ¬FollowsLongerSet left) := by
  intro left
  refine ⟨atEndBytes?_eq left, ?_, fun word => atEnd?_eq_set_iff, ?_, keyword_iff⟩
  · exact atEnd?_eq_none_iff.trans not_endsInWord_iff.symm
  · rintro hall ⟨ahead, word, before, run, hset, hw⟩
    exact not_keyword_of_longerSet run hset hw ((hall _).2 (atEnd?_of_set run hset))

example : at? "set\u3000zoöm 1".toList 8 = some ⟨"@zoöm".toList, true⟩ := by decide +kernel

/-- After `reset` a plain word is taken for a variable that is set. -/
theorem at?_after_reset :
    let line := "reset zo".toList
    Keyword (line.take 8) (some ⟨"zo".toList, false⟩) ∧
      at? line 8 = some ⟨"@zo".toList, true⟩ ∧ ¬Keyword (line.take 8) (at? line 8) := by
  intro line
  have hblank : ¬EndsInWord "reset ".toList := not_endsInWord_iff.2 fun c hc => by
    cases hc
    decide
  have hsolid : ∀ c ∈ "zo".toList, isWordChar c = true := List.all_eq_true.1 (by decide)
  have run : WordRun (line.take 8) "reset ".toList "zo".toList :=
    WordRun.of_append (by decide) hsolid hblank
  have hset : EndsInSet "reset ".toList "re".toList :=
    ⟨[' '], by decide, List.all_eq_true.1 (by decide), rfl⟩
  have hword : EndsInWord "re".toList := ⟨'e', rfl, by decide⟩
  have hfound : at? line 8 = some ⟨"@zo".toList, true⟩ := atEnd?_of_set run hset
  refine ⟨.plain run (by decide) fun before h => hset.unique h ▸ hword, hfound, ?_⟩
  rw [hfound]
  exact not_keyword_of_longerSet run hset hword

end Partial

end ModalKeys
