import ModalKeys.Completion
import ModalKeys.Proofs.Text.Offsets

namespace ModalKeys

open Text
open String (utf8Len utf8Len_append utf8Len_cons utf8Len_le_of_sublist)

section CommonPrefix

/-- The common prefix of two texts is their meet. -/
theorem prefix_commonPrefix_iff {r s t : Text} : r <+: commonPrefix s t ↔ r <+: s ∧ r <+: t := by
  induction s generalizing r t with
  | nil =>
    rw [commonPrefix.eq_def]
    simp only [List.prefix_nil]
    constructor
    · rintro rfl
      exact ⟨rfl, List.nil_prefix⟩
    · exact And.left
  | cons a s ih =>
    cases t with
    | nil =>
      rw [commonPrefix.eq_def]
      simp only [List.prefix_nil]
      constructor
      · rintro rfl
        exact ⟨List.nil_prefix, rfl⟩
      · exact And.right
    | cons b t =>
      rw [commonPrefix]
      cases r with
      | nil => simp
      | cons c r =>
        split
        · next h =>
          subst h
          simp only [List.cons_prefix_cons, ih]
          tauto
        · next h =>
          simp only [List.cons_prefix_cons, List.prefix_nil]
          constructor
          · intro hr
            cases hr
          · rintro ⟨⟨rfl, -⟩, rfl, -⟩
            exact absurd rfl h

theorem commonPrefix_prefix_left (s t : Text) : commonPrefix s t <+: s :=
  (prefix_commonPrefix_iff.1 (List.prefix_refl _)).1

theorem commonPrefix_prefix_right (s t : Text) : commonPrefix s t <+: t :=
  (prefix_commonPrefix_iff.1 (List.prefix_refl _)).2

theorem prefix_commonPrefixAll_iff {r t : Text} {ts : List Text} :
    r <+: commonPrefixAll (t :: ts) ↔ ∀ u ∈ t :: ts, r <+: u := by
  rw [commonPrefixAll]
  induction ts generalizing t with
  | nil => simp
  | cons u ts ih =>
    rw [List.foldl_cons, ih]
    simp only [List.forall_mem_cons, prefix_commonPrefix_iff, and_assoc]

theorem eq_of_prefixes {s t : Text} (h : s <+: t) (h' : t <+: s) : s = t :=
  h.eq_of_length_le h'.length_le

end CommonPrefix

section Bytes

/-- The byte offset in the first hint up to which another is the same. -/
def sharedWith (first hint : Text) : Nat :=
  (((charOffsets 0 first).zip hint).takeWhile fun (entry, c) => entry.2 = c).getLast?.elim 0
    fun (entry, _) => entry.1 + entry.2.utf8Size

def sharedBytes (first : Text) (others : List Text) : Nat :=
  others.foldl (fun len hint => min (sharedWith first hint) len) (utf8Len first)

def sharedPrefix : List Text → Except Fault Text
  | [] => return []
  | first :: others => do
    let (shared, _) ← cut first (sharedBytes first others)
    return shared

/-- What is behind the bytes of a word. -/
def behind (word t : Text) : Except Fault Text := do
  let (_, rest) ← cut t (utf8Len word)
  return rest

theorem behind_append (word rest : Text) : behind word (word ++ rest) = .ok rest := by
  rw [behind, cut_append]
  rfl

theorem sharedFrom_eq (start : Nat) (s t : Text) :
    (((charOffsets start s).zip t).takeWhile fun (entry, c) => entry.2 = c).getLast?.elim start
      (fun (entry, _) => entry.1 + entry.2.utf8Size) = start + utf8Len (commonPrefix s t) := by
  induction s generalizing start t with
  | nil => cases t <;> rfl
  | cons a s ih =>
    cases t with
    | nil => rfl
    | cons b t =>
      rw [charOffsets, List.zip_cons_cons, List.takeWhile_cons, commonPrefix]
      by_cases h : a = b
      · have hrest := ih (start + a.utf8Size) t
        have hsize : start + utf8Len (a :: commonPrefix s t) =
            start + a.utf8Size + utf8Len (commonPrefix s t) := by
          rw [utf8Len_cons]
          omega
        rw [if_pos (decide_eq_true h), if_pos h, hsize, ← hrest, List.getLast?_cons]
        generalize (List.getLast? _) = last
        cases last <;> rfl
      · simp [h]

theorem sharedWith_eq (first hint : Text) :
    sharedWith first hint = utf8Len (commonPrefix first hint) :=
  (sharedFrom_eq 0 first hint).trans (Nat.zero_add _)

/-- Of two prefixes of one text the shorter one is what they share. -/
theorem min_utf8Len_eq {first shared : Text} (h : shared <+: first) (hint : Text) :
    min (utf8Len (commonPrefix first hint)) (utf8Len shared) =
      utf8Len (commonPrefix shared hint) := by
  rcases List.prefix_or_prefix_of_prefix h (commonPrefix_prefix_left first hint) with hle | hle
  · have hsame : commonPrefix shared hint = shared :=
      eq_of_prefixes (commonPrefix_prefix_left shared hint)
        (prefix_commonPrefix_iff.2
          ⟨List.prefix_refl _, hle.trans (commonPrefix_prefix_right first hint)⟩)
    rw [hsame]
    exact Nat.min_eq_right (utf8Len_le_of_sublist hle.sublist)
  · have hsame : commonPrefix shared hint = commonPrefix first hint :=
      eq_of_prefixes
        (prefix_commonPrefix_iff.2
          ⟨(commonPrefix_prefix_left shared hint).trans h, commonPrefix_prefix_right shared hint⟩)
        (prefix_commonPrefix_iff.2 ⟨hle, commonPrefix_prefix_right first hint⟩)
    rw [hsame]
    exact Nat.min_eq_left (utf8Len_le_of_sublist hle.sublist)

theorem sharedBytes_eq (first : Text) (others : List Text) :
    sharedBytes first others = utf8Len (commonPrefixAll (first :: others)) := by
  have run (shared : Text) (h : shared <+: first) (ts : List Text) :
      ts.foldl (fun len hint => min (sharedWith first hint) len) (utf8Len shared) =
        utf8Len (ts.foldl commonPrefix shared) := by
    induction ts generalizing shared with
    | nil => rfl
    | cons t ts ih =>
      rw [List.foldl_cons, List.foldl_cons, sharedWith_eq, min_utf8Len_eq h]
      exact ih _ ((commonPrefix_prefix_left shared t).trans h)
  exact run first (List.prefix_refl _) others

theorem sharedPrefix_eq (ts : List Text) : sharedPrefix ts = .ok (commonPrefixAll ts) := by
  cases ts with
  | nil => rfl
  | cons t ts =>
    obtain ⟨rest, hrest⟩ : commonPrefixAll (t :: ts) <+: t :=
      prefix_commonPrefixAll_iff.1 (List.prefix_refl _) t List.mem_cons_self
    have hcut := cut_append (commonPrefixAll (t :: ts)) rest
    rw [hrest] at hcut
    rw [sharedPrefix, sharedBytes_eq, hcut]
    rfl

end Bytes

namespace Partial

/-- What follows a hint that is finished. -/
def ending (p : Partial) : Text := if p.isSet then " = ".toList else [' ']

def finishBytes (p : Partial) (hint : Text) : Except Fault Text := do
  return (← behind p.word hint) ++ p.ending

theorem finish_append (p : Partial) (rest : Text) : p.finish (p.word ++ rest) = rest ++ p.ending :=
  congrArg (· ++ p.ending) List.drop_left

theorem finishBytes_eq (p : Partial) {hint : Text} (h : p.word <+: hint) :
    finishBytes p hint = .ok (p.finish hint) := by
  obtain ⟨rest, rfl⟩ := h
  rw [finishBytes, behind_append, finish_append]
  rfl

theorem word_append_finish (p : Partial) {hint : Text} (h : p.word <+: hint) :
    p.word ++ p.finish hint = hint ++ p.ending := by
  obtain ⟨rest, rfl⟩ := h
  rw [finish_append, List.append_assoc]

end Partial

namespace Completion

/-- A candidate that begins with a word. -/
structure Hint (c : Completion) (word hint : Text) : Prop where
  candidate : hint ∈ c.candidates
  begins : word <+: hint

/-- A longest common prefix of texts. -/
structure Longest (texts : Text → Prop) (s : Text) : Prop where
  common : ∀ t, texts t → s <+: t
  longest : ∀ r, (∀ t, texts t → r <+: t) → r.length ≤ s.length

/-- Holds when the keyword is taken as it is. -/
def Accepts (c : Completion) (p : Partial) : Prop :=
  c.level.raised = .complete ∧ c.Hint p.word p.word

def stepForBytes (level : Level) (p : Partial) (hints : List Text) : Except Fault CompletionStep :=
  match hints with
  | [] => return .nothing
  | [hint] => return .finish (← p.finishBytes hint)
  | _ => do
    if level = .complete && hints.contains p.word then return .finish (← p.finishBytes p.word)
    return .extend (← behind p.word (← sharedPrefix hints))

/-- The step with the hints as they lie in memory, cut at byte offsets. -/
def advanceBytes (c : Completion) (p : Partial) : Except Fault (CompletionStep × Completion) := do
  let level := c.level.raised
  let step ← stepForBytes level p (c.hints p.word)
  return (step, { c with level })

variable {c : Completion} {word hint : Text}

theorem mem_hints : hint ∈ c.hints word ↔ c.Hint word hint := by
  rw [hints, List.mem_filter, List.isPrefixOf_iff_prefix]
  exact ⟨fun ⟨h, h'⟩ => ⟨h, h'⟩, fun ⟨h, h'⟩ => ⟨h, h'⟩⟩

theorem nodup_hints (c : Completion) (word : Text) : (c.hints word).Nodup := by
  have hsorted : (c.hints word).Pairwise (· < ·) := c.candidates.sorted.filter _
  apply hsorted.imp
  rintro s t hlt rfl
  exact List.lt_irrefl s hlt

theorem stepForBytes_eq (level : Level) (p : Partial) (c : Completion) :
    stepForBytes level p (c.hints p.word) = .ok (stepFor level p (c.hints p.word)) := by
  have hbegins : ∀ hint ∈ c.hints p.word, p.word <+: hint := fun hint h => (mem_hints.1 h).begins
  revert hbegins
  generalize c.hints p.word = hints
  intro hbegins
  match hints with
  | [] => rfl
  | [hint] =>
    rw [stepForBytes, Partial.finishBytes_eq p (hbegins hint List.mem_cons_self)]
    rfl
  | g :: h :: others =>
    obtain ⟨rest, hrest⟩ := prefix_commonPrefixAll_iff.2 hbegins
    have hbehind := behind_append p.word rest
    rw [hrest] at hbehind
    have hdrop : (commonPrefixAll (g :: h :: others)).drop p.word.length = rest := by
      rw [← hrest]
      exact List.drop_left
    simp only [stepForBytes, stepFor, sharedPrefix_eq, Fault.ok_bind, hbehind, hdrop,
      Partial.finishBytes_eq p (List.prefix_refl p.word)]
    split <;> rfl

theorem advanceBytes_eq (c : Completion) (p : Partial) :
    c.advanceBytes p = .ok (c.advance p) := by
  rw [advanceBytes, stepForBytes_eq]
  rfl

section Steps

variable {p : Partial}

theorem advance_of_none (h : ∀ g, ¬c.Hint p.word g) : (c.advance p).1 = .nothing := by
  have hhints : c.hints p.word = [] :=
    List.eq_nil_iff_forall_not_mem.2 fun g hg => h g (mem_hints.1 hg)
  rw [advance, hhints]
  rfl

theorem advance_of_finish (h : c.Hint p.word hint)
    (hone : (∀ g, c.Hint p.word g → g = hint) ∨ c.Accepts p ∧ hint = p.word) :
    (c.advance p).1 = .finish (p.finish hint) := by
  have hmem : hint ∈ c.hints p.word := mem_hints.2 h
  have hnodup := nodup_hints c p.word
  have honly : (∀ g ∈ c.hints p.word, g = hint) ∨ c.level.raised = .complete ∧ hint = p.word := by
    rcases hone with hone | ⟨⟨hlevel, -⟩, heq⟩
    · exact .inl fun g hg => hone g (mem_hints.1 hg)
    · exact .inr ⟨hlevel, heq⟩
  rw [advance]
  revert hmem hnodup honly
  generalize c.hints p.word = hints
  intro hmem hnodup honly
  match hints with
  | [g] =>
    rw [List.mem_singleton.1 hmem]
    rfl
  | g :: g' :: others =>
    rcases honly with hsame | ⟨hlevel, rfl⟩
    · have hg : g = hint := hsame g (by simp)
      have hg' : g' = hint := hsame g' (by simp)
      simp [hg, hg'] at hnodup
    · have hcond : (decide (c.level.raised = .complete) &&
          (g :: g' :: others).contains p.word) = true := by
        simp only [hlevel, decide_true, Bool.true_and, List.contains_iff_mem]
        exact hmem
      exact if_pos hcond

theorem advance_of_extend {g h : Text} (hg : c.Hint p.word g) (hh : c.Hint p.word h) (hne : g ≠ h)
    (haccepts : ¬c.Accepts p) : ∃ x, (c.advance p).1 = .extend x ∧
      Longest (c.Hint p.word) (p.word ++ x) ∧ ∀ t, c.Hint (p.word ++ x) t ↔ c.Hint p.word t := by
  obtain ⟨s, t, others, hhints⟩ : ∃ s t others, c.hints p.word = s :: t :: others := by
    have hgmem := mem_hints.2 hg
    have hhmem := mem_hints.2 hh
    match c.hints p.word, hgmem, hhmem with
    | [s], hgmem, hhmem =>
      exact absurd ((List.mem_singleton.1 hgmem).trans (List.mem_singleton.1 hhmem).symm) hne
    | s :: t :: others, _, _ => exact ⟨s, t, others, rfl⟩
  have hshared (r : Text) : r <+: commonPrefixAll (s :: t :: others) ↔
      ∀ u, c.Hint p.word u → r <+: u := by
    rw [prefix_commonPrefixAll_iff, ← hhints]
    simp only [mem_hints]
  obtain ⟨x, hx⟩ : p.word <+: commonPrefixAll (s :: t :: others) :=
    (hshared p.word).2 fun u hu => hu.begins
  have hcommon : ∀ u, c.Hint p.word u → p.word ++ x <+: u :=
    (hshared _).1 (hx ▸ List.prefix_refl _)
  refine ⟨x, ?_, ⟨hcommon, ?_⟩, ?_⟩
  · have hcond : ¬(decide (c.level.raised = .complete) &&
        (s :: t :: others).contains p.word) = true := by
      rw [Bool.and_eq_true, decide_eq_true_iff, List.contains_iff_mem, ← hhints, mem_hints]
      exact haccepts
    have hdrop : (commonPrefixAll (s :: t :: others)).drop p.word.length = x := by
      rw [← hx]
      exact List.drop_left
    rw [advance, hhints]
    refine (if_neg hcond).trans ?_
    rw [hdrop]
  · intro r hr
    rw [hx]
    exact ((hshared r).2 hr).length_le
  · intro u
    constructor
    · intro hu
      exact ⟨hu.candidate, (List.prefix_append p.word x).trans hu.begins⟩
    · intro hu
      exact ⟨hu.candidate, hcommon u hu⟩

theorem Longest.unique {texts : Text → Prop} {s s' t : Text} (h : Longest texts s)
    (h' : Longest texts s') (ht : texts t) : s = s' := by
  have hle : s <+: s' :=
    List.prefix_of_prefix_length_le (h.common t ht) (h'.common t ht) (h'.longest s h.common)
  exact hle.eq_of_length_le (h.longest s' h'.common)

/-- A request finds no hint, or one to finish, or some that it cannot tell apart. -/
theorem advance_cases (c : Completion) (p : Partial) :
    ((c.advance p).1 = .nothing ∧ ∀ h, ¬c.Hint p.word h) ∨
    (∃ h, (c.advance p).1 = .finish (p.finish h) ∧ c.Hint p.word h ∧
      ((∀ g, c.Hint p.word g → g = h) ∨ c.Accepts p ∧ h = p.word)) ∨
    ∃ x, (c.advance p).1 = .extend x ∧
      (∃ g h, c.Hint p.word g ∧ c.Hint p.word h ∧ g ≠ h) ∧ ¬c.Accepts p ∧
      Longest (c.Hint p.word) (p.word ++ x) ∧ ∀ h, c.Hint (p.word ++ x) h ↔ c.Hint p.word h := by
  by_cases haccepts : c.Accepts p
  · have hone : (∀ g, c.Hint p.word g → g = p.word) ∨ c.Accepts p ∧ p.word = p.word :=
      .inr ⟨haccepts, rfl⟩
    exact .inr (.inl ⟨p.word, advance_of_finish haccepts.2 hone, haccepts.2, hone⟩)
  by_cases hnone : ∀ h, ¬c.Hint p.word h
  · exact .inl ⟨advance_of_none hnone, hnone⟩
  obtain ⟨h, hh⟩ := not_forall_not.1 hnone
  by_cases hone : ∀ g, c.Hint p.word g → g = h
  · exact .inr (.inl ⟨h, advance_of_finish hh (.inl hone), hh, .inl hone⟩)
  · obtain ⟨g, hg⟩ := not_forall.1 hone
    obtain ⟨hg, hne⟩ := Classical.not_imp.1 hg
    obtain ⟨x, hx, hlongest, hsame⟩ := advance_of_extend hg hh hne haccepts
    exact .inr (.inr ⟨x, hx, ⟨g, h, hg, hh, hne⟩, haccepts, hlongest, hsame⟩)

end Steps

/-- A request inserts nothing just when there is no hint. It finishes the only hint there is, or the
keyword where that is one and the level says so. In all other cases it goes on to the longest common
prefix of the hints, which has the same hints. In memory all the cuts are between characters. -/
theorem advance_steps (c : Completion) (p : Partial) :
    c.advanceBytes p = .ok (c.advance p) ∧
    (c.advance p).2 = { c with level := c.level.raised } ∧
    ((c.advance p).1 = .nothing ↔ ∀ h, ¬c.Hint p.word h) ∧
    (∀ x, (c.advance p).1 = .finish x ↔
      ∃ h, c.Hint p.word h ∧ ((∀ g, c.Hint p.word g → g = h) ∨ c.Accepts p ∧ h = p.word) ∧
        p.word ++ x = h ++ p.ending) ∧
    ∀ x, (c.advance p).1 = .extend x ↔
      (∃ g h, c.Hint p.word g ∧ c.Hint p.word h ∧ g ≠ h) ∧ ¬c.Accepts p ∧
        Longest (c.Hint p.word) (p.word ++ x) ∧
        ∀ h, c.Hint (p.word ++ x) h ↔ c.Hint p.word h := by
  refine ⟨advanceBytes_eq c p, rfl, ⟨?_, advance_of_none⟩, fun x => ⟨?_, ?_⟩, fun x => ⟨?_, ?_⟩⟩
  · intro hstep
    rcases advance_cases c p with ⟨-, hnone⟩ | ⟨h, hs, -⟩ | ⟨y, hs, -⟩
    · exact hnone
    · cases hstep.symm.trans hs
    · cases hstep.symm.trans hs
  · intro hstep
    rcases advance_cases c p with ⟨hs, -⟩ | ⟨h, hs, hh, hone⟩ | ⟨y, hs, -⟩
    · cases hstep.symm.trans hs
    · cases hstep.symm.trans hs
      exact ⟨h, hh, hone, p.word_append_finish hh.begins⟩
    · cases hstep.symm.trans hs
  · rintro ⟨h, hh, hone, hx⟩
    have hfinish : x = p.finish h :=
      List.append_cancel_left (hx.trans (p.word_append_finish hh.begins).symm)
    rw [hfinish]
    exact advance_of_finish hh hone
  · intro hstep
    rcases advance_cases c p with ⟨hs, -⟩ | ⟨h, hs, -⟩ | ⟨y, hs, hextend⟩
    · cases hstep.symm.trans hs
    · cases hstep.symm.trans hs
    · cases hstep.symm.trans hs
      exact hextend
  · rintro ⟨⟨g, h, hg, hh, hne⟩, haccepts, hlongest, -⟩
    obtain ⟨y, hy, hlongest', -⟩ := advance_of_extend hg hh hne haccepts
    have hxy : x = y := List.append_cancel_left (hlongest.unique hlongest' hg)
    rw [hxy]
    exact hy

example : (Completion.advance ⟨.ofList ["naïf".toList, "naïve".toList], .off⟩ ⟨['n'], false⟩).1 =
    .extend "aï".toList := by decide +kernel

end Completion

end ModalKeys
