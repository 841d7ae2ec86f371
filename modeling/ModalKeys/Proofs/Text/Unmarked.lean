import Mathlib.Data.List.Infix
import ModalKeys.Proofs.Text.Arguments

namespace ModalKeys.Arguments

open Text

/-- Unmarked words, parted by single blanks, are the arguments. -/
theorem split_unwords {rest : Text} (hr : Parted rest) {ws : List Text}
    (hws : ∀ w ∈ ws, w ≠ [] ∧ ∀ c ∈ w, isBlank c = false) (hne : ws ≠ [])
    (hu : Unmarked rest (unwords ws)) :
    ∃ as, split (unwords ws ++ rest) = as ++ split rest ∧ as.map (·.value) = ws := by
  induction ws with
  | nil => exact absurd rfl hne
  | cons w ws ih =>
    obtain ⟨⟨hn, hb⟩, hws⟩ := List.forall_mem_cons.1 hws
    cases ws with
    | nil =>
      rw [unwords_singleton] at hu ⊢
      exact ⟨[⟨w, w ++ rest⟩], split_of_unmarked hb hu hn hr, rfl⟩
    | cons u us =>
      rw [unwords_cons_cons] at hu ⊢
      obtain ⟨as, has, hv⟩ := ih hws (List.cons_ne_nil u us) (Unmarked.drop hu).2.2
      refine ⟨⟨w, w ++ (' ' :: unwords (u :: us) ++ rest)⟩ :: as, ?_, congrArg (w :: ·) hv⟩
      rw [List.append_assoc, split_of_unmarked hb hu.of_append hn (parted_cons rfl _),
        List.cons_append, split_cons_of_blank rfl, has]
      rfl

theorem closing?_shrinks {mark : Char} {t v r : Text} (h : closing? mark t = some (v, r)) :
    r <:+ t ∧ v.length + r.length < t.length := by
  fun_induction closing? mark t generalizing v with
  | case1 => cases h
  | case2 => cases h
  | case3 c t ih =>
    obtain ⟨⟨v', r'⟩, hr, he⟩ := Option.map_eq_some_iff.1 h
    cases he
    obtain ⟨hs, hl⟩ := ih hr
    refine ⟨(hs.trans (List.suffix_cons c t)).trans (List.suffix_cons '\\' _), ?_⟩
    simp only [List.length_cons]
    omega
  | case4 t =>
    cases h
    exact ⟨List.suffix_cons mark r, by simp⟩
  | case5 c t _ _ hc ih =>
    obtain ⟨⟨v', r'⟩, hr, he⟩ := Option.map_eq_some_iff.1 h
    cases he
    obtain ⟨hs, hl⟩ := ih hr
    refine ⟨hs.trans (List.suffix_cons c t), ?_⟩
    simp only [List.length_cons]
    omega

theorem quotedRun?_shrinks {c : Char} {t v r : Text} (h : quotedRun? (c :: t) = some (v, r)) :
    r <:+ t ∧ v.length + r.length < t.length := by
  rw [quotedRun?] at h
  split at h
  · exact closing?_shrinks h
  · cases h

theorem unescape_length_le (t : Text) : (unescape t).length ≤ t.length := by
  fun_induction unescape t with
  | case1 c t ih => simp only [List.length_cons]; omega
  | case2 c t _ ih => simpa using ih
  | case3 => exact Nat.le_refl _

/-- A plain run goes up to white space or to a quoted run. -/
theorem plainRun_append_eq (t : Text) :
    (plainRun t).1 ++ (plainRun t).2 = t ∧
      (Parted (plainRun t).2 ∨ (quotedRun? (plainRun t).2).isSome = true) := by
  induction t with
  | nil => exact ⟨rfl, .inl parted_nil⟩
  | cons c t ih =>
    rw [plainRun]
    split
    · next h =>
      refine ⟨rfl, ?_⟩
      rcases Bool.or_eq_true_iff.1 h with h | h
      · exact .inl (parted_cons h t)
      · exact .inr h
    · exact ⟨congrArg (c :: ·) ih.1, ih.2⟩

theorem unmarked_cons {c : Char} {t rest : Text} (hq : quotedRun? (c :: t ++ rest) = none)
    (ht : (unescape t).length = t.length → Unmarked rest t)
    (h : (unescape (c :: t)).length = (c :: t).length) : Unmarked rest (c :: t) := by
  by_cases hc : c = '\\'
  · subst hc
    cases t with
    | nil => exact ⟨hq, fun _ d hd => (nomatch hd), trivial⟩
    | cons d t =>
      have hl := unescape_length_le t
      rw [unescape, List.length_cons, List.length_cons, List.length_cons] at h
      omega
  · rw [unescape_cons_of_ne hc, List.length_cons, List.length_cons] at h
    exact ⟨hq, fun he => absurd he hc, ht (Nat.succ.inj h)⟩

theorem unmarked_plainRun (t : Text)
    (h : (unescape (plainRun t).1).length = (plainRun t).1.length) :
    Unmarked (plainRun t).2 (plainRun t).1 := by
  induction t with
  | nil => trivial
  | cons c t ih =>
    rw [plainRun] at h ⊢
    split at h
    · next hs => rw [if_pos hs]; trivial
    · next hs =>
      rw [if_neg hs]
      have hq : quotedRun? (c :: t) = none := by
        simpa using fun hsome => hs (Bool.or_eq_true_iff.2 (.inr hsome))
      refine unmarked_cons ?_ ih h
      rwa [List.cons_append, (plainRun_append_eq t).1]

theorem run_of_some {c : Char} {t : Text} {found : Text × Text}
    (h : quotedRun? (c :: t) = some found) : run c t = found := by rw [run, h]

theorem run_of_none {c : Char} {t : Text} (h : quotedRun? (c :: t) = none) :
    run c t = (unescape (c :: (plainRun t).1), (plainRun t).2) := by rw [run, h]

theorem length_plainRun (t : Text) :
    (plainRun t).1.length + (plainRun t).2.length = t.length := by
  rw [← List.length_append, (plainRun_append_eq t).1]

theorem run_shrinks (c : Char) (t : Text) :
    (run c t).2 <:+ t ∧ (run c t).1.length + (run c t).2.length ≤ t.length + 1 := by
  cases h : quotedRun? (c :: t) with
  | some found =>
    obtain ⟨hs, hl⟩ := quotedRun?_shrinks h
    rw [run_of_some h]
    exact ⟨hs, by omega⟩
  | none =>
    have hp := length_plainRun t
    have hl := unescape_length_le (c :: (plainRun t).1)
    rw [List.length_cons] at hl
    rw [run_of_none h]
    exact ⟨⟨_, (plainRun_append_eq t).1⟩, by dsimp only; omega⟩

theorem word_of_parted {t : Text} (h : Parted t) : word t = ([], t) := by
  rw [word.eq_def]
  cases t with
  | nil => rfl
  | cons c t => exact if_pos (h c rfl)

theorem word_cons {c : Char} (h : isBlank c = false) (t : Text) :
    word (c :: t) = ((run c t).1 ++ (word (run c t).2).1, (word (run c t).2).2) := by
  rw [word.eq_def]
  exact if_neg (by simp [h])

/-- A word ends before white space, and is no longer than what it is read from. -/
theorem word_shrinks (t : Text) :
    Parted (word t).2 ∧ (word t).2 <:+ t ∧ (word t).1.length + (word t).2.length ≤ t.length := by
  fun_induction word t with
  | case1 => exact ⟨parted_nil, List.suffix_refl _, Nat.le_refl _⟩
  | case2 c t h => exact ⟨parted_cons h t, List.suffix_refl _, by simp⟩
  | case3 c t h w r hw ih =>
    rw [hw] at ih
    obtain ⟨hp, hs, hl⟩ := ih
    obtain ⟨hs', hl'⟩ := run_shrinks c t
    refine ⟨hp, (hs.trans hs').trans (List.suffix_cons c t), ?_⟩
    simp only [List.length_append, List.length_cons] at hl ⊢
    omega

theorem isBlank_of_quotedRun? {c : Char} {t : Text} (h : (quotedRun? (c :: t)).isSome = true) :
    isBlank c = false := by
  rw [quotedRun?] at h
  split at h
  · next hm => exact isBlank_of_isQuoteMark hm
  · cases h

theorem word_shrinks_of_quoted {t : Text} (h : (quotedRun? t).isSome = true) :
    (word t).1.length + (word t).2.length < t.length := by
  cases t with
  | nil => cases h
  | cons c t =>
    obtain ⟨found, hf⟩ := Option.isSome_iff_exists.1 h
    obtain ⟨-, hl⟩ := quotedRun?_shrinks hf
    obtain ⟨-, -, hw⟩ := word_shrinks found.2
    rw [word_cons (isBlank_of_quotedRun? h), run_of_some hf]
    simp only [List.length_append, List.length_cons]
    omega

/-- A word is shorter than what it is read from, unless that is unmarked. -/
theorem word_shorter_or_unmarked (t : Text) :
    (word t).1.length + (word t).2.length < t.length ∨
      ∃ u, t = u ++ (word t).2 ∧ (word t).1.length = u.length ∧ Unmarked (word t).2 u := by
  cases t with
  | nil => exact .inr ⟨[], by rw [word_of_parted parted_nil]; exact ⟨rfl, rfl, trivial⟩⟩
  | cons c t =>
    cases hc : isBlank c with
    | true => exact .inr ⟨[], by rw [word_of_parted (parted_cons hc t)]; exact ⟨rfl, rfl, trivial⟩⟩
    | false =>
      cases hq : quotedRun? (c :: t) with
      | some found => exact .inl (word_shrinks_of_quoted (by simp [hq]))
      | none =>
        obtain ⟨ht, hend⟩ := plainRun_append_eq t
        have hp := length_plainRun t
        have hu := unescape_length_le (c :: (plainRun t).1)
        rw [word_cons hc, run_of_none hq]
        dsimp only
        rw [List.length_append, List.length_cons]
        rcases hend with hend | hend
        · rw [word_of_parted hend]
          rcases Nat.lt_or_eq_of_le hu with hlt | heq
          · rw [List.length_cons] at hlt
            exact .inl (by simp only [List.length_nil]; omega)
          · refine .inr ⟨c :: (plainRun t).1, congrArg (c :: ·) ht.symm, heq, ?_⟩
            exact unmarked_cons (by rwa [List.cons_append, ht]) (unmarked_plainRun t) heq
        · have hw := word_shrinks_of_quoted hend
          rw [List.length_cons] at hu
          exact .inl (by omega)

theorem split_word {c : Char} (h : isBlank c = false) (t : Text) :
    split (c :: t) = ⟨(word (c :: t)).1, c :: t⟩ :: split (word (c :: t)).2 := by
  rw [split_cons h, word_cons h]

/-- An argument stands after the white space ahead of it. -/
theorem tail_of_split {t : Text} {a : Argument} {as : List Argument} (h : split t = a :: as) :
    ∃ blanks c u, t = blanks ++ a.tail ∧ (∀ d ∈ blanks, isBlank d = true) ∧ a.tail = c :: u ∧
      isBlank c = false ∧ split a.tail = a :: as := by
  induction t with
  | nil => rw [split_nil] at h; cases h
  | cons c t ih =>
    cases hc : isBlank c with
    | true =>
      rw [split_cons_of_blank hc] at h
      obtain ⟨blanks, d, u, rfl, hb, hd⟩ := ih h
      exact ⟨c :: blanks, d, u, rfl, List.forall_mem_cons.2 ⟨hc, hb⟩, hd⟩
    | false =>
      have hs := h
      rw [split_cons hc] at h
      obtain ⟨rfl, -⟩ := List.cons.inj h
      exact ⟨[], c, t, rfl, by simp, rfl, hc, hs⟩

theorem tail_suffix {a : Argument} {t : Text} (h : a ∈ split t) : a.tail <:+ t := by
  fun_induction split t with
  | case1 => cases h
  | case2 c t _ ih => exact (ih h).trans (List.suffix_cons c t)
  | case3 c t _ ih =>
    rcases List.mem_cons.1 h with rfl | h
    · exact List.suffix_refl _
    · obtain ⟨-, hw, -⟩ := word_shrinks (run c t).2
      exact (((ih h).trans hw).trans (run_shrinks c t).1).trans (List.suffix_cons c t)

theorem trimEnd_tail {a : Argument} {t : Text} (ht : Trimmed t) (h : a ∈ split t) :
    trimEnd a.tail = a.tail := by
  obtain ⟨ahead, hs⟩ := tail_suffix h
  refine dropEndWhile_of_last fun c hc => ht.last c ?_
  rw [← hs, List.getLast?_append, hc]
  rfl

/-- An argument is shorter than the line up to the next one, a blank apart, unless that part is
unmarked. -/
theorem value_shorter_or_unmarked {a b : Argument} {as : List Argument} {t : Text}
    (h : split t = a :: b :: as) :
    a.value.length + b.tail.length + 1 < a.tail.length ∨
      ∃ w d, a.tail = w ++ d :: b.tail ∧ isBlank d = true ∧ w.length = a.value.length ∧
        Unmarked (d :: b.tail) w := by
  obtain ⟨-, c, u, -, -, ht, hc, hs⟩ := tail_of_split h
  rw [ht, split_word hc] at hs
  obtain ⟨ha, hs⟩ := List.cons.inj hs
  have hv : a.value = (word (c :: u)).1 := by rw [← ha]
  obtain ⟨blanks, e, v, hr, hb, he, hne, -⟩ := tail_of_split hs
  obtain ⟨hp, -, -⟩ := word_shrinks (c :: u)
  rw [ht, hv]
  cases blanks with
  | nil =>
    -- White space ends the word, and the next argument does not begin with any.
    have hh := hp e (by rw [hr, he]; rfl)
    rw [hne] at hh
    cases hh
  | cons d blanks =>
    have hl : (word (c :: u)).2.length = blanks.length + b.tail.length + 1 := by
      rw [hr]
      simp only [List.cons_append, List.length_cons, List.length_append]
    rcases word_shorter_or_unmarked (c :: u) with hlt | ⟨w, hw, hlen, hm⟩
    · exact .inl (by omega)
    · have htotal := congrArg List.length hw
      rw [List.length_append] at htotal
      cases blanks with
      | nil =>
        refine .inr ⟨w, d, hw.trans (congrArg (w ++ ·) hr), hb d List.mem_cons_self, hlen.symm, ?_⟩
        rwa [hr] at hm
      | cons d' blanks =>
        rw [List.length_cons] at hl
        exact .inl (by omega)

/-- Arguments joined by blanks are shorter than the part of the line that they take up, unless that
part is unmarked. -/
theorem unwords_shorter_or_unmarked {a b : Argument} {as bs : List Argument} {t : Text}
    (h : split t = a :: (as ++ b :: bs)) :
    (unwords ((a :: as).map (·.value))).length + b.tail.length + 1 < a.tail.length ∨
      ∃ w d, a.tail = w ++ d :: b.tail ∧ isBlank d = true ∧
        w.length = (unwords ((a :: as).map (·.value))).length ∧ Unmarked (d :: b.tail) w := by
  induction as generalizing a t with
  | nil =>
    rw [List.map_singleton, unwords_singleton]
    exact value_shorter_or_unmarked h
  | cons a' as ih =>
    obtain ⟨-, c, u, -, -, ht, hc, hs⟩ := tail_of_split h
    rw [ht, split_word hc] at hs
    have hrest := ih (List.cons.inj hs).2
    have hl : (unwords ((a :: a' :: as).map (·.value))).length =
        a.value.length + (unwords ((a' :: as).map (·.value))).length + 1 := by
      rw [List.map_cons, List.map_cons, unwords_cons_cons, List.length_append, List.length_cons,
        ← Nat.add_assoc]
    rw [hl]
    rcases value_shorter_or_unmarked h with hlt | ⟨w, d, hw, hd, hwl, hm⟩
    · rcases hrest with hlt' | ⟨w', d', hw', -, hwl', -⟩
      · exact .inl (by omega)
      · have htotal := congrArg List.length hw'
        rw [List.length_append, List.length_cons] at htotal
        exact .inl (by omega)
    · have htotal := congrArg List.length hw
      rw [List.length_append, List.length_cons] at htotal
      rcases hrest with hlt' | ⟨w', d', hw', hd', hwl', hm'⟩
      · exact .inl (by omega)
      · have hlen : (w ++ d :: w').length =
            a.value.length + (unwords ((a' :: as).map (·.value))).length + 1 := by
          rw [List.length_append, List.length_cons, hwl, hwl', ← Nat.add_assoc]
        refine .inr ⟨w ++ d :: w', d', by rw [hw, hw']; simp, hd', hlen, ?_⟩
        refine Unmarked.append ?_ (unmarked_cons_of_blank hd hm') (parted_cons hd w')
        rw [hw'] at hm
        exact hm

/-- A part of a line that is as long as its arguments, joined by blanks, is unmarked. -/
theorem unmarked_of_split {u v : Text} {d : Char} {a b : Argument} {as bs : List Argument}
    (h : split (u ++ d :: v) = a :: (as ++ b :: bs))
    (hu : unwords ((a :: as).map (·.value)) = u) (hv : b.tail = v) : Unmarked (d :: v) u := by
  obtain ⟨blanks, -, -, hline, -⟩ := tail_of_split h
  have hlen := congrArg List.length hline
  rw [List.length_append, List.length_append, List.length_cons] at hlen
  have hcases := unwords_shorter_or_unmarked h
  rw [hu, hv] at hcases
  rcases hcases with hlt | ⟨w, e, hw, -, hwl, hm⟩
  · omega
  · have htail := congrArg List.length hw
    rw [List.length_append, List.length_cons] at htail
    have hblanks : blanks = [] := List.length_eq_zero_iff.1 (by omega)
    rw [hblanks, List.nil_append, hw] at hline
    obtain ⟨rfl, hrest⟩ := List.append_inj hline hwl.symm
    rwa [hrest]

end ModalKeys.Arguments
