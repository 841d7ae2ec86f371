import Mathlib.Data.List.Infix
import ModalKeys.Proofs.Text.Unmarked

namespace ModalKeys.Arguments

open Text

section Blanks

variable {blanks : Text} (hb : ∀ c ∈ blanks, isBlank c = true)

include hb

theorem parted_of_blanks : Parted blanks := fun c hc => hb c (List.mem_of_head? hc)

theorem closing?_of_blanks {mark : Char} (hm : isQuoteMark mark = true) :
    closing? mark blanks = none := by
  induction blanks with
  | nil => rfl
  | cons c blanks ih =>
    obtain ⟨hc, hb⟩ := List.forall_mem_cons.1 hb
    have hslash : c ≠ '\\' := by
      rintro rfl
      cases hc
    have hmark : c ≠ mark := by
      rintro rfl
      rw [isBlank_of_isQuoteMark hm] at hc
      cases hc
    rw [closing?_cons hslash, if_neg hmark, ih hb]
    rfl

/-- White space at the end closes no quoted run, and is no part of one. -/
theorem closing?_append_blanks {mark : Char} (hm : isQuoteMark mark = true) (t : Text) :
    closing? mark (t ++ blanks) = (closing? mark t).map fun (v, r) => (v, r ++ blanks) := by
  fun_induction closing? mark t with
  | case1 => exact closing?_of_blanks hb hm
  | case2 =>
    -- The last backslash now escapes the first of the white space, if there is any.
    cases blanks with
    | nil => rfl
    | cons c blanks =>
      have hnone := closing?_of_blanks (List.forall_mem_cons.1 hb).2 hm
      rw [List.singleton_append, closing?, hnone]
      rfl
  | case3 c t ih =>
    rw [List.cons_append, List.cons_append, closing?, ih, Option.map_map, Option.map_map]
    rfl
  | case4 t h h' =>
    have hslash : mark ≠ '\\' := by
      rintro rfl
      cases hm
    rw [List.cons_append, closing?_cons hslash, if_pos rfl]
    rfl
  | case5 c t h h' hc ih =>
    have hslash : c ≠ '\\' := by
      intro he
      cases t with
      | nil => exact h he rfl
      | cons d t => exact h' d t he rfl
    rw [List.cons_append, closing?_cons hslash, if_neg hc, ih, Option.map_map, Option.map_map]
    rfl

theorem quotedRun?_append_blanks (t : Text) :
    quotedRun? (t ++ blanks) = (quotedRun? t).map fun (v, r) => (v, r ++ blanks) := by
  cases t with
  | nil =>
    cases blanks with
    | nil => rfl
    | cons c blanks =>
      have hm := isQuoteMark_of_isBlank (List.forall_mem_cons.1 hb).1
      exact quotedRun?_of_not_isQuoteMark hm blanks
  | cons c t =>
    rw [List.cons_append, quotedRun?, quotedRun?]
    by_cases hm : isQuoteMark c = true
    · rw [if_pos hm, if_pos hm]
      exact closing?_append_blanks hb hm t
    · rw [if_neg hm, if_neg hm]
      rfl

theorem plainRun_append_blanks (t : Text) :
    plainRun (t ++ blanks) = ((plainRun t).1, (plainRun t).2 ++ blanks) := by
  induction t with
  | nil =>
    cases blanks with
    | nil => rfl
    | cons c blanks => simp [plainRun, (List.forall_mem_cons.1 hb).1]
  | cons c t ih =>
    have hq := quotedRun?_append_blanks hb (c :: t)
    rw [List.cons_append] at hq ⊢
    rw [plainRun, plainRun, hq, Option.isSome_map]
    split
    · rfl
    · rw [ih]

theorem run_append_blanks (c : Char) (t : Text) :
    run c (t ++ blanks) = ((run c t).1, (run c t).2 ++ blanks) := by
  have hq := quotedRun?_append_blanks hb (c :: t)
  rw [List.cons_append] at hq
  cases h : quotedRun? (c :: t) with
  | some found =>
    rw [h] at hq
    rw [run_of_some h, run_of_some hq]
  | none =>
    rw [h] at hq
    rw [run_of_none h, run_of_none hq, plainRun_append_blanks hb]

theorem word_append_blanks (t : Text) :
    word (t ++ blanks) = ((word t).1, (word t).2 ++ blanks) := by
  fun_induction word t with
  | case1 => exact word_of_parted (parted_of_blanks hb)
  | case2 c t hc => exact word_of_parted (parted_cons hc _)
  | case3 c t hc w r hw ih =>
    rw [hw] at ih
    rw [List.cons_append, word_cons (by simpa using hc), run_append_blanks hb, ih]

/-- The same arguments are read with white space at the end of the line as without. -/
theorem split_append_blanks (t : Text) :
    split (t ++ blanks) = (split t).map fun a => ⟨a.value, a.tail ++ blanks⟩ := by
  fun_induction split t with
  | case1 =>
    induction blanks with
    | nil => rw [List.append_nil, split_nil]; rfl
    | cons c blanks ih =>
      obtain ⟨hc, hb⟩ := List.forall_mem_cons.1 hb
      exact (split_cons_of_blank hc blanks).trans (ih hb)
  | case2 c t hc ih =>
    rw [List.cons_append, split_cons_of_blank hc, ih]
  | case3 c t hc ih =>
    rw [List.cons_append, split_cons (by simpa using hc), run_append_blanks hb,
      word_append_blanks hb, ih]
    rfl

end Blanks

theorem values_trimEnd (t : Text) :
    (split (trimEnd t)).map (·.value) = (split t).map (·.value) := by
  obtain ⟨blanks, hb, ht⟩ := exists_trimEnd_append t
  have hs := split_append_blanks hb (trimEnd t)
  rw [ht] at hs
  rw [hs, List.map_map]
  rfl

/-- A line splits from an argument on as it does within the whole line. -/
theorem split_tail {t : Text} {a : Argument} {as bs : List Argument}
    (h : split t = as ++ a :: bs) : split a.tail = a :: bs := by
  induction as generalizing t with
  | nil =>
    obtain ⟨-, -, -, -, -, -, -, hs⟩ := tail_of_split h
    exact hs
  | cons b as ih =>
    obtain ⟨-, c, u, -, -, ht, hc, hs⟩ := tail_of_split h
    rw [ht, split_word hc] at hs
    exact ih (List.cons.inj hs).2

theorem split_tail_of_getElem? {t : Text} {i : Nat} {a : Argument} (h : (split t)[i]? = some a) :
    split a.tail = (split t).drop i := by
  obtain ⟨hi, ha⟩ := List.getElem?_eq_some_iff.1 h
  have hdrop : (split t).drop i = a :: (split t).drop (i + 1) := by
    rw [List.drop_eq_getElem_cons hi, ha]
  have hsplit := List.take_append_drop i (split t)
  rw [hdrop] at hsplit ⊢
  exact split_tail hsplit.symm

/-- Each tail is shorter than those ahead of it. -/
theorem tails_shrink (t : Text) :
    (split t).Pairwise fun a b => b.tail.length < a.tail.length := by
  fun_induction split t with
  | case1 => exact List.Pairwise.nil
  | case2 c t _ ih => exact ih
  | case3 c t _ ih =>
    refine List.pairwise_cons.2 ⟨fun b hb => ?_, ih⟩
    have hs := (tail_suffix hb).length_le
    have hw := word_length (run c t).2
    have hr := run_length c t
    simp only [List.length_cons]
    omega

/-- The places at which the arguments of a line begin. -/
def starts (line : Text) : List Nat :=
  (arguments line).map fun a => line.length - a.tail.length

theorem starts_increase (line : Text) : (starts line).Pairwise (· < ·) := by
  refine List.pairwise_map.2 ((tails_shrink line).imp_of_mem fun ha hb h => ?_)
  have hl := (tail_suffix ha).length_le
  omega

theorem rawFrom_eq_trimEnd_drop (line : Text) (i : Nat) :
    rawFrom (arguments line) i =
      ((starts line)[i]?.map fun start => trimEnd (line.drop start)).getD [] := by
  rw [rawFrom, starts, List.getElem?_map, Option.map_map]
  cases h : (arguments line)[i]? with
  | none => rfl
  | some a =>
    have hd := List.suffix_iff_eq_drop.1 (tail_suffix (List.mem_of_getElem? h))
    exact congrArg trimEnd hd

/-- Arguments begin at different places of their line, in order. What stands from any of these
places on, up to white space at the end, is split into the arguments that are left. -/
theorem arguments_rawFrom (line : Text) :
    (starts line).length = (arguments line).length ∧ (starts line).Pairwise (· < ·) ∧
      ∀ i, rawFrom (arguments line) i =
          ((starts line)[i]?.map fun start => trimEnd (line.drop start)).getD [] ∧
        (arguments (rawFrom (arguments line) i)).map (·.value) =
          ((arguments line).map (·.value)).drop i := by
  refine ⟨List.length_map _, starts_increase line, fun i => ⟨rawFrom_eq_trimEnd_drop line i, ?_⟩⟩
  rw [rawFrom, ← List.map_drop]
  cases h : (arguments line)[i]? with
  | none =>
    have hi := List.getElem?_eq_none_iff.1 h
    rw [List.drop_eq_nil_of_le hi]
    exact congrArg (List.map (·.value)) split_nil
  | some a =>
    have ht := split_tail_of_getElem? h
    exact (values_trimEnd a.tail).trans (congrArg (List.map (·.value)) ht)

example :
    let args := arguments "'spam, spam' egg sausage   and 'spam' ".toList
    rawFrom args 1 = "egg sausage   and 'spam'".toList ∧ rawFrom args 9 = [] := by
  decide +kernel

end ModalKeys.Arguments
