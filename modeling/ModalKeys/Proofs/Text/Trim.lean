import Mathlib.Data.List.Basic
import Mathlib.Data.List.TakeWhile
import ModalKeys.Text.Basic

namespace ModalKeys.Text

/-- White space stands at neither end of a text. -/
structure Trimmed (t : Text) : Prop where
  head : ∀ c, t.head? = some c → isBlank c = false
  last : ∀ c, t.getLast? = some c → isBlank c = false

section Class

variable {p : Char → Bool} {t : Text}

theorem dropEndWhile_of_last (h : ∀ c, t.getLast? = some c → p c = false) :
    dropEndWhile p t = t := by
  rw [List.getLast?_eq_head?_reverse] at h
  unfold dropEndWhile
  cases hr : t.reverse with
  | nil => rw [List.reverse_eq_nil_iff.1 hr]; rfl
  | cons c r =>
    have hc : p c = false := h c (by rw [hr]; rfl)
    rw [List.dropWhile_cons_of_neg (by simp [hc]), ← hr, List.reverse_reverse]

theorem dropWhile_of_head (h : ∀ c, t.head? = some c → p c = false) : t.dropWhile p = t := by
  cases t with
  | nil => rfl
  | cons c t => exact List.dropWhile_cons_of_neg (by simp [h c rfl])

theorem head_dropWhile (p : Char → Bool) (t : Text) {c : Char} (h : (t.dropWhile p).head? = some c) :
    p c = false := by
  have hn := List.head?_dropWhile_not p t
  rw [h] at hn
  simpa using hn

theorem last_dropEndWhile (p : Char → Bool) (t : Text) {c : Char}
    (h : (dropEndWhile p t).getLast? = some c) : p c = false := by
  rw [dropEndWhile, List.getLast?_reverse] at h
  exact head_dropWhile p t.reverse h

theorem dropEndWhile_prefix (p : Char → Bool) (t : Text) : dropEndWhile p t <+: t := by
  refine ⟨(t.reverse.takeWhile p).reverse, ?_⟩
  rw [dropEndWhile, ← List.reverse_append, List.takeWhile_append_dropWhile, List.reverse_reverse]

theorem dropEndWhile_eq_nil {t : Text} (h : ∀ c ∈ t, p c = true) : dropEndWhile p t = [] := by
  have hr : t.reverse.dropWhile p = [] :=
    List.dropWhile_eq_nil_iff.2 fun c hc => h c (List.mem_reverse.1 hc)
  rw [dropEndWhile, hr, List.reverse_nil]

theorem dropEndWhile_append (p : Char → Bool) (t u : Text) :
    dropEndWhile p (t ++ u) =
      if (dropEndWhile p u).isEmpty then dropEndWhile p t else t ++ dropEndWhile p u := by
  simp only [dropEndWhile, List.reverse_append, List.dropWhile_append, List.isEmpty_reverse]
  split
  · rfl
  · rw [List.reverse_append, List.reverse_reverse]

/-- Dropping from the end takes characters of the class off. -/
theorem exists_dropEndWhile_append (p : Char → Bool) (t : Text) :
    ∃ tail, (∀ c ∈ tail, p c = true) ∧ dropEndWhile p t ++ tail = t := by
  refine ⟨(t.reverse.takeWhile p).reverse, fun c hc => ?_, ?_⟩
  · exact List.mem_takeWhile_imp (List.mem_reverse.1 hc)
  · rw [dropEndWhile, ← List.reverse_append, List.takeWhile_append_dropWhile, List.reverse_reverse]

/-- What is dropped from the end is all that is of the class there. -/
theorem dropEndWhile_append_of_last {a b : Text} (ha : ∀ c, a.getLast? = some c → p c = false)
    (hb : ∀ c ∈ b, p c = true) : dropEndWhile p (a ++ b) = a := by
  rw [dropEndWhile_append, dropEndWhile_eq_nil hb]
  exact dropEndWhile_of_last ha

/-- A suffix of one class does not reach into a text that ends in another. -/
theorem suffix_of_last {a b u : Text} (ha : ∀ c, a.getLast? = some c → p c = false)
    (hu : u <:+ a ++ b) (hall : ∀ c ∈ u, p c = true) : u <:+ b := by
  rcases List.suffix_or_suffix_of_suffix hu (List.suffix_append a b) with h | ⟨v, rfl⟩
  · exact h
  · obtain ⟨front, hfront⟩ := hu
    have hfronts : front ++ v ++ b = a ++ b := by rw [List.append_assoc, hfront]
    have hv : front ++ v = a := List.append_cancel_right hfronts
    obtain rfl | ⟨w, c, rfl⟩ := List.eq_nil_or_concat v
    · exact List.suffix_refl b
    · have hfree : p c = false := ha c (by rw [← hv]; simp)
      have hc : p c = true := hall c (by simp)
      rw [hfree] at hc
      cases hc

end Class

theorem trimmed_trim (t : Text) : Trimmed (trim t) := by
  refine ⟨fun c hc => ?_, fun c hc => last_dropEndWhile isBlank _ hc⟩
  obtain ⟨rest, hr⟩ := dropEndWhile_prefix isBlank (t.dropWhile isBlank)
  have hh : (t.dropWhile isBlank).head? = some c := by
    change (dropEndWhile isBlank (t.dropWhile isBlank)).head? = some c at hc
    rw [← hr, List.head?_append, hc]
    rfl
  exact head_dropWhile isBlank t hh

theorem trim_append_blanks (t : Text) {blanks : Text} (h : ∀ c ∈ blanks, isBlank c = true) :
    trim (t ++ blanks) = trim t := by
  rw [trim, trim, trimClass, trimClass, List.dropWhile_append]
  split
  · next he => rw [List.dropWhile_eq_nil_iff.2 h, List.isEmpty_iff.1 he]
  · rw [dropEndWhile_append, dropEndWhile_eq_nil h]
    rfl

theorem trim_cons_of_blank {c : Char} (h : isBlank c = true) (t : Text) : trim (c :: t) = trim t := by
  rw [trim, trim, trimClass, trimClass, List.dropWhile_cons_of_pos h]

/-- Trimming the end takes white space off. -/
theorem exists_trimEnd_append (t : Text) :
    ∃ blanks, (∀ c ∈ blanks, isBlank c = true) ∧ trimEnd t ++ blanks = t :=
  exists_dropEndWhile_append isBlank t

theorem trim_trimEnd (t : Text) : trim (trimEnd t) = trim t := by
  obtain ⟨blanks, hb, ht⟩ := exists_trimEnd_append t
  exact (trim_append_blanks (trimEnd t) hb).symm.trans (congrArg trim ht)

namespace Trimmed

variable {t : Text} (h : Trimmed t)

include h

theorem trimStart_eq : trimStart t = t := dropWhile_of_head h.head

theorem trimEnd_eq : trimEnd t = t := dropEndWhile_of_last h.last

theorem trim_eq : trim t = t := by
  have hs : t.dropWhile isBlank = t := h.trimStart_eq
  rw [trim, trimClass, hs]
  exact h.trimEnd_eq

theorem trimStart_trimEnd_eq : trimStart (trimEnd t) = t := by
  rw [h.trimEnd_eq, h.trimStart_eq]

theorem append_cons {u : Text} (hu : Trimmed u) (ht : t ≠ []) (hne : u ≠ []) (c : Char) :
    Trimmed (t ++ c :: u) := by
  refine ⟨fun d hd => h.head d ?_, fun d hd => hu.last d ?_⟩
  · obtain ⟨b, t, rfl⟩ := List.exists_cons_of_ne_nil ht
    exact hd
  · obtain ⟨b, u, rfl⟩ := List.exists_cons_of_ne_nil hne
    rwa [List.getLast?_append_cons, List.getLast?_cons_cons] at hd

end Trimmed

theorem trimmed_of_solid {t : Text} (h : ∀ c ∈ t, isBlank c = false) : Trimmed t :=
  ⟨fun c hc => h c (List.mem_of_head? hc), fun c hc => h c (List.mem_of_getLast? hc)⟩

theorem words_of_solid {t : Text} (hne : t ≠ []) (h : ∀ c ∈ t, isBlank c = false) :
    words t = [t] := by
  rw [words, List.splitOnP_eq_singleton h]
  exact List.filter_cons_of_pos (by simpa using hne)

theorem words_cons_of_blank {c : Char} (h : isBlank c = true) (t : Text) :
    words (c :: t) = words t := by
  rw [words, List.splitOnP_cons_eq_if_modifyHead, if_pos h]
  rfl

theorem words_append_cons {w : Text} (hne : w ≠ []) (hw : ∀ c ∈ w, isBlank c = false) {c : Char}
    (hc : isBlank c = true) (t : Text) : words (w ++ c :: t) = w :: words t := by
  rw [words, List.splitOnP_append_cons_of_forall_mem hw c hc]
  exact List.filter_cons_of_pos (by simpa using hne)

theorem unwords_cons_cons (t u : Text) (ts : List Text) :
    unwords (t :: u :: ts) = t ++ ' ' :: unwords (u :: ts) := by
  rw [unwords, List.intercalate_cons_cons, List.append_assoc]
  rfl

theorem unwords_singleton (t : Text) : unwords [t] = t := List.append_nil t

theorem unwords_concat {ts : List Text} (h : ts ≠ []) (u : Text) :
    unwords (ts ++ [u]) = unwords ts ++ ' ' :: u := by
  induction ts with
  | nil => exact absurd rfl h
  | cons t ts ih =>
    cases ts with
    | nil => exact (unwords_cons_cons t u []).trans (by rw [unwords_singleton, unwords_singleton])
    | cons v ts =>
      have hi := ih (List.cons_ne_nil v ts)
      rw [List.cons_append] at hi
      rw [List.cons_append, List.cons_append, unwords_cons_cons, hi, unwords_cons_cons,
        List.append_assoc, List.cons_append]

theorem unwords_ne_nil {ts : List Text} (h : ts ≠ []) (hne : ∀ t ∈ ts, t ≠ []) :
    unwords ts ≠ [] := by
  cases ts with
  | nil => exact absurd rfl h
  | cons t ts =>
    cases ts with
    | nil => rw [unwords_singleton]; exact hne t List.mem_cons_self
    | cons u ts => rw [unwords_cons_cons]; simp

theorem trimmed_unwords {ts : List Text} (h : ∀ t ∈ ts, t ≠ [] ∧ Trimmed t) :
    Trimmed (unwords ts) := by
  induction ts with
  | nil => exact trimmed_of_solid (by simp [unwords])
  | cons t ts ih =>
    obtain ⟨hne, ht⟩ := h t List.mem_cons_self
    cases ts with
    | nil => rwa [unwords_singleton]
    | cons u ts =>
      have hu := (h u (List.mem_cons_of_mem t List.mem_cons_self)).1
      rw [unwords_cons_cons]
      refine ht.append_cons (ih fun v hv => h v (List.mem_cons_of_mem t hv)) hne ?_ ' '
      cases ts with
      | nil => rwa [unwords_singleton]
      | cons v ts => rw [unwords_cons_cons]; simp

theorem trimEnd_concat_of_blank {c : Char} (h : isBlank c = true) (t : Text) :
    trimEnd (t ++ [c]) = trimEnd t := by
  rw [trimEnd, dropEndWhile, List.reverse_append]
  exact congrArg List.reverse (List.dropWhile_cons_of_pos h)

theorem cutAt?_eq_none_iff {p : Char → Bool} {t : Text} :
    cutAt? p t = none ↔ ∀ c ∈ t, p c = false := by
  induction t with
  | nil => simp [cutAt?]
  | cons c t ih =>
    rw [cutAt?, List.forall_mem_cons]
    split
    · next hc => simp [hc]
    · next hc => rw [Option.map_eq_none_iff, ih, Bool.eq_false_iff.2 hc, eq_self, true_and]

/-- Cut at the first character of a class. -/
theorem cutAt?_append {p : Char → Bool} {a : Text} (ha : ∀ c ∈ a, p c = false) {d : Char}
    (hd : p d = true) (b : Text) : cutAt? p (a ++ d :: b) = some (a, b) := by
  induction a with
  | nil => simp [cutAt?, hd]
  | cons c a ih =>
    have hc : p c = false := ha c (by simp)
    have hi := ih fun d hd => ha d (List.mem_cons_of_mem _ hd)
    simp [cutAt?, hc, hi]

/-- The character at which a text is cut is the first of its class. -/
theorem cutAt?_free {p : Char → Bool} {t a b : Text} (h : cutAt? p t = some (a, b)) :
    ∀ c ∈ a, p c = false := by
  induction t generalizing a with
  | nil => cases h
  | cons c t ih =>
    rw [cutAt?] at h
    split at h
    · cases h
      rintro d ⟨⟩
    · next hc =>
      obtain ⟨⟨a', b'⟩, hb, he⟩ := Option.map_eq_some_iff.1 h
      cases he
      intro d hd
      rcases List.mem_cons.1 hd with rfl | hd
      · exact Bool.eq_false_iff.2 hc
      · exact ih hb d hd

end ModalKeys.Text
