import Mathlib.Data.List.Infix
import ModalKeys.Proofs.Text.Unmarked

namespace ModalKeys.Arguments

open Text

theorem solid_plainRun (t : Text) : ∀ c ∈ (plainRun t).1, isBlank c = false := by
  induction t with
  | nil => simp [plainRun]
  | cons c t ih =>
    rw [plainRun]
    split
    · simp
    · next h =>
      have hc : isBlank c = false := by
        simp only [Bool.or_eq_true, not_or, Bool.not_eq_true] at h
        exact h.1
      exact List.forall_mem_cons.2 ⟨hc, ih⟩

/-- Holds when no quote mark opens a run. -/
def Unquoted (t : Text) : Prop := ∀ u, u <:+ t → quotedRun? u = none

theorem Unquoted.suffix {t u : Text} (h : Unquoted t) (hu : u <:+ t) : Unquoted u :=
  fun v hv => h v (hv.trans hu)

theorem Unquoted.parted_plainRun {t : Text} (h : Unquoted t) : Parted (plainRun t).2 := by
  obtain ⟨ht, hp⟩ := plainRun_append_eq t
  rcases hp with hp | hp
  · exact hp
  · rw [h (plainRun t).2 ⟨_, ht⟩] at hp
    cases hp

theorem Unquoted.cons {c : Char} {t : Text} (hc : quotedRun? (c :: t) = none) (ht : Unquoted t) :
    Unquoted (c :: t) := by
  intro u hu
  rcases List.suffix_cons_iff.1 hu with rfl | hu
  · exact hc
  · exact ht u hu

/-- Where no quote mark opens a run, the arguments are the words, with their escapes resolved. -/
theorem Unquoted.values_split {t : Text} (h : Unquoted t) :
    (split t).map (·.value) = (words t).map unescape := by
  fun_induction split t with
  | case1 => rfl
  | case2 c t hc ih =>
    rw [words_cons_of_blank hc]
    exact ih (h.suffix (List.suffix_cons c t))
  | case3 c t hc ih =>
    have hsolid : ∀ d ∈ c :: (plainRun t).1, isBlank d = false :=
      List.forall_mem_cons.2 ⟨by simpa using hc, solid_plainRun t⟩
    have ht := h.suffix (List.suffix_cons c t)
    have hparted := ht.parted_plainRun
    have hline : c :: t = (c :: (plainRun t).1) ++ (plainRun t).2 :=
      congrArg (c :: ·) (plainRun_append_eq t).1.symm
    have hrest := ht.suffix ⟨_, (plainRun_append_eq t).1⟩
    rw [run_of_none (h _ (List.suffix_refl _)), word_of_parted hparted] at ih ⊢
    rw [List.map_cons, ih hrest, List.append_nil, hline]
    cases hr : (plainRun t).2 with
    | nil => rw [List.append_nil, words_of_solid (List.cons_ne_nil _ _) hsolid]; rfl
    | cons d u =>
      have hd := hparted d (by rw [hr]; rfl)
      rw [words_append_cons (List.cons_ne_nil _ _) hsolid hd, words_cons_of_blank hd]
      rfl

/-- Puts a backslash before each backslash, each quote mark and all white space. -/
def backslashed : Text → Text
  | [] => []
  | c :: t => if isPlain c then c :: backslashed t else '\\' :: c :: backslashed t

theorem backslashed_append (t u : Text) :
    backslashed (t ++ u) = backslashed t ++ backslashed u := by
  induction t with
  | nil => rfl
  | cons c t ih =>
    rw [List.cons_append, backslashed, backslashed, ih]
    split <;> rfl

theorem backslashed_ne_nil {t : Text} (h : t ≠ []) : backslashed t ≠ [] := by
  obtain ⟨c, t, rfl⟩ := List.exists_cons_of_ne_nil h
  rw [backslashed]
  split <;> exact List.cons_ne_nil _ _

theorem ne_slash_of_isPlain {c : Char} (h : isPlain c = true) : c ≠ '\\' := by
  rintro rfl
  cases h

theorem solid_backslashed {t : Text} (h : ∀ c ∈ t, isBlank c = false) :
    ∀ c ∈ backslashed t, isBlank c = false := by
  induction t with
  | nil => simp [backslashed]
  | cons c t ih =>
    obtain ⟨hc, ht⟩ := List.forall_mem_cons.1 h
    have hrest : ∀ d ∈ c :: backslashed t, isBlank d = false :=
      List.forall_mem_cons.2 ⟨hc, ih ht⟩
    rw [backslashed]
    split
    · exact hrest
    · exact List.forall_mem_cons.2 ⟨rfl, hrest⟩

theorem unescape_backslashed_append (t u : Text) :
    unescape (backslashed t ++ u) = t ++ unescape u := by
  induction t with
  | nil => rfl
  | cons c t ih =>
    rw [backslashed]
    split
    · next hc => rw [List.cons_append, unescape_cons_of_ne (ne_slash_of_isPlain hc), ih]; rfl
    · rw [List.cons_append, List.cons_append, unescape, ih]; rfl

theorem unescape_backslashed (t : Text) : unescape (backslashed t) = t := by
  have h := unescape_backslashed_append t []
  rwa [List.append_nil, unescape, List.append_nil] at h

/-- A quote mark with a backslash ahead of it closes no run. -/
theorem closing?_backslashed {mark : Char} (hm : isQuoteMark mark = true) (t : Text) :
    closing? mark (backslashed t) = none := by
  induction t with
  | nil => rfl
  | cons c t ih =>
    rw [backslashed]
    split
    · next hc =>
      have hmark : c ≠ mark := by
        rintro rfl
        simp [isPlain, hm] at hc
      rw [closing?_cons (ne_slash_of_isPlain hc), if_neg hmark, ih]
      rfl
    · rw [closing?, ih]
      rfl

theorem quotedRun?_cons_backslashed (c : Char) (t : Text) :
    quotedRun? (c :: backslashed t) = none := by
  cases hm : isQuoteMark c with
  | false => exact quotedRun?_of_not_isQuoteMark hm _
  | true => rw [quotedRun?, if_pos hm, closing?_backslashed hm]

theorem unquoted_backslashed (t : Text) : Unquoted (backslashed t) := by
  induction t with
  | nil =>
    intro u hu
    rw [List.suffix_nil.1 hu]
    rfl
  | cons c t ih =>
    have hc := ih.cons (quotedRun?_cons_backslashed c t)
    rw [backslashed]
    split
    · exact hc
    · exact hc.cons (quotedRun?_of_not_isQuoteMark rfl _)

theorem values_backslashed_of_solid {t : Text} (hne : t ≠ []) (h : ∀ c ∈ t, isBlank c = false) :
    (arguments (backslashed t)).map (·.value) = [t] := by
  have hw := words_of_solid (backslashed_ne_nil hne) (solid_backslashed h)
  have hs := (unquoted_backslashed t).values_split
  rw [hw, List.map_singleton, unescape_backslashed] at hs
  exact hs

/-- White space ends an argument, whatever is ahead of it. -/
theorem values_backslashed_append_cons {w : Text} (hw : ∀ c ∈ w, isBlank c = false) {c : Char}
    (hc : isBlank c = true) (t : Text) :
    (arguments (backslashed (w ++ c :: t))).map (·.value) =
      (w ++ ['\\']) :: (arguments (backslashed t)).map (·.value) := by
  have hplain : isPlain c = false := by simp [isPlain, hc]
  have hline : backslashed (w ++ c :: t) = (backslashed w ++ ['\\']) ++ c :: backslashed t := by
    rw [backslashed_append, backslashed, if_neg (by simp [hplain])]
    simp
  have hsolid : ∀ d ∈ backslashed w ++ ['\\'], isBlank d = false := by
    intro d hd
    rcases List.mem_append.1 hd with hd | hd
    · exact solid_backslashed hw d hd
    · rw [List.mem_singleton.1 hd]
      rfl
  have hs := (unquoted_backslashed (w ++ c :: t)).values_split
  rw [hline, words_append_cons (by simp) hsolid hc, List.map_cons, unescape_backslashed_append,
    ← (unquoted_backslashed t).values_split] at hs
  rw [hline]
  exact hs

/-- A text whose special characters are escaped is read as the one argument that it is exactly where
it holds no white space. -/
theorem values_backslashed_eq_iff (t : Text) :
    (arguments (backslashed t)).map (·.value) = [t] ↔
      t ≠ [] ∧ ∀ c ∈ t, isBlank c = false := by
  refine ⟨fun h => ⟨?_, ?_⟩, fun h => values_backslashed_of_solid h.1 h.2⟩
  · rintro rfl
    have hnil : (arguments (backslashed [])).map (·.value) = [] :=
      congrArg (List.map (·.value)) split_nil
    rw [hnil] at h
    cases h
  · cases hcut : cutAt? isBlank t with
    | none => exact cutAt?_eq_none_iff.1 hcut
    | some parts =>
      obtain ⟨c, rfl, hc⟩ := cutAt?_eq hcut
      rw [values_backslashed_append_cons (cutAt?_free hcut) hc] at h
      -- The argument ends with a backslash where the text has white space.
      obtain ⟨hw, -⟩ := List.cons.inj h
      obtain ⟨rfl, -⟩ := List.cons.inj (List.append_cancel_left hw)
      cases hc

/-- An escaped blank still parts two arguments, and the backslash stays with the first. -/
theorem values_backslashed_blank :
    (arguments (backslashed "a b".toList)).map (·.value) ≠ ["a b".toList] ∧
      (arguments (backslashed "a b".toList)).map (·.value) = ["a\\".toList, "b".toList] := by
  decide +kernel

end ModalKeys.Arguments
