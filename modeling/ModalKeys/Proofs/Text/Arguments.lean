import ModalKeys.Proofs.Text.Escape
import ModalKeys.Proofs.Text.Trim
import ModalKeys.Text.Arguments

namespace ModalKeys.Arguments

open Text

theorem split_cons_of_blank {c : Char} (h : isBlank c = true) (t : Text) :
    split (c :: t) = split t := by
  rw [split.eq_def]
  exact if_pos h

theorem split_cons {c : Char} (h : isBlank c = false) (t : Text) :
    split (c :: t) = ⟨(run c t).1 ++ (word (run c t).2).1, c :: t⟩ :: split (word (run c t).2).2 := by
  rw [split.eq_def]
  exact if_neg (by simp [h])

theorem split_nil : split [] = [] := by rw [split.eq_def]

theorem isBlank_of_isQuoteMark {c : Char} (h : isQuoteMark c = true) : isBlank c = false := by
  simp only [isQuoteMark, Bool.or_eq_true, beq_iff_eq] at h
  rcases h with rfl | rfl <;> rfl

theorem isQuoteMark_of_isBlank {c : Char} (h : isBlank c = true) : isQuoteMark c = false := by
  by_contra hm
  rw [isBlank_of_isQuoteMark (by simpa using hm)] at h
  cases h

theorem quotedRun?_of_not_isQuoteMark {c : Char} (h : isQuoteMark c = false) (t : Text) :
    quotedRun? (c :: t) = none := by
  rw [quotedRun?, if_neg (by simp [h])]

theorem closing?_cons {c : Char} (h : c ≠ '\\') (mark : Char) (t : Text) :
    closing? mark (c :: t) =
      if c = mark then some ([], t) else (closing? mark t).map fun (v, r) => (c :: v, r) := by
  rw [closing?]
  · rintro rfl rfl
    exact h rfl
  · rintro d u rfl rfl
    exact h rfl

theorem rawFrom_split {t : Text} (h : Trimmed t) : rawFrom (split t) 0 = t := by
  cases t with
  | nil => rw [split_nil]; rfl
  | cons c t =>
    rw [split_cons (h.head c rfl)]
    exact h.trimEnd_eq

/-- Holds when nothing that follows an argument can belong to it. -/
def Parted (rest : Text) : Prop := ∀ c, rest.head? = some c → isBlank c = true

theorem parted_nil : Parted [] := by rintro c ⟨⟩

theorem parted_cons {c : Char} (h : isBlank c = true) (t : Text) : Parted (c :: t) := by
  rintro d ⟨⟩
  exact h

/-- A run up to white space is an argument. -/
theorem split_of_run {c : Char} {t v rest : Text} (h : isBlank c = false)
    (hrun : run c t = (v, rest)) (hr : Parted rest) : split (c :: t) = ⟨v, c :: t⟩ :: split rest := by
  have hword : word rest = ([], rest) := by
    rw [word.eq_def]
    cases rest with
    | nil => rfl
    | cons d u => exact if_pos (hr d rfl)
  rw [split_cons h, hrun, hword, List.append_nil]

/-- Holds when nothing in a text before `rest` is a mark: no quote mark opens a run, and each
backslash ends its word. -/
def Unmarked (rest : Text) : Text → Prop
  | [] => True
  | c :: t =>
    quotedRun? (c :: t ++ rest) = none ∧
      (c = '\\' → ∀ d, t.head? = some d → isBlank d = true) ∧ Unmarked rest t

section Unmarked

variable {rest : Text}

theorem Unmarked.of_append {a b : Text} (h : Unmarked rest (a ++ b)) : Unmarked (b ++ rest) a := by
  induction a with
  | nil => trivial
  | cons c a ih =>
    obtain ⟨hq, he, ht⟩ := h
    refine ⟨by simpa using hq, fun hc d hd => he hc d ?_, ih ht⟩
    change (a ++ b).head? = some d
    rw [List.head?_append, hd]
    rfl

theorem Unmarked.append {a b : Text} (ha : Unmarked (b ++ rest) a) (hb : Unmarked rest b)
    (hp : Parted b) : Unmarked rest (a ++ b) := by
  induction a with
  | nil => exact hb
  | cons c a ih =>
    obtain ⟨hq, he, ht⟩ := ha
    refine ⟨by simpa using hq, fun hc d hd => ?_, ih ht⟩
    cases a with
    | nil => exact hp d hd
    | cons e a => exact he hc d hd

theorem Unmarked.drop {a b : Text} (h : Unmarked rest (a ++ b)) : Unmarked rest b := by
  induction a with
  | nil => exact h
  | cons c a ih => exact ih h.2.2

theorem unmarked_cons_of_blank {c : Char} (hc : isBlank c = true) {t : Text}
    (h : Unmarked rest t) : Unmarked rest (c :: t) := by
  refine ⟨?_, ?_, h⟩
  · exact quotedRun?_of_not_isQuoteMark (isQuoteMark_of_isBlank hc) _
  · rintro rfl
    cases hc

end Unmarked

section Word

variable {w rest : Text} (hb : ∀ c ∈ w, isBlank c = false) (hu : Unmarked rest w)

include hb hu

theorem unescape_of_unmarked : unescape w = w := by
  induction w with
  | nil => rfl
  | cons c w ih =>
    obtain ⟨-, he, ht⟩ := hu
    have hi := ih (fun d hd => hb d (List.mem_cons_of_mem c hd)) ht
    by_cases hc : c = '\\'
    · cases w with
      | nil => rw [hc]; rfl
      | cons d w =>
        have hd := he hc d rfl
        rw [hb d (by simp)] at hd
        cases hd
    · rw [unescape_cons_of_ne hc, hi]

theorem plainRun_of_unmarked (hr : Parted rest) : plainRun (w ++ rest) = (w, rest) := by
  induction w with
  | nil =>
    cases rest with
    | nil => rfl
    | cons c t => simp [plainRun, hr c rfl]
  | cons c w ih =>
    obtain ⟨hq, -, ht⟩ := hu
    have hi := ih (fun d hd => hb d (List.mem_cons_of_mem c hd)) ht
    have hc := hb c List.mem_cons_self
    rw [List.cons_append] at hq ⊢
    simp [plainRun, hc, hq, hi]

/-- An unmarked word is an argument as it stands. -/
theorem split_of_unmarked (hn : w ≠ []) (hr : Parted rest) :
    split (w ++ rest) = ⟨w, w ++ rest⟩ :: split rest := by
  obtain ⟨c, t, rfl⟩ := List.exists_cons_of_ne_nil hn
  have hw := unescape_of_unmarked hb hu
  obtain ⟨hq, -, ht⟩ := hu
  have hp := plainRun_of_unmarked (fun d hd => hb d (List.mem_cons_of_mem c hd)) ht hr
  have hrun : run c (t ++ rest) = (c :: t, rest) := by
    rw [List.cons_append] at hq
    rw [run, hq, hp]
    exact congrArg (·, rest) hw
  exact split_of_run (hb c List.mem_cons_self) hrun hr

end Word

section Plain

/-- Holds when a character stands for itself wherever it is in an argument. -/
def isPlain (c : Char) : Bool := !isBlank c && !isQuoteMark c && c != '\\'

theorem isBlank_of_isPlain {c : Char} (h : isPlain c = true) : isBlank c = false := by
  simp only [isPlain, Bool.and_eq_true, Bool.not_eq_true'] at h
  exact h.1.1

theorem quotedRun?_of_isPlain {c : Char} (h : isPlain c = true) (t : Text) :
    quotedRun? (c :: t) = none := by
  simp only [isPlain, Bool.and_eq_true, Bool.not_eq_true'] at h
  exact quotedRun?_of_not_isQuoteMark h.1.2 t

variable {w rest : Text} (hw : ∀ c ∈ w, isPlain c = true)

include hw

theorem unmarked_of_plain : Unmarked rest w := by
  induction w with
  | nil => trivial
  | cons c w ih =>
    obtain ⟨hc, hw⟩ := List.forall_mem_cons.1 hw
    refine ⟨quotedRun?_of_isPlain hc _, ?_, ih hw⟩
    rintro rfl
    cases hc

/-- A run of plain characters up to white space is an argument. -/
theorem split_append (hr : Parted rest) (hn : w ≠ []) :
    split (w ++ rest) = ⟨w, w ++ rest⟩ :: split rest :=
  split_of_unmarked (fun c hc => isBlank_of_isPlain (hw c hc)) (unmarked_of_plain hw) hn hr

end Plain

/-- The characters of a name are ASCII. -/
theorem toNat_lt_of_nameCharacter {c : Char} (h : (c.isAlphanum || c == '_' || c == '.') = true) :
    c.toNat < 128 := by
  delta Char.isAlphanum Char.isAlpha Char.isUpper Char.isLower Char.isDigit at h
  simp only [Bool.or_eq_true, Bool.and_eq_true, decide_eq_true_eq, beq_iff_eq, ge_iff_le,
    UInt32.le_iff_toNat_le] at h
  change ((((65 ≤ c.toNat ∧ c.toNat ≤ 90) ∨ (97 ≤ c.toNat ∧ c.toNat ≤ 122)) ∨
    (48 ≤ c.toNat ∧ c.toNat ≤ 57)) ∨ c = '_') ∨ c = '.' at h
  rcases h with (h | rfl) | rfl
  · omega
  · decide
  · decide

/-- There are few enough characters of names to look at. -/
theorem isPlain_of_nameCharacter {c : Char} (h : (c.isAlphanum || c == '_' || c == '.') = true) :
    isPlain c = true := by
  have hall : ∀ n < 128, ((Char.ofNat n).isAlphanum || Char.ofNat n == '_' || Char.ofNat n == '.') =
      true → isPlain (Char.ofNat n) = true := by decide +kernel
  have hc := hall c.toNat (toNat_lt_of_nameCharacter h)
  rw [Char.ofNat_toNat] at hc
  exact hc h

section SingleQuoted

/-- A text between single quotes, with a backslash before each that it holds and before each
backslash. -/
def singleQuoted (t : Text) : Text := '\'' :: escape ['\\', '\''] t ++ ['\'']

variable {marks : List Char} (hslash : '\\' ∈ marks) (hquote : '\'' ∈ marks)

include hslash hquote

/-- An escaped text never closes the quotes, whatever else is escaped in it. -/
theorem closing?_escape (t rest : Text) :
    closing? '\'' (escape marks t ++ '\'' :: rest) = some (t, rest) := by
  induction t with
  | nil => rfl
  | cons c t ih =>
    rw [escape]
    split
    · rw [List.cons_append, List.cons_append, closing?, ih]
      rfl
    · next hc =>
      have hs : c ≠ '\\' := by
        rintro rfl
        exact hc hslash
      have hq : c ≠ '\'' := by
        rintro rfl
        exact hc hquote
      rw [List.cons_append, closing?_cons hs, if_neg hq, ih]
      rfl

theorem split_quoted (t : Text) {rest : Text} (hr : Parted rest) :
    split ('\'' :: escape marks t ++ ['\''] ++ rest) =
      ⟨t, '\'' :: escape marks t ++ ['\''] ++ rest⟩ :: split rest := by
  have hq : '\'' :: escape marks t ++ ['\''] ++ rest =
      '\'' :: (escape marks t ++ '\'' :: rest) := by
    simp
  have hrun : run '\'' (escape marks t ++ '\'' :: rest) = (t, rest) := by
    have hc : quotedRun? ('\'' :: (escape marks t ++ '\'' :: rest)) = some (t, rest) :=
      closing?_escape hslash hquote t rest
    rw [run, hc]
  rw [hq]
  exact split_of_run rfl hrun hr

end SingleQuoted

section Spelling

/-- Holds when a part of a line is read as an argument, whatever is parted from it. -/
def Spells (written value : Text) : Prop :=
  ∀ rest, Parted rest → split (written ++ rest) = ⟨value, written ++ rest⟩ :: split rest

theorem spells_singleQuoted (t : Text) : Spells (singleQuoted t) t :=
  fun _ hr => split_quoted (by decide) (by decide) t hr

theorem spells_plain {w : Text} (hw : ∀ c ∈ w, isPlain c = true) (hn : w ≠ []) : Spells w w :=
  fun _ hr => split_append hw hr hn

theorem spells_equals : Spells ['='] ['='] := by
  refine spells_plain (fun c hc => ?_) (List.cons_ne_nil _ _)
  rw [List.mem_singleton.1 hc]
  rfl

theorem arguments_unwords_nil : arguments (unwords []) = [] := split_nil

theorem arguments_unwords_cons {written value : Text} (h : Spells written value) (ts : List Text) :
    arguments (unwords (written :: ts)) =
      ⟨value, unwords (written :: ts)⟩ :: arguments (unwords ts) := by
  have hb : isBlank ' ' = true := rfl
  cases ts with
  | nil =>
    have hw := h [] parted_nil
    rw [List.append_nil] at hw
    rw [unwords_singleton]
    exact hw
  | cons t ts =>
    have hw := h (' ' :: unwords (t :: ts)) (parted_cons hb _)
    rw [split_cons_of_blank hb] at hw
    rw [unwords_cons_cons]
    exact hw

/-- Parts of a line that are each read as an argument are read as arguments one after the other. -/
theorem values_unwords {α : Type} {written value : α → Text}
    (h : ∀ x, Spells (written x) (value x)) (xs : List α) :
    (arguments (unwords (xs.map written))).map (·.value) = xs.map value := by
  induction xs with
  | nil => exact congrArg (List.map (·.value)) arguments_unwords_nil
  | cons x xs ih =>
    rw [List.map_cons, arguments_unwords_cons (h x), List.map_cons, List.map_cons, ih]

theorem values_singleQuoted (ts : List Text) :
    (arguments (unwords (ts.map singleQuoted))).map (·.value) = ts := by
  have h := values_unwords spells_singleQuoted ts
  rwa [List.map_id'] at h

theorem trimmed_singleQuoted (t : Text) : singleQuoted t ≠ [] ∧ Trimmed (singleQuoted t) := by
  refine ⟨List.cons_ne_nil _ _, ?_, ?_⟩
  · rintro c ⟨⟩
    rfl
  · intro c hc
    have hl : (singleQuoted t).getLast? = some '\'' := List.getLast?_concat
    rw [hl] at hc
    cases hc
    rfl

end Spelling

end ModalKeys.Arguments
