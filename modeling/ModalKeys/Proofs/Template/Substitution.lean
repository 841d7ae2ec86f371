import ModalKeys.Proofs.Text.Escape
import ModalKeys.Proofs.Text.Trim
import ModalKeys.Template

namespace ModalKeys.Template

open Text

/-- A part of a template. A digit run and a lone `%` are parts whether or not there is an argument
for them. -/
inductive Part
  | text (t : Text) (free : '%' ∉ t)
  | joined
  | quoted
  | numbered (digits : Text) (isDigit : ∀ c ∈ digits, c.isDigit = true) (ne_nil : digits ≠ [])
  | percent

/-- The argument of a number, counted from one, or another text where there is none. -/
def numberedOr (args : List Text) (n : Nat) (other : Text) : Text :=
  if h : 1 ≤ n ∧ n ≤ args.length then args[n - 1] else other

namespace Part

/-- The part as it stands in the template. -/
def written : Part → Text
  | text t _ => t
  | joined => ['%', 's']
  | quoted => ['%', 'r']
  | numbered digits _ _ => '%' :: digits
  | percent => ['%']

/-- What the part stands for. -/
def value (args : List Text) : Part → Text
  | text t _ => t
  | joined => unwords args
  | quoted =>
    '\'' :: (unwords args).flatMap (fun c =>
      if c ∈ ['\\', '\'', '"', '@'] then ['\\', c] else [c]) ++ ['\'']
  | numbered digits _ _ => numberedOr args (Nat.ofDigitChars 10 digits 0) ('%' :: digits)
  | percent => ['%']

/-- Holds when a part ends where the text after it begins. -/
def Ends (rest : Text) : Part → Prop
  | numbered _ _ _ => ∀ c ∈ rest.head?, c.isDigit = false
  | percent => ∀ c ∈ rest.head?, c ≠ 's' ∧ c ≠ 'r' ∧ c.isDigit = false
  | _ => True

end Part

instance (rest : Text) : (p : Part) → Decidable (p.Ends rest)
  | .text _ _ | .joined | .quoted => .isTrue trivial
  | .numbered _ _ _ | .percent => rest.head?.decidableForallMem

/-- A template of the parts given. -/
def written (ps : List Part) : Text := ps.flatMap Part.written

/-- Holds when each part ends where the next one begins, empty ones left out. -/
def Delimited : List Part → Prop
  | [] => True
  | p :: ps => p.Ends (written ps) ∧ Delimited ps

instance decidableDelimited : (ps : List Part) → Decidable (Delimited ps)
  | [] => .isTrue trivial
  | p :: ps =>
    have := decidableDelimited ps
    inferInstanceAs (Decidable (p.Ends (written ps) ∧ Delimited ps))

section Expand

variable (args : List Text)

theorem expand_nil : expand args [] = [] := by rw [expand]

theorem expand_cons {c : Char} (h : c ≠ '%') (t : Text) :
    expand args (c :: t) = c :: expand args t := by
  rw [expand]
  all_goals
    intros
    contradiction

theorem expand_text {t : Text} (h : '%' ∉ t) (rest : Text) :
    expand args (t ++ rest) = t ++ expand args rest := by
  induction t with
  | nil => rfl
  | cons c t ih =>
    have hc : c ≠ '%' := fun he => h (he ▸ List.mem_cons_self)
    have ht : '%' ∉ t := fun hm => h (List.mem_cons_of_mem c hm)
    rw [List.cons_append, expand_cons args hc, ih ht, List.cons_append]

theorem expand_joined (rest : Text) :
    expand args ('%' :: 's' :: rest) = unwords args ++ expand args rest := by rw [expand]

theorem expand_quoted (rest : Text) :
    expand args ('%' :: 'r' :: rest) = rawQuoted args ++ expand args rest := by rw [expand]

/-- A digit run, which may be empty, is taken as a whole. -/
theorem expand_digits {digits rest : Text} (hd : ∀ c ∈ digits, c.isDigit = true)
    (hr : ∀ c ∈ rest.head?, c.isDigit = false)
    (hs : ∀ c ∈ (digits ++ rest).head?, c ≠ 's' ∧ c ≠ 'r') :
    expand args ('%' :: (digits ++ rest)) = positional args digits ++ expand args rest := by
  have hdrop : rest.dropWhile Char.isDigit = rest := dropWhile_of_head hr
  have htake : rest.takeWhile Char.isDigit = [] := by
    have hsum := List.takeWhile_append_dropWhile (p := Char.isDigit) (l := rest)
    rw [hdrop] at hsum
    exact List.append_left_eq_self.1 hsum
  rw [expand, List.takeWhile_append_of_pos hd, List.dropWhile_append_of_pos hd, hdrop, htake,
    List.append_nil]
  · intro t ht
    exact (hs 's' (by rw [ht]; rfl)).1 rfl
  · intro t ht
    exact (hs 'r' (by rw [ht]; rfl)).2 rfl

theorem rawQuoted_eq : rawQuoted args = Part.quoted.value args := by
  rw [rawQuoted, escape_eq_flatMap]
  rfl

theorem positional_eq (digits : Text) :
    positional args digits =
      numberedOr args (Nat.ofDigitChars 10 digits 0) ('%' :: digits) := by
  have hn : decimal digits = Nat.ofDigitChars 10 digits 0 := rfl
  rw [positional, hn]
  cases Nat.ofDigitChars 10 digits 0 with
  | zero => rfl
  | succ n =>
    unfold numberedOr
    by_cases h : n < args.length
    · rw [dif_pos ⟨Nat.succ_pos n, h⟩]
      simp [h]
    · rw [dif_neg fun hn => h hn.2]
      simp [h]

theorem positional_nil : positional args [] = ['%'] := rfl

/-- A part that ends where the text after it begins stands for its value there. -/
theorem Part.expand_append (p : Part) {rest : Text} (h : p.Ends rest) :
    expand args (p.written ++ rest) = p.value args ++ expand args rest := by
  cases p with
  | text t free => exact expand_text args free rest
  | joined => exact expand_joined args rest
  | quoted => exact (expand_quoted args rest).trans (by rw [rawQuoted_eq])
  | numbered digits isDigit ne_nil =>
    have hs : ∀ c ∈ (digits ++ rest).head?, c ≠ 's' ∧ c ≠ 'r' := by
      intro c hc
      obtain ⟨d, ds, rfl⟩ := List.exists_cons_of_ne_nil ne_nil
      have hd := isDigit d List.mem_cons_self
      rw [← Option.some.inj hc]
      constructor <;> rintro rfl <;> cases hd
    exact (expand_digits args isDigit h hs).trans (by rw [positional_eq]; rfl)
  | percent =>
    have hs : ∀ c ∈ ([] ++ rest).head?, c ≠ 's' ∧ c ≠ 'r' := fun c hc => ⟨(h c hc).1, (h c hc).2.1⟩
    have he := expand_digits args (by simp) (fun c hc => (h c hc).2.2) hs
    rw [positional_nil] at he
    exact he

end Expand

/-- A template is expanded part by part, each into its value. -/
theorem expand_written (args : List Text) {ps : List Part} (h : Delimited ps) :
    expand args (written ps) = ps.flatMap (Part.value args) := by
  induction ps with
  | nil => exact expand_nil args
  | cons p ps ih =>
    obtain ⟨hp, hps⟩ := h
    have hw : written (p :: ps) = p.written ++ written ps := List.flatMap_cons
    rw [hw, Part.expand_append args p hp, ih hps, List.flatMap_cons]

/-- Arguments that look like tokens, next to digit runs with and without an argument. -/
theorem expand_written_tokens :
    ∃ ps, Delimited ps ∧ written ps = "say %01%r%% %3%s100%".toList ∧
      expand ["%2".toList, "a'%s".toList] (written ps) =
        "say %2'%2 a\\'%s'%% %3%2 a'%s100%".toList := by
  let ps : List Part := [.text "say ".toList (by decide +kernel),
    .numbered ['0', '1'] (by simp) (List.cons_ne_nil _ _), .quoted, .percent, .percent,
    .text [' '] (by decide +kernel), .numbered ['3'] (by simp) (List.cons_ne_nil _ _),
    .joined, .text "100".toList (by decide +kernel), .percent]
  have h : Delimited ps := by decide +kernel
  exact ⟨ps, h, by decide +kernel, (expand_written _ h).trans (by decide +kernel)⟩

end ModalKeys.Template
