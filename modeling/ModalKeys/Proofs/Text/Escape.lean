import ModalKeys.Text.Escape

namespace ModalKeys.Text

theorem unescape_cons_of_ne {c : Char} (h : c ≠ '\\') (t : Text) :
    unescape (c :: t) = c :: unescape t := by
  rw [unescape]
  rintro d u rfl
  exact absurd rfl h

theorem unescape_escape {marks : List Char} (h : '\\' ∈ marks) (t : Text) :
    unescape (escape marks t) = t := by
  induction t with
  | nil => rfl
  | cons c t ih =>
    rw [escape]
    split
    · rw [unescape, ih]
    · next hc =>
      have hne : c ≠ '\\' := by
        rintro rfl
        exact hc h
      rw [unescape_cons_of_ne hne, ih]

theorem escape_eq_flatMap (marks : List Char) (t : Text) :
    escape marks t = t.flatMap fun c => if c ∈ marks then ['\\', c] else [c] := by
  induction t with
  | nil => rfl
  | cons c t ih =>
    rw [escape, List.flatMap_cons, ← ih]
    split <;> rfl

/-- Escapes add backslashes only. -/
theorem mem_of_mem_escape {marks : List Char} {t : Text} {c : Char} (h : c ∈ escape marks t) :
    c = '\\' ∨ c ∈ t := by
  induction t with
  | nil => cases h
  | cons d t ih =>
    rw [escape] at h
    split at h
    · rcases List.mem_cons.1 h with rfl | h
      · exact .inl rfl
      · rcases List.mem_cons.1 h with rfl | h
        · exact .inr List.mem_cons_self
        · exact (ih h).imp_right (List.mem_cons_of_mem d)
    · rcases List.mem_cons.1 h with rfl | h
      · exact .inr List.mem_cons_self
      · exact (ih h).imp_right (List.mem_cons_of_mem d)

/-- A text between two equal quote marks stands for what is escaped between them. -/
theorem unquote_quoted {mark : Char} (h : isQuoteMark mark = true) (t : Text) :
    unquote (mark :: escape ['\\'] t ++ [mark]) = t := by
  have hq : isQuoted (mark :: escape ['\\'] t ++ [mark]) = true := by
    simp [isQuoted, h]
  rw [unquote, if_pos hq, List.cons_append, List.tail_cons, List.dropLast_concat]
  exact unescape_escape List.mem_cons_self t

end ModalKeys.Text
