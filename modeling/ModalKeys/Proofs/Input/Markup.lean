import Mathlib.Data.List.Infix
import ModalKeys.Input

namespace ModalKeys

namespace Text

/-- Reads escaped text up to the `]@` that ends it; gives the text and what follows. In escaped text
an `@` only stands behind a backslash, so a `]@` that has been typed is not taken for the end. -/
def readEscaped? : Text → Option (Text × Text)
  | [] => none
  | '\\' :: c :: t => (readEscaped? t).map fun (text, rest) => (c :: text, rest)
  | ']' :: '@' :: t => some ([], t)
  | c :: t => (readEscaped? t).map fun (text, rest) => (c :: text, rest)

/-- Reads past a marker. -/
def readMarker? (marker t : Text) : Option Text := marker.isPrefixOf? t

/-- Reads verbatim markup. Where none begins the text is empty. -/
def readVerbatim? (t : Text) : Option (Text × Text) :=
  match readMarker? "@[".toList t with
  | some body => readEscaped? body
  | none => some ([], t)

/-- No escaped text begins with an `@`. -/
theorem head?_escape_append (t rest : Text) :
    (escape ['\\', '@'] t ++ "]@".toList ++ rest).head? ≠ some '@' := by
  cases t with
  | nil => simp [escape]
  | cons c t =>
    rw [escape]
    split
    · simp
    · next hc =>
      rw [List.cons_append, List.cons_append, List.head?_cons]
      rintro ⟨⟩
      exact hc (by simp)

theorem readEscaped?_cons {c : Char} {t : Text} (hc : c ≠ '\\') (ht : t.head? ≠ some '@') :
    readEscaped? (c :: t) = (readEscaped? t).map fun (text, rest) => (c :: text, rest) := by
  rw [readEscaped?]
  · rintro d u rfl
    exact absurd rfl hc
  · rintro u rfl rfl
    exact ht rfl

theorem readEscaped?_escape (t rest : Text) :
    readEscaped? (escape ['\\', '@'] t ++ "]@".toList ++ rest) = some (t, rest) := by
  induction t with
  | nil => rfl
  | cons c t ih =>
    rw [escape]
    split
    · rw [List.cons_append, List.cons_append, List.cons_append, List.cons_append, readEscaped?, ih]
      rfl
    · next hc =>
      have hne : c ≠ '\\' := by
        rintro rfl
        exact hc (by simp)
      rw [List.cons_append, List.cons_append, readEscaped?_cons hne (head?_escape_append t rest), ih]
      rfl

theorem readMarker?_append (marker t : Text) : readMarker? marker (marker ++ t) = some t :=
  List.isPrefixOf?_eq_some_iff_append_eq.2 rfl

theorem readVerbatim?_verbatim (t : Text) {rest : Text} (h : readMarker? "@[".toList rest = none) :
    readVerbatim? (verbatim t ++ rest) = some (t, rest) := by
  unfold verbatim
  split
  · next ht =>
    rw [List.isEmpty_iff.1 ht, readVerbatim?, List.nil_append, h]
  · rw [readVerbatim?, List.append_assoc, List.append_assoc, readMarker?_append]
    dsimp only
    rw [← List.append_assoc]
    exact readEscaped?_escape t rest

end Text

open Text

/-- What a display says of the line: the text before the cursor, the character under it, and the
text after that. -/
structure View where
  before : Text
  current : Char
  after : Text
  deriving DecidableEq

/-- At the end of the line the cursor is on a blank. -/
def Input.view (i : Input) : View := ⟨i.before, i.after.head?.getD ' ', i.after.tail⟩

namespace View

def line (v : View) : Text := v.before ++ v.current :: v.after

/-- Reads the display of a line. -/
def read? (t : Text) : Option View := do
  let (before, t) ← readVerbatim? t
  let t ← readMarker? "<span @cursor_style>".toList t
  let (current, t) ← readVerbatim? t
  let t ← readMarker? "</span>".toList t
  let (after, t) ← readVerbatim? t
  match current, t with
  | [c], [] => some ⟨before, c, after⟩
  | _, _ => none

theorem read?_markup (i : Input) : read? i.markup = some i.view := by
  have hafter : readVerbatim? (verbatim i.after.tail) = some (i.after.tail, []) := by
    have h : readVerbatim? (verbatim i.after.tail ++ []) = some (i.after.tail, []) :=
      readVerbatim?_verbatim i.after.tail rfl
    rwa [List.append_nil] at h
  have hcurrent (rest : Text) : readVerbatim?
      (verbatim [i.after.head?.getD ' '] ++ ("</span>".toList ++ rest)) =
        some ([i.after.head?.getD ' '], "</span>".toList ++ rest) := readVerbatim?_verbatim _ rfl
  have hbefore (rest : Text) : readVerbatim?
      (verbatim i.before ++ ("<span @cursor_style>".toList ++ rest)) =
        some (i.before, "<span @cursor_style>".toList ++ rest) := readVerbatim?_verbatim _ rfl
  unfold read? Input.markup
  simp only [List.append_assoc, hbefore, readMarker?_append, hcurrent, hafter, Option.bind_eq_bind,
    Option.bind_some]
  rfl

/-- A blank is shown at the end of the line, and no line is lost for it. -/
theorem line_view (i : Input) :
    i.view.line = i.line ++ if i.after = [] then [' '] else [] := by
  unfold line Input.view Input.line
  cases i.after <;> simp

end View

/-- Whatever is typed, the display of the line is read back as the text before the cursor, the
character under it and the text after it, so two inputs are displayed alike just if these are the
same. The line is what is read, but for the blank at its end if the cursor is there. -/
theorem markup_read_back :
    (∀ i : Input, View.read? i.markup = some i.view ∧
      i.view.line = i.line ++ if i.after = [] then [' '] else []) ∧
    ∀ i j : Input, i.markup = j.markup ↔
      i.before = j.before ∧ i.after.head?.getD ' ' = j.after.head?.getD ' ' ∧
        i.after.tail = j.after.tail := by
  refine ⟨fun i => ⟨View.read?_markup i, View.line_view i⟩, fun i j => ⟨fun h => ?_, ?_⟩⟩
  · have hview : i.view = j.view := by
      have hi := View.read?_markup i
      rw [h, View.read?_markup j] at hi
      exact (Option.some.inj hi).symm
    exact View.mk.inj hview
  · rintro ⟨hbefore, hcurrent, hafter⟩
    unfold Input.markup
    rw [hbefore, hcurrent, hafter]

/-- The markers themselves have been typed, with a backslash at the end. -/
example : View.read? (Input.setLine .empty "]@</span>@[<span @cursor_style>\\".toList).markup =
    some ⟨"]@</span>@[<span @cursor_style>\\".toList, ' ', []⟩ := by decide +kernel

end ModalKeys
