import Mathlib.Data.String.Basic
import ModalKeys.Proofs.Text.Trim

namespace ModalKeys

/-- What stops work on texts in memory: an offset that is no place between two characters, a number
that its word does not hold, or a text for which there is no room. -/
inductive Fault
  | boundary
  | overflow
  | room
  deriving DecidableEq, Repr

theorem Fault.ok_bind {α β : Type} (a : α) (f : α → Except Fault β) : (Except.ok a >>= f) = f a := by
  simp only [bind, Except.bind]

namespace Text

open String (utf8Len utf8Len_cons utf8Len_append)

/-- The parts of a text before and after a byte offset. -/
def cut : Text → Nat → Except Fault (Text × Text)
  | t, 0 => .ok ([], t)
  | [], _ + 1 => .error .boundary
  | c :: t, n + 1 =>
    if c.utf8Size ≤ n + 1 then (cut t (n + 1 - c.utf8Size)).map fun (a, b) => (c :: a, b)
    else .error .boundary

/-- The text without the character at a byte offset. -/
def removeAt (t : Text) (offset : Nat) : Except Fault Text := do
  match ← cut t offset with
  | (_, []) => .error .boundary
  | (a, _ :: b) => .ok (a ++ b)

/-- The characters of a text with their byte offsets, if the text begins at one. -/
def charOffsets (start : Nat) : Text → List (Nat × Char)
  | [] => []
  | c :: t => (start, c) :: charOffsets (start + c.utf8Size) t

/-- The byte offset of a position, which is the end for all positions beyond. -/
def byteAt (t : Text) (pos : Nat) : Nat :=
  match (charOffsets 0 t)[pos]? with
  | some (offset, _) => offset
  | none => utf8Len t

/-- The byte offset of the last character of a class. -/
def lastOffset? (p : Char → Bool) (t : Text) : Option Nat :=
  ((charOffsets 0 t).reverse.find? fun (_, c) => p c).map (·.1)

theorem cut_append (a b : Text) : cut (a ++ b) (utf8Len a) = .ok (a, b) := by
  induction a with
  | nil => cases b <;> rfl
  | cons c a ih =>
    obtain ⟨n, hn⟩ := Nat.exists_eq_succ_of_ne_zero (Nat.ne_of_gt c.utf8Size_pos)
    have hsize : utf8Len (c :: a) = utf8Len a + n + 1 := by rw [utf8Len_cons, hn]; rfl
    have hrest : utf8Len a + n + 1 - c.utf8Size = utf8Len a := by omega
    rw [hsize, List.cons_append, cut, if_pos (by omega), hrest, ih]
    rfl

theorem removeAt_append (a b : Text) (c : Char) :
    removeAt (a ++ c :: b) (utf8Len a) = .ok (a ++ b) := by
  rw [removeAt, cut_append]
  rfl

/-- A text has at least one byte for each character. -/
theorem length_le_utf8Len (t : Text) : t.length ≤ utf8Len t := by
  induction t with
  | nil => exact Nat.le_refl 0
  | cons c t ih =>
    have hc := c.utf8Size_pos
    rw [List.length_cons, utf8Len_cons]
    omega

theorem utf8Len_pos {t : Text} (h : t ≠ []) : 0 < utf8Len t :=
  Nat.lt_of_lt_of_le (List.length_pos_iff.2 h) (length_le_utf8Len t)

theorem charOffsets_append (start : Nat) (a b : Text) :
    charOffsets start (a ++ b) = charOffsets start a ++ charOffsets (start + utf8Len a) b := by
  induction a generalizing start with
  | nil => rfl
  | cons c a ih =>
    have hnext : start + c.utf8Size + utf8Len a = start + utf8Len (c :: a) := by
      rw [utf8Len_cons]
      omega
    rw [List.cons_append, charOffsets, ih, hnext]
    rfl

theorem map_snd_charOffsets (start : Nat) (t : Text) : (charOffsets start t).map (·.2) = t := by
  induction t generalizing start with
  | nil => rfl
  | cons c t ih => rw [charOffsets, List.map_cons, ih]

theorem length_charOffsets (start : Nat) (t : Text) : (charOffsets start t).length = t.length := by
  rw [← List.length_map (·.2), map_snd_charOffsets]

/-- The offset of a position within a text. -/
theorem byteAt_append (a b : Text) : byteAt (a ++ b) a.length = utf8Len a := by
  have hlen : (charOffsets 0 a).length = a.length := length_charOffsets 0 a
  have hget : (charOffsets 0 (a ++ b))[a.length]? = (charOffsets (utf8Len a) b)[0]? := by
    rw [charOffsets_append, List.getElem?_append_right (Nat.le_of_eq hlen), hlen, Nat.sub_self,
      Nat.zero_add]
  unfold byteAt
  rw [hget]
  cases b with
  | nil => simp [charOffsets]
  | cons c b => simp [charOffsets]

/-- The offset of a position is good, and cuts the text there. -/
theorem cut_byteAt (a b : Text) : cut (a ++ b) (byteAt (a ++ b) a.length) = .ok (a, b) := by
  rw [byteAt_append, cut_append]

theorem lastOffset?_of_free {p : Char → Bool} {t : Text} (h : ∀ c ∈ t, p c = false) :
    lastOffset? p t = none := by
  have hnone : (charOffsets 0 t).reverse.find? (fun entry => p entry.2) = none := by
    rw [List.find?_eq_none]
    intro entry hentry
    have hmem : entry.2 ∈ t := by
      rw [← map_snd_charOffsets 0 t]
      exact List.mem_map_of_mem (List.mem_reverse.1 hentry)
    simp [h _ hmem]
  exact congrArg (Option.map (·.1)) hnone

/-- The last character of a class, with none of the class behind it. -/
theorem lastOffset?_append {p : Char → Bool} {c : Char} (hc : p c = true) (a : Text) {b : Text}
    (hb : ∀ d ∈ b, p d = false) : lastOffset? p (a ++ c :: b) = some (utf8Len a) := by
  have hbehind : (charOffsets (utf8Len a + c.utf8Size) b).reverse.find?
      (fun entry => p entry.2) = none := by
    rw [List.find?_eq_none]
    intro entry hentry
    have hmem : entry.2 ∈ b := by
      rw [← map_snd_charOffsets (utf8Len a + c.utf8Size) b]
      exact List.mem_map_of_mem (List.mem_reverse.1 hentry)
    simp [hb _ hmem]
  unfold lastOffset?
  rw [charOffsets_append, Nat.zero_add, charOffsets, List.reverse_append, List.reverse_cons,
    List.append_assoc, List.find?_append, hbehind]
  simp [hc]

end Text

end ModalKeys
