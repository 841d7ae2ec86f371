namespace ModalKeys

/-- Positions and lengths count characters, never bytes. -/
abbrev Text := List Char

namespace Text

/-- White space is Unicode's property White_Space. -/
def isBlank (c : Char) : Bool :=
  let n := c.toNat
  (9 ≤ n && n ≤ 13) || n == 0x20 || n == 0x85 || n == 0xA0 || n == 0x1680 ||
  (0x2000 ≤ n && n ≤ 0x200A) || n == 0x2028 || n == 0x2029 || n == 0x202F ||
  n == 0x205F || n == 0x3000

def dropEndWhile (p : Char → Bool) (t : Text) : Text :=
  (t.reverse.dropWhile p).reverse

/-- Drops the characters of a class from both ends. -/
def trimClass (p : Char → Bool) (t : Text) : Text :=
  dropEndWhile p (t.dropWhile p)

def trimStart (t : Text) : Text := t.dropWhile isBlank

def trimEnd (t : Text) : Text := dropEndWhile isBlank t

def trim (t : Text) : Text := trimClass isBlank t

def allBlank (t : Text) : Bool := t.all isBlank

/-- The words between runs of white space. -/
def words (t : Text) : List Text :=
  (t.splitOnP isBlank).filter (!·.isEmpty)

/-- The text before and after the first character of a class, which itself is left out. -/
def cutAt? (p : Char → Bool) : Text → Option (Text × Text)
  | [] => none
  | c :: t => if p c then some ([], t) else (cutAt? p t).map fun (a, b) => (c :: a, b)

theorem cutAt?_eq {p : Char → Bool} {t a b : Text} (h : cutAt? p t = some (a, b)) :
    ∃ c, t = a ++ c :: b ∧ p c = true := by
  induction t generalizing a with
  | nil => simp [cutAt?] at h
  | cons c t ih =>
    rw [cutAt?] at h
    split at h
    · next hc => cases h; exact ⟨c, rfl, hc⟩
    · obtain ⟨⟨a', b'⟩, hb, he⟩ := Option.map_eq_some_iff.1 h
      cases he
      obtain ⟨d, hd, hp⟩ := ih hb
      exact ⟨d, by simp [hd], hp⟩

theorem cutAt?_length {p : Char → Bool} {t a b : Text} (h : cutAt? p t = some (a, b)) :
    a.length + b.length < t.length := by
  obtain ⟨c, rfl, _⟩ := cutAt?_eq h
  simp

/-- Holds when `key` stands somewhere in the text. -/
def holds (key : Text) : Text → Bool
  | [] => key.isEmpty
  | c :: t => key.isPrefixOf (c :: t) || holds key t

/-- The arguments joined by single blanks. -/
def unwords (ts : List Text) : Text := [' '].intercalate ts

theorem length_dropWhile_le (p : Char → Bool) (t : Text) : (t.dropWhile p).length ≤ t.length := by
  induction t with
  | nil => simp
  | cons c t ih =>
    rw [List.dropWhile_cons]
    split
    · exact Nat.le_succ_of_le ih
    · exact Nat.le_refl _

end Text

end ModalKeys
