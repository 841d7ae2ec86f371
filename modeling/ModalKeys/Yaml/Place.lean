import ModalKeys.Text.Basic

namespace ModalKeys.Yaml

/-- Columns decide where a block ends, and lines how far a key may reach. A column counts
characters, the offset counts the bytes of their UTF-8 form. -/
structure Place where
  line : Nat
  col : Nat
  offset : Nat
  deriving DecidableEq, Repr

/-- A text whose characters know their places. -/
abbrev Placed := List (Char × Place)

def lineSeparator : Char := Char.ofNat 0x2028

def paragraphSeparator : Char := Char.ofNat 0x2029

def byteOrderMark : Char := Char.ofNat 0xFEFF

def isBreak (c : Char) : Bool := c == '\n' || c == lineSeparator || c == paragraphSeparator

def isSpace (c : Char) : Bool := c == ' ' || c == '\t'

/-- Carriage returns and next lines, and the pair of carriage return and line feed, become line
feeds. -/
def unifyBreaks : Text → Text
  | '\r' :: '\n' :: t => '\n' :: unifyBreaks t
  | c :: t => (if c == '\r' || c.toNat == 0x85 then '\n' else c) :: unifyBreaks t
  | [] => []

/-- Control characters have no place in a document. -/
def isDocumentChar (c : Char) : Bool :=
  let n := c.toNat
  n == 9 || n == 10 || n == 13 || (0x20 ≤ n && n ≤ 0x7E) || n == 0x85 ||
  (0xA0 ≤ n && n ≤ 0xFFFD) || 0x10000 ≤ n

/-- The place that follows a character. -/
def Place.after (p : Place) (c : Char) : Place :=
  let offset := p.offset + c.utf8Size
  if isBreak c then ⟨p.line + 1, 0, offset⟩ else ⟨p.line, p.col + 1, offset⟩

namespace Placed

def ofText (p : Place) : Text → Placed
  | [] => []
  | c :: t => (c, p) :: ofText (p.after c) t

/-- Holds at a blank, at a line break and at the end. -/
def startsBlank : Placed → Bool
  | [] => true
  | (c, _) :: _ => isSpace c || isBreak c

/-- Holds at the start of a line that opens or closes a document: three equal marks alone. -/
def startsMarker (mark : Char) : Placed → Bool
  | (a, p) :: (b, _) :: (c, _) :: t =>
    p.col == 0 && a == mark && b == mark && c == mark && startsBlank t
  | _ => false

/-- Holds at the start of a line that parts documents. -/
def partsDocuments (t : Placed) : Bool := startsMarker '-' t || startsMarker '.' t

end Placed

end ModalKeys.Yaml
