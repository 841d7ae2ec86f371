import ModalKeys.Yaml.Place

namespace ModalKeys.Yaml

/-- What stands between two words of a scalar: blanks on one line, or a line break and those after
it. An escaped break is none, so its place is empty. The last blank and the last break come
first. -/
inductive Gap
  | blanks (back : Text)
  | breaks (opening : Option Char) (back : Text)

namespace Gap

def none : Gap := blanks []

def escapedBreak : Gap := breaks .none []

def isNone : Gap → Bool
  | blanks [] => true
  | _ => false

/-- Blanks count only before the first line break. -/
def push (c : Char) : Gap → Gap
  | blanks back => if isBreak c then breaks (some c) [] else blanks (c :: back)
  | breaks opening back => if isBreak c then breaks opening (c :: back) else breaks opening back

def hasBreak : Gap → Bool
  | blanks _ => false
  | breaks _ _ => true

/-- The text between the words. The blanks of one line stand as they are; a line break counts as a
blank, and each further one as a line break. The separators of lines and paragraphs stay. -/
def text : Gap → Text
  | blanks back => back.reverse
  | breaks .none back => back.reverse
  | breaks (some '\n') [] => [' ']
  | breaks (some '\n') back => back.reverse
  | breaks (some c) back => c :: back.reverse

end Gap

/-- The inside of a single-quoted scalar and what follows it. A quote is written twice. -/
def singleQuoted? (gap : Gap) : Placed → Option (Text × Placed)
  | [] => none
  | ('\'', _) :: ('\'', _) :: t =>
    (singleQuoted? .none t).map fun (v, r) => (gap.text ++ '\'' :: v, r)
  | ('\'', _) :: t => some (gap.text, t)
  | (c, p) :: t =>
    if Placed.partsDocuments ((c, p) :: t) then none
    else if isSpace c || isBreak c then singleQuoted? (gap.push c) t
    else (singleQuoted? .none t).map fun (v, r) => (gap.text ++ c :: v, r)

/-- The characters that an escape of one letter stands for. -/
def simpleEscape? (c : Char) : Option Char :=
  match c with
  | '0' => some '\x00'
  | 'a' => some '\x07'
  | 'b' => some '\x08'
  | 't' => some '\t'
  | '\t' => some '\t'
  | 'n' => some '\n'
  | 'v' => some '\x0b'
  | 'f' => some '\x0c'
  | 'r' => some '\r'
  | 'e' => some '\x1b'
  | ' ' => some ' '
  | '"' => some '"'
  | '/' => some '/'
  | '\\' => some '\\'
  | 'N' => some (Char.ofNat 0x85)
  | '_' => some (Char.ofNat 0xA0)
  | 'L' => some lineSeparator
  | 'P' => some paragraphSeparator
  | _ => none

def hexDigit? (c : Char) : Option Nat :=
  if c.isDigit then some (c.toNat - '0'.toNat)
  else if 'a' ≤ c && c ≤ 'f' then some (c.toNat - 'a'.toNat + 10)
  else if 'A' ≤ c && c ≤ 'F' then some (c.toNat - 'A'.toNat + 10)
  else none

/-- The character of a code point in hexadecimal. -/
def hexChar? (digits : Text) : Option Char := do
  let n ← digits.foldlM (fun n c => (hexDigit? c).map (16 * n + ·)) 0
  if Nat.isValidChar n then some (Char.ofNat n) else none

/-- The inside of a double-quoted scalar and what follows it. -/
def doubleQuoted? (gap : Gap) : Placed → Option (Text × Placed)
  | [] => none
  | ('"', _) :: t => some (gap.text, t)
  | ('\\', _) :: ('x', _) :: (a, _) :: (b, _) :: t =>
    escaped gap (hexChar? [a, b]) (doubleQuoted? .none t)
  | ('\\', _) :: ('u', _) :: (a, _) :: (b, _) :: (c, _) :: (d, _) :: t =>
    escaped gap (hexChar? [a, b, c, d]) (doubleQuoted? .none t)
  | ('\\', _) :: ('U', _) :: (a, _) :: (b, _) :: (c, _) :: (d, _) :: (e, _) :: (f, _) :: (g, _) ::
      (h, _) :: t =>
    escaped gap (hexChar? [a, b, c, d, e, f, g, h]) (doubleQuoted? .none t)
  | ('\\', _) :: (c, _) :: t =>
    if isBreak c then
      (doubleQuoted? .escapedBreak t).map fun (v, r) => (gap.text ++ v, r)
    else escaped gap (simpleEscape? c) (doubleQuoted? .none t)
  | (c, p) :: t =>
    if Placed.partsDocuments ((c, p) :: t) then none
    else if isSpace c || isBreak c then doubleQuoted? (gap.push c) t
    else (doubleQuoted? .none t).map fun (v, r) => (gap.text ++ c :: v, r)
where
  /-- Puts an escaped character before the rest of a scalar. -/
  escaped (gap : Gap) (char : Option Char) (rest : Option (Text × Placed)) :
      Option (Text × Placed) :=
    match char, rest with
    | some c, some (v, r) => some (gap.text ++ c :: v, r)
    | _, _ => none

def isFlowMark (c : Char) : Bool :=
  c == ',' || c == '[' || c == ']' || c == '\x7b' || c == '\x7d'

/-- Holds at a mark between brackets, or at a question mark. -/
def startsFlowMark : Placed → Bool
  | [] => false
  | (c, _) :: _ => isFlowMark c || c == '?'

/-- Whether a plain scalar can begin here. A dash, a question mark or a colon must not stand
alone. -/
def startsPlain (flow : Bool) : Placed → Bool
  | [] => false
  | (c, _) :: t =>
    if c == '-' then !Placed.startsBlank t
    else if c == '?' || c == ':' then !flow && !Placed.startsBlank t
    else !(isSpace c || isBreak c || isFlowMark c || "#&*!|>'\"%@\x60".toList.contains c)

/-- Whether a plain scalar ends after a gap: at a comment, at a line that parts documents, and in a
block before column `min`. -/
def endsLine (flow : Bool) (min : Nat) (gap : Gap) : Placed → Bool
  | [] => true
  | (c, p) :: t =>
    (!gap.isNone && c == '#') ||
    (gap.hasBreak && (Placed.partsDocuments ((c, p) :: t) || (!flow && p.col < min)))

/-- Whether a plain scalar ends within a line: at a colon that parts a key from its value, and
between brackets at every mark of those. -/
def endsWord (flow : Bool) : Placed → Bool
  | [] => true
  | (c, _) :: t => (c == ':' && Placed.startsBlank t) || (flow && isFlowMark c)

/-- The rest of a plain scalar after a gap, whether a line break ends it, and what follows. A tab
before column `min` and, between brackets, a colon before a mark are refused. -/
def plain? (flow : Bool) (min : Nat) (gap : Gap) : Placed → Option (Text × Bool × Placed)
  | [] => some ([], gap.hasBreak, [])
  | (c, p) :: t =>
    if isSpace c || isBreak c then
      if c == '\t' && gap.hasBreak && p.col < min then none
      else plain? flow min (gap.push c) t
    else if endsLine flow min gap ((c, p) :: t) then some ([], gap.hasBreak, (c, p) :: t)
    else if flow && c == ':' && startsFlowMark t then none
    else if endsWord flow ((c, p) :: t) then some ([], gap.hasBreak, (c, p) :: t)
    else (plain? flow min .none t).map fun (v, r) => (gap.text ++ c :: v, r)

end ModalKeys.Yaml
