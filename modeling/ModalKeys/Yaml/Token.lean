import ModalKeys.Yaml.Scalar

namespace ModalKeys.Yaml

/-- A scalar, a bracket or another mark, or what stands for a change of column or of document. -/
inductive Token
  | scalar (plain : Bool) (text : Text)
  | openSeq
  | closeSeq
  | openMap
  | closeMap
  | comma
  | entry
  | key
  | value
  | beginSeq
  | beginMap
  | endBlock
  | beginDocument
  | endDocument
  deriving DecidableEq, Repr

/-- Where a key may have begun, with the number of tokens before it. A `required` key has to get its
colon, as it stands where the next key of a map must. -/
structure KeyStart where
  place : Place
  number : Nat
  required : Bool
  deriving DecidableEq, Repr

/-- A key stands on one line, and its colon at most 1024 bytes after its start. -/
def KeyStart.reaches (k : KeyStart) (p : Place) : Bool :=
  p.line ≤ k.place.line && p.offset ≤ k.place.offset + 1024

/-- The tokens read so far, the last one first, and what the next one depends on: the columns of the
open blocks, the innermost first, whether a key may begin, the key that may have begun, and those
that may have begun around each open bracket. -/
structure Layout where
  tokens : List Token := []
  count : Nat := 0
  columns : List Nat := []
  keyAllowed : Bool := true
  start : Option KeyStart := none
  outer : List (Option KeyStart) := []
  deriving DecidableEq, Repr

namespace Layout

/-- Between brackets columns do not count. -/
def inFlow (s : Layout) : Bool := !s.outer.isEmpty

/-- The first column beyond the innermost block. -/
def inside (s : Layout) : Nat :=
  match s.columns with
  | [] => 0
  | col :: _ => col + 1

def push (t : Token) (s : Layout) : Layout :=
  { s with tokens := t :: s.tokens, count := s.count + 1 }

/-- Puts a token behind the first `n` tokens. -/
def insert (t : Token) (n : Nat) (s : Layout) : Layout :=
  let later := s.count - n
  { s with tokens := s.tokens.take later ++ t :: s.tokens.drop later, count := s.count + 1 }

def allowKey (allowed : Bool) (s : Layout) : Layout := { s with keyAllowed := allowed }

/-- Opens a block at a column beyond the innermost one, before the tokens after the first `n`. -/
def openBlock (t : Token) (col n : Nat) (s : Layout) : Layout :=
  if s.inFlow || col < s.inside then s
  else { s.insert t n with columns := col :: s.columns }

/-- Closes the blocks whose columns are beyond. -/
def closeBlocks (beyond : Nat → Bool) (s : Layout) : Layout :=
  if s.inFlow then s
  else
    let closed := s.columns.takeWhile beyond
    { s with
      tokens := List.replicate closed.length .endBlock ++ s.tokens
      count := s.count + closed.length
      columns := s.columns.dropWhile beyond }

/-- Gives up the key that may have begun. A required one cannot be given up. -/
def dropKey? (s : Layout) : Option Layout :=
  if s.start.any (·.required) then none else some { s with start := none }

/-- Gives up a key that does not reach a place. -/
def arrive? (p : Place) (s : Layout) : Option Layout :=
  if s.start.all (·.reaches p) then some s else s.dropKey?

/-- Notes that a key may begin at a place. -/
def startKey? (p : Place) (s : Layout) : Option Layout :=
  if s.keyAllowed then
    s.dropKey?.map fun s =>
      { s with start := some ⟨p, s.count, !s.inFlow && s.columns.head? == some p.col⟩ }
  else some s

def openBracket? (t : Token) (p : Place) (s : Layout) : Option Layout :=
  (s.startKey? p).map fun s =>
    { s.push t with start := none, outer := s.start :: s.outer, keyAllowed := true }

def closeBracket? (t : Token) (s : Layout) : Option Layout :=
  s.dropKey?.map fun s =>
    let s := (s.push t).allowKey false
    match s.outer with
    | [] => s
    | start :: outer => { s with start, outer }

def comma? (s : Layout) : Option Layout :=
  s.dropKey?.map fun s => (s.push .comma).allowKey true

/-- A line that parts documents closes all blocks. -/
def marker? (t : Token) (s : Layout) : Option Layout :=
  (s.closeBlocks fun _ => true).dropKey?.map fun s => (s.push t).allowKey false

/-- A dash or a question mark opens a block of its kind, where a key may begin. -/
def indicator? (block t : Token) (p : Place) (s : Layout) : Option Layout :=
  if s.inFlow || s.keyAllowed then
    (s.openBlock block p.col s.count).dropKey?.map (·.push t)
  else none

def entry? (p : Place) (s : Layout) : Option Layout :=
  (s.indicator? .beginSeq .entry p).map (·.allowKey true)

def key? (p : Place) (s : Layout) : Option Layout :=
  (s.indicator? .beginMap .key p).map fun s => s.allowKey !s.inFlow

/-- A colon belongs to the key that has begun, if there is one. -/
def value? (p : Place) (s : Layout) : Option Layout :=
  match s.start with
  | some k =>
    let s := (s.insert .key k.number).openBlock .beginMap k.place.col k.number
    some ({ s with start := none }.push .value |>.allowKey false)
  | none =>
    if s.inFlow then some (s.push .value |>.allowKey false)
    else if s.keyAllowed then
      some ((s.openBlock .beginMap p.col s.count).push .value |>.allowKey true)
    else none

def scalar? (p : Place) (plain : Bool) (text : Text) (s : Layout) : Option Layout :=
  (s.startKey? p).map fun s => (s.push (.scalar plain text)).allowKey false

/-- Passes blanks, line breaks and comments, and a byte order mark at the start of a line. In a
block a key may begin on each new line, and tabs are no blanks where one may. -/
def skip (s : Layout) (t : Placed) : Layout × Placed := go false s.keyAllowed t
where
  go (comment allowed : Bool) : Placed → Layout × Placed
    | [] => (s.allowKey allowed, [])
    | (c, p) :: t =>
      if isBreak c then go false (allowed || !s.inFlow) t
      else if comment then go true allowed t
      else if c == ' ' || (c == '\t' && (s.inFlow || !allowed)) ||
          (c == byteOrderMark && p.col == 0) then
        go false allowed t
      else if c == '#' then go true allowed t
      else (s.allowKey allowed, (c, p) :: t)

/-- Reads the token that begins with a character at a place, before the rest of the document. -/
def token? (s : Layout) (c : Char) (p : Place) (t : Placed) : Option (Layout × Placed) :=
  let here := (c, p) :: t
  let alone := s.inFlow || Placed.startsBlank t
  if Placed.startsMarker '-' here then (s.marker? .beginDocument).map (·, t.drop 2)
  else if Placed.startsMarker '.' here then (s.marker? .endDocument).map (·, t.drop 2)
  else if c == '[' then (s.openBracket? .openSeq p).map (·, t)
  else if c == '\x7b' then (s.openBracket? .openMap p).map (·, t)
  else if c == ']' then (s.closeBracket? .closeSeq).map (·, t)
  else if c == '\x7d' then (s.closeBracket? .closeMap).map (·, t)
  else if c == ',' then s.comma?.map (·, t)
  else if c == '-' && Placed.startsBlank t then (s.entry? p).map (·, t)
  else if c == '?' && alone then (s.key? p).map (·, t)
  else if c == ':' && alone then (s.value? p).map (·, t)
  else if c == '"' then do
    let (v, r) ← doubleQuoted? .none t
    return (← s.scalar? p false v, r)
  else if c == '\'' then do
    let (v, r) ← singleQuoted? .none t
    return (← s.scalar? p false v, r)
  else if startsPlain s.inFlow here then do
    let (v, broken, r) ← plain? s.inFlow s.inside .none here
    return ((← s.scalar? p true v).allowKey broken, r)
  else none

/-- Reads the tokens of the rest of a document. Each one takes a character at least. -/
def finish? : Nat → Layout → Placed → Option (List Token)
  | 0, _, _ => none
  | fuel + 1, s, t =>
    match s.skip t with
    | (s, []) => (s.closeBlocks fun _ => true).dropKey?.map (·.tokens.reverse)
    | (s, (c, p) :: t) => do
      let s ← s.arrive? p
      let (s, t) ← (s.closeBlocks (p.col < ·)).token? c p t
      finish? fuel s t

end Layout

/-- The tokens of a text, if it consists of tokens. -/
def tokens? (t : Text) : Option (List Token) :=
  let t := unifyBreaks t
  if t.all isDocumentChar then
    Layout.finish? (t.length + 1) {} (Placed.ofText ⟨0, 0, 0⟩ t)
  else none

end ModalKeys.Yaml
