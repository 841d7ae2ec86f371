import ModalKeys.Modifiers
import ModalKeys.Refusal
import ModalKeys.Text.Escape

namespace ModalKeys

/-- Where to move the cursor: by one character, or to a position, from the end if negative. -/
inductive CursorTarget
  | left
  | right
  | at (pos : Int)
  deriving DecidableEq, Repr

namespace CursorTarget

open Text

def digits? : Text → Option Nat
  | [] => none
  | t => if t.all Char.isDigit then some (t.foldl (fun n c => 10 * n + (c.toNat - 48)) 0) else none

/-- A decimal number with an optional sign, within 64 bits. -/
def position? (t : Text) : Option Int :=
  let value : Option Int := match t with
    | '-' :: t => (digits? t).map fun n => -(n : Int)
    | '+' :: t => (digits? t).map Int.ofNat
    | t => (digits? t).map Int.ofNat
  value.filter fun n => -9223372036854775808 ≤ n && n < 9223372036854775808

def parse (t : Text) : Except SyntaxError CursorTarget :=
  if trim t = ['-'] then .ok left
  else if trim t = ['+'] then .ok right
  else
    match position? (trim t) with
    | some n => .ok (.at n)
    | none => .error (.cursorTarget t)

end CursorTarget

/-- The line that is being typed, as the text before the cursor and the text from the cursor on, and
the chord. `chord` counts only while `chording`; `held` are the named keys that are down. -/
structure Input where
  before : Text
  after : Text
  chord : Text
  chording : Bool
  held : Modifiers
  deriving DecidableEq

namespace Input

open Text

def empty : Input := ⟨[], [], [], false, ∅⟩

def line (i : Input) : Text := i.before ++ i.after

def cursor (i : Input) : Nat := i.before.length

/-- The text of the chord, none unless one is active. -/
def chordText (i : Input) : Text := if i.chording then i.chord else []

def clearLine (i : Input) : Input := { i with before := [], after := [] }

def clearChord (i : Input) : Input := { i with chord := [], chording := false }

def setLine (i : Input) (t : Text) : Input := { i with before := t, after := [] }

def insert (i : Input) (t : Text) : Input := { i with before := i.before ++ t }

/-- Adds to the end of the line and moves the cursor there. -/
def append (i : Input) (t : Text) : Input := { i with before := i.line ++ t, after := [] }

def appendChord (i : Input) (t : Text) : Input := { i with chord := i.chord ++ t }

/-- The line without the character before the cursor, if there is one. -/
def backspace? (i : Input) : Option Input :=
  if i.before.isEmpty then none else some { i with before := i.before.dropLast }

/-- The line without the character under the cursor, if there is one. -/
def delete? (i : Input) : Option Input :=
  match i.after with
  | [] => none
  | _ :: t => some { i with after := t }

/-- Splits a text into what stays, its last word and the separators after that word. -/
def cutWord (seps : List Char) (t : Text) : Text × Text × Text :=
  let trimmed := dropEndWhile (· ∈ seps) t
  let keep := dropEndWhile (· ∉ seps) trimmed
  (keep, trimmed.drop keep.length, t.drop trimmed.length)

/-- Removes the word before the cursor with the separators after it; gives the word. -/
def stripWord? (i : Input) (seps : List Char) : Option (Text × Input) :=
  if i.before.isEmpty then none
  else
    let (keep, word, _) := cutWord seps i.before
    some (word, { i with before := keep })

/-- The position that a target names, within the line. The end is `-1`. -/
def position (i : Input) (target : CursorTarget) : Nat :=
  let size : Int := i.line.length
  let wanted : Int := match target with
    | .left => i.cursor - 1
    | .right => i.cursor + 1
    | .at n => if n < 0 then size + n + 1 else n
  (min wanted size).toNat

def moveCursor (i : Input) (target : CursorTarget) : Input :=
  let pos := i.position target
  { i with before := i.line.take pos, after := i.line.drop pos }

/-- The line with a mark around the character under the cursor, which is a blank at the end. -/
def markup (i : Input) : Text :=
  verbatim i.before ++ "<span @cursor_style>".toList ++ verbatim [i.after.head?.getD ' '] ++
    "</span>".toList ++ verbatim i.after.tail

def describe (i : Input) : String :=
  let chord := if i.chording then ["modcmd=" ++ quoted i.chord] else []
  let line := if i.line.isEmpty then [] else ["keycmd=" ++ quoted i.line]
  "<keylet(" ++ ", ".intercalate (chord ++ line) ++ ")>"

end Input

end ModalKeys
