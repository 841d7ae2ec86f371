import ModalKeys.Modifiers
import ModalKeys.Text.Quoted

namespace ModalKeys

/-- When a segment fires and whether it captures the text after its literal, as the last character
of a keystroke group says. -/
inductive Trigger
  | typed
  | live
  | entered
  | argument
  deriving DecidableEq, Repr

namespace Trigger

/-- Fires when the line is submitted, not while it changes. -/
def onExec : Trigger → Bool
  | .typed | .live => false
  | .entered | .argument => true

def captures : Trigger → Bool
  | .typed | .entered => false
  | .live | .argument => true

/-- The flag character that stands for a trigger. -/
def flag? : Trigger → Option Char
  | .typed => none
  | .live => some '*'
  | .entered => some '!'
  | .argument => some '_'

def ofFlag (c : Char) : Trigger :=
  if c = '*' then .live else if c = '!' then .entered else if c = '_' then .argument else .typed

end Trigger

/-- One keystroke group. It belongs to a chord when it has modifiers. -/
structure Segment where
  trigger : Trigger
  modifiers : Modifiers
  literal : Text
  index : Nat
  more : Bool
  deriving DecidableEq

namespace Segment

def isChord (s : Segment) : Bool := !s.modifiers.isEmpty

/-- The arguments, at most one, that a segment takes from a text; none at all if it does not fit. -/
def capture? (s : Segment) (text : Text) : Option (List Text) :=
  if s.trigger.captures then (s.literal.isPrefixOf? text).map ([·])
  else if text = s.literal then some []
  else none

end Segment

/-- Shown while the segment after it is awaited. A preset is text for the command line or a command
to send; there is none when it is empty. -/
structure Prompt where
  label : Text
  isCommand : Bool
  preset : Text
  deriving DecidableEq, Repr

/-- Keystroke segments with a prompt between each two: prompt `i` stands before segment `i + 1`. -/
structure Pattern where
  segments : List Segment
  prompts : List Prompt
  deriving DecidableEq

/-- A single chord segment. -/
def Pattern.isGlobal (p : Pattern) : Bool :=
  match p.segments with
  | [s] => s.isChord
  | _ => false

inductive PatternError
  | blank
  | wildcardNotTerminal (pattern : Text)
  | emptySegment (pattern : Text) (index : Nat)
  deriving DecidableEq, Repr

def PatternError.message : PatternError → String
  | .blank => "bind pattern cannot be blank"
  | .wildcardNotTerminal pattern =>
    "'*' must end the last segment of " ++ Text.quoted pattern
  | .emptySegment pattern index => s!"empty segment {index} in " ++ Text.quoted pattern

end ModalKeys
