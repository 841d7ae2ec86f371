import ModalKeys.Effect
import ModalKeys.Keywords
import ModalKeys.Pattern.Compile
import ModalKeys.Refusal
import ModalKeys.Template

namespace ModalKeys

/-- A function from its positional and keyword arguments to the effects that it asks for. -/
abbrev Handler := List Text → Keywords → List Effect

inductive Action
  | commands (templates : List Text)
  | callable (handler : Handler) (args : List Text) (keywords : Keywords) (acceptsKeywords : Bool)

def Action.describe : Action → String
  | commands templates => "Commands(" ++ Text.quotedList templates ++ ")"
  | callable _ args keywords accepts =>
    "Callable \x7b args: " ++ Text.quotedList args ++ ", kwargs: " ++ keywords.describe ++
      ", accepts_kwargs: " ++ (if accepts then "true" else "false") ++ ", .. \x7d"

/-- A compiled pattern with what to run once its last segment matches. The pattern is what the
source compiles to. -/
structure Bind where
  source : Text
  pattern : Pattern
  action : Action
  compiled : Pattern.compile source = .ok pattern

/-- A bind with the arguments that it is run with. -/
structure Run where
  bind : Bind
  args : List Text

namespace Bind

def ofAction (source : Text) (action : Action) : Except PatternError Bind :=
  match compiled : Pattern.compile source with
  | .ok pattern => .ok ⟨source, pattern, action, compiled⟩
  | .error e => .error e

def ofCommands (source : Text) (templates : List Text) : Except PatternError Bind :=
  ofAction source (.commands templates)

def ofHandler (source : Text) (handler : Handler) (acceptsKeywords : Bool) :
    Except PatternError Bind :=
  ofAction source (.callable handler [] .empty acceptsKeywords)

def isGlobal (b : Bind) : Bool := b.pattern.isGlobal

/-- Fixed arguments of a callable, ahead of the captured ones. -/
def withArgs (b : Bind) (args : List Text) : Bind :=
  match b.action with
  | .commands _ => b
  | .callable handler fixed keywords accepts =>
    { b with action := .callable handler (fixed ++ args) keywords accepts }

def checkKeywords (b : Bind) (keywords : Keywords) : Except KeywordError Unit :=
  if keywords.isEmpty then .ok ()
  else
    match b.action with
    | .commands _ => .error (.forCommands b.source)
    | .callable _ _ _ true => .ok ()
    | .callable _ _ _ false => .error (.unexpected b.source)

def withKeywords (b : Bind) (keywords : Keywords) : Except KeywordError Bind :=
  match b.checkKeywords keywords with
  | .error e => .error e
  | .ok () =>
    match b.action with
    | .commands _ => .ok b
    | .callable handler args fixed accepts =>
      .ok { b with action := .callable handler args (fixed.merge keywords) accepts }

/-- The segment to match at a depth of the stack; a global bind has the same one at each. -/
def segment? (b : Bind) (depth : Nat) : Option Segment :=
  if b.isGlobal then b.pattern.segments.head? else b.pattern.segments[depth]?

/-- The prompt to show once the stack has reached a depth. -/
def prompt? (b : Bind) : Nat → Option Prompt
  | 0 => none
  | depth + 1 => b.pattern.prompts[depth]?

/-- The effects of the action, in order. -/
def effects (b : Bind) (captured : List Text) (keywords : Keywords) :
    Except KeywordError (List Effect) :=
  match b.checkKeywords keywords with
  | .error e => .error e
  | .ok () =>
    match b.action with
    | .commands templates => .ok (templates.map fun t => .send (Template.expand captured t))
    | .callable handler args fixed _ => .ok (handler (args ++ captured) (fixed.merge keywords))

end Bind

end ModalKeys
