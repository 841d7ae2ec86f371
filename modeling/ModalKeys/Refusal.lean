import ModalKeys.Pattern.Basic
import ModalKeys.Text.Wildcard

namespace ModalKeys

open Text

/-- A line, field or setting that does not have its form. -/
inductive SyntaxError
  | noSection (line : Text)
  | noDelimiter (line : Text)
  | cursorTarget (text : Text)
  | cursorArguments (rest : Text)
  | separatorArguments (rest : Text)
  | keyArguments (name rest : Text)
  | modmapArguments (rest : Text)
  | emptyModmap (source target : Text)
  | emptyIgnore (rule : Text)
  | badIgnore (rule : Text) (cause : WildcardError)
  | unknownEvent (name : Text)
  | modeConfig (rest : Text)
  | noVariable
  | variableName (name : Text)
  deriving DecidableEq, Repr

def SyntaxError.message : SyntaxError → String
  | noSection line => "missing mode or bind section: " ++ quoted line
  | noDelimiter line => "missing delimiter in bind section: " ++ quoted line
  | cursorTarget text => "invalid cursor position: " ++ quoted text
  | cursorArguments rest => "SET_CURSOR_POS takes one argument: " ++ quoted rest
  | separatorArguments rest => "KEYCMD_STRIP_WORD takes at most one argument: " ++ quoted rest
  | keyArguments name rest => String.ofList name ++ " expects [mods] key, got " ++ quoted rest
  | modmapArguments rest => "invalid modmap: " ++ quoted rest
  | emptyModmap source target => "invalid modmap: " ++ quoted source ++ " -> " ++ quoted target
  | emptyIgnore rule => "invalid ignore rule: " ++ quoted rule
  | badIgnore rule cause => "invalid ignore rule " ++ quoted rule ++ ": " ++ cause.message
  | unknownEvent name => "unknown event: " ++ quoted name
  | modeConfig rest => "invalid mode config: " ++ quoted rest
  | noVariable => "VARIABLE_SET needs a name"
  | variableName name => "invalid variable name: " ++ quoted name

/-- Keyword arguments for an action that takes none. -/
inductive KeywordError
  | unexpected (pattern : Text)
  | forCommands (pattern : Text)
  deriving DecidableEq, Repr

def KeywordError.message : KeywordError → String
  | unexpected pattern => "handler for " ++ quoted pattern ++ " does not accept keyword arguments"
  | forCommands pattern =>
    "cannot supply keyword arguments to command binds (" ++ quoted pattern ++ ")"

/-- A name that no mode can have. -/
structure ModeNameError where
  name : Text
  deriving DecidableEq, Repr

def ModeNameError.message (e : ModeNameError) : String := "invalid mode name: " ++ quoted e.name

/-- Why an input is refused. Matching itself never refuses anything. -/
inductive Refusal
  | unreadable
  | document
  | syntactic (cause : SyntaxError)
  | pattern (cause : PatternError)
  | modeName (cause : ModeNameError)
  | keywords (cause : KeywordError)
  deriving DecidableEq, Repr

def Refusal.message : Refusal → String
  | unreadable => "IO error"
  | document => "Parse error"
  | syntactic cause => "Syntax error: " ++ cause.message
  | pattern cause => cause.message
  | modeName cause => cause.message
  | keywords cause => cause.message

/-- Mode names are `-?[A-Za-z0-9][A-Za-z0-9_]*`. -/
def isModeName (mode : Text) : Bool :=
  match (if mode.head? = some '-' then mode.tail else mode) with
  | [] => false
  | c :: t => c.isAlphanum && t.all fun c => c.isAlphanum || c == '_'

def checkMode (mode : Text) : Except ModeNameError Unit :=
  if isModeName mode then .ok () else .error ⟨mode⟩

end ModalKeys
