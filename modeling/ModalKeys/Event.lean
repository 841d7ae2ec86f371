import ModalKeys.Input
import ModalKeys.Text.Arguments

namespace ModalKeys

/-- What a session responds to. -/
inductive Event
  | keyPress (modifiers key : Text)
  | keyRelease (modifiers key : Text)
  | setLine (text : Text)
  | inject (text : Text)
  | append (text : Text)
  | backspace
  | delete
  | stripWord (separators : Option Text)
  | submit
  | clearLine
  | moveCursor (target : CursorTarget)
  | historyPrev
  | historyNext
  | historySearch (key : Text)
  | startCompletion
  | stopCompletion
  | builtins (names : List Text)
  | modmap (source target : Text)
  | ignoreKey (rule : Text)
  | bind (line : Text)
  | modeBind (line : Text)
  | modeConfig (mode var value : Text)
  | modeChanged (mode : Text)
  | variableSet (name value : Text)
  deriving DecidableEq, Repr

namespace Event

open Text

def name : Event → String
  | keyPress _ _ => "KEY_PRESS"
  | keyRelease _ _ => "KEY_RELEASE"
  | setLine _ => "SET_KEYCMD"
  | inject _ => "INJECT_KEYCMD"
  | append _ => "APPEND_KEYCMD"
  | backspace => "KEYCMD_BACKSPACE"
  | delete => "KEYCMD_DELETE"
  | stripWord _ => "KEYCMD_STRIP_WORD"
  | submit => "KEYCMD_EXEC_CURRENT"
  | clearLine => "KEYCMD_CLEAR"
  | moveCursor _ => "SET_CURSOR_POS"
  | historyPrev => "HISTORY_PREV"
  | historyNext => "HISTORY_NEXT"
  | historySearch _ => "HISTORY_SEARCH"
  | startCompletion => "START_COMPLETION"
  | stopCompletion => "STOP_COMPLETION"
  | builtins _ => "BUILTINS"
  | modmap _ _ => "MODMAP"
  | ignoreKey _ => "IGNORE_KEY"
  | bind _ => "BIND"
  | modeBind _ => "MODE_BIND"
  | modeConfig _ _ _ => "MODE_CONFIG"
  | modeChanged _ => "MODE_CHANGED"
  | variableSet _ _ => "VARIABLE_SET"

/-- A key event gives the modifiers and the key, or the key alone. -/
def keyArguments (name rest : Text) : Except SyntaxError (Text × Text) :=
  match (arguments rest).map (·.value) with
  | [key] => .ok ([], key)
  | [modifiers, key] => .ok (modifiers, key)
  | _ => .error (.keyArguments name rest)

/-- Reads `MODE VAR = VALUE`. The value is the rest of the line, without its quotes if it is a
single argument. -/
def readModeConfig (rest : Text) : Except SyntaxError Event :=
  match arguments rest with
  | [mode, var, equals, value] =>
    if equals.value = ['='] then .ok (modeConfig mode.value var.value value.value)
    else .error (.modeConfig rest)
  | mode :: var :: equals :: values =>
    if equals.value = ['='] then .ok (modeConfig mode.value var.value (rawFrom values 0))
    else .error (.modeConfig rest)
  | _ => .error (.modeConfig rest)

def readStripWord (rest : Text) : Except SyntaxError Event :=
  match arguments rest with
  | [] => .ok (stripWord none)
  | [seps] => .ok (stripWord (some seps.value))
  | _ => .error (.separatorArguments rest)

def readMoveCursor (rest : Text) : Except SyntaxError Event :=
  match arguments rest with
  | [target] => moveCursor <$> CursorTarget.parse target.value
  | _ => .error (.cursorArguments rest)

def readModmap (rest : Text) : Except SyntaxError Event :=
  match arguments rest with
  | [source, target] => .ok (modmap source.value target.value)
  | _ => .error (.modmapArguments rest)

def readVariableSet (rest : Text) : Except SyntaxError Event :=
  match arguments rest with
  | [] => .error .noVariable
  | name :: values => .ok (variableSet name.value (rawFrom values 0))

/-- The name of a line and the text after the white space that follows it. -/
def cutName (line : Text) : Text × Text :=
  match cutAt? isBlank (trim line) with
  | some (name, rest) => (name, trimStart rest)
  | none => (trim line, [])

/-- Reads an event line: a name, then arguments or free text. -/
def parse (line : Text) : Except SyntaxError Event :=
  let (name, rest) := cutName line
  match String.ofList name with
  | "KEY_PRESS" | "MOD_PRESS" => (fun (m, k) => keyPress m k) <$> keyArguments name rest
  | "KEY_RELEASE" | "MOD_RELEASE" => (fun (m, k) => keyRelease m k) <$> keyArguments name rest
  | "SET_KEYCMD" => .ok (setLine rest)
  | "INJECT_KEYCMD" => .ok (inject rest)
  | "APPEND_KEYCMD" => .ok (append rest)
  | "KEYCMD_BACKSPACE" => .ok backspace
  | "KEYCMD_DELETE" => .ok delete
  | "KEYCMD_STRIP_WORD" => readStripWord rest
  | "KEYCMD_EXEC_CURRENT" => .ok submit
  | "KEYCMD_CLEAR" => .ok clearLine
  | "SET_CURSOR_POS" => readMoveCursor rest
  | "HISTORY_PREV" => .ok historyPrev
  | "HISTORY_NEXT" => .ok historyNext
  | "HISTORY_SEARCH" => .ok (historySearch rest)
  | "START_COMPLETION" => .ok startCompletion
  | "STOP_COMPLETION" => .ok stopCompletion
  | "BUILTINS" => .ok (builtins ((arguments rest).flatMap fun a => words a.value))
  | "MODMAP" => readModmap rest
  | "IGNORE_KEY" => .ok (ignoreKey rest)
  | "BIND" => .ok (bind rest)
  | "MODE_BIND" => .ok (modeBind rest)
  | "MODE_CONFIG" => readModeConfig rest
  | "MODE_CHANGED" => .ok (modeChanged (((arguments rest).head?.map (·.value)).getD []))
  | "VARIABLE_SET" => readVariableSet rest
  | _ => .error (.unknownEvent name)

end Event

end ModalKeys
