import ModalKeys.Text.Basic

namespace ModalKeys

/-- What a session asks of its host: a command to send or a variable to write. The empty value
unsets the variable. -/
inductive Effect
  | send (command : Text)
  | set (name value : Text)
  deriving DecidableEq, Repr

namespace Effect

open Text

/-- The command line that the host receives. -/
def line : Effect → Text
  | send command => command
  | set name value =>
    if value.isEmpty then "set ".toList ++ name ++ " =".toList
    else "set ".toList ++ name ++ " = ".toList ++ value

/-- The name and the value of an assignment `set NAME = VALUE`. -/
def assignment? (command : Text) : Option (Text × Text) :=
  match "set ".toList.isPrefixOf? command with
  | none => none
  | some body =>
    match cutAt? (· == '=') body with
    | none => none
    | some (name, value) => if (trim name).isEmpty then none else some (trim name, trim value)

/-- The event line that the host raises for a sent command: `event LINE` raises the line, and an
assignment is reported as `VARIABLE_SET`. -/
def echo? : Effect → Option Text
  | set _ _ => none
  | send command =>
    match "event ".toList.isPrefixOf? command with
    | some event => some (trim event)
    | none => (assignment? command).map fun (name, value) =>
        trimEnd ("VARIABLE_SET ".toList ++ name ++ ' ' :: value)

end Effect

end ModalKeys
