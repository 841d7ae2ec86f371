import ModalKeys.Definition.Basic
import ModalKeys.Text.Arguments

namespace ModalKeys.Definition

open Text

/-- The arguments up to the first `=`, and those after it. -/
def cutEquals? : List Argument → Option (List Argument × List Argument)
  | [] => none
  | a :: as =>
    if a.value = ['='] then some ([], as)
    else (cutEquals? as).map fun (before, after) => (a :: before, after)

/-- Reads `MODES PATTERN = COMMAND`. The command keeps its quotes; a blank one is a removal. -/
def ofLine (line : Text) : Except SyntaxError Definition :=
  match arguments line with
  | modes :: a :: as =>
    match cutEquals? (a :: as) with
    | none => .error (.noDelimiter (trim line))
    | some (pattern, command) =>
      let command := rawFrom command 0
      .ok ⟨splitModes modes.value, unwords (pattern.map (·.value)),
        if command.isEmpty then [] else [command]⟩
  | _ => .error (.noSection (trim line))

/-- The form without modes, for the table that applies everywhere. -/
def ofGlobalLine (line : Text) : Except SyntaxError Definition :=
  ofLine (globalMode ++ ' ' :: line)

end ModalKeys.Definition
