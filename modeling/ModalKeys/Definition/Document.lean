import ModalKeys.Definition.Basic
import ModalKeys.Yaml.Document

namespace ModalKeys.Definition

open Yaml

/-- One record of the list. -/
structure Entry where
  bind : Text
  command : Option Text
  commands : List Text
  modes : List Text
  deriving DecidableEq, Repr

namespace Entry

def fieldNames : List Text :=
  ["bind".toList, "command".toList, "commands".toList, "modes".toList]

/-- Only the pattern has to be there. Without modes a bind is for all of them. -/
def ofNode? (n : Node) : Option Entry := do
  match ← n.fields? fieldNames with
  | [some bind, command, commands, modes] =>
    let bind ← bind.text?
    let command ← (command.map (Node.optional? Node.text?)).getD (some none)
    let commands ← (commands.map (Node.list? Node.text?)).getD (some [])
    let modes ← (modes.map (Node.list? Node.text?)).getD (some [globalMode])
    return ⟨bind, command, commands, modes⟩
  | _ => none

/-- The single command comes first. Blank commands are left out. -/
def definition (e : Entry) : Definition where
  modes := e.modes.flatMap splitModes
  source := e.bind
  commands := (e.command.toList ++ e.commands).filter (!Text.allBlank ·)

end Entry

/-- A map with the list `bindings` of records. -/
def ofNode? (n : Node) : Option (List Definition) := do
  match ← n.fields? ["bindings".toList] with
  | [some bindings] => return (← bindings.list? Entry.ofNode?).map Entry.definition
  | _ => return []

/-- The definitions of a keymap file. -/
def ofDocument (t : Text) : Except Refusal (List Definition) :=
  match (Yaml.parse? t).bind ofNode? with
  | some ds => .ok ds
  | none => .error .document

/-- The definitions of a file that may be missing. -/
def ofFile (content : Option Text) : Except Refusal (List Definition) :=
  match content with
  | some t => ofDocument t
  | none => .error .unreadable

end ModalKeys.Definition
