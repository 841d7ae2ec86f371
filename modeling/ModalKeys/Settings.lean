import ModalKeys.Refusal
import ModalKeys.Text.Assoc
import ModalKeys.Yaml.Document

namespace ModalKeys

/-- What a session starts with. -/
structure Settings where
  defaultMode : Text
  vars : Assoc Text
  modmaps : List (Text × Text)
  ignoreKeys : List Text
  modeConfig : Assoc (Assoc Text)
  deriving DecidableEq, Repr

namespace Settings

open Yaml

def initial : Settings where
  defaultMode := "command".toList
  vars := []
  modmaps := [("Control".toList, "Ctrl".toList), ("ISO_Left_Tab".toList, "Shift-Tab".toList)]
  ignoreKeys := ["<ISO_*>".toList, "<Shift>".toList, "<Multi_key>".toList]
  modeConfig := []

def fieldNames : List Text :=
  ["default_mode".toList, "variables".toList, "modmaps".toList, "ignore_keys".toList,
   "mode_config".toList]

/-- A field that is left out has its initial value. -/
def ofNode? (n : Node) : Option Settings := do
  match ← n.fields? fieldNames with
  | [mode, vars, modmaps, ignores, config] =>
    let defaultMode ← (mode.map Node.text?).getD (some initial.defaultMode)
    let vars ← (vars.map (Node.assoc? Node.text?)).getD (some initial.vars)
    let modmaps ← (modmaps.map (Node.list? (Node.pair? Node.text?))).getD (some initial.modmaps)
    let ignoreKeys ← (ignores.map (Node.list? Node.text?)).getD (some initial.ignoreKeys)
    let modeConfig ←
      (config.map (Node.assoc? (Node.assoc? Node.text?))).getD (some initial.modeConfig)
    return ⟨defaultMode, vars, modmaps, ignoreKeys, modeConfig⟩
  | _ => none

def ofDocument (t : Text) : Except Refusal Settings :=
  match (Yaml.parse? t).bind ofNode? with
  | some s => .ok s
  | none => .error .document

/-- The settings of a file that may be missing. -/
def ofFile (content : Option Text) : Except Refusal Settings :=
  match content with
  | some t => ofDocument t
  | none => .error .unreadable

/-- The initial settings stand in for a file that is missing or cannot be read. -/
def load (content : Option Text) : Settings :=
  match ofFile content with
  | .ok s => s
  | .error _ => initial

end Settings

end ModalKeys
