import ModalKeys.Text.Assoc

namespace ModalKeys.Yaml

/-- A value of a document. `plain` tells a scalar without quotes, the only kind that can stand for
no value. -/
inductive Node
  | scalar (plain : Bool) (text : Text)
  | seq (items : List Node)
  | map (pairs : List (Node × Node))

namespace Node

def empty : Node := scalar true []

def isEmpty : Node → Bool
  | scalar true [] => true
  | _ => false

/-- Any scalar is a text, as it is written. -/
def text? : Node → Option Text
  | scalar _ t => some t
  | _ => none

def nullWords : List Text := ["~".toList, "null".toList, "Null".toList, "NULL".toList]

/-- A plain scalar that is empty or a word for null is no value. -/
def isNull : Node → Bool
  | scalar true t => t.isEmpty || nullWords.contains t
  | _ => false

/-- Reads what may be left out. -/
def optional? {α : Type} (read : Node → Option α) (n : Node) : Option (Option α) :=
  if n.isNull then some none else (read n).map some

/-- Reads a sequence. The empty scalar is an empty one. -/
def list? {α : Type} (read : Node → Option α) : Node → Option (List α)
  | seq items => items.mapM read
  | scalar true [] => some []
  | _ => none

/-- Reads a map from texts. The last of equal keys gives the value, the first one the place. -/
def assoc? {α : Type} (read : Node → Option α) : Node → Option (Assoc α)
  | map pairs => pairs.foldlM (fun m (key, value) => do
      return m.put (← key.text?) (← read value)) []
  | scalar true [] => some []
  | _ => none

def pair? {α : Type} (read : Node → Option α) : Node → Option (α × α)
  | seq [a, b] => do return (← read a, ← read b)
  | _ => none

/-- The values of the named fields of a record. A field may not come twice; keys that name no field
are passed over. -/
def fields? (names : List Text) : Node → Option (List (Option Node))
  | map pairs => do
    let keys ← pairs.mapM fun (key, _) => key.text?
    if names.all fun name => keys.count name ≤ 1 then
      return names.map fun name => (pairs.find? fun (key, _) => key.text? = some name).map (·.2)
    else none
  | scalar true [] => some (names.map fun _ => none)
  | _ => none

end Node

end ModalKeys.Yaml
