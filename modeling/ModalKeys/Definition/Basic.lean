import ModalKeys.Registry

namespace ModalKeys

/-- A pattern with its commands for one or more modes. Without commands a definition removes its
pattern from every mode that it names. -/
structure Definition where
  modes : List Text
  source : Text
  commands : List Text
  deriving DecidableEq, Repr

namespace Definition

open Text

/-- The names of a list parted by commas. -/
def splitModes (modes : Text) : List Text :=
  ((modes.splitOn ',').map trim).filter (!·.isEmpty)

def make (modes source : Text) (commands : List Text) : Definition :=
  ⟨splitModes modes, source, commands⟩

/-- The registry after a change that may be refused, and the refusal. -/
structure Change where
  registry : Registry
  refusal : Option Refusal

/-- The row that a definition puts into the tables. -/
def slot (d : Definition) : Except PatternError Slot :=
  if d.commands.isEmpty then .ok (.removed d.source)
  else
    match Bind.ofCommands d.source d.commands with
    | .ok b => .ok (.bound b)
    | .error e => .error e

/-- Puts a row into one table after the other, up to a name that is no mode's. -/
def putAll (r : Registry) (slot : Slot) : List Text → Change
  | [] => ⟨r, none⟩
  | mode :: modes =>
    match r.putChecked mode slot with
    | .ok r => putAll r slot modes
    | .error e => ⟨r, some (.modeName e)⟩

/-- Checks all names, compiles once, and puts the bind into the table of every mode. -/
def apply (d : Definition) (r : Registry) : Change :=
  match d.modes.find? (!isModeName ·) with
  | some mode => ⟨r, some (.modeName ⟨mode⟩)⟩
  | none =>
    match d.slot with
    | .error e => ⟨r, some (.pattern e)⟩
    | .ok slot => putAll r slot d.modes

/-- Applies definitions in order, past those that are refused; counts the others. -/
def install (r : Registry) : List Definition → Registry × Nat
  | [] => (r, 0)
  | d :: ds =>
    let change := d.apply r
    let (registry, count) := install change.registry ds
    (registry, if change.refusal.isNone then count + 1 else count)

end Definition

end ModalKeys
