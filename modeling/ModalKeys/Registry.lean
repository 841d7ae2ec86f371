import ModalKeys.Bind
import ModalKeys.Text.Assoc

namespace ModalKeys

/-- A row of a mode's table: a bind, or a pattern that is off in this mode. -/
inductive Slot
  | bound (bind : Bind)
  | removed (source : Text)

namespace Slot

def source : Slot → Text
  | bound b => b.source
  | removed source => source

def bind? : Slot → Option Bind
  | bound b => some b
  | removed _ => none

end Slot

/-- Rows in the order in which their patterns first came up. -/
abbrev Table := List Slot

namespace Table

def put (t : Table) (slot : Slot) : Table :=
  match t with
  | [] => [slot]
  | s :: t => if s.source = slot.source then slot :: t else s :: put t slot

def find? (t : Table) (source : Text) : Option Slot := List.find? (·.source = source) t

/-- One table over another: a row replaces the row of the same pattern in its place. -/
def overlay (below above : Table) : Table := above.foldl put below

def binds (t : Table) : List Bind := t.filterMap Slot.bind?

end Table

def globalMode : Text := "global".toList

/-- The table `global` applies in every mode, and the table of a named mode lies over it.
`globalChords` holds the single-chord binds of the table `global`, which fire at every depth. -/
structure Registry where
  global : Table
  named : Assoc Table
  globalChords : List Bind

namespace Registry

def empty : Registry := ⟨[], [], []⟩

def table? (r : Registry) (mode : Text) : Option Table :=
  if mode = globalMode then some r.global else r.named.get? mode

/-- Puts a row into the table of a mode, which is made for it if need be. -/
def put (r : Registry) (mode : Text) (slot : Slot) : Registry :=
  if mode = globalMode then
    let global := r.global.put slot
    { r with global, globalChords := global.binds.filter Bind.isGlobal }
  else { r with named := r.named.put mode (((r.named.get? mode).getD []).put slot) }

/-- A name with a dash in front puts a removal into the table of the mode after it. -/
def putChecked (r : Registry) (mode : Text) (slot : Slot) : Except ModeNameError Registry :=
  match checkMode mode with
  | .error e => .error e
  | .ok () =>
    match mode with
    | '-' :: name => .ok (r.put name (.removed slot.source))
    | _ => .ok (r.put mode slot)

/-- Puts a bind into the table of a mode, under the pattern that it is compiled from: the pattern
that is added and that of the bind are the same. -/
def add (r : Registry) (mode : Text) (b : Bind) : Except ModeNameError Registry :=
  r.putChecked mode (.bound b)

def delete (r : Registry) (mode source : Text) : Except ModeNameError Registry :=
  r.putChecked mode (.removed source)

/-- The bind of a pattern in the mode's own table. -/
def find? (r : Registry) (mode source : Text) : Option Bind :=
  (r.table? mode).bind fun t => (t.find? source).bind Slot.bind?

/-- The binds of a mode in the order in which they are tried. -/
def bindsIn (r : Registry) (mode : Text) : List Bind :=
  match r.named.get? mode with
  | some t => if mode = globalMode then r.global.binds else (r.global.overlay t).binds
  | none => r.global.binds

def modes (r : Registry) : List Text := globalMode :: r.named.map (·.1)

/-- The number of binds in all tables. -/
def size (r : Registry) : Nat :=
  r.global.binds.length + (r.named.flatMap fun (_, t) => t.binds).length

end Registry

end ModalKeys
