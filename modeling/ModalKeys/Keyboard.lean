import ModalKeys.Input
import ModalKeys.Text.Assoc

namespace ModalKeys

/-- `ignores` holds each rule's token with its pattern. -/
structure Keyboard where
  input : Input
  modmaps : Assoc Text
  ignores : Assoc Wildcard

/-- The input changed under these modifiers, or the line was cleared because typing is off. -/
inductive Press
  | update (modifiers : Modifiers)
  | cleared
  deriving DecidableEq

/-- A named key ends the chord, after its text has been submitted if one was active. -/
inductive Release
  | printable
  | named (exec : Option Modifiers)
  deriving DecidableEq

/-- A key name without a side `_L` or `_R` at its end. -/
def sideless? (key : Text) : Option Text :=
  match key.reverse with
  | 'L' :: '_' :: r => some r.reverse
  | 'R' :: '_' :: r => some r.reverse
  | _ => none

theorem sideless?_length {key base : Text} (h : sideless? key = some base) :
    base.length < key.length := by
  unfold sideless? at h
  split at h
  · next r hr =>
    cases h
    have := congrArg List.length hr
    simp only [List.length_reverse, List.length_cons] at this ⊢
    omega
  · next r hr =>
    cases h
    have := congrArg List.length hr
    simp only [List.length_reverse, List.length_cons] at this ⊢
    omega
  · cases h

/-- The mapped name of a key, or of the key without its side. -/
def mapKey (modmaps : Assoc Text) (key : Text) : Text :=
  match modmaps.get? key with
  | some name => name
  | none =>
    match h : sideless? key with
    | some base =>
      have := sideless?_length h
      mapKey modmaps base
    | none => key
termination_by key.length

namespace Keyboard

open Text

def empty : Keyboard := ⟨.empty, [], []⟩

def mapKey (k : Keyboard) (key : Text) : Text := ModalKeys.mapKey k.modmaps key

/-- Maps one key name to another; brackets around either do not count. -/
def addModmap (k : Keyboard) (source target : Text) : Except SyntaxError Keyboard :=
  let source := trimBrackets source
  let target := trimBrackets target
  if source.isEmpty || target.isEmpty then .error (.emptyModmap source target)
  else .ok { k with modmaps := k.modmaps.put source target }

/-- Ignores the modifiers whose token fits a rule such as `<ISO_*>`. -/
def addIgnore (k : Keyboard) (rule : Text) : Except SyntaxError Keyboard :=
  let name := trimClass (fun c => isBracket c || c == ' ') rule
  if name.isEmpty then .error (.emptyIgnore rule)
  else
    match Wildcard.parse (modifierToken name) with
    | .ok w => .ok { k with ignores := k.ignores.put (modifierToken name) w }
    | .error e => .error (.badIgnore rule e)

def isIgnored (k : Keyboard) (token : Text) : Bool := k.ignores.any fun (_, w) => w.fits token

/-- The modifiers of an event: those in its field, parted by bars, and the keys that are held. -/
def modifiers (k : Keyboard) (field : Text) : Modifiers :=
  let names := (field.splitOn '|').filter (!·.isEmpty)
  (Modifiers.ofNames (names.map k.mapKey)).union k.input.held

def isSpace (key : Text) : Bool := key.map Char.toLower = "space".toList

/-- Characters are typed; the other keys are modifiers while they are held. While a modifier that is
not ignored is active, characters go to the chord. With `typing` off a typed character clears the
line instead. -/
def press (k : Keyboard) (field key : Text) (typing : Bool) : Press × Keyboard :=
  let active := k.modifiers field
  let key := k.mapKey key
  let chording := active.toList.any (!k.isIgnored ·)
  let input := { k.input with chording }
  if !chording && isSpace key then (.update active, { k with input := input.insert [' '] })
  else if !chording && key.length = 1 then
    if typing then (.update active, { k with input := input.insert key })
    else (.cleared, { k with input := input.clearLine })
  else if key.length = 1 then (.update active, { k with input := input.appendChord key })
  else
    let token := modifierToken key
    if k.isIgnored token then (.update active, { k with input })
    else
      (.update (active.insert token),
       { k with input := { input with held := input.held.insert token, chording := true } })

def release (k : Keyboard) (field key : Text) : Release × Keyboard :=
  let active := k.modifiers field
  let key := k.mapKey key
  if key.length ≤ 1 then (.printable, k)
  else
    let input := { k.input with held := k.input.held.erase (modifierToken key) }
    (.named (if k.input.chording then some active else none), { k with input })

def clearLine (k : Keyboard) : Keyboard := { k with input := k.input.clearLine }

def clearChord (k : Keyboard) : Keyboard := { k with input := k.input.clearChord }

/-- Clears the chord while one is active, the line otherwise; gives the variable that shows it. -/
def clearActive (k : Keyboard) : Text × Keyboard :=
  if k.input.chording then ("modcmd".toList, k.clearChord)
  else ("keycmd".toList, k.clearLine)

end Keyboard

end ModalKeys
