import ModalKeys.Text.SortedSet

namespace ModalKeys

def isBracket (c : Char) : Bool := c == '<' || c == '>'

def trimBrackets (t : Text) : Text := Text.trimClass isBracket t

/-- Writes a key name between one pair of brackets, whatever brackets it had. -/
def modifierToken (name : Text) : Text := '<' :: trimBrackets name ++ ['>']

/-- The characters of a modifier name after its first, which is a capital. -/
def isModifierChar (c : Char) : Bool := c.isAlphanum || c == '-' || c == '_'

/-- Splits off a leading `<Name>`: a capital, then letters, digits, `-` or `_`. -/
def leadingModifier? : Text → Option (Text × Text)
  | '<' :: c :: t =>
    if c.isUpper then
      match t.dropWhile isModifierChar with
      | '>' :: rest => some ('<' :: c :: t.takeWhile isModifierChar ++ ['>'], rest)
      | _ => none
    else none
  | _ => none

theorem leadingModifier?_append {t token rest : Text}
    (h : leadingModifier? t = some (token, rest)) : t = token ++ rest := by
  unfold leadingModifier? at h
  split at h
  · next c u =>
    split at h
    · split at h
      · next r hr =>
        cases h
        have hu := @List.takeWhile_append_dropWhile _ isModifierChar u
        rw [hr] at hu
        simpa using hu.symm
      · simp at h
    · simp at h
  · simp at h

theorem leadingModifier?_length {t token rest : Text}
    (h : leadingModifier? t = some (token, rest)) : rest.length < t.length := by
  have hne : 0 < token.length := by
    unfold leadingModifier? at h
    split at h
    · split at h
      · split at h
        · cases h; simp
        · simp at h
      · simp at h
    · simp at h
  rw [leadingModifier?_append h, List.length_append]
  omega

/-- The tokens at the start of a text, and the text after them. -/
def leadingModifiers (t : Text) : List Text × Text :=
  match h : leadingModifier? t with
  | some (token, rest) =>
    have := leadingModifier?_length h
    (token :: (leadingModifiers rest).1, (leadingModifiers rest).2)
  | none => ([], t)
termination_by t.length

/-- The modifier tokens `<Name>` that are active for a key event. -/
abbrev Modifiers := TextSet

namespace Modifiers

/-- The set of the tokens of bare or bracketed names. -/
def ofNames (names : List Text) : Modifiers := TextSet.ofList (names.map modifierToken)

/-- The tokens one after the other, in their order. -/
def text (m : Modifiers) : Text := m.toList.flatten

end Modifiers

/-- What a key event tells the matcher: `chord` for the text of a chord, not of the command line,
and `exec` for its end, not for a change of it. -/
structure Notification where
  modifiers : Modifiers
  chord : Bool
  exec : Bool
  deriving DecidableEq

namespace Notification

def commandUpdate (m : Modifiers) : Notification := ⟨m, false, false⟩

def commandExec (m : Modifiers) : Notification := ⟨m, false, true⟩

def chordUpdate (m : Modifiers) : Notification := ⟨m, true, false⟩

def chordExec (m : Modifiers) : Notification := ⟨m, true, true⟩

/-- Holds when the command line is submitted. -/
def submits (n : Notification) : Bool := n.exec && !n.chord

def name (n : Notification) : String :=
  match n.chord, n.exec with
  | false, false => "KEYCMD_UPDATE"
  | false, true => "KEYCMD_EXEC"
  | true, false => "MODCMD_UPDATE"
  | true, true => "MODCMD_EXEC"

end Notification

end ModalKeys
