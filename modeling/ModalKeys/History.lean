import ModalKeys.Text.Assoc

namespace ModalKeys

/-- The lines submitted at each prompt, with a cursor to browse them. `cursor` is the number of
lines up to and including the one shown, so that zero is just past the oldest. `draft` is the text
that was typed when browsing began, and `key` the searched text. -/
structure History where
  entries : Assoc (List Text)
  prompt : Text
  cursor : Option Nat
  draft : Option Text
  key : Option Text

namespace History

def empty : History := ⟨[], [], none, none, none⟩

/-- The lines recorded at a prompt, the oldest first. -/
def linesAt (h : History) (prompt : Text) : List Text := (h.entries.get? prompt).getD []

def lines (h : History) : List Text := h.linesAt h.prompt

def isBrowsing (h : History) : Bool := h.cursor.isSome

def stop (h : History) : History := { h with cursor := none, draft := none, key := none }

def setPrompt (h : History) (prompt : Text) : History := { h with prompt }.stop

/-- Records a line, unless it is empty, and stops browsing. -/
def record (h : History) (prompt line : Text) : History :=
  if line.isEmpty then h.stop
  else { h with entries := h.entries.put prompt (h.linesAt prompt ++ [line]) }.stop

def wanted (key : Option Text) (line : Text) : Bool := key.all (Text.holds · line)

/-- The newest wanted one of the first `n` lines, with the number of lines up to it. -/
def newest? (key : Option Text) (lines : List Text) : Nat → Option (Nat × Text)
  | 0 => none
  | n + 1 =>
    match lines[n]? with
    | some line => if wanted key line then some (n + 1, line) else newest? key lines n
    | none => newest? key lines n

/-- The oldest wanted line of those that come after `n` lines, likewise. -/
def oldest? (key : Option Text) (n : Nat) : List Text → Option (Nat × Text)
  | [] => none
  | line :: lines => if wanted key line then some (n + 1, line) else oldest? key (n + 1) lines

/-- Keeps the typed text when browsing begins. -/
def keepDraft (h : History) (current : Text) : History :=
  if h.cursor.isNone && !current.isEmpty then { h with draft := some current } else h

def stepBack (h : History) : Option Text × History :=
  let above := match h.cursor with
    | none => h.lines.length
    | some n => n - 1
  match newest? h.key h.lines above with
  | some (n, line) => (some line, { h with cursor := some n })
  | none => (none, { h with cursor := some 0 })

/-- One line back; nothing once there is none older. -/
def prev (h : History) (current : Text) : Option Text × History := (h.keepDraft current).stepBack

/-- One line on, or the draft after the newest line; nothing when not browsing. -/
def next (h : History) : Option Text × History :=
  match h.cursor with
  | none => (none, h)
  | some n =>
    match oldest? h.key n (h.lines.drop n) with
    | some (n, line) => (some line, { h with cursor := some n })
    | none => (some (h.draft.getD []), { h with cursor := none, draft := none, key := none })

/-- Browses from the newest line that holds a text; the empty text is in all of them. -/
def search (h : History) (key current : Text) : Option Text × History :=
  let h := h.keepDraft current
  { h with key := if key.isEmpty then none else some key, cursor := none }.stepBack

end History

end ModalKeys
