import ModalKeys.Session.Basic

namespace ModalKeys.Session

open Text

/-- The markup of the chord. -/
def chordMarkup (t : Text) : Text := "<span> ".toList ++ verbatim t ++ " </span>".toList

/-- What a chord is shown as: its modifiers and its text. -/
def chordShown (modifiers : Modifiers) (i : Input) : Text := modifiers.text ++ i.chordText

/-- Shows the chord, unless it changed while `old` was matched. -/
def showChord (s : Session) (modifiers : Modifiers) (old : Input) : Session :=
  if s.vars.isEnabled chordsShownName then
    let shown := chordShown modifiers s.input
    if shown.isEmpty || !s.input.chording then s.assign chordName []
    else if shown = chordShown modifiers old then s.assign chordName (chordMarkup shown)
    else s
  else s

/-- Shows the line, unless it changed while `old` was matched. -/
def showLine (s : Session) (old : Input) : Session :=
  if s.isTyping then
    if s.input.line.isEmpty then s.assign lineName []
    else if s.input.line = old.line then s.assign lineName s.input.markup
    else s
  else s

/-- Brings the hints and the display up to date after `old` has been matched. -/
def refresh (s : Session) (modifiers : Modifiers) (old : Input) : Session :=
  let s := if old.chording then s else s.refreshHints
  (s.showChord modifiers old).showLine old

/-- Clears the line for the segment after a prompt and shows the prompt. A preset is sent or filled
in, and the line that is filled in goes to `changed`. -/
def showPrompt (changed : Session → Option Session) (s : Session) (p : Prompt) : Option Session :=
  let s := s.clearLine
  let s := if p.label.isEmpty then s else s.assign promptName p.label
  if p.preset.isEmpty then some s
  else if p.isCommand then some (s.send p.preset)
  else changed (s.withInput (s.input.setLine p.preset))

def react (changed : Session → Option Session) (s : Session) : Reaction → Option Session
  | .run b args => some (s.run b args)
  | .clearActive => some s.clearActive
  | .enterStack => some (s.setMode stackMode)
  | .prompt p => s.showPrompt changed p
  | .leaveStack restore => some ((s.assign promptName []).setMode (restore.getD []))

/-- Matches a notification and does what comes of it. A line that a prompt fills in is matched in
turn, before the match is done with. -/
def dispatch (changed : Session → Option Session) (s : Session) (note : Notification)
    (text : Text) : Option Session :=
  let (reactions, keymap) := s.keymap.respond s.mode note text
  reactions.foldlM (react changed) { s with keymap }

/-- Matches the input as it is now, the chord if one is active and else the line, and brings the
display up to date. `limit` bounds how many prompts may fill in the line within one another; beyond
it there is no result. -/
def updateWithin : Nat → Modifiers → Session → Option Session
  | 0, _, _ => none
  | limit + 1, modifiers, s =>
    let old := s.input
    let matched :=
      if old.chording then
        s.dispatch (updateWithin limit ∅) (.chordUpdate modifiers) old.chordText
      else s.dispatch (updateWithin limit ∅) (.commandUpdate modifiers) old.line
    matched.map (·.refresh modifiers old)

/-- All binds that a notification may come to, of every mode. -/
def allBinds (s : Session) : List Bind :=
  s.keymap.stack.binds ++ s.keymap.registry.global.binds ++
    s.keymap.registry.named.flatMap fun (_, t) => t.binds

/-- More than the number of segments of all binds together. Prompts of command binds fill in the
line one segment deeper each time, so they stay below it; a handler that leaves the stack can begin
again, for ever if it likes, and gets the square. -/
def limit (s : Session) : Nat :=
  let bound := (s.allBinds.flatMap (·.pattern.segments)).length + 2
  bound * bound

/-- Follows a change of the input. -/
def update (s : Session) (modifiers : Modifiers) : Option Session :=
  updateWithin s.limit modifiers s

/-- Matches a notification that is no change of the input. -/
def notify (s : Session) (note : Notification) (text : Text) : Option Session :=
  s.dispatch (updateWithin s.limit ∅) note text

/-- Puts another input in place and follows the change. -/
def edit (s : Session) (i : Input) : Option Session := (s.withInput i).update ∅

end ModalKeys.Session
