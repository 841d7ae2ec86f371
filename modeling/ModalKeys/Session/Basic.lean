import ModalKeys.Completion
import ModalKeys.Definition.Line
import ModalKeys.Event
import ModalKeys.History
import ModalKeys.Keymap
import ModalKeys.Keyboard
import ModalKeys.Settings
import ModalKeys.Variables

namespace ModalKeys

/-- The state that belongs to one host. `outbox` holds the effects that the host has not been given
yet, in order. `ran` logs the binds that have been run, in order. -/
structure Session where
  keyboard : Keyboard
  keymap : Keymap
  history : History
  completion : Completion
  vars : Variables
  defaultMode : Text
  modeConfig : Assoc (Assoc Text)
  outbox : List Effect
  ran : List Run

namespace Session

def modeName : Text := "mode".toList

def lineName : Text := "keycmd".toList

def chordName : Text := "modcmd".toList

def promptName : Text := "keycmd_prompt".toList

def hintsName : Text := "completion_list".toList

def defaultModeName : Text := "default_mode".toList

/-- Whether typed keys go to the line and the line is shown. -/
def typingName : Text := "keycmd_events".toList

/-- Whether the chord is shown. -/
def chordsShownName : Text := "modcmd_updates".toList

def input (s : Session) : Input := s.keyboard.input

def mode (s : Session) : Text := s.vars.getD modeName []

def isTyping (s : Session) : Bool := s.vars.isEnabled typingName

/-- The same session with another input. -/
def withInput (s : Session) (i : Input) : Session :=
  { s with keyboard := { s.keyboard with input := i } }

def emit (s : Session) (e : Effect) : Session := { s with outbox := s.outbox ++ [e] }

def send (s : Session) (command : Text) : Session := s.emit (.send command)

/-- The effects queued so far, which leave the session. -/
def drain (s : Session) : List Effect × Session := (s.outbox, { s with outbox := [] })

/-- A variable that has come up can be completed, and the history follows the prompt. -/
def noteVariable (s : Session) (name value : Text) : Session :=
  let s := { s with completion := s.completion.addVariable name }
  if name = promptName then { s with history := s.history.setPrompt value } else s

/-- Writes a variable other than the mode, unless it has the value already. -/
def assign (s : Session) (name value : Text) : Session :=
  if s.vars.changes name value then
    { s with vars := s.vars.set name value }.emit (.set name value)
      |>.noteVariable name value
  else s

/-- Writes what is configured for a mode. -/
def assignAll (s : Session) (config : Assoc Text) : Session :=
  config.foldl (fun s (name, value) => if name = modeName then s else s.assign name value) s

/-- Follows a change of the mode. Any mode but the stack mode ends the bind in progress. -/
def enteredMode (s : Session) (mode : Text) : Session :=
  let s := s.assignAll ((s.modeConfig.get? mode).getD [])
  if mode = stackMode then s else { s with keymap := s.keymap.reset }.assign promptName []

/-- Switches the mode. The empty name stands for the default mode. -/
def setMode (s : Session) (mode : Text) : Session :=
  let mode := if mode.isEmpty then s.defaultMode else mode
  if s.mode = mode then s
  else
    { s with vars := s.vars.set modeName mode }.emit (.set modeName mode)
      |>.enteredMode mode

def write (s : Session) (name value : Text) : Session :=
  if name = modeName then s.setMode value else s.assign name value

/-- Follows a change of the mode that the host has made. -/
def modeChanged (s : Session) (mode : Text) : Session :=
  if mode.isEmpty || s.mode = mode then s
  else { s with vars := s.vars.set modeName mode }.enteredMode mode

/-- Follows a variable that the host has set. -/
def variableSet (s : Session) (name value : Text) : Session :=
  let set : Session := { s with vars := s.vars.set name value }
  if name = modeName then
    if value.isEmpty then set.setMode [] else s.modeChanged value
  else if name = defaultModeName then
    if value.isEmpty then set
    else
      let set := { set with defaultMode := value }
      if set.mode.isEmpty then set.setMode [] else set
  else set.noteVariable name value

/-- Sets a variable whenever a mode becomes active, and at once if it is. -/
def configureMode (s : Session) (mode name value : Text) : Session :=
  let config := ((s.modeConfig.get? mode).getD []).put name value
  let s := { s with modeConfig := s.modeConfig.put mode config }
  if s.mode = mode && name ≠ modeName then s.assign name value else s

/-- Does what a handler asks for. -/
def perform (s : Session) : Effect → Session
  | .send command => s.send command
  | .set name value => s.write name value

def performAll (s : Session) (es : List Effect) : Session := es.foldl perform s

/-- Runs a bind. Without keyword arguments of its own a run is never refused. -/
def run (s : Session) (b : Bind) (args : List Text) : Session :=
  let s := { s with ran := s.ran ++ [⟨b, args⟩] }
  match b.effects args .empty with
  | .ok es => s.performAll es
  | .error _ => s

def stopCompletion (s : Session) : Session :=
  { s with completion := s.completion.stop }.assign hintsName []

def clearLine (s : Session) : Session :=
  { s with keyboard := s.keyboard.clearLine }.assign lineName [] |>.stopCompletion

def clearChord (s : Session) : Session :=
  { s with keyboard := s.keyboard.clearChord }.assign chordName []

def clearActive (s : Session) : Session :=
  if s.input.chording then s.clearChord else s.clearLine

/-- The keyword before the cursor. -/
def keyword? (s : Session) : Option Partial := Partial.at? s.input.line s.input.cursor

/-- Lists the hints for the keyword before the cursor; without a keyword completion ends. -/
def refreshHints (s : Session) : Session :=
  match s.keyword? with
  | none => s.stopCompletion
  | some p =>
    if s.completion.level.lists then s.assign hintsName (s.completion.list p.word) else s

/-- Configures the modes one after the other. -/
def configureAll (s : Session) (config : Assoc (Assoc Text)) : Session :=
  config.foldl (fun s (mode, vars) =>
    vars.foldl (fun s (name, value) => s.configureMode mode name value) s) s

/-- A session with a registry and settings, in its default mode. Key settings that are not taken
are passed over. -/
def start (settings : Settings) (registry : Registry) : Session :=
  let keyboard := settings.modmaps.foldl (fun t (source, target) =>
    match t.addModmap source target with
    | .ok t => t
    | .error _ => t) .empty
  let keyboard := settings.ignoreKeys.foldl (fun t rule =>
    match t.addIgnore rule with
    | .ok t => t
    | .error _ => t) keyboard
  let s : Session := ⟨keyboard, .ofRegistry registry, .empty, .empty, .empty, settings.defaultMode,
    [], [], []⟩
  ((s.configureAll settings.modeConfig).assignAll settings.vars).setMode []

end Session

end ModalKeys
