import ModalKeys.Session.Matching

namespace ModalKeys.Session

open Text

def keyPress (s : Session) (field key : Text) : Option Session :=
  let (press, keyboard) := s.keyboard.press field key s.isTyping
  let s := { s with keyboard }
  match press with
  | .update modifiers => s.update modifiers
  | .cleared => some (s.assign lineName [])

/-- Letting go of a named key submits the chord, if one is active, and clears it. -/
def keyRelease (s : Session) (field key : Text) : Option Session :=
  let (release, keyboard) := s.keyboard.release field key
  let s := { s with keyboard }
  match release with
  | .printable => some s
  | .named none => some s.clearChord
  | .named (some modifiers) =>
    (s.notify (.chordExec modifiers) s.input.chordText).map clearChord

def setLine (s : Session) (t : Text) : Option Session := s.edit (s.input.setLine t)

def inject (s : Session) (t : Text) : Option Session := s.edit (s.input.insert t)

def append (s : Session) (t : Text) : Option Session := s.edit (s.input.append t)

/-- Follows an edit, if it was one. -/
def edit? (s : Session) (i : Option Input) : Option Session :=
  match i with
  | some i => s.edit i
  | none => some s

def backspace (s : Session) : Option Session := s.edit? s.input.backspace?

def delete (s : Session) : Option Session := s.edit? s.input.delete?

def stripWord (s : Session) (seps : List Char) : Option Session :=
  s.edit? ((s.input.stripWord? seps).map (·.2))

def moveCursor (s : Session) (target : CursorTarget) : Option Session :=
  s.edit (s.input.moveCursor target)

/-- Records the line under the prompt at which it was typed, submits it and clears it. -/
def submit (s : Session) : Option Session :=
  let line := s.input.line
  let s := { s with history := s.history.record (s.vars.getD promptName []) line }
  (s.notify (.commandExec ∅) line).map clearLine

/-- Shows a line of the history, if there is one to show. -/
def showHistory (s : Session) (found : Option Text × History) : Option Session :=
  let s := { s with history := found.2 }
  match found.1 with
  | some line => s.setLine line
  | none => some s

def historyPrev (s : Session) : Option Session := s.showHistory (s.history.prev s.input.line)

def historyNext (s : Session) : Option Session := s.showHistory s.history.next

def historySearch (s : Session) (key : Text) : Option Session :=
  s.showHistory (s.history.search key s.input.line)

/-- Completes the keyword before the cursor, one level further each time. -/
def startCompletion (s : Session) : Option Session :=
  match s.keyword? with
  | none => some s.stopCompletion
  | some p =>
    let (step, completion) := s.completion.advance p
    let s := { s with completion }
    match step with
    | .nothing => some s
    | .finish t => (s.inject t).map stopCompletion
    | .extend t => (if t.isEmpty then some s else s.inject t).map refreshHints

/-- A session after an event, and the refusal if the event was refused. -/
structure Reply where
  session : Session
  refusal : Option Refusal

namespace Reply

def accepted (s : Session) : Reply := ⟨s, none⟩

def refused (s : Session) (r : Refusal) : Reply := ⟨s, some r⟩

end Reply

def addModmap (s : Session) (source target : Text) : Reply :=
  match s.keyboard.addModmap source target with
  | .ok keyboard => .accepted { s with keyboard }
  | .error e => .refused s (.syntactic e)

def addIgnore (s : Session) (rule : Text) : Reply :=
  match s.keyboard.addIgnore rule with
  | .ok keyboard => .accepted { s with keyboard }
  | .error e => .refused s (.syntactic e)

def withRegistry (s : Session) (r : Registry) : Session :=
  { s with keymap := { s.keymap with registry := r } }

/-- Applies the definition of a line, if it is one. -/
def define (s : Session) (d : Except SyntaxError Definition) : Reply :=
  match d with
  | .error e => .refused s (.syntactic e)
  | .ok d =>
    let change := d.apply s.keymap.registry
    ⟨s.withRegistry change.registry, change.refusal⟩

def modeBind (s : Session) (line : Text) : Reply := s.define (Definition.ofLine line)

def globalBind (s : Session) (line : Text) : Reply := s.define (Definition.ofGlobalLine line)

/-- Goes on with a variable that has a proper name. -/
def withVariable (s : Session) (name : Text) (next : Session) : Reply :=
  match checkVariableName name with
  | .ok () => .accepted next
  | .error e => .refused s (.syntactic e)

/-- Handles an event. Only configuration and reports of the host can be refused. Without a result
the prompts that an event brings about never end. -/
def handle (s : Session) : Event → Option Reply
  | .keyPress field key => (s.keyPress field key).map .accepted
  | .keyRelease field key => (s.keyRelease field key).map .accepted
  | .setLine t => (s.setLine t).map .accepted
  | .inject t => (s.inject t).map .accepted
  | .append t => (s.append t).map .accepted
  | .backspace => s.backspace.map .accepted
  | .delete => s.delete.map .accepted
  | .stripWord seps => (s.stripWord (seps.getD [' '])).map .accepted
  | .submit => s.submit.map .accepted
  | .clearLine => some (.accepted s.clearLine)
  | .moveCursor target => (s.moveCursor target).map .accepted
  | .historyPrev => s.historyPrev.map .accepted
  | .historyNext => s.historyNext.map .accepted
  | .historySearch key => (s.historySearch key).map .accepted
  | .startCompletion => s.startCompletion.map .accepted
  | .stopCompletion => some (.accepted s.stopCompletion)
  | .builtins names => some (.accepted { s with completion := s.completion.addBuiltins names })
  | .modmap source target => some (s.addModmap source target)
  | .ignoreKey rule => some (s.addIgnore rule)
  | .bind line => some (s.globalBind line)
  | .modeBind line => some (s.modeBind line)
  | .modeConfig mode name value =>
    some (s.withVariable name (s.configureMode mode name value))
  | .modeChanged mode => some (.accepted (s.modeChanged mode))
  | .variableSet name value => some (s.withVariable name (s.variableSet name value))

def handleLine (s : Session) (line : Text) : Option Reply :=
  match Event.parse line with
  | .error e => some (.refused s (.syntactic e))
  | .ok event => s.handle event

end ModalKeys.Session
