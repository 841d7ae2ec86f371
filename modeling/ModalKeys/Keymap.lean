import ModalKeys.Registry

namespace ModalKeys

/-- The mode that is active while a bind waits for its next segment. -/
def stackMode : Text := "stack".toList

/-- What a matched notification asks of the session, in order. -/
inductive Reaction
  | run (bind : Bind) (args : List Text)
  | clearActive
  | enterStack
  | prompt (p : Prompt)
  | leaveStack (restore : Option Text)

/-- `depth` segments have matched; `args` is what they captured, and `binds` are those that can
still go on. `pending` is shown at the end of the scan, and `lastMode` is restored at the end. -/
structure Stack where
  depth : Nat
  args : List Text
  binds : List Bind
  pending : Option Prompt
  lastMode : Option Text

def Stack.empty : Stack := ⟨0, [], [], none, none⟩

/-- What a bind makes of a notification at a depth. A dead bind can no longer fit, whatever is
typed after the text. -/
inductive Answer
  | silent
  | dead
  | fits (segment : Segment) (captured : List Text)
  deriving DecidableEq

namespace Segment

def hears (s : Segment) (note : Notification) : Bool :=
  s.isChord == note.chord && s.trigger.onExec == note.exec &&
    (!s.isChord || s.modifiers == note.modifiers)

def answer (s : Segment) (note : Notification) (text : Text) : Answer :=
  if s.hears note then
    match s.capture? text with
    | some captured => .fits s captured
    | none => if !s.isChord && (note.exec || !text.isPrefixOf s.literal) then .dead else .silent
  else .silent

end Segment

def Bind.answer (b : Bind) (depth : Nat) (note : Notification) (text : Text) : Answer :=
  match b.segment? depth with
  | some s => s.answer note text
  | none => .silent

/-- A bind that fits, with its segment and its capture. -/
structure Fit where
  bind : Bind
  segment : Segment
  captured : List Text

/-- Runs a bind of one segment. The line that it matched is kept only if it was captured. -/
def Fit.runAlone (fit : Fit) : List Reaction :=
  .run fit.bind fit.captured ::
    (if fit.segment.trigger.captures then [] else [.clearActive])

namespace Stack

/-- The stack without what it holds, and the way out of it. -/
def unwind (k : Stack) : List Reaction × Stack := ([.leaveStack k.lastMode], .empty)

/-- The stack without a bind. A pattern occurs once on it. -/
def evict (k : Stack) (b : Bind) : Stack :=
  { k with binds := k.binds.filter (·.source ≠ b.source) }

/-- The stack with a further bind, unless its pattern is there already. -/
def join (k : Stack) (b : Bind) : Stack :=
  if k.binds.any (·.source = b.source) then k else { k with binds := k.binds ++ [b] }

/-- A live last segment without a literal fires as soon as it is next. -/
def liveNext (b : Bind) (depth : Nat) : Bool :=
  match b.pattern.segments[depth]? with
  | some s => s.trigger == .live && s.literal.isEmpty && !s.more
  | none => false

/-- Moves on by one segment of a bind. The stack mode is entered from any other mode. -/
def push (k : Stack) (mode : Text) (fit : Fit) : List Reaction × Stack :=
  let depth := k.depth + 1
  let args := k.args ++ fit.captured
  let entered := mode ≠ stackMode
  let lastMode :=
    if entered then (if mode.isEmpty then none else some mode) else k.lastMode
  ((if entered then [.enterStack] else []) ++
    (if liveNext fit.bind depth then [.run fit.bind (args ++ [[]])] else []),
   ⟨depth, args, [fit.bind], fit.bind.prompt? depth, lastMode⟩)

/-- Runs a bind whose last segment fits. A live one stays on the stack. -/
def complete (k : Stack) (fit : Fit) : List Reaction × Stack :=
  let run := Reaction.run fit.bind (k.args ++ fit.captured)
  if fit.segment.trigger = .live then ([run], k) else (run :: k.unwind.1, k.unwind.2)

/-- Hands out the pending prompt. -/
def settle (k : Stack) : List Reaction × Stack :=
  match k.pending with
  | some p => ([.prompt p], { k with pending := none })
  | none => ([], k)

/-- Ends the bind in progress, if the scan has not moved it on, after a plain submission or once no
bind is left. -/
def giveUp (k : Stack) (depth : Nat) (note : Notification) : List Reaction × Stack :=
  if depth ≠ 0 && k.depth = depth && (note.submits || k.binds.isEmpty) then k.unwind
  else ([], k)

end Stack

/-- A scan over the candidates: the stack and the reactions so far, and whether a bind has moved
the stack on. -/
structure Scan where
  stack : Stack
  reactions : List Reaction
  moved : Bool

namespace Scan

def start (k : Stack) : Scan := ⟨k, [], false⟩

/-- Ends the scan with what is left to do. -/
def finish (c : Scan) (last : List Reaction × Stack) : List Reaction × Stack :=
  (c.reactions ++ last.1, last.2)

/-- A dead bind leaves the stack, as long as no other has moved it on. -/
def miss (c : Scan) (depth : Nat) (b : Bind) : Scan :=
  if depth ≠ 0 && !c.moved then { c with stack := c.stack.evict b } else c

/-- The first bind that fits and goes on moves the stack on, and those after it join it. -/
def advance (c : Scan) (mode : Text) (fit : Fit) : Scan :=
  if c.moved then { c with stack := c.stack.join fit.bind }
  else
    let (reactions, stack) := c.stack.push mode fit
    ⟨stack, c.reactions ++ reactions, true⟩

/-- No candidate has ended the scan: the prompt of the bind that moved on is shown, or the bind in
progress may end. -/
def close (c : Scan) (depth : Nat) (note : Notification) : List Reaction × Stack :=
  let (shown, stack) := c.stack.settle
  let (left, stack) := stack.giveUp depth note
  c.finish (shown ++ left, stack)

/-- Tries the candidates in order, at the depth that the stack had when the scan began. A bind
whose last segment fits ends the scan; once a bind has moved the stack on, only binds that go on
count. -/
def through (depth : Nat) (mode : Text) (note : Notification) (text : Text) (c : Scan) :
    List Bind → List Reaction × Stack
  | [] => c.close depth note
  | b :: bs =>
    match b.answer depth note text with
    | .silent => through depth mode note text c bs
    | .dead => through depth mode note text (c.miss depth b) bs
    | .fits s captured =>
      if c.moved && !s.more then through depth mode note text c bs
      else if b.isGlobal || (depth = 0 && !s.more) then
        c.finish (Fit.runAlone ⟨b, s, captured⟩, c.stack)
      else if s.more then through depth mode note text (c.advance mode ⟨b, s, captured⟩) bs
      else c.finish (c.stack.complete ⟨b, s, captured⟩)

end Scan

/-- The binds, and the stack of those that are matched one segment at a time and are still in
question. -/
structure Keymap where
  registry : Registry
  stack : Stack

namespace Keymap

def ofRegistry (r : Registry) : Keymap := ⟨r, .empty⟩

def empty : Keymap := ofRegistry .empty

def isStacked (k : Keymap) : Bool := k.stack.depth ≠ 0

/-- The binds to try next, in order. -/
def candidates (k : Keymap) (mode : Text) : List Bind :=
  if k.stack.depth = 0 then k.registry.bindsIn mode
  else k.stack.binds ++ k.registry.globalChords

/-- Empties the stack. -/
def reset (k : Keymap) : Keymap := { k with stack := .empty }

/-- Matches a text: the chord's for a chord notification, the command line's otherwise. -/
def step (k : Keymap) (mode : Text) (note : Notification) (text : Text) : List Reaction × Stack :=
  (Scan.start k.stack).through k.stack.depth mode note text (k.candidates mode)

def respond (k : Keymap) (mode : Text) (note : Notification) (text : Text) :
    List Reaction × Keymap :=
  let (reactions, stack) := k.step mode note text
  (reactions, { k with stack })

end Keymap

end ModalKeys
