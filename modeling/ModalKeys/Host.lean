import ModalKeys.CommandLine
import ModalKeys.Definition.Shipped
import ModalKeys.Session.Handle

namespace ModalKeys.Host

open Text

/-- What a session makes of an effect that has been given to the host. A command goes back into it
as the event that a host would raise for it. -/
def reflect (echo : Bool) (s : Session) (e : Effect) : Option Session :=
  match (if echo then e.echo? else none) with
  | none => some s
  | some line => (s.handleLine line).map (·.session)

/-- Gives effects to the host one by one, with those that they bring about behind them. `fuel`
bounds how many; with more there is no result. -/
def print (echo : Bool) : Nat → List Effect → Session → Option (List Text × Session)
  | _, [], s => some ([], s)
  | 0, _ :: _, _ => none
  | fuel + 1, e :: es, s => do
    let (more, s) := (← reflect echo s e).drain
    let (lines, s) ← print echo fuel (es ++ more) s
    return (e.line :: lines, s)

def flush (echo : Bool) (fuel : Nat) (s : Session) : Option (List Text × Session) :=
  print echo fuel s.drain.1 s.drain.2

/-- What a line brings about: the lines printed, and the refusal if the line was refused. -/
structure Output where
  lines : List Text
  refusal : Option Refusal
  session : Session

/-- Takes one line. Blank lines and lines that begin with `#` say nothing. -/
def feed (echo : Bool) (fuel : Nat) (s : Session) (line : Text) : Option Output := do
  let line := trim line
  if line.isEmpty || line.head? = some '#' then return ⟨[], none, s⟩
  let reply ← s.handleLine line
  let (lines, s) ← flush echo fuel reply.session
  return ⟨lines, reply.refusal, s⟩

/-- What the program finds at its start: the user's files, if they are there, and the content of
the files that its arguments name. -/
structure World where
  userSettings : Option Text
  userKeymap : Option Text
  file : Text → Option Text

def loadSettings (w : World) (c : Startup) : Settings :=
  match c.config with
  | some path => Settings.load (w.file path)
  | none => Settings.load w.userSettings

/-- The shipped keymap under the user's and the named one. Without the shipped one there is only
the named one, which then has to be readable. -/
def loadRegistry (w : World) (c : Startup) : Except Refusal Registry :=
  if c.useDefaults then .ok (Definition.layered w.userKeymap (c.keymap.bind w.file))
  else
    match c.keymap with
    | none => .ok .empty
    | some path =>
      match Definition.ofFile (w.file path) with
      | .ok ds => .ok (Definition.install .empty ds).1
      | .error e => .error e

def start (w : World) (c : Startup) : Except Refusal Session :=
  match loadRegistry w c with
  | .ok r => .ok (.start (loadSettings w c) r)
  | .error e => .error e

/-- Everything that a run prints, refusals apart. -/
structure Transcript where
  lines : List Text
  refusals : List Refusal

/-- Takes lines one after the other. -/
def feedAll (echo : Bool) (fuel : Nat) (s : Session) : List Text → Option (Transcript × Session)
  | [] => some (⟨[], []⟩, s)
  | line :: lines => do
    let out ← feed echo fuel s line
    let (rest, s) ← feedAll echo fuel out.session lines
    return (⟨out.lines ++ rest.lines, out.refusal.toList ++ rest.refusals⟩, s)

/-- How a run ends. -/
inductive Ending
  | usage (e : UsageError)
  | startup (e : StartupError)
  | unreadable (e : Refusal)
  | finished (t : Transcript)
  | endless

def versionLine : Text := "keystack 0.3.0".toList

def helpLines : List Text := [
  "Stacked keybinding engine driven by event lines on stdin".toList,
  [],
  "Usage: keystack [OPTIONS] [FILES]...".toList,
  [],
  "  -k, --keymap <FILE>  Keymap file layered over the default and user keymaps".toList,
  "  -c, --config <FILE>  Engine config file".toList,
  "      --no-defaults    Start without the built-in keymap".toList,
  "      --no-echo        Don't feed sent commands back in".toList,
  "  -h, --help           Print help".toList,
  "  -V, --version        Print version".toList]

namespace Ending

/-- The lines on standard output. -/
def lines : Ending → List Text
  | usage .displayHelp => helpLines
  | usage .displayVersion => [versionLine]
  | finished t => t.lines
  | _ => []

/-- The refusals that are reported on the way. -/
def refusals : Ending → List Refusal
  | finished t => t.refusals
  | _ => []

def exitCode : Ending → Nat
  | usage .displayHelp | usage .displayVersion | finished _ => 0
  | usage _ => 2
  | startup _ | unreadable _ | endless => 1

end Ending

/-- Runs the program on the files that it is given and on its standard input. -/
def run (w : World) (fuel : Nat) (args : List Text) (input : Text) : Ending :=
  match CommandLine.parse args with
  | .error e => .usage e
  | .ok c =>
    match c.startup fun path => (w.file path).isSome with
    | .error e => .startup e
    | .ok c =>
      match start w c with
      | .error e => .unreadable e
      | .ok s =>
        let files := (c.inputs.filterMap w.file).flatMap (·.splitOn '\n')
        match flush c.echo fuel s with
        | none => .endless
        | some (lines, s) =>
          match feedAll c.echo fuel s (files ++ input.splitOn '\n') with
          | none => .endless
          | some (t, _) => .finished ⟨lines ++ t.lines, t.refusals⟩

end ModalKeys.Host
