import ModalKeys.UserFiles
import ModalKeys.Host

namespace ModalKeys.Main

/-- How many commands one line may bring about, with those that come back as events. -/
def printLimit : Nat := 1000000

def readText? (path : Text) : IO (Option Text) :=
  try return some (← IO.FS.readFile (String.ofList path)).toList catch _ => return none

def environment (name : String) : IO (Option Text) := do
  return (← IO.getEnv name).map String.toList

def printLines (lines : List Text) : IO Unit := do
  for line in lines do
    IO.println (String.ofList line)
  (← IO.getStdout).flush

/-- The files of the user and those that the arguments name. -/
def readWorld (c : CommandLine) : IO Host.World := do
  let dir := UserFiles.dir? (← environment "XDG_CONFIG_HOME") (← environment "HOME")
  let user (file : Text → Text) : IO (Option Text) :=
    match dir with
    | some dir => readText? (file dir)
    | none => return none
  let named ← (c.inputs ++ c.keymap.toList ++ c.config.toList).mapM fun path => do
    return (path, ← readText? path)
  return ⟨← user UserFiles.settings, ← user UserFiles.keymap, fun path =>
    (named.lookup path).join⟩

/-- Takes lines; gives the session, unless a line has no end. -/
def feedLines (echo : Bool) (s : Session) (lines : List Text) : IO (Option Session) := do
  let mut s := s
  for line in lines do
    match Host.feed echo printLimit s line with
    | none => return none
    | some out =>
      for refusal in out.refusal.toList do
        IO.eprintln ("error: " ++ refusal.message)
      printLines out.lines
      s := out.session
  return some s

partial def serve (echo : Bool) (s : Session) : IO UInt32 := do
  let line ← (← IO.getStdin).getLine
  if line.isEmpty then return 0
  match ← feedLines echo s [line.toList] with
  | some s => serve echo s
  | none => return 1

def runStarted (w : Host.World) (c : Startup) : IO UInt32 := do
  match Host.start w c with
  | .error e => IO.eprintln ("Error: " ++ e.message); return 1
  | .ok s =>
    match Host.flush c.echo printLimit s with
    | none => return 1
    | some (lines, s) =>
      printLines lines
      let files := (c.inputs.filterMap w.file).flatMap (·.splitOn '\n')
      match ← feedLines c.echo s files with
      | some s => serve c.echo s
      | none => return 1

end ModalKeys.Main

open ModalKeys in
/-- Reads the files that it is told to, then lines until they end. -/
def main (args : List String) : IO UInt32 := do
  match CommandLine.parse (args.map String.toList) with
  | .error e =>
    let ending := Host.Ending.usage e
    Main.printLines ending.lines
    if ending.exitCode ≠ 0 then IO.eprintln "error: invalid arguments; see --help"
    return ending.exitCode.toUInt32
  | .ok c =>
    let w ← Main.readWorld c
    match c.startup fun path => (w.file path).isSome with
    | .error e => IO.eprintln ("Error: " ++ e.message); return 1
    | .ok c => Main.runStarted w c
