import ModalKeys.Text.Basic

namespace ModalKeys

/-- The event files, and the options `-k FILE`, `-c FILE`, `--no-defaults` and `--no-echo`. -/
structure CommandLine where
  inputs : List Text
  keymap : Option Text
  config : Option Text
  noDefaults : Bool
  noEcho : Bool
  deriving DecidableEq, Repr

/-- Why arguments are not taken; asking for help or for the version is a reason too. -/
inductive UsageError
  | unknownArgument
  | invalidValue
  | argumentConflict
  | tooManyValues
  | displayHelp
  | displayVersion
  deriving DecidableEq, Repr

/-- What an option does: it takes a value, or it is a flag. -/
inductive CommandOption
  | keymap
  | config
  | noDefaults
  | noEcho
  | help
  | version
  deriving DecidableEq, Repr

namespace CommandOption

def takesValue : CommandOption → Bool
  | keymap | config => true
  | _ => false

def ofLong? (name : Text) : Option CommandOption :=
  match String.ofList name with
  | "keymap" => some keymap
  | "config" => some config
  | "no-defaults" => some noDefaults
  | "no-echo" => some noEcho
  | "help" => some help
  | "version" => some version
  | _ => none

def ofShort? : Char → Option CommandOption
  | 'k' => some keymap
  | 'c' => some config
  | 'h' => some help
  | 'V' => some version
  | _ => none

end CommandOption

namespace CommandLine

def empty : CommandLine := ⟨[], none, none, false, false⟩

/-- What has been read but not yet taken: an option that may still get its value, or files. -/
inductive Pending
  | nothing
  | option (o : CommandOption) (value : Option Text)
  | inputs (files : List Text)
  deriving DecidableEq, Repr

/-- After `--`, when `trailing`, no argument is an option. -/
structure Progress where
  taken : CommandLine
  pending : Pending
  trailing : Bool

def checkPath (path : Text) : Except UsageError Text :=
  if path.isEmpty then .error .invalidValue else .ok path

/-- Takes an option, which may come only once. -/
def takeOption (c : CommandLine) (o : CommandOption) (value : Option Text) :
    Except UsageError CommandLine :=
  let once (seen : Bool) (next : Except UsageError CommandLine) : Except UsageError CommandLine :=
    if seen then .error .argumentConflict else next
  match o, value with
  | .help, _ => .error .displayHelp
  | .version, _ => .error .displayVersion
  | .noDefaults, _ => once c.noDefaults (.ok { c with noDefaults := true })
  | .noEcho, _ => once c.noEcho (.ok { c with noEcho := true })
  | .keymap, some v => once c.keymap.isSome ((checkPath v).map fun v => { c with keymap := some v })
  | .config, some v => once c.config.isSome ((checkPath v).map fun v => { c with config := some v })
  | .keymap, none | .config, none => .error .invalidValue

/-- Takes what is pending. -/
def settle (p : Progress) : Except UsageError Progress :=
  match p.pending with
  | .nothing => .ok p
  | .option o value => do
    return { p with taken := ← takeOption p.taken o value, pending := .nothing }
  | .inputs files => do
    let inputs := p.taken.inputs ++ (← files.mapM checkPath)
    return { p with taken := { p.taken with inputs }, pending := .nothing }

/-- Takes an option at once, after what is pending. -/
def react (p : Progress) (o : CommandOption) (value : Option Text) :
    Except UsageError Progress := do
  let p ← settle p
  return { p with taken := ← takeOption p.taken o value }

/-- Leaves an option open for its value. -/
def await (p : Progress) (o : CommandOption) : Except UsageError Progress := do
  let p ← settle p
  return { p with pending := .option o none }

def readLong (p : Progress) (body : Text) : Except UsageError Progress :=
  let (name, value) := match Text.cutAt? (· == '=') body with
    | some (name, value) => (name, some value)
    | none => (body, none)
  match CommandOption.ofLong? name, value with
  | none, _ => .error .unknownArgument
  | some o, some value => if o.takesValue then react p o (some value) else .error .tooManyValues
  | some o, none => if o.takesValue then await p o else react p o none

/-- A run of one-letter options; the first that takes a value takes the rest of the run. -/
def readShort (p : Progress) : Text → Except UsageError Progress
  | [] => .ok p
  | c :: t =>
    match CommandOption.ofShort? c with
    | none => .error .unknownArgument
    | some o =>
      if o.takesValue then
        match t with
        | [] => await p o
        | '=' :: value => react p o (some value)
        | value => react p o (some value)
      else
        match react p o none with
        | .ok p => readShort p t
        | .error e => .error e

def readFile (p : Progress) (file : Text) : Except UsageError Progress :=
  match p.pending with
  | .inputs files => .ok { p with pending := .inputs (files ++ [file]) }
  | _ => do
    let p ← settle p
    return { p with pending := .inputs [file] }

/-- An argument that is no option is the value of an open option, or else a file. -/
def readPlain (p : Progress) (arg : Text) : Except UsageError Progress :=
  match p.pending, p.trailing with
  | .option o none, false => .ok { p with pending := .option o (some arg) }
  | _, _ => readFile p arg

/-- Reads one argument. After `--` every argument is a file. -/
def readArgument (p : Progress) (arg : Text) : Except UsageError Progress :=
  if p.trailing then readPlain p arg
  else
    match arg with
    | ['-', '-'] => .ok { p with trailing := true }
    | '-' :: '-' :: body => readLong p body
    | '-' :: c :: t => readShort p (c :: t)
    | _ => readPlain p arg

def parse (args : List Text) : Except UsageError CommandLine := do
  let p ← args.foldlM readArgument ⟨empty, .nothing, false⟩
  return (← settle p).taken

end CommandLine

/-- A file that is named but not there. -/
inductive StartupError
  | noInput (path : Text)
  | noKeymap (path : Text)
  deriving DecidableEq, Repr

def StartupError.message : StartupError → String
  | noInput path => "Input file not found: " ++ String.ofList path
  | noKeymap path => "Keymap file not found: " ++ String.ofList path

/-- The arguments, with files that are there. -/
structure Startup where
  inputs : List Text
  keymap : Option Text
  config : Option Text
  useDefaults : Bool
  echo : Bool
  deriving DecidableEq, Repr

def CommandLine.startup (c : CommandLine) (isFile : Text → Bool) : Except StartupError Startup :=
  match c.inputs.find? (!isFile ·), c.keymap.filter (!isFile ·) with
  | some path, _ => .error (.noInput path)
  | none, some path => .error (.noKeymap path)
  | none, none => .ok ⟨c.inputs, c.keymap, c.config, !c.noDefaults, !c.noEcho⟩

end ModalKeys
