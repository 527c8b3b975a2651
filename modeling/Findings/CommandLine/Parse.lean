import Findings.CommandLine

/-!
# Parsing the command line

Arguments are taken one by one. An option given without `=` waits for the next argument, and a value
is looked at only when the next option or value comes up or the arguments end: an unknown argument
right after a bad value is reported first.
-/

set_option autoImplicit false

namespace Findings.CommandLine

/-- What has been said so far. -/
structure Partial where
  directory : Option String := none
  config : Option String := none
  tool : Option String := none
  analyzer : Option String := none
  buildDirectory : Option String := none
  buildCommand : List String := []
  replay : Option String := none
  json : Bool := false
deriving DecidableEq, Repr

/-- A value that has not been looked at yet. -/
inductive Pending where
  | nothing
  /-- An option whose value comes next. -/
  | awaited (choice : Choice)
  | held (target : Target) (value : String)
deriving DecidableEq, Repr

namespace Partial

/-- Whether an option that is given once at most has been given. -/
def has (p : Partial) : Target → Bool
  | .directory => p.directory.isSome
  | .choice .config => p.config.isSome
  | .choice .tool => p.tool.isSome
  | .choice .analyzer => p.analyzer.isSome
  | .choice .buildDirectory => p.buildDirectory.isSome
  | .choice .buildCommand => false
  | .choice .replay => p.replay.isSome

/-- Puts a value in its place. -/
def put (p : Partial) (value : String) : Target → Partial
  | .directory => { p with directory := some value }
  | .choice .config => { p with config := some value }
  | .choice .tool => { p with tool := some value }
  | .choice .analyzer => { p with analyzer := some value }
  | .choice .buildDirectory => { p with buildDirectory := some value }
  | .choice .buildCommand => { p with buildCommand := p.buildCommand ++ [value] }
  | .choice .replay => { p with replay := some value }

end Partial

/-- Whether a target takes paths only. -/
def Target.isPath : Target → Bool
  | .directory => true
  | .choice c => c.isPath

/-- Takes a value in. -/
def Partial.set (p : Partial) (target : Target) (value : String) : Except Stop Partial :=
  if p.has target then .error (.refused (.repeated target))
  else if target.isPath && value = "" then .error (.refused (.emptyValue target))
  else .ok (p.put value target)

/-- Takes in what is pending. -/
def Partial.settle (p : Partial) : Pending → Except Stop Partial
  | .nothing => .ok p
  | .awaited c => .error (.refused (.emptyValue (.choice c)))
  | .held target value => p.set target value

/-- Takes a flag in, what is pending first. -/
def Partial.raise (p : Partial) (pending : Pending) (f : Flag) : Except Stop Partial :=
  match p.settle pending with
  | .error e => .error e
  | .ok p =>
    match f with
    | .json =>
      if p.json then .error (.refused (.repeatedFlag .json)) else .ok { p with json := true }
    | .help => .error .help
    | .version => .error .version

/-- Takes an option in, what is pending first; without a value it waits for one. -/
def Partial.choose (p : Partial) (pending : Pending) (c : Choice) :
    Option String → Except Stop (Partial × Pending)
  | some value =>
    match p.settle pending with
    | .error e => .error e
    | .ok p => (p.set (.choice c) value).map fun p => (p, .nothing)
  | none => (p.settle pending).map fun p => (p, .awaited c)

def refused {α : Type} (e : UsageError) : Except Stop α := .error (.refused e)

/-- Takes in an argument of two hyphens, a name and perhaps a value after `=`. -/
def long (p : Partial) (pending : Pending) (body : List Char) :
    Except Stop (Partial × Pending) :=
  let name := String.ofList (body.takeWhile (· ≠ '='))
  let value :=
    match body.dropWhile (· ≠ '=') with
    | [] => none
    | _ :: v => some (String.ofList v)
  match Choice.all.find? (·.name == name) with
  | some c => p.choose pending c value
  | none =>
    match Flag.all.find? (·.name == name) with
    | none => refused (.unknownArgument ("--" ++ name))
    | some f =>
      match value with
      | some v => refused (.unexpectedValue v f)
      | none => (p.raise pending f).map fun p => (p, .nothing)

/-- Takes in the letters after one hyphen. The letter of an option with a value takes the rest as
its value. -/
def short (p : Partial) (pending : Pending) : List Char → Except Stop (Partial × Pending)
  | [] => .ok (p, pending)
  | c :: rest =>
    match Flag.all.find? (·.letter? == some c) with
    | some f =>
      match p.raise pending f with
      | .error e => .error e
      | .ok p => short p .nothing rest
    | none =>
      match Choice.all.find? (·.letter? == some c) with
      | some o =>
        p.choose pending o <|
          match rest with
          | [] => none
          | '=' :: v => some (String.ofList v)
          | v => some (String.ofList v)
      | none => refused (.unknownArgument ("-" ++ c.toString))

/-- Takes in a value that no option waits for. -/
def positional (p : Partial) (pending : Pending) (directoryGiven : Bool) (value : String) :
    Except Stop (Partial × Pending) :=
  if directoryGiven then refused (.unknownArgument value)
  else (p.settle pending).map fun p => (p, .held .directory value)

/-- Whether the directory has been given, even if it has not been looked at. -/
def isDirectoryGiven (p : Partial) (pending : Pending) : Bool :=
  match pending with
  | .held .directory _ => true
  | _ => p.directory.isSome

/-- Takes in the arguments after `--`. -/
def positionals (p : Partial) (pending : Pending) : List String → Except Stop (Partial × Pending)
  | [] => .ok (p, pending)
  | a :: rest =>
    match positional p pending (isDirectoryGiven p pending) a with
    | .error e => .error e
    | .ok (p, pending) => positionals p pending rest

/-- Takes in an argument that no option takes whatever it looks like, other than `--`. -/
def argument (p : Partial) (pending : Pending) (a : String) : Except Stop (Partial × Pending) :=
  match a.toList with
  | '-' :: '-' :: body => long p pending body
  | '-' :: c :: rest => short p pending (c :: rest)
  | _ =>
    match pending with
    | .awaited c => .ok (p, .held (.choice c) a)
    | _ => positional p pending (isDirectoryGiven p pending) a

/-- Takes in the arguments. -/
def arguments (p : Partial) (pending : Pending) : List String → Except Stop (Partial × Pending)
  | [] => .ok (p, pending)
  | a :: rest =>
    match pending with
    | .awaited .buildCommand => arguments p (.held (.choice .buildCommand) a) rest
    | _ =>
      if a = "--" then positionals p pending rest
      else
        match argument p pending a with
        | .error e => .error e
        | .ok (p, pending) => arguments p pending rest

/-- What the arguments say, or why there is nothing to run. -/
def parse (args : List String) : Except Stop Options := do
  let (p, pending) ← arguments {} .nothing args
  let p ← p.settle pending
  match p.directory with
  | none => refused .missingDirectory
  | some directory =>
    return {
      directory
      config := p.config
      tool := p.tool
      analyzer := p.analyzer
      buildDirectory := p.buildDirectory
      buildCommand := p.buildCommand
      replay := p.replay
      json := p.json
    }

end Findings.CommandLine
