import Findings.Sandbox.Shell.Reader
import Findings.Sandbox.Utility

/-!
# Running shell scripts

A script runs over a file tree and writes to numbered buffers or to files. Every function that may
run further commands is given the means to do so, and `run` ties the knot with fuel.
-/

set_option autoImplicit false

namespace Findings.Sandbox.Shell

/-- Where a channel goes. -/
inductive Outlet where
  | buffer (index : Nat)
  | file (place : Place)
  | nowhere
deriving DecidableEq, Repr

/-- How a process of the sandbox ended. -/
inductive Ending where
  | exited (code : UInt8)
  | signaled (number : Nat)
deriving DecidableEq, Repr

/-- The state of a shell. -/
structure State where
  tree : FileTree
  here : Place
  name : String
  arguments : List String
  bindings : List (String × String)
  /-- The variables that programs do not see. -/
  hidden : List String := []
  input : Bytes := []
  /-- Whether the input comes from a file. -/
  isInputFile : Bool := false
  outlets : List (Nat × Outlet)
  buffers : Array (Array UInt8)
  /-- The line of the current command. -/
  line : Nat := 0
  /-- The code of the last command. -/
  code : UInt8 := 0
  /-- The code of the last script whose output was taken for the current command. -/
  inner : UInt8 := 0
  /-- Set once the shell has come to its end. -/
  ending : Option Ending := none
  /-- Whether a failing command ends the shell. -/
  strict : Bool := false
  /-- Whether the command is a condition, whose failure ends nothing. -/
  tested : Bool := false

namespace State

def outlet (s : State) (channel : Nat) : Outlet :=
  ((s.outlets.find? fun o => o.1 == channel).map fun o => o.2).getD .nowhere

def write (s : State) (channel : Nat) (bytes : Bytes) : State :=
  match s.outlet channel with
  | .buffer i => { s with buffers := s.buffers.modify i (· ++ bytes) }
  | .file place => { s with tree := s.tree.append place bytes }
  | .nowhere => s

def say (s : State) (text : String) : State := s.write 1 (Utf8.encode text)

/-- What a message of the shell itself starts with. -/
def head (s : State) : String := s.name ++ ": " ++ toString s.line ++ ": "

/-- Writes a message of the shell itself. -/
def complain (s : State) (text : String) : State :=
  s.write 2 (Utf8.encode (s.head ++ text ++ "\n"))

def setOutlet (s : State) (channel : Nat) (o : Outlet) : State :=
  { s with outlets := (channel, o) :: s.outlets.filter (·.1 ≠ channel) }

/-- The state with a further empty buffer that standard output goes to, and its number. -/
def withBuffer (s : State) : State × Nat :=
  let i := s.buffers.size
  (({ s with buffers := s.buffers.push #[] }).setOutlet 1 (.buffer i), i)

def lookup? (s : State) (name : String) : Option String :=
  (s.bindings.find? (·.1 == name)).map (·.2)

/-- Sets a variable. Programs do not see a new one. -/
def assign (s : State) (name value : String) : State :=
  { s with
    bindings := (name, value) :: s.bindings.filter (·.1 ≠ name)
    hidden := if (s.lookup? name).isSome then s.hidden else name :: s.hidden }

/-- Lets programs see a variable. -/
def reveal (s : State) (name : String) : State :=
  { s with hidden := s.hidden.filter (· ≠ name) }

/-- Takes over what a child has changed for everyone: the files and what was written. -/
def adopt (s child : State) : State :=
  { s with tree := child.tree, buffers := child.buffers, input := child.input }

/-- Ends the shell. -/
def exit (s : State) (code : UInt8) : State := { s with ending := some (.exited code) }

def finish (s : State) (code : UInt8) : State := { s with code := code }

end State

/-- Runs a command. -/
abbrev Runner := Command → State → State

/-! ### Expansion -/

/-- The number that stands for the shell's process. -/
def processNumber : String := "4242"

/-- The value of a parameter, if it is set. -/
def parameter? (s : State) (name : String) : Option String :=
  if name = "?" then some (toString s.code.toNat)
  else if name = "#" then some (toString s.arguments.length)
  else if name = "$" then some processNumber
  else if name = "PWD" then some (FileTree.path s.here)
  else if name = "0" then some s.name
  else if name = "@" || name = "*" then
    if s.arguments = [] then none else some (String.intercalate " " s.arguments)
  else
    match name.toNat? with
    | some n => s.arguments[n - 1]?
    | none => s.lookup? name

/-- A code for how a child ended. -/
def Ending.code : Ending → UInt8
  | .exited c => c
  | .signaled n => UInt8.ofNat (128 + n)

/-- Ends a state that runs as a child. -/
def State.endingOf (s : State) : Ending := s.ending.getD (.exited s.code)

/-- The output of a script without the line ends after it. -/
def outputOf (run : Runner) (script : String) (s : State) : String × State :=
  match parse s.line script with
  | none => ("", { s with inner := 2 })
  | some c =>
    let (start, i) := s.withBuffer
    let child := run c start
    let bytes := (child.buffers[i]?.getD #[]).toList
    let text := Utf8.lossy (bytes.filter (· ≠ 0))
    (String.ofList (text.toList.reverse.dropWhile (· = '\n')).reverse,
      { s.adopt child with buffers := child.buffers.take i, inner := child.endingOf.code })

/-- The tokens of an arithmetic expression. -/
def arithmeticTokens (s : State) : (fuel : Nat) → List Char → List String
  | 0, _ => []
  | _ + 1, [] => []
  | fuel + 1, c :: t =>
    if c = ' ' || c = '\t' || c = '\n' || c = '$' then arithmeticTokens s fuel t
    else if c.isDigit then
      String.ofList (c :: t.takeWhile Char.isDigit) ::
        arithmeticTokens s fuel (t.dropWhile Char.isDigit)
    else if isNameStart c then
      let name := String.ofList (c :: t.takeWhile isNameChar)
      let value := (s.lookup? name).getD "0"
      (if value = "" then "0" else value) :: arithmeticTokens s fuel (t.dropWhile isNameChar)
    else c.toString :: arithmeticTokens s fuel t

mutual

/-- A sum of products. -/
def sum : (fuel : Nat) → List String → Int × List String
  | 0, ts => (0, ts)
  | fuel + 1, ts =>
    let (a, rest) := product fuel ts
    sumRest fuel a rest

/-- Adds further products. -/
def sumRest : (fuel : Nat) → Int → List String → Int × List String
  | fuel + 1, a, "+" :: ts =>
    let (b, rest) := product fuel ts
    sumRest fuel (a + b) rest
  | fuel + 1, a, "-" :: ts =>
    let (b, rest) := product fuel ts
    sumRest fuel (a - b) rest
  | _, a, ts => (a, ts)

/-- A product of atoms. -/
def product : (fuel : Nat) → List String → Int × List String
  | 0, ts => (0, ts)
  | fuel + 1, ts =>
    let (a, rest) := atom fuel ts
    productRest fuel a rest

/-- Multiplies or divides by further atoms. -/
def productRest : (fuel : Nat) → Int → List String → Int × List String
  | fuel + 1, a, "*" :: ts =>
    let (b, rest) := atom fuel ts
    productRest fuel (a * b) rest
  | fuel + 1, a, "/" :: ts =>
    let (b, rest) := atom fuel ts
    productRest fuel (a.tdiv b) rest
  | fuel + 1, a, "%" :: ts =>
    let (b, rest) := atom fuel ts
    productRest fuel (a.tmod b) rest
  | _, a, ts => (a, ts)

/-- A number, a negated atom or a sum in brackets. -/
def atom : (fuel : Nat) → List String → Int × List String
  | fuel + 1, "-" :: ts =>
    let (a, rest) := atom fuel ts
    (-a, rest)
  | fuel + 1, "(" :: ts =>
    let (a, rest) := sum fuel ts
    (a, rest.drop 1)
  | _, t :: ts => ((Format.numeric t).1, ts)
  | _, [] => (0, [])

end

def arithmetic (s : State) (expression : String) : String :=
  let ts := arithmeticTokens s (expression.length + 1) expression.toList
  toString (sum (4 * ts.length + 8) ts).1

/-- Fields of a word while it is put together: those that are complete, and the one that is being
made, if any. -/
structure Fields where
  done : List String := []
  current : Option String := none

def Fields.add (f : Fields) (text : String) : Fields :=
  { f with current := some (f.current.getD "" ++ text) }

def Fields.close (f : Fields) : Fields :=
  match f.current with
  | some t => ⟨f.done ++ [t], none⟩
  | none => f

def isFieldBlank (c : Char) : Bool := c = ' ' || c = '\t' || c = '\n'

/-- Adds text that is split at blanks. -/
def Fields.split : (fuel : Nat) → Fields → List Char → Fields
  | 0, f, _ => f
  | _ + 1, f, [] => f
  | fuel + 1, f, c :: s =>
    if isFieldBlank c then (f.close).split fuel (s.dropWhile isFieldBlank)
    else
      let isText (c : Char) : Bool := !isFieldBlank c
      (f.add (String.ofList (c :: s.takeWhile isText))).split fuel (s.dropWhile isText)

/-- Adds the arguments as fields of their own. -/
def Fields.spread (f : Fields) : List String → Fields
  | [] => f
  | [a] => f.add a
  | a :: rest => ((f.add a).close).spread rest

/-- What a parameter expands to in a form, and the state after it. -/
def valueOf (s : State) (name : String) (form : Form) : String × State :=
  let value? := parameter? s name
  let present (emptyToo : Bool) : Option String := value?.filter fun v => !(emptyToo && v = "")
  match form with
  | .value => (value?.getD "", s)
  | .length => (toString (value?.getD "").utf8ByteSize, s)
  | .fallback emptyToo text => ((present emptyToo).getD text, s)
  | .alternative emptyToo text => (if (present emptyToo).isSome then text else "", s)
  | .assigned emptyToo text =>
    match present emptyToo with
    | some v => (v, s)
    | none => (text, s.assign name text)
  | .required emptyToo text =>
    match present emptyToo with
    | some v => (v, s)
    | none =>
      let reason :=
        if text ≠ "" then text
        else if emptyToo then "parameter not set or null"
        else "parameter not set"
      ("", (s.complain (name ++ ": " ++ reason)).exit 2)

/-- A word with the home directory in place of a tilde at its start. -/
def withHome (s : State) (w : Word) : Word :=
  let home : Piece := ⟨true, .text ((s.lookup? "HOME").getD "~")⟩
  match w with
  | ⟨false, .text t⟩ :: rest =>
    match t.toList with
    | ['~'] => if rest = [] then [home] else w
    | '~' :: '/' :: more => home :: ⟨false, .text (String.ofList ('/' :: more))⟩ :: rest
    | _ => w
  | w => w

/-- Expands a word into fields. -/
def expand (run : Runner) (w : Word) (s : State) : List String × State :=
  let (f, s) := (withHome s w).foldl
    (fun (p : Fields × State) piece =>
      let (f, s) := p
      let put (value : String) : Fields :=
        if piece.quoted then f.add value else f.split (value.length + 1) value.toList
      match piece.part with
      | .text t => (f.add t, s)
      | .parameter name form =>
        if name = "@" && form = .value && piece.quoted then (f.spread s.arguments, s)
        else
          let (value, s) := valueOf s name form
          (put value, s)
      | .output script =>
        let (value, s) := outputOf run script s
        (put value, s)
      | .arithmetic e => (put (arithmetic s e), s))
    ({}, s)
  ((f.close).done, s)

/-- What stands for characters in a pattern. -/
inductive Wild where
  | any
  | one
  | exact (c : Char)
deriving DecidableEq, Repr

/-- A star or a question mark stands for others unless it is quoted. -/
def Wild.ofChar (quoted : Bool) (c : Char) : Wild :=
  if quoted then .exact c
  else if c = '*' then .any
  else if c = '?' then .one
  else .exact c

/-- Whether a text fits a pattern. -/
def fits : (fuel : Nat) → List Wild → List Char → Bool
  | 0, _, _ => false
  | _ + 1, [], name => name = []
  | fuel + 1, .any :: p, name =>
    fits fuel p name || (match name with
      | [] => false
      | _ :: rest => fits fuel (.any :: p) rest)
  | fuel + 1, w :: p, d :: rest => (w = .one || w = .exact d) && fits fuel p rest
  | _ + 1, _ :: _, [] => false

/-- The file names that a field stands for if it is a pattern. -/
def matched (s : State) (field : String) : List String :=
  let chars := field.toList
  let last := (chars.reverse.takeWhile (· ≠ '/')).reverse
  let before := String.ofList (chars.take (chars.length - last.length))
  match s.tree.locate s.here (if before = "" then "." else before) with
  | .error _ => [field]
  | .ok place =>
    let names := (s.tree.children place).filter fun n =>
      (n.toList.head? ≠ some '.' || last.head? = some '.') &&
        fits (n.length + last.length + 1) (last.map (Wild.ofChar false)) n.toList
    if names = [] then [field] else names.map (before ++ ·)

/-- Whether a word may be a pattern. -/
def isPattern (w : Word) : Bool :=
  w.any fun p =>
    !p.quoted && (match p.part with
      | .text t => t.toList.any fun c => c = '*' || c = '?'
      | _ => false)

/-- Expands words one after the other. -/
def expandAll (run : Runner) (ws : List Word) (s : State) : List String × State :=
  ws.foldl
    (fun (p : List String × State) w =>
      let (fields, s) := expand run w p.2
      (p.1 ++ (if isPattern w then fields.flatMap (matched s) else fields), s))
    ([], s)

/-- Expands a word into one text. -/
def expandText (run : Runner) (w : Word) (s : State) : String × State :=
  let quoted := w.map fun p =>
    match p.part with
    | .parameter "@" form => ⟨true, .parameter "*" form⟩
    | part => ⟨true, part⟩
  let (fields, s) := expand run quoted s
  (String.join fields, s)

/-- Expands a word into a pattern. -/
def expandPattern (run : Runner) (w : Word) (s : State) : List Wild × State :=
  w.foldl
    (fun (p : List Wild × State) piece =>
      let (text, s) := expandText run [piece] p.2
      (p.1 ++ text.toList.map (Wild.ofChar piece.quoted), s))
    ([], s)

/-- Whether a text fits one of the words as a pattern. -/
def fitsSome (run : Runner) (text : String) : List Word → State → Bool × State
  | [], s => (false, s)
  | w :: ws, s =>
    let (p, s) := expandPattern run w s
    if fits (p.length + text.length + 1) p text.toList then (true, s) else fitsSome run text ws s

/-! ### Redirection -/

/-- The words of the shell for a refused file. -/
def refusal (missing : String) : SystemError → String
  | .noSuchFile | .notADirectory => missing
  | e => e.description

/-- Opens a file for a channel. -/
def openFor (channel : Nat) (path : String) (truncate : Bool) (s : State) : State × Bool :=
  match s.tree.openForWriting s.here path truncate with
  | .ok (place, t) => (({ s with tree := t }).setOutlet channel (.file place), true)
  | .error e =>
    let reason := refusal "Directory nonexistent" e
    ((s.complain ("cannot create " ++ path ++ ": " ++ reason)).finish 2, false)

/-- Follows one redirection; the answer says whether it worked. -/
def redirect (run : Runner) (r : Redirect) (s : State) : State × Bool :=
  match r with
  | .input w =>
    let (path, s) := expandText run w s
    match s.tree.read s.here path with
    | .ok bytes => ({ s with input := bytes, isInputFile := s.tree.isFile s.here path }, true)
    | .error e =>
      let reason := refusal "No such file" e
      ((s.complain ("cannot open " ++ path ++ ": " ++ reason)).finish 2, false)
  | .output channel w =>
    let (path, s) := expandText run w s
    openFor channel path true s
  | .append channel w =>
    let (path, s) := expandText run w s
    openFor channel path false s
  | .same channel w =>
    let (other, s) := expandText run w s
    if other = "-" then (s.setOutlet channel .nowhere, true)
    else (s.setOutlet channel (s.outlet (other.toNat?.getD 0)), true)
  | .here w =>
    let (text, s) := expandText run w s
    ({ s with input := Utf8.encode text, isInputFile := false }, true)

/-- Follows redirections up to one that fails. -/
def redirectAll (run : Runner) : List Redirect → State → State × Bool
  | [], s => (s, true)
  | r :: rs, s =>
    let (s, ok) := redirect run r s
    if ok then redirectAll run rs s else (s, false)

/-- Puts channels and input back after a command with redirections. -/
def restore (before after : State) (redirects : List Redirect) : State :=
  let ownInput := redirects.any fun r =>
    match r with
    | .input _ | .here _ => true
    | _ => false
  { after with
    outlets := before.outlets
    input := if ownInput then before.input else after.input
    isInputFile := before.isInputFile }

/-! ### Programs -/

/-- The state of a process that was just started: it sees the variables that are not hidden. -/
def started (s : State) (name : String) (arguments : List String) : State :=
  { s with
    name, arguments
    bindings := s.bindings.filter fun v => !s.hidden.contains v.1
    hidden := []
    code := 0
    ending := none
    strict := false
    tested := false }

/-- Runs the text of a script as a program of its own. -/
def runScript (run : Runner) (s : State) (name text : String) (arguments : List String)
    (strict : Bool) : State :=
  let s := { started s name arguments with strict }
  match parse 1 text with
  | none => ({ s with line := 1 }.complain "Syntax error").finish 2
  | some c => run c s

/-- Runs the program `sh` with the given arguments, of which the first may be options. -/
def runShell (run : Runner) (s : State) (name : String) (strict : Bool) :
    List String → State
  | "-c" :: rest => command strict rest
  | "-ec" :: rest => command true rest
  | "-e" :: rest => runShell run s name true rest
  | path :: rest =>
    match s.tree.read s.here path with
    | .ok bytes => runScript run s path (Utf8.lossy bytes) rest strict
    | .error e =>
      let reason := refusal "No such file" e
      ({ s with name, line := 0 }.complain ("cannot open " ++ path ++ ": " ++ reason)).finish 2
  | [] => runScript run { s with input := [] } name (Utf8.lossy s.input) [] strict
where
  /-- Runs the script that is an argument itself. -/
  command (strict : Bool) : List String → State
    | text :: rest => runScript run s (rest.headD name) text (rest.drop 1) strict
    | [] => ({ s with name, line := 0 }.complain "-c requires an argument").finish 2

/-- Runs a utility of the system. -/
def runUtility (run : Runner) (s : State) (utility name : String) (arguments : List String) :
    State :=
  if utility = "sh" || utility = "dash" then runShell run s name false arguments
  else
    let e := Utility.run ⟨s.tree, s.here, s.input, s.isInputFile⟩ utility arguments
    let s := { s with tree := e.tree, input := e.input }
    (e.written.foldl (fun s w => s.write (if w.1 = .output then 1 else 2) w.2) s).finish e.code

/-- The interpreter that a file names in its first line, with an argument if there is one. -/
def interpreter? (bytes : Bytes) : Option (String × List String) :=
  match bytes with
  | 0x23 :: 0x21 :: rest =>
    let line := (Utf8.lossy (rest.takeWhile (· ≠ 0x0A))).toList
    let isBlank (c : Char) : Bool := c = ' ' || c = '\t'
    let line := line.dropWhile isBlank
    let program := line.takeWhile fun c => !isBlank c
    let argument :=
      (((line.drop program.length).dropWhile isBlank).reverse.dropWhile isBlank).reverse
    if program = [] then none
    else some (String.ofList program, if argument = [] then [] else [String.ofList argument])
  | _ => none

/-- What is to be run for a path: a utility with its arguments. -/
structure Executable where
  utility : String
  /-- The interpreter that runs the path, if the path is a script. -/
  interpreter : Option String
  arguments : List String
deriving DecidableEq, Repr

/-- Finds out what a path runs. A script is run by its interpreter, which may be a script too. -/
def executable (t : FileTree) (here : Place) :
    (fuel : Nat) → String → List String → Except SystemError Executable
  | 0, _, _ => .error .tooManyLinks
  | fuel + 1, path, arguments =>
    match t.find here path with
    | .error e => .error e
    | .ok (_, .utility u) => .ok ⟨u, none, arguments⟩
    | .ok (_, .file bytes true) =>
      match interpreter? bytes with
      | some (program, more) =>
        (executable t here fuel program (more ++ path :: arguments)).map fun e =>
          { e with interpreter := e.interpreter.or (some program) }
      | none => .error .notExecutableFormat
    | .ok _ => .error .permissionDenied

/-- The paths that a program's name may stand for. -/
def searchPaths (searchPath : Option String) (name : String) : List String :=
  if name.toList.contains '/' then [name]
  else
    ((segments ':' (searchPath.getD "/bin:/usr/bin").toList).map String.ofList).map fun d =>
      if d = "" then name else if d.endsWith "/" then d ++ name else d ++ "/" ++ name

/-- Looks a program up and finds out what it runs. A place that does not have it or refuses it is
passed over; a refusal is remembered, and else what was wrong with the last place. -/
def lookup (t : FileTree) (here : Place) (arguments : List String) :
    SystemError → List String → Except SystemError Executable
  | failure, [] => .error failure
  | failure, path :: rest =>
    match executable t here 5 path arguments with
    | .error .permissionDenied => lookup t here arguments .permissionDenied rest
    | .error .noSuchFile =>
      lookup t here arguments (if failure = .permissionDenied then failure else .noSuchFile) rest
    | .error .notADirectory =>
      lookup t here arguments (if failure = .permissionDenied then failure else .notADirectory) rest
    | r => r

/-- Runs a program as a child. -/
def runProgram (run : Runner) (name : String) (arguments : List String) (s : State) : State :=
  let paths := searchPaths (s.lookup? "PATH") name
  match lookup s.tree s.here arguments .noSuchFile paths with
  | .ok e =>
    let child :=
      runUtility run (started s s.name []) e.utility (e.interpreter.getD name) e.arguments
    let ended := child.endingOf
    let s := s.adopt child
    let s :=
      match ended with
      | .signaled 9 => s.write 2 (Utf8.encode "Killed\n")
      | .signaled 15 => s.write 2 (Utf8.encode "Terminated\n")
      | _ => s
    s.finish ended.code
  | .error .notExecutableFormat =>
    match paths.findSome? fun p => (s.tree.read s.here p).toOption.map fun b => (p, b) with
    | some (path, bytes) =>
      let child := runScript run s path (Utf8.lossy bytes) arguments false
      (s.adopt child).finish child.endingOf.code
    | none => s.finish 126
  | .error .permissionDenied => (s.complain (name ++ ": Permission denied")).finish 126
  | .error _ => (s.complain (name ++ ": not found")).finish 127

/-! ### Commands of the shell itself -/

def signalNumber? (name : String) : Option Nat :=
  match name.toNat? with
  | some n => some n
  | none =>
    let full := if name.startsWith "SIG" then name else "SIG" ++ name
    (ExitStatus.signalNames.findIdx? (· == full)).map (· + 1)

def kill (arguments : List String) (s : State) : State :=
  let (signal, targets) :=
    match arguments with
    | "-s" :: n :: rest => (signalNumber? n, rest)
    | a :: rest =>
      match a.toList with
      | '-' :: cs => (signalNumber? (String.ofList cs), rest)
      | _ => (some 15, a :: rest)
    | [] => (some 15, [])
  match signal, targets with
  | some 0, t :: _ => s.finish (if t = processNumber then 0 else 1)
  | some n, t :: _ =>
    if t = processNumber then { s with ending := some (.signaled n) }
    else if t.toNat?.isNone then (s.complain ("kill: Illegal number: " ++ t)).finish 2
    else (s.complain "kill: No such process").finish 1
  | _, _ => (s.complain "kill: Illegal option").finish 2

/-- Makes a directory the current one; a hyphen stands for the one before. -/
def changeDirectory (arguments : List String) (s : State) : State :=
  let back := arguments.head? = some "-"
  let path :=
    if back then (s.lookup? "OLDPWD").getD (FileTree.path s.here)
    else arguments.headD ((s.lookup? "HOME").getD "")
  match s.tree.find s.here path with
  | .ok (place, .directory) =>
    let moved := { s.assign "OLDPWD" (FileTree.path s.here) with here := place }
    (if back then moved.say (FileTree.path place ++ "\n") else moved).finish 0
  | _ => (s.complain ("cd: can't cd to " ++ path)).finish 2

/-- Ends the shell with a code, that of the last command if none is given. -/
def exit (arguments : List String) (s : State) : State :=
  match arguments with
  | [] => s.exit s.code
  | a :: _ =>
    match a.toNat? with
    | some n => s.exit (UInt8.ofNat n)
    | none => (s.complain ("exit: Illegal number: " ++ a)).exit 2

/-- Assigns the arguments that have the form of an assignment, and lets programs see all of them if
`visible` is set. -/
def assignAll (visible : Bool) (arguments : List String) (s : State) : State :=
  (arguments.foldl
    (fun (s : State) a =>
      let name := String.ofList (a.toList.takeWhile (· ≠ '='))
      let s :=
        if name.length < a.length then
          s.assign name (String.ofList (a.toList.drop (name.length + 1)))
        else s
      if visible then s.reveal name else s)
    s).finish 0

/-- Gives each variable a field of the text, and the last one all that is left. -/
def assignFields : List String → List Char → State → State
  | [], _, s => s
  | [name], text, s =>
    let kept := ((text.dropWhile isFieldBlank).reverse.dropWhile isFieldBlank).reverse
    s.assign name (String.ofList kept)
  | name :: names, text, s =>
    let text := text.dropWhile isFieldBlank
    let isText (c : Char) : Bool := !isFieldBlank c
    assignFields names (text.dropWhile isText)
      (s.assign name (String.ofList (text.takeWhile isText)))

/-- Reads a line of input into variables. -/
def readLine (arguments : List String) (s : State) : State :=
  let line := s.input.takeWhile (· ≠ 0x0A)
  let complete := line.length < s.input.length
  let s := { s with input := s.input.drop (line.length + 1) }
  (assignFields (arguments.filter (· ≠ "-r")) (Utf8.lossy line).toList s).finish
    (if complete then 0 else 1)

/-- Runs the commands of a file in the shell itself. -/
def source (run : Runner) (name : String) (s : State) : State :=
  let paths := searchPaths (s.lookup? "PATH") name
  match paths.findSome? fun p => (s.tree.read s.here p).toOption with
  | none => (s.complain (".: " ++ name ++ ": not found")).exit 2
  | some bytes =>
    match parse 1 (Utf8.lossy bytes) with
    | some c => run c (s.finish 0)
    | none => (s.complain "Syntax error").exit 2

/-- Leaves out the given number of arguments. -/
def shift (amount : Nat) (s : State) : State :=
  if amount ≤ s.arguments.length then
    ({ s with arguments := s.arguments.drop amount }).finish 0
  else (s.complain "shift: can't shift that many").exit 2

/-- Runs a command of the shell itself, or `none` if the name is not one of them. -/
def builtin? (run : Runner) (name : String) (arguments : List String) (s : State) :
    Option State :=
  let viaUtility (e : Effect) : State :=
    (e.written.foldl (fun s w => s.write (if w.1 = .output then 1 else 2) w.2) s).finish e.code
  let setting : Setting := ⟨s.tree, s.here, s.input, s.isInputFile⟩
  if name = ":" || name = "true" || name = "wait" || name = "umask" || name = "trap" then
    some (s.finish 0)
  else if name = "false" then some (s.finish 1)
  else if name = "echo" then some ((s.write 1 (Format.echo arguments)).finish 0)
  else if name = "printf" then some (viaUtility (Utility.printf setting (.shell s.head) arguments))
  else if name = "test" then some (viaUtility (Utility.test setting (s.head ++ "test: ") arguments))
  else if name = "[" then
    some (viaUtility (Utility.bracket setting (s.head ++ "[: ") "missing ]" arguments))
  else if name = "pwd" then some ((s.say (FileTree.path s.here ++ "\n")).finish 0)
  else if name = "cd" then some (changeDirectory arguments s)
  else if name = "exit" then some (exit arguments s)
  else if name = "kill" then some (kill arguments s)
  else if name = "export" then some (assignAll true arguments s)
  else if name = "readonly" then some (assignAll false arguments s)
  else if name = "unset" then
    some (({ s with bindings := s.bindings.filter fun v => !arguments.contains v.1 }).finish 0)
  else if name = "shift" then
    some (shift ((arguments.headD "1").toNat?.getD 1) s)
  else if name = "set" then
    match arguments with
    | "--" :: rest => some (({ s with arguments := rest }).finish 0)
    | a :: _ =>
      some (({ s with
        strict := if a.toList.head? = some '-' && a.toList.contains 'e' then true
          else if a = "+e" then false else s.strict }).finish 0)
    | [] => some (s.finish 0)
  else if name = "read" then some (readLine arguments s)
  else if name = "eval" then
    match parse s.line (String.intercalate " " arguments) with
    | some c => some (run c s)
    | none => some ((s.complain "Syntax error").exit 2)
  else if name = "." then
    match arguments with
    | [] => some (s.finish 0)
    | path :: _ => some (source run path s)
  else none

/-- The commands whose failing redirection ends the shell. -/
def specialNames : List String :=
  [":", ".", "eval", "exec", "exit", "export", "readonly", "set", "shift", "trap", "unset"]

/-- Replaces the shell by a program. -/
def replaceBy (run : Runner) (name : String) (arguments : List String) (s : State) : State :=
  let paths := searchPaths (s.lookup? "PATH") name
  match lookup s.tree s.here arguments .noSuchFile paths with
  | .ok _ | .error .notExecutableFormat | .error .permissionDenied =>
    let s := runProgram run name arguments s
    s.exit s.code
  | .error _ => (s.complain ("exec: " ++ name ++ ": not found")).exit 127

/-- Runs a simple command. -/
def runSimple (run : Runner) (line : Nat) (assignments : List (String × Word)) (words : List Word)
    (redirects : List Redirect) (s : State) : State :=
  let (fields, s) := expandAll run words { s with line, inner := 0 }
  let (s₁, ok) := redirectAll run redirects s
  let s₂ := assignments.foldl
    (fun (s : State) a =>
      let (value, s) := expandText run a.2 s
      s.assign a.1 value) s₁
  if s₂.ending.isSome then restore s s₂ redirects
  else if !ok then
    restore s (if fields.head?.any specialNames.contains then s₁.exit 2 else s₁) redirects
  else
    match fields with
    | [] => restore s (s₂.finish s₂.inner) redirects
    | "exec" :: [] => s₂.finish 0
    | "exec" :: name :: arguments => replaceBy run name arguments s₂
    | name :: arguments =>
      let result :=
        match builtin? run name arguments s₂ with
        | some s => s
        | none =>
          let seen := assignments.foldl (fun (s : State) a => s.reveal a.1) s₂
          { runProgram run name arguments seen with
            bindings := s₁.bindings
            hidden := s₁.hidden }
      restore s result redirects

/-- Ends a strict shell whose command has failed. -/
def checked (s : State) : State :=
  if s.strict && !s.tested && s.code ≠ 0 && s.ending.isNone then
    { s with ending := some (.exited s.code) }
  else s

/-- Runs a command whose failure ends nothing. -/
def testing (run : Runner) (c : Command) (s : State) : State :=
  { run c { s with tested := true } with tested := s.tested }

/-- Goes on unless the shell has come to its end. -/
def next (s : State) (f : State → State) : State := if s.ending.isSome then s else f s

/-- Runs one command by means of a runner for those inside it. -/
def step (run : Runner) (c : Command) (s : State) : State :=
  match c with
  | .nothing => s
  | .simple line assignments words redirects =>
    checked (runSimple run line assignments words redirects s)
  | .sequence a b => next (run a s) (run b)
  | .andThen a b =>
    next (testing run a s) fun s => if s.code = 0 then run b s else s
  | .orElse a b =>
    next (testing run a s) fun s => if s.code = 0 then s else run b s
  | .negated a => next (testing run a s) fun s => s.finish (if s.code = 0 then 1 else 0)
  | .pipe a b =>
    let (left, i) := s.withBuffer
    let first := run a left
    let s₁ := s.adopt first
    let passed := (s₁.buffers[i]?.getD #[]).toList
    let second := run b
      { s₁ with buffers := s₁.buffers.take i, input := passed, isInputFile := false }
    checked ({ s.adopt second with input := s.input }.finish second.endingOf.code)
  | .subshell a =>
    let child := run a s
    match child.ending with
    -- the signal goes to the shell, whose number its children know as their own
    | some (.signaled n) => { s.adopt child with ending := some (.signaled n) }
    | _ => checked ((s.adopt child).finish child.endingOf.code)
  | .choice condition yes no =>
    next (testing run condition s) fun s =>
      if s.code = 0 then run yes s else run no (if no matches .nothing then s.finish 0 else s)
  | .loop wanted condition body =>
    let tested := testing run condition s
    next tested fun s =>
      if (s.code = 0) = wanted then next (run body s) (run (.loop wanted condition body))
      else s.finish 0
  | .each name words body =>
    let (fields, s) := expandAll run words s
    fields.foldl (fun s f => next s fun s => run body (s.assign name f))
      (if fields = [] then s.finish 0 else s)
  | .select line word arms =>
    let (text, s) := expandText run word { s with line }
    chosen text arms s
  | .redirected line a redirects =>
    let (s₁, ok) := redirectAll run redirects { s with line }
    restore s (if ok then run a s₁ else s₁) redirects
where
  /-- Runs the first command whose patterns fit the text. -/
  chosen (text : String) : List (List Word × Command) → State → State
    | [], s => s.finish 0
    | (patterns, body) :: rest, s =>
      let (fit, s) := fitsSome run text patterns s
      if fit then run body s else chosen text rest s

/-- Runs a command; a shell that runs out of fuel ends. -/
def run : (fuel : Nat) → Runner
  | 0, _, s => { s with ending := some (.signaled 9) }
  | fuel + 1, c, s => step (run fuel) c s

/-- The bound on loops and nesting. -/
def runFuel : Nat := 100000

end Findings.Sandbox.Shell
