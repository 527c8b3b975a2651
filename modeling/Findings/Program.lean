import Findings.CommandLine.Parse
import Findings.Report
import Findings.Run
import Findings.Settings.Reader

/-!
# The program

From the arguments to what is printed and the exit code. Settings come from the command line, else
from the settings file, else from the defaults; both the file's own settings and those in effect
must be valid. Nothing is printed to standard output unless the run succeeds.
-/

set_option autoImplicit false

namespace Findings

/-- What a run of the program prints and returns. Its log is apart from this. -/
structure Outcome where
  stdout : String
  stderr : String
  code : UInt8
deriving DecidableEq, Repr

namespace Program

/-! ### Error messages -/

/-- Puts `indent` before every line but the first. -/
def indentRest (indent text : String) : String :=
  String.intercalate ("\n" ++ indent) ((segments '\n' text.toList).map String.ofList)

/-- A number right-aligned in five columns. -/
def column (n : Nat) : String :=
  let digits := toString n
  String.ofList (List.replicate (5 - digits.length) ' ') ++ digits

/-- The numbered causes of an error. -/
def numbered (n : Nat) : List String → List String
  | [] => []
  | c :: cs => (column n ++ ": " ++ indentRest "       " c) :: numbered (n + 1) cs

/-- An error and its causes, outermost first. A single cause has no number. -/
def errorText (message : String) (causes : List String) : String :=
  let listed :=
    match causes with
    | [] => []
    | [cause] => ["    " ++ indentRest "    " cause]
    | causes => numbered 0 causes
  let chain := if listed = [] then "" else "\n\nCaused by:\n" ++ String.intercalate "\n" listed
  "Error: " ++ message ++ chain ++ "\n"

/-- The outcome of an error. -/
def failed (message : String) (causes : List String) : Outcome :=
  ⟨"", errorText message causes, 1⟩

/-! ### The run -/

/-- What is printed for a command line that asks for no run. -/
def stopped : CommandLine.Stop → Outcome
  | .help => ⟨CommandLine.helpText, "", 0⟩
  | .version => ⟨CommandLine.versionText, "", 0⟩
  | .refused e => ⟨"", e.message, 2⟩

/-- The settings of the file that the options name, or the defaults. -/
def baseSettings (o : CommandLine.Options) : Session (Except SettingsError Settings) :=
  match o.config with
  | some path => Settings.load path
  | none => pure (.ok {})

/-- The settings in effect. -/
def settings (o : CommandLine.Options) : Session (Except SettingsError Settings) := do
  match ← baseSettings o with
  | .error e => return .error e
  | .ok base => return (o.override base).validate.map fun _ => o.override base

/-- Collects diagnostics as the options and settings say. -/
def diagnostics (o : CommandLine.Options) (s : Settings) : Session (Except Failure Diagnostics) :=
  match o.replay with
  | some path => Run.collect (Run.replay path) s.analyzer o.directory
  | none => Run.collectLive s o.directory

/-- What is printed for a result. -/
def reported (o : CommandLine.Options) : Except Failure Diagnostics → Outcome
  | .error e => failed ("collect diagnostics for " ++ o.directory) (e.message :: e.causes)
  | .ok m => ⟨if o.json then Report.json m ++ "\n" else Report.text m, "", 0⟩

/-- What is logged for a result: a failure, with its text. -/
def resultLog : Except Failure Diagnostics → List LogEntry
  | .error e => [⟨.error, "driver failed: " ++ e.message⟩]
  | .ok _ => []

def runOptions (o : CommandLine.Options) : Session Outcome := do
  match ← settings o with
  | .error e => return failed e.message e.causes
  | .ok s =>
    let result ← diagnostics o s
    Session.logAll (resultLog result)
    return reported o result

/-- The program, given its arguments. -/
def run (arguments : List String) : Session Outcome :=
  match CommandLine.parse arguments with
  | .error stop => pure (stopped stop)
  | .ok o => runOptions o

end Program

end Findings
