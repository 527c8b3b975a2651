import Findings.Analyzer.Arguments
import Findings.Analyzer.Lookup
import Findings.Diagnostics
import Findings.Settings

/-!
# Running the analyzer

A run gets raw output from a source and collects the diagnostics in it. The output comes from a
fresh build of the analyzer, run in the target directory, or from a file captured earlier.
-/

set_option autoImplicit false

namespace Findings.Run

/-- Runs a process and returns what it wrote. -/
def capture (c : Command) : Session (Except Interrupted (List UInt8)) := do
  return captured c.display.program (← Session.request (.process c))

def debug (text : String) : Session Unit := Session.logAll [⟨.debug, text⟩]

/-- Rebuilds the analyzer. -/
def build (s : Settings) : Session (Except Failure Unit) :=
  match s.buildCommand with
  | [] => pure (.error (.build (.notStarted "" (.other "empty build command")) ""))
  | program :: arguments => do
    let command : Command := ⟨program, arguments, s.buildDirectory⟩
    debug ("building analyzer: " ++ command.shown)
    match ← capture command with
    | .ok _ => return .ok ()
    | .error e => return .error (.build e.error (Utf8.lossy e.output))

/-- Runs the analyzer in `directory` and returns its output. -/
def invoke (s : Settings) (directory : String) : Session (Except Failure (List UInt8)) := do
  let program ← Analyzer.resolve s.tool directory
  let command :=
    (Analyzer.Arguments.standalone.addExtra s.extraArguments).command program directory
  debug ("running analyzer in " ++ directory ++ ": " ++ command.shown)
  match ← capture command with
  | .ok output => return .ok output
  | .error e => return .error (.invocation e.error (Utf8.lossy e.output))

/-- Rebuilds the analyzer and runs it. A stale analyzer never runs: if the build fails, nothing else
happens. -/
def live (s : Settings) (directory : String) : Session (Except Failure (List UInt8)) := do
  match ← build s with
  | .error e => return .error e
  | .ok () => invoke s directory

/-- Reads output captured earlier. -/
def replay (path : String) : Session (Except Failure (List UInt8)) := do
  debug ("replaying captured output from " ++ path)
  match ← Session.request (.file path) with
  | .ok bytes => return .ok bytes
  | .error cause => return .error (.replay path cause)

/-- Collects the findings of `analyzer` from the output of `source`; `directory` is only named in
the log. -/
def collect (source : Session (Except Failure (List UInt8))) (analyzer directory : String) :
    Session (Except Failure Diagnostics) := do
  match ← source with
  | .error e => return .error e
  | .ok raw =>
    let collected := Diagnostics.collectBytes analyzer raw
    Session.logAll collected.logged
    match collected.result with
    | .error e => return .error e
    | .ok m =>
      Session.logAll
        [⟨.info, toString m.size ++ " diagnostics collected from " ++ directory⟩]
      return .ok m

/-- Builds the analyzer, runs it in `directory` and collects its findings. -/
def collectLive (s : Settings) (directory : String) : Session (Except Failure Diagnostics) :=
  collect (live s directory) s.analyzer directory

end Findings.Run
