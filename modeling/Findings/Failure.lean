import Findings.Json.Fault
import Findings.Payload
import Findings.Position
import Findings.Process

/-!
# Failures

Every way in which collecting diagnostics fails. The first failure met is the result; none is
recovered from.
-/

set_option autoImplicit false

namespace Findings

inductive Failure where
  /-- The analyzer could not be rebuilt; `output` is what the build wrote. -/
  | build (cause : ProcessError) (output : String)
  /-- The analyzer did not run to a good end; `output` is what it wrote. -/
  | invocation (cause : ProcessError) (output : String)
  /-- The analyzer's output `raw` is no payload. -/
  | decode (cause : Json.ReadError) (raw : String)
  /-- The analyzer is missing in a package; `entry` shows what the package has. -/
  | schema (analyzer package entry : String)
  | malformedPosition (finding : Finding) (cause : PositionError)
  /-- Two findings concern one line. -/
  | duplicatePosition (position : Position) (existing incoming : String)
  /-- Captured output could not be read. -/
  | replay (path : String) (cause : SystemError)
deriving DecidableEq

namespace Failure

def message : Failure → String
  | build cause output => "build NilAway: " ++ cause.message ++ ": " ++ Text.quote output
  | invocation cause output => "run nilaway: " ++ cause.message ++ "\n" ++ output
  | decode cause _ => "decode nilaway output: " ++ cause.message
  | schema analyzer package entry =>
    "expect " ++ Text.quote analyzer ++ " key in result for package " ++ Text.quote package ++
      ", got " ++ entry
  | malformedPosition finding cause =>
    "malformed position in diagnostic " ++ finding.shown ++ ": " ++ cause.message
  | duplicatePosition position existing incoming =>
    "multiple diagnostics on the same line not supported at " ++ position.shown ++
      ", current: " ++ Text.quote existing ++ ", got: " ++ Text.quote incoming
  | replay path cause => "read captured output " ++ path ++ ": " ++ cause.message

/-- The messages of the errors behind this one, outermost first. -/
def causes : Failure → List String
  | build cause _ => cause.message :: cause.causes
  | invocation cause _ => cause.message :: cause.causes
  | decode cause _ => [cause.message]
  | schema .. => []
  | malformedPosition _ cause => cause.message :: cause.causes
  | duplicatePosition .. => []
  | replay _ cause => [cause.message]

end Failure

end Findings
