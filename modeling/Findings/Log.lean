/-!
# Log entries

What a run says about its progress. The log is collected apart from the result and never decides
it.
-/

set_option autoImplicit false

namespace Findings

inductive LogLevel where
  | error
  | info
  | debug
  | trace
deriving DecidableEq, Repr

structure LogEntry where
  level : LogLevel
  text : String
deriving DecidableEq, Repr

def LogLevel.text : LogLevel → String
  | .error => "ERROR"
  | .info => "INFO"
  | .debug => "DEBUG"
  | .trace => "TRACE"

def LogEntry.shown (e : LogEntry) : String := e.level.text ++ " " ++ e.text

end Findings
