/-!
# Processes

What it takes to start a process, how one ends, and why one does not end well.
-/

set_option autoImplicit false

namespace Findings

/-- Why the system refused a request. -/
inductive SystemError where
  | noSuchFile
  | tooLongArguments
  | notExecutableFormat
  | permissionDenied
  | fileExists
  | notADirectory
  | isADirectory
  | tooLongName
  | tooManyLinks
  | notImplemented
  /-- A refusal that has no number, in its own words. -/
  | other (text : String)
deriving DecidableEq, Repr

namespace SystemError

/-- The refusal in words. -/
def description : SystemError → String
  | .noSuchFile => "No such file or directory"
  | .tooLongArguments => "Argument list too long"
  | .notExecutableFormat => "Exec format error"
  | .permissionDenied => "Permission denied"
  | .fileExists => "File exists"
  | .notADirectory => "Not a directory"
  | .isADirectory => "Is a directory"
  | .tooLongName => "File name too long"
  | .notImplemented => "Function not implemented"
  | .tooManyLinks => "Too many levels of symbolic links"
  | .other text => text

/-- The number that the system gives the refusal. -/
def number? : SystemError → Option Nat
  | .noSuchFile => some 2
  | .tooLongArguments => some 7
  | .notExecutableFormat => some 8
  | .permissionDenied => some 13
  | .fileExists => some 17
  | .notADirectory => some 20
  | .isADirectory => some 21
  | .tooLongName => some 36
  | .notImplemented => some 38
  | .tooManyLinks => some 40
  | .other _ => none

def message (e : SystemError) : String :=
  match e.number? with
  | some n => e.description ++ " (os error " ++ toString n ++ ")"
  | none => e.description

end SystemError

/-- A program with its arguments and the directory it starts in, the current one if none is
given. -/
structure Command where
  program : String
  arguments : List String
  directory : Option String
deriving DecidableEq, Repr

/-- A word of a command as it is shown. One with a NUL character cannot be handed to a process, and
a fixed text stands for it. -/
def shownWord (word : String) : String :=
  if '\x00' ∈ word.toList then "<string-with-nul>" else word

/-- The command with its words as they are shown. -/
def Command.display (c : Command) : Command :=
  ⟨shownWord c.program, c.arguments.map shownWord, c.directory.map shownWord⟩

/-- The words of a command, separated by spaces. -/
def Command.shown (c : Command) : String :=
  String.intercalate " " (c.display.program :: c.display.arguments)

/-- How a process ended. -/
inductive ExitStatus where
  | exited (code : UInt8)
  /-- A signal ended it; `dumped` tells whether it left a core dump. -/
  | signaled (number : Nat) (dumped : Bool)
deriving DecidableEq, Repr

namespace ExitStatus

def isSuccess (s : ExitStatus) : Bool := s = .exited 0

/-- The names of the signals, from the first on. -/
def signalNames : List String :=
  ["SIGHUP", "SIGINT", "SIGQUIT", "SIGILL", "SIGTRAP", "SIGABRT", "SIGBUS", "SIGFPE", "SIGKILL",
    "SIGUSR1", "SIGSEGV", "SIGUSR2", "SIGPIPE", "SIGALRM", "SIGTERM", "SIGSTKFLT", "SIGCHLD",
    "SIGCONT", "SIGSTOP", "SIGTSTP", "SIGTTIN", "SIGTTOU", "SIGURG", "SIGXCPU", "SIGXFSZ",
    "SIGVTALRM", "SIGPROF", "SIGWINCH", "SIGIO", "SIGPWR", "SIGSYS"]

def signalName? (number : Nat) : Option String :=
  if number = 0 then none else signalNames[number - 1]?

def shown : ExitStatus → String
  | .exited code => "exit status: " ++ toString code.toNat
  | .signaled number dumped =>
    let name :=
      match signalName? number with
      | some name => " (" ++ name ++ ")"
      | none => ""
    "signal: " ++ toString number ++ name ++ if dumped then " (core dumped)" else ""

end ExitStatus

/-- What a process left behind when it ended. -/
structure Ended where
  status : ExitStatus
  stdout : List UInt8
  stderr : List UInt8
deriving DecidableEq, Repr

/-- Why a process brought no result. -/
inductive ProcessError where
  | notStarted (program : String) (cause : SystemError)
  | failed (program : String) (status : ExitStatus)
deriving DecidableEq, Repr

namespace ProcessError

def message : ProcessError → String
  | .notStarted program cause => "failed to start `" ++ program ++ "`: " ++ cause.message
  | .failed program status => "`" ++ program ++ "` exited with " ++ status.shown

/-- The messages of the errors behind this one. -/
def causes : ProcessError → List String
  | .notStarted _ cause => [cause.message]
  | .failed _ _ => []

end ProcessError

/-- A process that brought no result, and what it had written until then. -/
structure Interrupted where
  error : ProcessError
  output : List UInt8
deriving DecidableEq, Repr

/-- The output of a process that ended well: what it wrote to standard output, followed by what it
wrote to standard error. -/
def captured (program : String) : Except SystemError Ended → Except Interrupted (List UInt8)
  | .error cause => .error ⟨.notStarted program cause, []⟩
  | .ok e =>
    if e.status.isSuccess then .ok (e.stdout ++ e.stderr)
    else .error ⟨.failed program e.status, e.stdout ++ e.stderr⟩

end Findings
