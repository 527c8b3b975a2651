import Findings.Program

/-!
# The program as a process

Answers the requests of the program from the real surroundings. Processes cannot be started from
here, so a run that is no replay ends with the failure to start its build.
-/

set_option autoImplicit false

namespace Findings.Main

/-- The refusal behind an error of the file system. -/
def refusal (e : IO.Error) : SystemError :=
  match e with
  | .noFileOrDirectory .. => .noSuchFile
  | .permissionDenied .. => .permissionDenied
  | .inappropriateType _ code _ => ofNumber code.toNat
  | .invalidArgument _ code _ => ofNumber code.toNat
  | .resourceExhausted _ code _ => ofNumber code.toNat
  | _ => .other (toString e)
where
  ofNumber (n : Nat) : SystemError :=
    ([.notADirectory, .isADirectory, .tooLongName, .tooManyLinks].find? fun r : SystemError =>
      r.number? == some n).getD (.other (toString e))

def readFile (path : String) : IO (Except SystemError (List UInt8)) :=
  try
    return .ok (← IO.FS.readBinFile path).toList
  catch e => return .error (refusal e)

/-- Whether a path leads to a file that can be read. -/
def isReadable (path : String) : IO Bool :=
  try
    let file ← IO.FS.Handle.mk path .read
    discard (file.read 1)
    return true
  catch _ => return false

def answer : (r : Request) → IO r.Answer
  | .file path => readFile path
  | .executable path => isReadable path
  | .environment name => IO.getEnv name
  | .currentDirectory => return some (← IO.currentDir).toString
  | .process _ => return .error .notImplemented

end Findings.Main

def main (arguments : List String) : IO UInt32 := do
  let outcome ← (Findings.Program.run arguments).runM Findings.Main.answer fun _ => pure ()
  (← IO.getStdout).putStr outcome.stdout
  (← IO.getStderr).putStr outcome.stderr
  return outcome.code.toUInt32
