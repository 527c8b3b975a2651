/-!
# Shell scripts

The commands of a script and the words they are made of. A word keeps which of its pieces stand
between quotes, since those are neither split nor matched against file names.
-/

set_option autoImplicit false

namespace Findings.Sandbox.Shell

/-- What is wanted of a parameter. A parameter that is empty counts as unset if `emptyToo` is. -/
inductive Form where
  | value
  | length
  /-- The value, or the given text if it is unset. -/
  | fallback (emptyToo : Bool) (text : String)
  /-- The given text, or nothing if it is unset. -/
  | alternative (emptyToo : Bool) (text : String)
  /-- The value, which becomes the given text if it is unset. -/
  | assigned (emptyToo : Bool) (text : String)
  /-- The value, without which the shell ends. -/
  | required (emptyToo : Bool) (text : String)
deriving DecidableEq, Repr

inductive Part where
  | text (text : String)
  | parameter (name : String) (form : Form)
  /-- The output of a script. -/
  | output (script : String)
  /-- The value of an arithmetic expression. -/
  | arithmetic (expression : String)
deriving DecidableEq, Repr

structure Piece where
  quoted : Bool
  part : Part
deriving DecidableEq, Repr

abbrev Word := List Piece

/-- The text of a word without quotes and expansions. -/
def Word.plain? : Word → Option String
  | [⟨false, .text t⟩] => some t
  | _ => none

inductive Redirect where
  | input (file : Word)
  | output (channel : Nat) (file : Word)
  | append (channel : Nat) (file : Word)
  /-- Sends a channel where another one goes. -/
  | same (channel : Nat) (other : Word)
  /-- Text of the script itself as input. -/
  | here (text : Word)
deriving DecidableEq, Repr

inductive Command where
  | nothing
  | simple (line : Nat) (assignments : List (String × Word)) (words : List Word)
      (redirects : List Redirect)
  | sequence (first second : Command)
  | andThen (first second : Command)
  | orElse (first second : Command)
  | negated (command : Command)
  | pipe (first second : Command)
  | subshell (command : Command)
  | choice (condition yes no : Command)
  /-- Repeats the body while the condition comes out as wanted. -/
  | loop (wanted : Bool) (condition body : Command)
  | each (name : String) (words : List Word) (body : Command)
  /-- Runs the command of the first patterns that fit the word. -/
  | select (line : Nat) (word : Word) (arms : List (List Word × Command))
  | redirected (line : Nat) (command : Command) (redirects : List Redirect)

end Findings.Sandbox.Shell
