import Findings.Text.Segments

/-!
# Paths

Paths are texts with slashes between their components. `join` and `absolute` work on the text alone
and never look at files, so they keep every `..` where it stands.
-/

set_option autoImplicit false

namespace Findings.Path

inductive Component where
  | root
  | current
  | parent
  | name (text : String)
deriving DecidableEq, Repr

def Component.text : Component → String
  | .root => "/"
  | .current => "."
  | .parent => ".."
  | .name text => text

/-- A component other than the first of its path: a `.` there says nothing. -/
def inner? (s : List Char) : Option Component :=
  if s = [] ∨ s = ['.'] then none
  else if s = ['.', '.'] then some .parent
  else some (.name (String.ofList s))

def isAbsolute (path : String) : Bool := path.toList.head? = some '/'

def endsWithSlash (path : String) : Bool := path.toList.getLast? = some '/'

/-- The components of a path. Repeated slashes count once; a `.` counts at the start of a relative
path only. -/
def components (path : String) : List Component :=
  let parts := segments '/' path.toList
  let inner := parts.filterMap inner?
  if isAbsolute path then .root :: inner
  else if parts.head? = some ['.'] then .current :: inner
  else inner

/-- The path that `path` names when looked at from `base`. -/
def join (base path : String) : String :=
  if isAbsolute path || base = "" || endsWithSlash base then
    if isAbsolute path then path else base ++ path
  else base ++ "/" ++ path

/-- The components that say where a relative path leads. -/
def steps (path : String) : List Component := (components path).filter (· ≠ .current)

/-- Whether a path starts with two slashes and not more, which may mean a place of its own. -/
def hasTwoSlashes (path : String) : Bool :=
  match path.toList with
  | '/' :: '/' :: '/' :: _ => false
  | '/' :: '/' :: _ => true
  | _ => false

/-- The path made absolute from the directory `current`. A slash at its end stays. -/
def absolute (current path : String) : String :=
  let start :=
    if hasTwoSlashes path then "//" else if isAbsolute path then "/" else current
  let body := ((steps path).filter (· ≠ .root)).foldl (fun p c => join p c.text) start
  if endsWithSlash path then join body "" else body

end Findings.Path
