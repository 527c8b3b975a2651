import Findings.Path
import Findings.Session

/-!
# Which program an analyzer is

An absolute path names the program. A relative path of several components is taken from the
directory the analyzer runs in and made absolute, since the process changes into that directory
before the program is looked up. Any other name is looked for on the search path; if it is nowhere
there, it stays as it is, so that a failing start names it.
-/

set_option autoImplicit false

namespace Findings.Analyzer

/-- A directory of the search path, with a `~` at its start replaced by the home directory. -/
def expandHome (home directory : String) : String :=
  match Path.components directory with
  | .name "~" :: rest => rest.foldl (fun p c => Path.join p c.text) home
  | _ => directory

/-- The paths at which a name is looked for, in this order. -/
def candidates (home searchPath tool : String) : List String :=
  (segments ':' searchPath.toList).map fun directory =>
    Path.join (expandHome home (String.ofList directory)) tool

/-- The first of the paths that is executable, or `none`. -/
def firstExecutable : List String → Session (Option String)
  | [] => pure none
  | path :: rest => do
    if (← Session.request (.executable path)) then pure (some path) else firstExecutable rest

/-- Looks a name up on the search path. -/
def search (tool : String) : Session String := do
  match ← Session.request (.environment "PATH") with
  | none => pure tool
  | some searchPath =>
    let home ← Session.request (.environment "HOME")
    let found ← firstExecutable (candidates (home.getD "") searchPath tool)
    pure (found.getD tool)

/-- The path made absolute. The current directory is asked for only if the path starts there; where
it is not known, the path stays as it is. -/
def makeAbsolute (path : String) : Session String :=
  if Path.isAbsolute path then pure (Path.absolute "" path)
  else do
    match ← Session.request .currentDirectory with
    | some current => pure (Path.absolute current path)
    | none => pure path

/-- The program to start for `tool`, which will run in `directory`. -/
def resolve (tool directory : String) : Session String :=
  if Path.isAbsolute tool then pure tool
  else if (Path.components tool).length > 1 then makeAbsolute (Path.join directory tool)
  else search tool

end Findings.Analyzer
