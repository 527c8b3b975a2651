import Findings.Path
import Findings.Process
import Findings.Text.Utf8

/-!
# File trees

Files and directories in memory. A place is given by the names that lead to it from the root. Paths
are followed name by name, so a path through a missing directory or through a file is refused where
the first such name stands.
-/

set_option autoImplicit false

namespace Findings.Sandbox

abbrev Bytes := List UInt8

inductive Node where
  | directory
  | file (bytes : Bytes) (executable : Bool)
  /-- A program of the system, known by its name. -/
  | utility (name : String)
  /-- The file that is always empty. -/
  | sink
deriving DecidableEq, Repr

/-- The names that lead from the root to a place. -/
abbrev Place := List String

/-- What there is at every place other than the root. -/
structure FileTree where
  nodes : List (Place × Node)

namespace FileTree

instance : Inhabited FileTree := ⟨⟨[]⟩⟩

def node? (t : FileTree) (place : Place) : Option Node :=
  if place = [] then some .directory else (t.nodes.find? (·.1 == place)).map (·.2)

def put (t : FileTree) (place : Place) (n : Node) : FileTree :=
  if t.nodes.any (·.1 == place) then
    ⟨t.nodes.map fun e => if e.1 = place then (place, n) else e⟩
  else ⟨(place, n) :: t.nodes⟩

/-- The names in a directory, in ascending order. -/
def children (t : FileTree) (place : Place) : List String :=
  (t.nodes.filterMap fun e =>
    if e.1.dropLast = place then e.1.getLast? else none).mergeSort fun a b => a ≤ b

/-- Makes a directory and those it is in. -/
def makeDirectory (t : FileTree) (place : Place) : FileTree :=
  (List.range place.length).foldl
    (fun t i =>
      let outer := place.take (i + 1)
      if (t.node? outer).isSome then t else t.put outer .directory)
    t

/-- Follows names from `here`. The last one need not lead to anything. -/
def follow (t : FileTree) (here : Place) : List String → Except SystemError Place
  | [] => .ok here
  | name :: rest =>
    match t.node? here with
    | none => .error .noSuchFile
    | some .directory =>
      if name = "." then follow t here rest
      else if name = ".." then follow t here.dropLast rest
      else if name.utf8ByteSize > 255 then .error .tooLongName
      else follow t (here ++ [name]) rest
    | some _ => .error .notADirectory

/-- The names in a path. -/
def names (path : String) : List String :=
  ((segments '/' path.toList).filter (· ≠ [])).map String.ofList

/-- The place that a path leads to from `here`. A slash at its end asks for a directory. -/
def locate (t : FileTree) (here : Place) (path : String) : Except SystemError Place :=
  if path = "" then .error .noSuchFile
  else if path.utf8ByteSize ≥ 4096 then .error .tooLongName
  else
    match t.follow (if Path.isAbsolute path then [] else here) (names path) with
    | .error e => .error e
    | .ok place =>
      match t.node? place with
      | none | some .directory => .ok place
      | some _ => if Path.endsWithSlash path then .error .notADirectory else .ok place

/-- What is at the end of a path. -/
def find (t : FileTree) (here : Place) (path : String) : Except SystemError (Place × Node) :=
  match t.locate here path with
  | .error e => .error e
  | .ok place =>
    match t.node? place with
    | some n => .ok (place, n)
    | none => .error .noSuchFile

def isDirectory (t : FileTree) (here : Place) (path : String) : Bool :=
  match t.find here path with
  | .ok (_, .directory) => true
  | _ => false

def isFile (t : FileTree) (here : Place) (path : String) : Bool :=
  match t.find here path with
  | .ok (_, .file ..) => true
  | _ => false

/-- The bytes of a node that is no directory. -/
def Node.bytes? : Node → Option Bytes
  | .directory => none
  | .file bytes _ => some bytes
  | .utility name => some (Utf8.encode name)
  | .sink => some []

def read (t : FileTree) (here : Place) (path : String) : Except SystemError Bytes :=
  match t.find here path with
  | .error e => .error e
  | .ok (_, n) =>
    match Node.bytes? n with
    | some bytes => .ok bytes
    | none => .error .isADirectory

/-- The place of a file that can be written, an empty one being made if there is none. -/
def openForWriting (t : FileTree) (here : Place) (path : String) (truncate : Bool) :
    Except SystemError (Place × FileTree) :=
  match t.locate here path with
  | .error e => .error e
  | .ok place =>
    match t.node? place with
    | some .directory => .error .isADirectory
    | some (.file bytes executable) =>
      .ok (place, t.put place (.file (if truncate then [] else bytes) executable))
    | some _ => .ok (place, t)
    | none =>
      if Path.endsWithSlash path then .error .isADirectory
      else .ok (place, t.put place (.file [] false))

/-- Adds bytes to the end of a file. -/
def append (t : FileTree) (place : Place) (bytes : Bytes) : FileTree :=
  match t.node? place with
  | some (.file old executable) => t.put place (.file (old ++ bytes) executable)
  | _ => t

/-- A path of the place. -/
def path (place : Place) : String :=
  if place = [] then "/" else String.join (place.map ("/" ++ ·))

end FileTree

end Findings.Sandbox
