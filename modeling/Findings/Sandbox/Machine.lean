import Findings.Sandbox.Shell.Run
import Findings.Session

/-!
# A machine in memory

Surroundings for sessions: a file tree, a current directory and an environment. Processes run the
utilities of the sandbox and shell scripts among the files.
-/

set_option autoImplicit false

namespace Findings.Sandbox

structure Machine where
  tree : FileTree
  here : Place
  environment : List (String × String)

namespace Machine

/-- The files of a system without any of its users' own. -/
def systemTree : FileTree :=
  let programs := Utility.utilityNames.foldl
    (fun (t : FileTree) name =>
      (t.put ["usr", "bin", name] (.utility name)).put ["bin", name] (.utility name))
    ((default : FileTree).makeDirectory ["usr", "bin"])
  ((programs.makeDirectory ["bin"]).makeDirectory ["tmp"]).makeDirectory ["dev"]
    |>.put ["dev", "null"] .sink

/-- A machine whose only user is at home in `directory`, which is also the current one. -/
def empty (directory searchPath : String) : Machine where
  tree := systemTree.makeDirectory (FileTree.names directory)
  here := FileTree.names directory
  environment := [("HOME", directory ++ "/home"), ("PATH", searchPath)]

def lookup? (m : Machine) (name : String) : Option String :=
  (m.environment.find? (·.1 == name)).map (·.2)

/-- The place of a path that need not lead anywhere yet. -/
def placeOf (m : Machine) (path : String) : Place :=
  (if Path.isAbsolute path then [] else m.here) ++ (FileTree.names path).filter (· ≠ ".")

/-- Writes a file, with the directories that it is in. -/
def writeFile (m : Machine) (path : String) (bytes : Bytes) (executable : Bool) : Machine :=
  let place := m.placeOf path
  { m with tree := (m.tree.makeDirectory place.dropLast).put place (.file bytes executable) }

/-- Makes a directory and those it is in. -/
def makeDirectory (m : Machine) (path : String) : Machine :=
  { m with tree := m.tree.makeDirectory (m.placeOf path) }

def hasNul (s : String) : Bool := s.toList.contains '\x00'

def read (m : Machine) (path : String) : Except SystemError Bytes :=
  if hasNul path then .error (.other "file name contained an unexpected NUL byte")
  else m.tree.read m.here path

def isExecutable (m : Machine) (path : String) : Bool :=
  match m.tree.find m.here path with
  | .ok (_, .file _ executable) => executable
  | .ok (_, .utility _) => true
  | _ => false

/-- The place that a process starts at. -/
def startPlace (m : Machine) : Option String → Except SystemError Place
  | none => .ok m.here
  | some directory =>
    match m.tree.find m.here directory with
    | .error e => .error e
    | .ok (place, .directory) => .ok place
    | .ok _ => .error .notADirectory

/-- Starts a process and waits for its end. The directory is changed before the program is looked
up. -/
def execute (m : Machine) (c : Command) : Except SystemError Ended × Machine :=
  if hasNul c.program || c.arguments.any hasNul || (c.directory.map hasNul).getD false then
    (.error (.other "nul byte found in provided data"), m)
  else
    match m.startPlace c.directory with
    | .error e => (.error e, m)
    | .ok place =>
      if c.program = "" then (.error .noSuchFile, m)
      else
        let paths := Shell.searchPaths (m.lookup? "PATH") c.program
        match Shell.lookup m.tree place c.arguments .noSuchFile paths with
        | .error e => (.error e, m)
        | .ok e =>
          let start : Shell.State := {
            tree := m.tree
            here := place
            name := c.program
            arguments := []
            bindings := m.environment
            outlets := [(1, .buffer 0), (2, .buffer 1)]
            buffers := #[#[], #[]]
          }
          let s := Shell.runUtility (Shell.run Shell.runFuel) start e.utility
            (e.interpreter.getD c.program) e.arguments
          -- No process of the sandbox leaves a core dump.
          let status : ExitStatus :=
            match s.endingOf with
            | .exited code => .exited code
            | .signaled n => .signaled n false
          (.ok ⟨status, (s.buffers[0]?.getD #[]).toList, (s.buffers[1]?.getD #[]).toList⟩,
            { m with tree := s.tree })

/-- Answers the requests of sessions. -/
def host : Host Machine where
  answer
    | .file path, m => (m.read path, m)
    | .executable path, m => (m.isExecutable path, m)
    | .environment name, m => (m.lookup? name, m)
    | .currentDirectory, m => (some (FileTree.path m.here), m)
    | .process c, m => m.execute c

end Machine

end Findings.Sandbox
