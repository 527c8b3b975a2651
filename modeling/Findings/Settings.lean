import Findings.Process
import Findings.Text.Blank
import Findings.Text.Quoted
import Findings.Toml.Excerpt

/-!
# Settings

How the analyzer is built and run, and why settings are refused.
-/

set_option autoImplicit false

namespace Findings

structure Settings where
  /-- Program and arguments that rebuild the analyzer before each run. -/
  buildCommand : List String := ["make", "build"]
  /-- Where the build runs, the current directory if none is given. -/
  buildDirectory : Option String := none
  /-- The analyzer. A relative path is taken from the directory it runs in. -/
  tool : String := "../../bin/nilaway"
  /-- The key of the analyzer's findings in every package's entry. -/
  analyzer : String := "nilaway"
  /-- Further arguments of the analyzer. -/
  extraArguments : List String := []
deriving DecidableEq, Repr

/-- The keys of a settings file. -/
inductive Settings.Field where
  | buildCommand
  | buildDirectory
  | tool
  | analyzer
  | extraArguments
deriving DecidableEq, Repr

namespace Settings

instance : Inhabited Settings := ⟨{}⟩

namespace Field

def all : List Field := [buildCommand, buildDirectory, tool, analyzer, extraArguments]

def name : Field → String
  | buildCommand => "build_command"
  | buildDirectory => "build_dir"
  | tool => "tool"
  | analyzer => "analyzer"
  | extraArguments => "extra_args"

def ofName? (name : String) : Option Field := all.find? (·.name == name)

end Field

/-- What stands where a value of another kind is wanted. -/
inductive Found where
  | string (text : String)
  | integer (value : Int)
  | float (value : Binary64)
  | boolean (value : Bool)
  | sequence
  | map
deriving DecidableEq, Repr

/-- The kinds of value that settings are made of. -/
inductive Wanted where
  | sequence
  | string
  | path
deriving DecidableEq, Repr

inductive Problem where
  | unknownField (name : String)
  | invalidType (found : Found) (wanted : Wanted)
deriving DecidableEq, Repr

/-- Why a settings file that was read is no settings. -/
inductive FileError where
  /-- A syntax error. Where it is and what it is are left out. -/
  | notToml
  /-- A problem with a part of the file's text. -/
  | unfit (text : String) (span : Toml.Span) (problem : Problem)
deriving DecidableEq, Repr

end Settings

inductive SettingsError where
  | unreadable (path : String) (cause : SystemError)
  | malformed (path : String) (cause : Settings.FileError)
  | emptyBuildCommand
deriving DecidableEq, Repr

namespace Settings

def floatText : Binary64 → String
  | .finite negative x => (if negative then "-" else "") ++ (x.shortest .away).plain
  | .infinite negative => if negative then "-inf" else "inf"
  | .nan => "NaN"

def Found.text : Found → String
  | .string s => "string " ++ Text.quote s
  | .integer n => "integer `" ++ toString n ++ "`"
  | .float x => "floating point `" ++ floatText x ++ "`"
  | .boolean b => "boolean `" ++ toString b ++ "`"
  | .sequence => "sequence"
  | .map => "map"

def Wanted.text : Wanted → String
  | .sequence => "a sequence"
  | .string => "a string"
  | .path => "path string"

def Problem.text : Problem → String
  | .unknownField name =>
    "unknown field `" ++ name ++ "`, expected one of " ++
      String.intercalate ", " (Field.all.map fun f => "`" ++ f.name ++ "`")
  | .invalidType found wanted => "invalid type: " ++ found.text ++ ", expected " ++ wanted.text

/-- The message of an error. That of a syntax error is its first words, which all of them have. -/
def FileError.message : FileError → String
  | .notToml => "TOML parse error"
  | .unfit text span problem => Toml.excerpt text.toList span problem.text

end Settings

namespace SettingsError

def message : SettingsError → String
  | unreadable path cause => "read config " ++ path ++ ": " ++ cause.message
  | malformed path cause => "parse config " ++ path ++ ": " ++ cause.message
  | emptyBuildCommand => "build_command must name a program"

/-- The messages of the errors behind this one. -/
def causes : SettingsError → List String
  | unreadable _ cause => [cause.message]
  | malformed _ cause => [cause.message]
  | emptyBuildCommand => []

end SettingsError

namespace Settings

/-- Settings are valid if the first word of the build command is not blank. -/
def validate (s : Settings) : Except SettingsError Unit :=
  match s.buildCommand with
  | program :: _ => if Text.isBlank program then .error .emptyBuildCommand else .ok ()
  | [] => .error .emptyBuildCommand

end Settings

end Findings
