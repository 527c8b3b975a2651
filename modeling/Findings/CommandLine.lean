import Findings.Settings
import Findings.Text.Terminal

/-!
# The command line

The options of the program, how they are named and described, what a parsed command line says, and
why one is refused. Messages are for terminals: what they quote of the command line is only what a
terminal prints of it.
-/

set_option autoImplicit false

namespace Findings.CommandLine

/-- The options that take a value. -/
inductive Choice where
  | config
  | tool
  | analyzer
  | buildDirectory
  | buildCommand
  | replay
deriving DecidableEq, Repr

/-- The options that take none. -/
inductive Flag where
  | json
  | help
  | version
deriving DecidableEq, Repr

/-- What a value on the command line may be for. -/
inductive Target where
  | directory
  | choice (choice : Choice)
deriving DecidableEq, Repr

namespace Choice

def all : List Choice := [config, tool, analyzer, buildDirectory, buildCommand, replay]

def name : Choice → String
  | config => "config"
  | tool => "tool"
  | analyzer => "analyzer"
  | buildDirectory => "build-dir"
  | buildCommand => "build-command"
  | replay => "replay"

/-- What stands for the value where the option is shown. -/
def placeholder : Choice → String
  | config => "<CONFIG>"
  | tool => "<TOOL>"
  | analyzer => "<ANALYZER>"
  | buildDirectory => "<BUILD_DIR>"
  | buildCommand => "<BUILD_COMMAND>"
  | replay => "<REPLAY>"

def help : Choice → String
  | config => "Read driver settings from a TOML file."
  | tool => "Path to the NilAway binary (relative paths are taken from DIR)."
  | analyzer => "Analyzer key to read from each package entry."
  | buildDirectory => "Directory the build command runs in."
  | buildCommand => "Program and arguments used to rebuild NilAway."
  | replay =>
    "Normalize a previously captured JSON payload instead of building and running NilAway."

/-- The option's one-letter name. -/
def letter? : Choice → Option Char
  | config => some 'c'
  | _ => none

def shown (c : Choice) : String := "--" ++ c.name ++ " " ++ c.placeholder

/-- Whether the value is a path, which cannot be empty. -/
def isPath : Choice → Bool
  | config | tool | buildDirectory | replay => true
  | analyzer | buildCommand => false

end Choice

namespace Flag

def all : List Flag := [json, help, version]

def name : Flag → String
  | json => "json"
  | help => "help"
  | version => "version"

def helpText : Flag → String
  | json => "Print the collected diagnostics as JSON."
  | help => "Print help"
  | version => "Print version"

def letter? : Flag → Option Char
  | json => none
  | help => some 'h'
  | version => some 'V'

def shown (f : Flag) : String := "--" ++ f.name

end Flag

def Target.shown : Target → String
  | .directory => "<DIR>"
  | .choice c => c.shown

/-- What a command line says. -/
structure Options where
  /-- The project directory that the analyzer runs in. -/
  directory : String
  config : Option String := none
  tool : Option String := none
  analyzer : Option String := none
  buildDirectory : Option String := none
  buildCommand : List String := []
  replay : Option String := none
  json : Bool := false
deriving DecidableEq, Repr

/-- The settings with those of the command line in place of their own. -/
def Options.override (o : Options) (s : Settings) : Settings where
  buildCommand := if o.buildCommand = [] then s.buildCommand else o.buildCommand
  buildDirectory := o.buildDirectory.or s.buildDirectory
  tool := o.tool.getD s.tool
  analyzer := o.analyzer.getD s.analyzer
  extraArguments := s.extraArguments

inductive UsageError where
  | unknownArgument (text : String)
  | emptyValue (target : Target)
  | repeated (target : Target)
  | repeatedFlag (flag : Flag)
  | unexpectedValue (value : String) (flag : Flag)
  | missingDirectory
deriving DecidableEq, Repr

/-- Why there is nothing to run. -/
inductive Stop where
  | help
  | version
  | refused (error : UsageError)
deriving DecidableEq, Repr

/-! ### Texts -/

def programName : String := "nilaway-e"

def versionText : String := programName ++ " 0.1.0\n"

/-- One line of the list of options, the description starting in a common column. -/
def optionLine (letter : Option Char) (shown help : String) : String :=
  let names :=
    match letter with
    | some c => "  -" ++ c.toString ++ ", " ++ shown
    | none => "      " ++ shown
  names ++ String.ofList (List.replicate (39 - names.length) ' ') ++ help ++ "\n"

def usageLine : String := "Usage: " ++ programName ++ " [OPTIONS] <DIR>\n"

def helpText : String :=
  "Run NilAway as a standalone binary on a test project and print one diagnostic per line.\n\n" ++
    usageLine ++ "\n" ++
    "Arguments:\n  <DIR>  The project directory NilAway is run in\n\n" ++
    "Options:\n" ++
    String.join (Choice.all.map fun c => optionLine c.letter? c.shown c.help) ++
    String.join (Flag.all.map fun f => optionLine f.letter? f.shown f.helpText)

/-- What is wrong with the command line. -/
def UsageError.problem : UsageError → String
  | .unknownArgument text => "unexpected argument '" ++ Text.Terminal.printed text ++ "' found"
  | .emptyValue target => "a value is required for '" ++ target.shown ++ "' but none was supplied"
  | .repeated target => "the argument '" ++ target.shown ++ "' cannot be used multiple times"
  | .repeatedFlag flag => "the argument '" ++ flag.shown ++ "' cannot be used multiple times"
  | .unexpectedValue value flag =>
    "unexpected value '" ++ Text.Terminal.printed value ++ "' for '" ++ flag.shown ++
      "' found; no more were expected"
  | .missingDirectory => "the following required arguments were not provided:\n  <DIR>"

def UsageError.message (e : UsageError) : String :=
  "error: " ++ e.problem ++ "\n\n" ++ usageLine ++ "\nFor more information, try '--help'.\n"

/-- The first line of the message. What is quoted may break it off. -/
def UsageError.headline (e : UsageError) : String :=
  String.ofList (firstLine e.message.toList)

end Findings.CommandLine
