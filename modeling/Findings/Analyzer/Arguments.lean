import Findings.Process

/-!
# Arguments of an analyzer

The arguments that an analyzer is started with: its flags in the order in which they were asked
for, then further words, and the package pattern last.
-/

set_option autoImplicit false

namespace Findings.Analyzer

structure Arguments where
  flags : List String := []
  extra : List String := []
  pattern : Option String := none
deriving DecidableEq, Repr

/-- The pattern of all packages under the directory that the analyzer runs in. -/
def allPackages : String := "./..."

namespace Arguments

def empty : Arguments := {}

instance : Inhabited Arguments := ⟨empty⟩

def addFlag (a : Arguments) (flag : String) : Arguments := { a with flags := a.flags ++ [flag] }

/-- Asks for JSON output. The analyzer writes text unless it is asked, so nothing is added to say
no. -/
def json (a : Arguments) (enabled : Bool) : Arguments := if enabled then a.addFlag "-json" else a

def prettyPrint (a : Arguments) (enabled : Bool) : Arguments :=
  a.addFlag ("-pretty-print=" ++ toString enabled)

def groupMessages (a : Arguments) (enabled : Bool) : Arguments :=
  a.addFlag ("-group-error-messages=" ++ toString enabled)

/-- Sets the package pattern, in place of an earlier one. -/
def withPattern (a : Arguments) (pattern : String) : Arguments := { a with pattern := some pattern }

def addExtra (a : Arguments) (words : List String) : Arguments :=
  { a with extra := a.extra ++ words }

/-- JSON on one line with every finding on its own, for all packages. Grouped messages would merge
findings. -/
def standalone : Arguments :=
  empty.json true |>.prettyPrint false |>.groupMessages false |>.withPattern allPackages

/-- The words in the order in which the analyzer gets them. -/
def toList (a : Arguments) : List String := a.flags ++ a.extra ++ a.pattern.toList

/-- Starts `program` with the arguments in `directory`. -/
def command (a : Arguments) (program directory : String) : Command :=
  ⟨program, a.toList, some directory⟩

end Arguments

end Findings.Analyzer
