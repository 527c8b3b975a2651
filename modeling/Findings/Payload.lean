import Findings.SortedMap
import Findings.Text.Quoted

/-!
# Payloads

What an analyzer run writes: for every package the analyzers that looked at it, and for every
analyzer its findings, or `none` where it wrote no list.
-/

set_option autoImplicit false

namespace Findings

/-- One finding, as the analyzer wrote it. -/
structure Finding where
  posn : String
  message : String
deriving DecidableEq, Repr

/-- The results for one package, by analyzer. -/
abbrev Entry := SortedMap String (Option (List Finding))

/-- The entries of a run, by package. -/
abbrev Payload := SortedMap String Entry

def Finding.shown (d : Finding) : String :=
  "RawDiagnostic \x7b posn: " ++ Text.quote d.posn ++ ", message: " ++ Text.quote d.message ++
    " \x7d"

namespace Entry

/-- One analyzer's result in an error message. -/
def shownResult : Option (List Finding) → String
  | none => "None"
  | some l => "Some([" ++ String.intercalate ", " (l.map Finding.shown) ++ "])"

/-- The whole entry in an error message. -/
def shown (e : Entry) : String :=
  "\x7b" ++
    String.intercalate ", " (e.toList.map fun p => Text.quote p.1 ++ ": " ++ shownResult p.2) ++
    "\x7d"

end Entry

end Findings
