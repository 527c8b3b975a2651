import Findings.Diagnostics

/-!
# Reports

The two forms in which diagnostics are printed, both in position order: one line of text each, or
one JSON list of objects.
-/

set_option autoImplicit false

namespace Findings.Report

/-! ### Text -/

def textLine (e : Position × String) : String := e.1.shown ++ ": " ++ e.2 ++ "\n"

/-- One line per diagnostic: `file:line: message`. -/
def text (m : Diagnostics) : String := String.join (m.toList.map textLine)

/-! ### JSON -/

/-- A hexadecimal digit in lower case. -/
def hexDigit (n : Nat) : Char := Nat.digitChar (n % 16)

/-- How a character stands in a JSON string. -/
def jsonChar (c : Char) : List Char :=
  if c = '"' then ['\\', '"']
  else if c = '\\' then ['\\', '\\']
  else if c = '\x08' then ['\\', 'b']
  else if c = '\x0C' then ['\\', 'f']
  else if c = '\n' then ['\\', 'n']
  else if c = '\r' then ['\\', 'r']
  else if c = '\t' then ['\\', 't']
  else if c.toNat < 0x20 then ['\\', 'u', '0', '0', hexDigit (c.toNat / 16), hexDigit c.toNat]
  else [c]

def jsonString (s : String) : String :=
  String.ofList ('"' :: s.toList.flatMap jsonChar ++ ['"'])

def jsonObject (e : Position × String) : String :=
  "  \x7b\n    \"filename\": " ++ jsonString e.1.filename ++
    ",\n    \"line\": " ++ toString e.1.line.toNat ++
    ",\n    \"message\": " ++ jsonString e.2 ++ "\n  \x7d"

/-- A list of objects with the members `filename`, `line` and `message`, indented by two spaces. -/
def json (m : Diagnostics) : String :=
  match m.toList with
  | [] => "[]"
  | entries => "[\n" ++ String.intercalate ",\n" (entries.map jsonObject) ++ "\n]"

end Findings.Report
