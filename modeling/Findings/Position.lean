import Findings.Text.Quoted
import Findings.Text.Segments

/-!
# Positions

A position is a file name and a line. Analyzers write positions as `file:line:column`;
`Position.ofPosn` reads that form and drops the column. Positions are ordered by file name, code
point by code point, and then by line.
-/

set_option autoImplicit false

namespace Findings

/-- A line of a file. The name is kept as the analyzer wrote it. -/
structure Position where
  filename : String
  line : UInt32
deriving DecidableEq, Repr

/-- Why a text is not a line number of 32 bits. -/
inductive LineError where
  | empty
  | invalidDigit
  | tooLarge
deriving DecidableEq, Repr

inductive PositionError where
  | segmentCount (count : Nat)
  | line (text : String) (cause : LineError)
deriving DecidableEq, Repr

def LineError.message : LineError → String
  | .empty => "cannot parse integer from empty string"
  | .invalidDigit => "invalid digit found in string"
  | .tooLarge => "number too large to fit in target type"

namespace PositionError

def message : PositionError → String
  | .segmentCount n => "expected 3 colon-separated parts, got " ++ toString n
  | .line text cause => "convert line number " ++ Text.quote text ++ ": " ++ cause.message

/-- The messages of the errors behind this one, outermost first. -/
def causes : PositionError → List String
  | .segmentCount _ => []
  | .line _ cause => [cause.message]

end PositionError

namespace Position

def digit? (c : Char) : Option Nat :=
  if c.isDigit then some (c.toNat - '0'.toNat) else none

/-- Appends decimal digits to `n`. The leftmost problem decides: a character that is no digit, or
the digit that takes the number out of range. -/
def appendDigits (n : UInt32) : List Char → Except LineError UInt32
  | [] => .ok n
  | c :: cs =>
    match digit? c with
    | none => .error .invalidDigit
    | some d =>
      if n.toNat * 10 + d < UInt32.size then appendDigits (.ofNat (n.toNat * 10 + d)) cs
      else .error .tooLarge

/-- Reads a line number: decimal digits, after at most one plus sign. -/
def readLine : List Char → Except LineError UInt32
  | [] => .error .empty
  | ['+'] => .error .invalidDigit
  | '+' :: cs => appendDigits 0 cs
  | cs => appendDigits 0 cs

/-- Reads the form `file:line:column`. The column is not looked at. -/
def ofPosn (posn : String) : Except PositionError Position :=
  match segments ':' posn.toList with
  | [filename, line, _] =>
    match readLine line with
    | .ok n => .ok ⟨String.ofList filename, n⟩
    | .error cause => .error (.line (String.ofList line) cause)
  | parts => .error (.segmentCount parts.length)

/-- The form `file:line`. -/
def shown (p : Position) : String := p.filename ++ ":" ++ toString p.line.toNat

instance : Ord Position where
  compare := compareLex (compareOn filename) (compareOn line)

instance : Std.TransOrd Position :=
  inferInstanceAs (Std.TransCmp (compareLex (compareOn filename) (compareOn line)))

instance : Std.LawfulEqOrd Position where
  eq_of_compare {p q} h := by
    have h : compareLex (compareOn filename) (compareOn line) p q = .eq := h
    simp only [compareLex, compareOn, Ordering.then_eq_eq, Std.LawfulEqOrd.compare_eq_iff_eq] at h
    cases p; cases q; simp_all

end Position

end Findings
