import Findings.Toml.Number

/-!
# TOML dates and times

Days are checked against the calendar; a minute may have a leap second.
-/

set_option autoImplicit false

namespace Findings.Toml

/-- Reads a number of exactly `count` digits, continuing `n`. -/
def fixedDigits : (count n : Nat) → List Char → Option (Nat × List Char)
  | 0, n, s => some (n, s)
  | _ + 1, _, [] => none
  | count + 1, n, c :: s =>
    if isDigit c then fixedDigits count (n * 10 + digitValue c) s else none

/-- Reads a number of two digits that lies within bounds. -/
def field (low high : Nat) (s : List Char) : Option (Nat × List Char) := do
  let (n, rest) ← fixedDigits 2 0 s
  if low ≤ n && n ≤ high then return (n, rest) else none

def isLeapYear (year : Nat) : Bool := year % 4 = 0 && (year % 100 ≠ 0 || year % 400 = 0)

def daysInMonth (year month : Nat) : Nat :=
  if month = 2 then if isLeapYear year then 29 else 28
  else if month = 4 ∨ month = 6 ∨ month = 9 ∨ month = 11 then 30
  else 31

/-- Reads a date such as `1979-05-27`. -/
def date (s : List Char) : Option (List Char) := do
  let (year, s) ← fixedDigits 4 0 s
  let s ← exact '-' s
  let (month, s) ← field 1 12 s
  let s ← exact '-' s
  let (_, s) ← field 1 (daysInMonth year month) s
  return s

/-- Skips the digits after a decimal point, if there are any. -/
def skipFraction : List Char → List Char
  | '.' :: c :: s => if isDigit c then s.dropWhile isDigit else '.' :: c :: s
  | s => s

/-- Reads a time such as `07:32:00.5`. -/
def time (s : List Char) : Option (List Char) := do
  let (_, s) ← field 0 23 s
  let s ← exact ':' s
  let (_, s) ← field 0 59 s
  let s ← exact ':' s
  let (_, s) ← field 0 60 s
  return skipFraction s

/-- Reads the distance from universal time. -/
def offset : List Char → Option (List Char)
  | 'Z' :: s | 'z' :: s => some s
  | '+' :: s | '-' :: s => do
    let (_, s) ← field 0 23 s
    let s ← exact ':' s
    let (_, s) ← field 0 59 s
    return s
  | _ => none

/-- Reads what may follow a date: a separator, a time and perhaps an offset. -/
def timeAfterDate : List Char → Option (List Char)
  | 'T' :: s | 't' :: s | ' ' :: s => do
    let s ← time s
    return (offset s).getD s
  | _ => none

/-- Reads a date, a time or both. -/
def datetime (s : List Char) : Option (List Char) :=
  match date s with
  | some rest => some ((timeAfterDate rest).getD rest)
  | none => time s

end Findings.Toml
