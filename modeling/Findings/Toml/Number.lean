import Findings.Number.Binary64
import Findings.Toml.Scan

/-!
# TOML numbers

Integers of 64 bits in four bases and floats. Digits may be grouped by single underscores.
-/

set_option autoImplicit false

namespace Findings.Toml

def isDigit (c : Char) : Bool := '0' ≤ c && c ≤ '9'

def isHexDigit (c : Char) : Bool :=
  isDigit c || ('a' ≤ c && c ≤ 'f') || ('A' ≤ c && c ≤ 'F')

def isOctalDigit (c : Char) : Bool := '0' ≤ c && c ≤ '7'

def isBinaryDigit (c : Char) : Bool := c = '0' || c = '1'

/-- The value of a digit of any base. -/
def digitValue (c : Char) : Nat :=
  if isDigit c then c.toNat - '0'.toNat
  else if 'a' ≤ c && c ≤ 'f' then c.toNat - 'a'.toNat + 10
  else c.toNat - 'A'.toNat + 10

def ofDigits (base : Nat) (digits : List Char) : Nat :=
  digits.foldl (fun n c => n * base + digitValue c) 0

/-- Reads the digits after a first one, each after at most one underscore. -/
def moreDigits (isDigit : Char → Bool) : List Char → List Char × List Char
  | [] => ([], [])
  | '_' :: c :: s =>
    if isDigit c then
      let (ds, rest) := moreDigits isDigit s
      (c :: ds, rest)
    else ([], '_' :: c :: s)
  | c :: s =>
    if isDigit c then
      let (ds, rest) := moreDigits isDigit s
      (c :: ds, rest)
    else ([], c :: s)

/-- Reads at least one digit. -/
def digits (isDigit : Char → Bool) : List Char → Option (List Char × List Char)
  | [] => none
  | c :: s =>
    if isDigit c then
      let (ds, rest) := moreDigits isDigit s
      some (c :: ds, rest)
    else none

/-- Reads decimal digits; a zero in front stands alone. -/
def wholeDigits : List Char → Option (List Char × List Char)
  | '0' :: s => some (['0'], s)
  | s => digits isDigit s

/-- Reads a sign if there is one; `true` means that it is a minus. -/
def sign : List Char → Bool × List Char
  | '+' :: s => (false, s)
  | '-' :: s => (true, s)
  | s => (false, s)

/-- A number that may be an integer or a float. -/
inductive Number where
  | integer (value : Int)
  | float (value : Binary64)
deriving DecidableEq, Repr

/-- The integer, if it has 64 bits. -/
def integer? (negative : Bool) (magnitude : Nat) : Option Number :=
  let n : Int := if negative then -magnitude else magnitude
  if -(Nat.pow 2 63 : Nat) ≤ n && n < (Nat.pow 2 63 : Nat) then some (.integer n) else none

/-- Reads an integer with the given digits. -/
def basedInteger (base : Nat) (isDigit : Char → Bool) (s : List Char) :
    Option (Number × List Char) := do
  let (ds, rest) ← digits isDigit s
  let n ← integer? false (ofDigits base ds)
  return (n, rest)

/-- Reads the words for what is no finite number. -/
def special (negative : Bool) (s : List Char) : Option (Number × List Char) :=
  match exactAll ['i', 'n', 'f'] s with
  | some rest => some (.float (.infinite negative), rest)
  | none => (exactAll ['n', 'a', 'n'] s).map fun rest => (.float .nan, rest)

/-- Reads the digits after a point. -/
def fraction? : List Char → Option (List Char × List Char)
  | '.' :: s => digits isDigit s
  | _ => none

/-- Reads an exponent. -/
def exponent? : List Char → Option (Int × List Char)
  | c :: s =>
    if c = 'e' ∨ c = 'E' then
      let (negative, t) := sign s
      match digits isDigit t with
      | some (ds, rest) =>
        some (if negative then -(ofDigits 10 ds : Int) else ofDigits 10 ds, rest)
      | none => none
    else none
  | [] => none

/-- The float nearest to a decimal. One that is too large has no value, while one that is too small
is the negative infinity. -/
def float? (negative : Bool) (digits : Nat) (exponent : Int) : Option Number :=
  match Binary64.ofDecimal negative digits exponent with
  | .infinite false => none
  | x => some (.float x)

/-- Reads a decimal number; its sign has been read. -/
def decimal (negative : Bool) (s : List Char) : Option (Number × List Char) := do
  let (whole, t) ← wholeDigits s
  match fraction? t with
  | some (fraction, u) =>
    let (e, rest) := (exponent? u).getD (0, u)
    let x ← float? negative (ofDigits 10 (whole ++ fraction)) (e - fraction.length)
    return (x, rest)
  | none =>
    match exponent? t with
    | some (e, rest) =>
      let x ← float? negative (ofDigits 10 whole) e
      return (x, rest)
    | none =>
      let n ← integer? negative (ofDigits 10 whole)
      return (n, t)

/-- Reads a number. -/
def number (s : List Char) : Option (Number × List Char) :=
  match s with
  | '0' :: 'x' :: t => basedInteger 16 isHexDigit t
  | '0' :: 'o' :: t => basedInteger 8 isOctalDigit t
  | '0' :: 'b' :: t => basedInteger 2 isBinaryDigit t
  | _ =>
    let (negative, t) := sign s
    match special negative t with
    | some r => some r
    | none => decimal negative t

end Findings.Toml
