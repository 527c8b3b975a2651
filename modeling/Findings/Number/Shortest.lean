import Findings.Number.Binary64

/-!
# Shortest decimal text

`shortest` gives the fewest decimal digits that read back as the same number and, among those, the
digits nearest to it. The numbers that read back are those between the midpoints to the two
neighbours, midpoints included when the significand is even. A grid of `n` digits has a point in
that interval only if one of the number's two neighbours on the grid is in it, so only these are
tried. Of two that are equally near, the use of the text decides (`Tie`). `plain` and `scientific`
write the digits out.
-/

set_option autoImplicit false

namespace Findings.Binary64

/-- The number `digits * 10 ^ exponent`. -/
structure Decimal where
  digits : Nat
  exponent : Int
deriving DecidableEq, Repr

/-- Which of two decimals is taken that are equally near to a number. -/
inductive Tie where
  /-- The one farther from zero. -/
  | away
  /-- The one whose last digit is even. -/
  | toEven
deriving DecidableEq, Repr

/-- Whether the tie between `low` and `low + 1` goes to `low`. -/
def Tie.takesLow (tie : Tie) (low : Nat) : Bool :=
  match tie with
  | away => false
  | toEven => low % 2 = 0

namespace Magnitude

/-- Compares a decimal with the quotient `num / den`. -/
def compareDecimal (digits : Nat) (exponent : Int) (num den : Nat) : Ordering :=
  if 0 ≤ exponent then compare (digits * Nat.pow 10 exponent.toNat * den) num
  else compare (digits * den) (num * Nat.pow 10 (-exponent).toNat)

/-- Whether the decimal is rounded to `x`. -/
def isReadBack (x : Magnitude) (digits : Nat) (exponent : Int) : Bool :=
  let even := x.significand % 2 = 0
  -- in quarters of a unit: below a power of two the gap is half as wide
  let below := if x.significand = Nat.pow 2 52 && x.exponent > -1074 then 1 else 2
  let (lowNum, lowDen) := scale (4 * x.significand - below) (x.exponent - 2)
  let (highNum, highDen) := scale (4 * x.significand + 2) (x.exponent - 2)
  let low := compareDecimal digits exponent lowNum lowDen
  let high := compareDecimal digits exponent highNum highDen
  (low = .gt || (low = .eq && even)) && (high = .lt || (high = .eq && even))

/-- The exponent of the leading decimal digit of a positive quotient. -/
def leadingDigit (num den : Nat) : Int :=
  let p : Int := ((Nat.toDigits 10 num).length : Int) - (Nat.toDigits 10 den).length
  if compareDecimal 1 p num den = .gt then p - 1 else p

/-- The decimal of at most `n` digits nearest to `x` that reads back as `x`. -/
def withDigits? (tie : Tie) (x : Magnitude) (n : Nat) : Option Decimal :=
  let (num, den) := x.ratio
  let exponent := leadingDigit num den - n + 1
  let (num, den) :=
    if 0 ≤ exponent then (num, den * Nat.pow 10 exponent.toNat)
    else (num * Nat.pow 10 (-exponent).toNat, den)
  let low := num / den
  let nearLow := compare (2 * (num % den)) den
  let lowFirst := nearLow = .lt || (nearLow = .eq && tie.takesLow low)
  let candidates := if lowFirst then [low, low + 1] else [low + 1, low]
  (candidates.find? fun d => d ≠ 0 && x.isReadBack d exponent).map (⟨·, exponent⟩)

/-- The shortest decimal that reads back as a positive number; 17 digits always do. -/
def shortest (tie : Tie) (x : Magnitude) : Decimal :=
  if x.significand = 0 then ⟨0, 0⟩
  else ((List.range 17).findSome? fun i => x.withDigits? tie (i + 1)).getD ⟨0, 0⟩

end Magnitude

namespace Decimal

/-- The digits without trailing zeros, and the exponent that goes with them. -/
def parts (d : Decimal) : List Char × Int :=
  let all := Nat.toDigits 10 d.digits
  let trailing := (all.reverse.takeWhile (· == '0')).length
  if d.digits = 0 then (['0'], 0) else (all.take (all.length - trailing), d.exponent + trailing)

/-- Without an exponent, and with a point: `0.25`, `1000.0`. -/
def plain (d : Decimal) : String :=
  let (digits, exponent) := d.parts
  let point := digits.length + exponent
  String.ofList <|
    if 0 ≤ exponent then digits ++ List.replicate exponent.toNat '0' ++ ['.', '0']
    else if 0 < point then digits.take point.toNat ++ '.' :: digits.drop point.toNat
    else ['0', '.'] ++ List.replicate (-point).toNat '0' ++ digits

/-- With one digit before the point and an exponent whose sign is always written: `1.5e+20`. -/
def scientific (d : Decimal) : String :=
  let (digits, exponent) := d.parts
  let power := digits.length + exponent - 1
  let fraction := if digits.length ≤ 1 then [] else '.' :: digits.drop 1
  String.ofList <|
    digits.take 1 ++ fraction ++ ['e', if power < 0 then '-' else '+'] ++
      Nat.toDigits 10 power.natAbs

/-- The exponent of the leading digit. -/
def power (d : Decimal) : Int := d.parts.1.length + d.parts.2 - 1

end Decimal

end Findings.Binary64
