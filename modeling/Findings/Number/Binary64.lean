/-!
# Binary floating point

The numbers of the 64-bit binary format, as a sign and a magnitude over `Nat`. Every operation is
the exact one followed by `Magnitude.round`, which takes the nearest representable number and, of
two equally near, the one with the even significand.
-/

set_option autoImplicit false

namespace Findings.Binary64

/-- The number `significand * 2 ^ exponent`; a normal form has at most 53 bits and an exponent of
at least -1074. -/
structure Magnitude where
  significand : Nat
  exponent : Int
deriving DecidableEq, Repr

/-- The quotient rounded to the nearest integer, a half to the even one. -/
def roundQuotient (num den : Nat) : Nat :=
  let q := num / den
  let r := num % den
  if 2 * r > den || (2 * r = den && q % 2 = 1) then q + 1 else q

/-- `n` times two to the `e`, as a numerator and a denominator. -/
def scale (n : Nat) (e : Int) : Nat × Nat :=
  if 0 ≤ e then (n * Nat.pow 2 e.toNat, 1) else (n, Nat.pow 2 (-e).toNat)

/-- The exponent of the leading bit of a positive quotient. -/
def leadingExponent (num den : Nat) : Int :=
  let e : Int := (num.log2 : Int) - den.log2
  let (n, d) := scale 1 e
  if n * den ≤ num * d then e else e - 1

namespace Magnitude

def zero : Magnitude := ⟨0, 0⟩

/-- The number nearest to a quotient of naturals, or `none` beyond the largest finite one. -/
def round (num den : Nat) : Option Magnitude :=
  if num = 0 then some zero
  else
    let e := max (leadingExponent num den - 52) (-1074)
    let (n, d) := scale den e
    let m := roundQuotient (num * d) n
    let (m, e) := if m = Nat.pow 2 53 then (Nat.pow 2 52, e + 1) else (m, e)
    if m = 0 then some zero
    else if e > 971 then none
    else some ⟨m, e⟩

def ofNat (n : Nat) : Option Magnitude := round n 1

/-- The number as a numerator and a denominator. -/
def ratio (x : Magnitude) : Nat × Nat := scale x.significand x.exponent

def mul (x y : Magnitude) : Option Magnitude :=
  round (x.ratio.1 * y.ratio.1) (x.ratio.2 * y.ratio.2)

def div (x y : Magnitude) : Option Magnitude :=
  round (x.ratio.1 * y.ratio.2) (x.ratio.2 * y.ratio.1)

end Magnitude

end Findings.Binary64

namespace Findings

/-- A number of the 64-bit binary format. -/
inductive Binary64 where
  | finite (negative : Bool) (magnitude : Binary64.Magnitude)
  | infinite (negative : Bool)
  | nan
deriving DecidableEq, Repr

namespace Binary64

/-- The number nearest to `± digits * 10 ^ exponent`; beyond the finite numbers it is infinite. -/
def ofDecimal (negative : Bool) (digits : Nat) (exponent : Int) : Binary64 :=
  let length : Int := (Nat.toDigits 10 digits).length
  if digits = 0 || length + exponent < -330 then .finite negative Magnitude.zero
  else if length + exponent > 310 then .infinite negative
  else
    let m :=
      if 0 ≤ exponent then Magnitude.round (digits * Nat.pow 10 exponent.toNat) 1
      else Magnitude.round digits (Nat.pow 10 (-exponent).toNat)
    match m with
    | some m => .finite negative m
    | none => .infinite negative

end Binary64

end Findings
