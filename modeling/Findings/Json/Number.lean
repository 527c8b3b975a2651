import Findings.Json.Token

/-!
# JSON numbers

`skipNumber` checks the grammar of a number and nothing else. `number` also finds its value, which
is wanted only to say what stands where another kind of value belongs: an integer if it fits 64
bits, else a float made from the leading digits that fit 64 bits and a power of ten.
-/

set_option autoImplicit false

namespace Findings.Json

def startsWithDigit : Bytes → Bool
  | [] => false
  | b :: _ => isDigit b

def skipDigits (s : Bytes) : Bytes := s.dropWhile isDigit

def isExponentMark (b : UInt8) : Bool := b = 0x65 || b = 0x45

/-! ### Skipping -/

/-- Skips an exponent; its mark has been read. -/
def skipExponent (s : Bytes) : Except Fault Bytes :=
  let afterSign :=
    match s with
    | b :: r => if b = 0x2B || b = 0x2D then r else s
    | [] => s
  match afterSign with
  | [] => stop .invalidNumber []
  | b :: r => if isDigit b then .ok (skipDigits r) else stop .invalidNumber r

def skipExponent? : Bytes → Except Fault Bytes
  | [] => .ok []
  | b :: r => if isExponentMark b then skipExponent r else .ok (b :: r)

/-- Skips what may follow the integer part. -/
def skipFraction : Bytes → Except Fault Bytes
  | [] => .ok []
  | b :: r =>
    if b = 0x2E then
      if startsWithDigit r then skipExponent? (skipDigits r) else stopAtNext .invalidNumber r
    else skipExponent? (b :: r)

/-- Skips a number; its sign has been read. -/
def skipNumber : Bytes → Except Fault Bytes
  | [] => stop .invalidNumber []
  | b :: r =>
    if b = 0x30 then
      if startsWithDigit r then stopAtNext .invalidNumber r else skipFraction r
    else if isDigit b then skipFraction (skipDigits r)
    else stop .invalidNumber r

theorem length_skipDigits_le (s : Bytes) : (skipDigits s).length ≤ s.length :=
  (List.dropWhile_sublist _).length_le

theorem length_of_skipExponent {s rest : Bytes} (h : skipExponent s = .ok rest) :
    rest.length ≤ s.length := by
  unfold skipExponent at h
  have hd := length_skipDigits_le
  cases s with
  | nil => simp [stop] at h
  | cons b r =>
    simp only at h
    split at h
    · simp [stop] at h
    next c r' hs =>
      have : r'.length + 1 ≤ r.length + 1 := by
        split at hs
        · subst hs; simp
        · cases hs; simp
      split at h
      · cases h; have := hd r'; simp only [List.length_cons]; omega
      · simp [stop] at h

theorem length_of_skipExponent? {s rest : Bytes} (h : skipExponent? s = .ok rest) :
    rest.length ≤ s.length := by
  unfold skipExponent? at h
  split at h
  · cases h; simp
  · split at h
    · have := length_of_skipExponent h; simp only [List.length_cons]; omega
    · cases h; simp

theorem length_of_skipFraction {s rest : Bytes} (h : skipFraction s = .ok rest) :
    rest.length ≤ s.length := by
  unfold skipFraction at h
  split at h
  · cases h; simp
  next b r =>
    split at h
    · split at h
      · have := length_of_skipExponent? h
        have := length_skipDigits_le r
        simp only [List.length_cons]; omega
      · cases h
    · exact length_of_skipExponent? h

theorem length_of_skipNumber {s rest : Bytes} (h : skipNumber s = .ok rest) :
    rest.length < s.length := by
  unfold skipNumber at h
  split at h
  · cases h
  next b r =>
    have := length_skipDigits_le r
    split at h
    · split at h
      · cases h
      · have := length_of_skipFraction h; simp only [List.length_cons]; omega
    · split at h
      · have := length_of_skipFraction h; simp only [List.length_cons]; omega
      · cases h

/-! ### Values -/

/-- The largest number of 64 bits. -/
def maxSignificand : Nat := Nat.pow 2 64 - 1

/-- The largest exponent whose digits are all counted. -/
def maxExponent : Nat := Nat.pow 2 31 - 1

def digitValue (b : UInt8) : Nat := b.toNat - 0x30

/-- Appends the leading digits of `s` to a number while it stays within the bound. Answers with the
number, how many digits went into it, and the bytes after these. -/
def takeDigits (bound : Nat) (value count : Nat) : Bytes → Nat × Nat × Bytes
  | [] => (value, count, [])
  | b :: s =>
    if isDigit b && value * 10 + digitValue b ≤ bound then
      takeDigits bound (value * 10 + digitValue b) (count + 1) s
    else (value, count, b :: s)

/-- A power of ten that the format has an entry for, itself rounded to the format. -/
def tenTo (n : Nat) : Option Binary64.Magnitude := Binary64.Magnitude.ofNat (Nat.pow 10 n)

/-- `x` divided by the largest power of ten `n` times, or until nothing is left. -/
def divideByLargest : Nat → Binary64.Magnitude → Option Binary64.Magnitude
  | 0, x => some x
  | n + 1, x =>
    if x.significand = 0 then some x else ((tenTo 308).bind x.div).bind (divideByLargest n)

/-- `x` times ten to the `exponent`, in steps that each round; `none` if it is too large. -/
def scaleByTen (x : Binary64.Magnitude) (exponent : Int) : Option Binary64.Magnitude :=
  if exponent < 0 then
    let n := exponent.natAbs
    let steps := (n - 1) / 308
    (divideByLargest steps x).bind fun y => (tenTo (n - 308 * steps)).bind y.div
  else if x.significand = 0 then some x
  else if exponent ≤ 308 then (tenTo exponent.natAbs).bind x.mul
  else none

/-- The float with the given digits, or a refusal if it is too large. -/
def float (negative : Bool) (significand : Nat) (exponent : Int) (rest : Bytes) :
    Except Fault (Found × Bytes) :=
  match (Binary64.Magnitude.ofNat significand).bind (scaleByTen · exponent) with
  | some x => .ok (.float negative x, rest)
  | none => stop .numberOutOfRange rest

/-- The value of a number whose exponent has been reached; its mark has been read. -/
def exponent (negative : Bool) (significand : Nat) (shift : Int) (s : Bytes) :
    Except Fault (Found × Bytes) :=
  let (down, s) :=
    match s with
    | b :: r => if b = 0x2B then (false, r) else if b = 0x2D then (true, r) else (false, s)
    | [] => (false, s)
  match s with
  | [] => stop .eofInValue []
  | b :: r =>
    if !isDigit b then stop .invalidNumber r
    else
      let (power, _, rest) := takeDigits maxExponent (digitValue b) 1 r
      if startsWithDigit rest then
        if significand ≠ 0 && !down then stop .numberOutOfRange (rest.drop 1)
        else .ok (.float negative .zero, skipDigits rest)
      else float negative significand (if down then shift - power else shift + power) rest

def exponent? (negative : Bool) (significand : Nat) (shift : Int) : Bytes →
    Except Fault (Found × Bytes)
  | [] => float negative significand shift []
  | b :: r =>
    if isExponentMark b then exponent negative significand shift r
    else float negative significand shift (b :: r)

/-- The value of a number whose fraction has been reached; the point has been read. -/
def fraction (negative : Bool) (significand : Nat) (shift : Int) : Bytes →
    Except Fault (Found × Bytes)
  | [] => stop .eofInValue []
  | s@(_ :: _) =>
    if !startsWithDigit s then stopAtNext .invalidNumber s
    else
      let (significand, places, rest) := takeDigits maxSignificand significand 0 s
      exponent? negative significand (shift - places) (skipDigits rest)

/-- An integer of 64 bits; a negative zero and a negative number out of range are floats. -/
def integer (negative : Bool) (n : Nat) (rest : Bytes) : Except Fault (Found × Bytes) :=
  if !negative then .ok (.integer n, rest)
  else if n ≠ 0 && n ≤ Nat.pow 2 63 then .ok (.integer (-n), rest)
  else float true n 0 rest

/-- The value of a number whose integer digits have been read. -/
def afterInteger (negative : Bool) (significand : Nat) (skipped : Nat) : Bytes →
    Except Fault (Found × Bytes)
  | b :: r =>
    if b = 0x2E then fraction negative significand skipped r
    else if isExponentMark b then exponent negative significand skipped r
    else if skipped = 0 then integer negative significand (b :: r)
    else float negative significand skipped (b :: r)
  | [] =>
    if skipped = 0 then integer negative significand [] else float negative significand skipped []

/-- Reads a number; its sign has been read. -/
def number (negative : Bool) : Bytes → Except Fault (Found × Bytes)
  | [] => stop .eofInValue []
  | b :: r =>
    if b = 0x30 then
      if startsWithDigit r then stopAtNext .invalidNumber r else afterInteger negative 0 0 r
    else if isDigit b then
      let (significand, _, rest) := takeDigits maxSignificand (digitValue b) 0 r
      -- digits beyond 64 bits only raise the exponent
      let after := skipDigits rest
      afterInteger negative significand (rest.length - after.length) after
    else stop .invalidNumber r

end Findings.Json
