/-!
# UTF-8

`units` cuts a byte sequence into well-formed characters and maximal ill-formed subparts. Reading
strictly (`decode?`) asks for characters only; reading leniently (`lossy`) puts U+FFFD where a
subpart is ill-formed.
-/

set_option autoImplicit false

namespace Findings.Utf8

/-- The bytes of a text. -/
def encode (s : String) : List UInt8 := s.toList.flatMap String.utf8EncodeChar

def isContinuation (b : UInt8) : Bool := 0x80 ≤ b && b ≤ 0xBF

/-- Which bytes may follow the lead byte of a sequence of three. Overlong forms and surrogates are
excluded here. -/
def isSecondOfThree (lead b : UInt8) : Bool :=
  if lead = 0xE0 then 0xA0 ≤ b && b ≤ 0xBF
  else if lead = 0xED then 0x80 ≤ b && b ≤ 0x9F
  else isContinuation b

/-- Which bytes may follow the lead byte of a sequence of four. Overlong forms and values beyond
U+10FFFF are excluded here. -/
def isSecondOfFour (lead b : UInt8) : Bool :=
  if lead = 0xF0 then 0x90 ≤ b && b ≤ 0xBF
  else if lead = 0xF4 then 0x80 ≤ b && b ≤ 0x8F
  else isContinuation b

/-- The six low bits of a continuation byte. -/
def payload (b : UInt8) : Nat := b.toNat % 64

/-- Reads the first unit of `b :: rest`: a character, or `none` for an ill-formed subpart, with the
bytes after it. -/
def next (b : UInt8) (rest : List UInt8) : Option Char × List UInt8 :=
  if b < 0x80 then (some (Char.ofNat b.toNat), rest)
  else if 0xC2 ≤ b && b ≤ 0xDF then
    match rest with
    | c :: r =>
      if isContinuation c then (some (Char.ofNat (b.toNat % 32 * 64 + payload c)), r)
      else (none, rest)
    | [] => (none, rest)
  else if 0xE0 ≤ b && b ≤ 0xEF then
    match rest with
    | c :: r =>
      if isSecondOfThree b c then
        match r with
        | d :: r₂ =>
          if isContinuation d then
            (some (Char.ofNat ((b.toNat % 16 * 64 + payload c) * 64 + payload d)), r₂)
          else (none, r)
        | [] => (none, r)
      else (none, rest)
    | [] => (none, rest)
  else if 0xF0 ≤ b && b ≤ 0xF4 then
    match rest with
    | c :: r =>
      if isSecondOfFour b c then
        match r with
        | d :: r₂ =>
          if isContinuation d then
            match r₂ with
            | e :: r₃ =>
              if isContinuation e then
                (some (Char.ofNat
                  (((b.toNat % 8 * 64 + payload c) * 64 + payload d) * 64 + payload e)), r₃)
              else (none, r₂)
            | [] => (none, r₂)
          else (none, r)
        | [] => (none, r)
      else (none, rest)
    | [] => (none, rest)
  else (none, rest)

theorem next_length_le (b : UInt8) (rest : List UInt8) :
    (next b rest).2.length ≤ rest.length := by
  fun_cases next b rest <;> simp_all <;> omega

/-- The units of a byte sequence in order; `none` stands for an ill-formed subpart. -/
def units (bytes : List UInt8) : List (Option Char) :=
  go [] bytes
where
  /-- Collects units in reverse. -/
  go (acc : List (Option Char)) : List UInt8 → List (Option Char)
    | [] => acc.reverse
    | b :: rest =>
      have := next_length_le b rest
      go ((next b rest).1 :: acc) (next b rest).2
  termination_by l => l.length
  decreasing_by simp_wf; omega

/-- The text that the bytes spell, if they are well formed throughout. -/
def decode? (bytes : List UInt8) : Option String :=
  ((units bytes).mapM id).map String.ofList

/-- The bytes from the first ill-formed subpart on. -/
def illFormed : List UInt8 → List UInt8
  | [] => []
  | b :: rest =>
    have := next_length_le b rest
    if (next b rest).1.isSome then illFormed (next b rest).2 else b :: rest
termination_by l => l.length
decreasing_by simp_wf; omega

/-- The text that the bytes spell, with U+FFFD for every ill-formed subpart. -/
def lossy (bytes : List UInt8) : String :=
  String.ofList ((units bytes).map fun u => u.getD '\uFFFD')

end Findings.Utf8
