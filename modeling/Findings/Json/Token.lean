import Findings.Json.Fault
import Findings.Text.Utf8

/-!
# JSON tokens

Blanks, literals, strings and numbers, read from the front of a byte sequence. A reader answers
with what it read and the bytes after it.
-/

set_option autoImplicit false

namespace Findings.Json

def isBlankByte (b : UInt8) : Bool := b = 0x20 || b = 0x0A || b = 0x09 || b = 0x0D

def skipBlank (s : Bytes) : Bytes := s.dropWhile isBlankByte

def isDigit (b : UInt8) : Bool := 0x30 ≤ b && b ≤ 0x39

/-! ### Literals -/

/-- Reads the remaining letters of a literal. -/
def literal : Bytes → Bytes → Except Fault Bytes
  | [], s => .ok s
  | _ :: _, [] => stop .eofInValue []
  | e :: es, b :: s => if b = e then literal es s else stop .expectedIdent s

/-- What follows the first letter of `null`, `true` and `false`. -/
def ullBytes : Bytes := [0x75, 0x6C, 0x6C]

def rueBytes : Bytes := [0x72, 0x75, 0x65]

def alseBytes : Bytes := [0x61, 0x6C, 0x73, 0x65]

/-! ### Strings -/

def hexDigit? (b : UInt8) : Option Nat :=
  if 0x30 ≤ b && b ≤ 0x39 then some (b.toNat - 0x30)
  else if 0x41 ≤ b && b ≤ 0x46 then some (b.toNat - 0x41 + 10)
  else if 0x61 ≤ b && b ≤ 0x66 then some (b.toNat - 0x61 + 10)
  else none

/-- The value of four hexadecimal digits. -/
def hexUnit? (a b c d : UInt8) : Option Nat := do
  let a ← hexDigit? a
  let b ← hexDigit? b
  let c ← hexDigit? c
  let d ← hexDigit? d
  return ((a * 16 + b) * 16 + c) * 16 + d

/-- Reads the four digits of a `\u` escape. -/
def hexUnit : Bytes → Except Fault (Nat × Bytes)
  | a :: b :: c :: d :: rest =>
    match hexUnit? a b c d with
    | some n => .ok (n, rest)
    | none => stop .invalidEscape rest
  | _ => stop .eofInString []

def isHighSurrogate (n : Nat) : Bool := 0xD800 ≤ n && n ≤ 0xDBFF

def isLowSurrogate (n : Nat) : Bool := 0xDC00 ≤ n && n ≤ 0xDFFF

/-- The second half of a surrogate pair, which is an escape of its own. -/
def lowSurrogate (high : Nat) : Bytes → Except Fault (Char × Bytes)
  | [] => stop .eofInString []
  | b :: s =>
    if b ≠ 0x5C then stop .unexpectedEndOfHexEscape s
    else
      match s with
      | [] => stop .eofInString []
      | u :: s =>
        if u ≠ 0x75 then stop .unexpectedEndOfHexEscape s
        else
          match hexUnit s with
          | .error e => .error e
          | .ok (low, rest) =>
            if isLowSurrogate low then
              .ok (Char.ofNat ((high - 0xD800) * 0x400 + (low - 0xDC00) + 0x10000), rest)
            else stop .loneSurrogate rest

/-- The character written by the digits after `\u`, and by the next escape if they are the first
half of a surrogate pair. -/
def unicodeEscape (s : Bytes) : Except Fault (Char × Bytes) :=
  match hexUnit s with
  | .error e => .error e
  | .ok (n, rest) =>
    if isLowSurrogate n then stop .loneSurrogate rest
    else if isHighSurrogate n then lowSurrogate n rest
    else .ok (Char.ofNat n, rest)

/-- The characters that a backslash and one letter stand for. -/
def shortEscape? (b : UInt8) : Option Char :=
  if b = 0x22 then some '"'
  else if b = 0x5C then some '\\'
  else if b = 0x2F then some '/'
  else if b = 0x62 then some '\x08'
  else if b = 0x66 then some '\x0C'
  else if b = 0x6E then some '\n'
  else if b = 0x72 then some '\r'
  else if b = 0x74 then some '\t'
  else none

/-- The character that an escape stands for; the backslash has been read. -/
def escape : Bytes → Except Fault (Char × Bytes)
  | [] => stop .eofInString []
  | b :: s =>
    if b = 0x75 then unicodeEscape s
    else
      match shortEscape? b with
      | some c => .ok (c, s)
      | none => stop .invalidEscape s

/-- Skips an escape. Which character it stands for does not matter, nor whether there is one. -/
def skipEscape : Bytes → Except Fault Bytes
  | [] => stop .eofInString []
  | b :: s =>
    if b = 0x75 then
      match hexUnit s with
      | .error e => .error e
      | .ok (_, rest) => .ok rest
    else if (shortEscape? b).isSome then .ok s
    else stop .invalidEscape s

theorem length_of_hexUnit {s rest : Bytes} {n : Nat} (h : hexUnit s = .ok (n, rest)) :
    rest.length < s.length := by
  unfold hexUnit at h
  split at h
  · split at h
    · cases h; simp only [List.length_cons]; omega
    · cases h
  · cases h

theorem length_of_lowSurrogate {s rest : Bytes} {high : Nat} {c : Char}
    (h : lowSurrogate high s = .ok (c, rest)) : rest.length < s.length := by
  fun_cases lowSurrogate high s <;> simp_all [lowSurrogate, stop]
  have := length_of_hexUnit (by assumption)
  omega

theorem length_of_unicodeEscape {s rest : Bytes} {c : Char}
    (h : unicodeEscape s = .ok (c, rest)) : rest.length < s.length := by
  unfold unicodeEscape at h
  split at h
  · cases h
  · have := length_of_hexUnit (by assumption)
    split at h
    · cases h
    · split at h
      · have := length_of_lowSurrogate h; omega
      · cases h; assumption

theorem length_of_escape {s rest : Bytes} {c : Char} (h : escape s = .ok (c, rest)) :
    rest.length < s.length := by
  fun_cases escape s <;> simp_all [escape, stop]
  have := length_of_unicodeEscape h
  omega

theorem length_of_skipEscape {s rest : Bytes} (h : skipEscape s = .ok rest) :
    rest.length < s.length := by
  fun_cases skipEscape s <;> simp_all [skipEscape, stop]
  have := length_of_hexUnit (by assumption)
  omega

theorem length_of_dropWhile {p : UInt8 → Bool} {s rest : Bytes} {b : UInt8}
    (h : s.dropWhile p = b :: rest) : rest.length < s.length := by
  have := (List.dropWhile_sublist (p := p) (l := s)).length_le
  simp only [h, List.length_cons] at this
  omega

/-- The bytes that stand for themselves in a string. -/
def isPlainByte (b : UInt8) : Bool := b != 0x22 && b != 0x5C && !(b < 0x20)

/-- Reads the bytes of a string up to its closing mark, those that escapes stand for among them; its
opening mark has been read. -/
def stringBytes (s : Bytes) : Except Fault (Bytes × Bytes) :=
  go [] s
where
  /-- Reads on; the bytes so far are in reverse. -/
  go (read : Bytes) (s : Bytes) : Except Fault (Bytes × Bytes) :=
    match hs : s.dropWhile isPlainByte with
    | [] => stop .eofInString []
    | b :: rest =>
      let read := (s.takeWhile isPlainByte).reverseAux read
      if b < 0x20 then stop .controlCharacter rest
      else if b = 0x22 then .ok (read.reverse, rest)
      else
        match he : escape rest with
        | .error e => .error e
        | .ok (c, rest) =>
          have := length_of_escape he
          have := length_of_dropWhile hs
          go ((String.utf8EncodeChar c).reverseAux read) rest
  termination_by s.length

/-- Reads a string up to its closing mark; its opening mark has been read. Whether it is UTF-8 is
asked at its end: it is refused as many bytes before that as it has from its first ill-formed one
on, each escape counted as the bytes it stands for. -/
def string (s : Bytes) : Except Fault (String × Bytes) :=
  match stringBytes s with
  | .error e => .error e
  | .ok (bytes, rest) =>
    match Utf8.decode? bytes with
    | some text => .ok (text, rest)
    | none => stop .invalidCodePoint (Utf8.illFormed bytes ++ rest)

/-- Skips a string; its opening mark has been read. -/
def skipString : Bytes → Except Fault Bytes
  | [] => stop .eofInString []
  | b :: s =>
    if b = 0x22 then .ok s
    else if b = 0x5C then
      match h : skipEscape s with
      | .error e => .error e
      | .ok rest =>
        have := length_of_skipEscape h
        skipString rest
    else if b < 0x20 then stop .controlCharacter (b :: s)
    else skipString s
termination_by s => s.length

theorem length_of_stringBytes_go {read s rest t : Bytes}
    (h : stringBytes.go read s = .ok (t, rest)) : rest.length < s.length := by
  fun_induction stringBytes.go read s with
  | case1 => cases h
  | case2 => cases h
  | case3 =>
    cases h
    exact length_of_dropWhile (by assumption)
  | case4 => cases h
  | case5 _ _ _ _ hs _ _ _ _ _ _ hlt _ ih =>
    have := length_of_dropWhile hs
    have := ih h
    omega

theorem length_of_string {s rest : Bytes} {t : String} (h : string s = .ok (t, rest)) :
    rest.length < s.length := by
  unfold string at h
  split at h
  · cases h
  · split at h
    · cases h
      exact length_of_stringBytes_go (by assumption)
    · cases h

theorem length_of_skipString {s rest : Bytes} (h : skipString s = .ok rest) :
    rest.length < s.length := by
  fun_induction skipString s with
  | case1 => cases h
  | case2 => cases h; simp
  | case3 => cases h
  | case4 _ _ _ _ hlt ih => have := ih h; simp only [List.length_cons]; omega
  | case5 => cases h
  | case6 _ _ _ _ _ ih => have := ih h; simp only [List.length_cons]; omega

theorem length_skipBlank_le (s : Bytes) : (skipBlank s).length ≤ s.length :=
  (List.dropWhile_sublist _).length_le

theorem length_of_literal {es s rest : Bytes} (h : literal es s = .ok rest) :
    rest.length ≤ s.length := by
  fun_induction literal es s with
  | case1 => cases h; simp
  | case2 => cases h
  | case3 _ _ _ ih => have := ih h; simp only [List.length_cons]; omega
  | case4 => cases h

end Findings.Json
