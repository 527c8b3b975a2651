import Findings.Json.Number

/-!
# Skipping a JSON value

`skipValue` reads past a value of any depth and checks its grammar only. The open lists and objects
are kept on a stack, innermost first, and every step reads at least one byte.
-/

set_option autoImplicit false

namespace Findings.Json

/-- A container whose end has not been reached. -/
inductive Frame where
  | list
  | object
deriving DecidableEq, Repr

/-- What may come next while a value is skipped. -/
inductive Awaited where
  | value
  | member
  /-- A comma or the end of the innermost container, if there is one. -/
  | commaOrEnd
deriving DecidableEq, Repr

namespace Frame

/-- What each item of the container starts with. -/
def item : Frame → Awaited
  | list => .value
  | object => .member

def closing : Frame → UInt8
  | list => 0x5D
  | object => 0x7D

def eof : Frame → Cause
  | list => .eofInList
  | object => .eofInObject

def expectedCommaOrEnd : Frame → Cause
  | list => .expectedListCommaOrEnd
  | object => .expectedObjectCommaOrEnd

end Frame

/-- The container that a byte opens. -/
def opened? (b : UInt8) : Option Frame :=
  if b = 0x5B then some .list else if b = 0x7B then some .object else none

/-- Skips a value that is neither a list nor an object, given its first byte. -/
def skipScalar (b : UInt8) (rest : Bytes) : Except Fault Bytes :=
  if b = 0x6E then literal ullBytes rest
  else if b = 0x74 then literal rueBytes rest
  else if b = 0x66 then literal alseBytes rest
  else if b = 0x22 then skipString rest
  else if b = 0x2D then skipNumber rest
  else if isDigit b then skipNumber (b :: rest)
  else stopAtNext .expectedValue (b :: rest)

theorem length_of_skipScalar {b : UInt8} {s rest : Bytes} (h : skipScalar b s = .ok rest) :
    rest.length ≤ s.length := by
  unfold skipScalar at h
  repeat' (split at h)
  · exact length_of_literal h
  · exact length_of_literal h
  · exact length_of_literal h
  · have := length_of_skipString h; omega
  · have := length_of_skipNumber h; omega
  · have := length_of_skipNumber h; simp only [List.length_cons] at this; omega
  · cases h

/-- Skips the colon after a key. -/
def colon (s : Bytes) : Except Fault Bytes :=
  match skipBlank s with
  | [] => stop .eofInObject []
  | b :: r => if b = 0x3A then .ok r else stopAtNext .expectedColon (b :: r)

theorem length_of_colon {s rest : Bytes} (h : colon s = .ok rest) : rest.length < s.length := by
  have hs := length_skipBlank_le s
  unfold colon at h
  split at h
  · cases h
  next heq =>
    rw [heq, List.length_cons] at hs
    split at h
    · cases h; omega
    · cases h

/-- Skips a key and the colon after it. -/
def skipKey (s : Bytes) : Except Fault Bytes :=
  match skipBlank s with
  | [] => stop .eofInObject []
  | b :: r =>
    if b = 0x22 then
      match skipString r with
      | .error e => .error e
      | .ok rest => colon rest
    else stopAtNext .keyMustBeString (b :: r)

theorem length_of_skipKey {s rest : Bytes} (h : skipKey s = .ok rest) : rest.length < s.length := by
  have hs := length_skipBlank_le s
  unfold skipKey at h
  split at h
  · cases h
  next heq =>
    rw [heq, List.length_cons] at hs
    split at h
    · split at h
      · cases h
      next hr => have := length_of_skipString hr; have := length_of_colon h; omega
    · cases h

/-- Reads to the end of the value that the stack and the state describe. -/
def skip (stack : List Frame) (awaited : Awaited) (s : Bytes) : Except Fault Bytes :=
  have := length_skipBlank_le s
  match awaited, stack with
  | .value, _ =>
    match h : skipBlank s with
    | [] => stop .eofInValue []
    | b :: r =>
      have : r.length < s.length := by simp_all only [List.length_cons]; omega
      match opened? b with
      | some frame =>
        have := length_skipBlank_le r
        match h : skipBlank r with
        | [] => stop frame.eof []
        | c :: t =>
          have : (c :: t).length ≤ r.length := by simp_all only
          if c = frame.closing then skip stack .commaOrEnd t
          else skip (frame :: stack) frame.item (c :: t)
      | none =>
        match h : skipScalar b r with
        | .error e => .error e
        | .ok rest =>
          have := length_of_skipScalar h
          skip stack .commaOrEnd rest
  | .member, _ =>
    match h : skipKey s with
    | .error e => .error e
    | .ok rest =>
      have := length_of_skipKey h
      skip stack .value rest
  | .commaOrEnd, [] => .ok s
  | .commaOrEnd, frame :: outer =>
    match h : skipBlank s with
    | [] => stop frame.eof []
    | b :: r =>
      have : r.length < s.length := by simp_all only [List.length_cons]; omega
      if b = 0x2C then skip (frame :: outer) frame.item r
      else if b = frame.closing then skip outer .commaOrEnd r
      else stopAtNext frame.expectedCommaOrEnd (b :: r)
termination_by s.length
decreasing_by all_goals first | omega | (simp_all only [List.length_cons]; omega)

theorem length_of_skip {stack : List Frame} {awaited : Awaited} {s rest : Bytes}
    (h : skip stack awaited s = .ok rest) :
    rest.length ≤ s.length ∧ (awaited = .value → rest.length < s.length) := by
  fun_induction skip stack awaited s <;> simp_all [stop, stopAtNext] <;> omega

/-- Skips one value. -/
def skipValue (s : Bytes) : Except Fault Bytes := skip [] .value s

theorem length_of_skipValue {s rest : Bytes} (h : skipValue s = .ok rest) :
    rest.length < s.length := (length_of_skip h).2 rfl

end Findings.Json
