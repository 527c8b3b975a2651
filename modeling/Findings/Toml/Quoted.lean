import Findings.Toml.Scan

/-!
# TOML strings

The four forms of strings: basic ones, with escapes, and literal ones, which mean what they show,
each on one line or on several.
-/

set_option autoImplicit false

namespace Findings.Toml

def hexDigit? (c : Char) : Option Nat :=
  if '0' ≤ c && c ≤ '9' then some (c.toNat - '0'.toNat)
  else if 'a' ≤ c && c ≤ 'f' then some (c.toNat - 'a'.toNat + 10)
  else if 'A' ≤ c && c ≤ 'F' then some (c.toNat - 'A'.toNat + 10)
  else none

/-- Reads `count` hexadecimal digits, continuing the number `n`. -/
def hexNumber : (count n : Nat) → List Char → Option (Nat × List Char)
  | 0, n, s => some (n, s)
  | _ + 1, _, [] => none
  | count + 1, n, c :: s =>
    match hexDigit? c with
    | some d => hexNumber count (n * 16 + d) s
    | none => none

/-- Reads the digits of an escape by code point. Surrogates and numbers beyond the last code point
are no characters. -/
def codePoint (count : Nat) (s : List Char) : Option (Char × List Char) :=
  match hexNumber count 0 s with
  | some (n, rest) => if n.isValidChar then some (Char.ofNat n, rest) else none
  | none => none

/-- Reads an escape; the backslash has been read. -/
def escape : List Char → Option (Char × List Char)
  | [] => none
  | c :: s =>
    if c = 'b' then some ('\x08', s)
    else if c = 'f' then some ('\x0C', s)
    else if c = 'n' then some ('\n', s)
    else if c = 'r' then some ('\r', s)
    else if c = 't' then some ('\t', s)
    else if c = '"' then some ('"', s)
    else if c = '\\' then some ('\\', s)
    else if c = 'u' then codePoint 4 s
    else if c = 'U' then codePoint 8 s
    else none

theorem length_of_hexNumber {count n m : Nat} {s rest : List Char}
    (h : hexNumber count n s = some (m, rest)) : rest.length ≤ s.length := by
  fun_induction hexNumber count n s with
  | case1 => cases h; simp
  | case2 => cases h
  | case3 _ _ _ _ _ _ ih => have := ih h; simp only [List.length_cons]; omega
  | case4 => cases h

theorem length_of_codePoint {count : Nat} {s rest : List Char} {c : Char}
    (h : codePoint count s = some (c, rest)) : rest.length ≤ s.length := by
  unfold codePoint at h
  split at h
  next hn => split at h <;> cases h; exact length_of_hexNumber hn
  · cases h

theorem length_of_escape {s rest : List Char} {c : Char} (h : escape s = some (c, rest)) :
    rest.length < s.length := by
  unfold escape at h
  split at h
  · cases h
  · repeat' (split at h)
    all_goals first
      | exact Nat.lt_succ_of_le (length_of_codePoint h)
      | cases h
    all_goals simp

/-! ### On one line -/

/-- Reads a basic string up to its closing mark. -/
def basicBody : List Char → Option (List Char × List Char)
  | [] => none
  | c :: s =>
    if c = '"' then some ([], s)
    else if c = '\\' then
      match h : escape s with
      | none => none
      | some (d, rest) =>
        have := length_of_escape h
        (basicBody rest).map fun (text, r) => (d :: text, r)
    else if isTextChar c then (basicBody s).map fun (text, r) => (c :: text, r)
    else none
termination_by s => s.length

/-- Reads a literal string up to its closing mark. -/
def literalBody : List Char → Option (List Char × List Char)
  | [] => none
  | c :: s =>
    if c = '\'' then some ([], s)
    else if isTextChar c then (literalBody s).map fun (text, r) => (c :: text, r)
    else none

/-! ### On several lines -/

/-- The end of a string of several lines: three marks, of up to five in a row the last ones. The
others belong to the string. -/
def closing (mark : Char) (s : List Char) : Option (List Char × List Char) :=
  match exactAll [mark, mark, mark] s with
  | none => none
  | some s₁ =>
    match exact mark s₁ with
    | none => some ([], s₁)
    | some s₂ =>
      match exact mark s₂ with
      | none => some ([mark], s₂)
      | some s₃ => some ([mark, mark], s₃)

/-- Skips the blanks and line ends after a backslash that ends a line. -/
def skipLines : List Char → List Char
  | '\r' :: '\n' :: s => skipLines s
  | c :: s => if isBlankChar c || c = '\n' then skipLines s else c :: s
  | [] => []

theorem length_skipLines_le (s : List Char) : (skipLines s).length ≤ s.length := by
  fun_induction skipLines s <;> simp_all <;> omega

/-- What follows a backslash at the end of a line, blanks and line ends left out. -/
def continued? (s : List Char) : Option (List Char) := (newline (skipBlank s)).map skipLines

theorem length_of_continued {s rest : List Char} (h : continued? s = some rest) :
    rest.length < s.length := by
  obtain ⟨t, ht, rfl⟩ := Option.map_eq_some_iff.1 h
  have := length_of_newline ht
  have := length_skipBlank_le s
  have := length_skipLines_le t
  omega

/-- Reads a basic string of several lines up to its end. -/
def basicLines (s : List Char) : Option (List Char × List Char) :=
  match closing '"' s with
  | some done => some done
  | none =>
    match h : newline s with
    | some rest =>
      have := length_of_newline h
      (basicLines rest).map fun (text, r) => ('\n' :: text, r)
    | none =>
      match s with
      | [] => none
      | c :: t =>
        if c = '\\' then
          match hc : continued? t with
          | some rest =>
            have := length_of_continued hc
            basicLines rest
          | none =>
            match he : escape t with
            | none => none
            | some (d, rest) =>
              have := length_of_escape he
              (basicLines rest).map fun (text, r) => (d :: text, r)
        else if isTextChar c then (basicLines t).map fun (text, r) => (c :: text, r)
        else none
termination_by s.length
decreasing_by all_goals (first | omega | (simp only [List.length_cons]; omega))

/-- Reads a literal string of several lines up to its end. -/
def literalLines (s : List Char) : Option (List Char × List Char) :=
  match closing '\'' s with
  | some done => some done
  | none =>
    match h : newline s with
    | some rest =>
      have := length_of_newline h
      (literalLines rest).map fun (text, r) => ('\n' :: text, r)
    | none =>
      match s with
      | [] => none
      | c :: t =>
        if isTextChar c then (literalLines t).map fun (text, r) => (c :: text, r) else none
termination_by s.length

/-- Leaves out a line end right after the opening marks. -/
def skipNewline (s : List Char) : List Char := (newline s).getD s

/-! ### All forms -/

/-- Reads a string on one line. -/
def lineString : List Char → Option (String × List Char)
  | '"' :: s => (basicBody s).map fun (text, r) => (String.ofList text, r)
  | '\'' :: s => (literalBody s).map fun (text, r) => (String.ofList text, r)
  | _ => none

/-- Reads a string in any form. -/
def string (s : List Char) : Option (String × List Char) :=
  match exactAll ['"', '"', '"'] s with
  | some t => (basicLines (skipNewline t)).map fun (text, r) => (String.ofList text, r)
  | none =>
    match exactAll ['\'', '\'', '\''] s with
    | some t => (literalLines (skipNewline t)).map fun (text, r) => (String.ofList text, r)
    | none => lineString s

end Findings.Toml
