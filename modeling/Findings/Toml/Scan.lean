/-!
# Scanning TOML

Readers take characters from the front of a text and answer with what they read and what is left,
or with `none` if the text is malformed there.
-/

set_option autoImplicit false

namespace Findings.Toml

/-- Whether a character may stand in a comment. -/
def isTextChar (c : Char) : Bool := c = '\t' || (0x20 ≤ c.toNat && c ≠ '\x7f')

def isBlankChar (c : Char) : Bool := c = ' ' || c = '\t'

def skipBlank (s : List Char) : List Char := s.dropWhile isBlankChar

/-- Reads the given character. -/
def exact (c : Char) : List Char → Option (List Char)
  | [] => none
  | d :: s => if d = c then some s else none

/-- Reads the given characters. -/
def exactAll : List Char → List Char → Option (List Char)
  | [], s => some s
  | c :: cs, s => (exact c s).bind (exactAll cs)

/-- Reads the end of a line. -/
def newline : List Char → Option (List Char)
  | '\n' :: s => some s
  | '\r' :: '\n' :: s => some s
  | _ => none

/-- Skips a comment if there is one. -/
def skipComment : List Char → List Char
  | '#' :: s => s.dropWhile isTextChar
  | s => s

theorem length_of_newline {s rest : List Char} (h : newline s = some rest) :
    rest.length < s.length := by
  unfold newline at h
  split at h <;> cases h <;> simp only [List.length_cons] <;> omega

theorem length_skipBlank_le (s : List Char) : (skipBlank s).length ≤ s.length :=
  (List.dropWhile_sublist _).length_le

theorem length_skipComment_le (s : List Char) : (skipComment s).length ≤ s.length := by
  unfold skipComment
  split
  · exact Nat.le_succ_of_le (List.dropWhile_sublist _).length_le
  · exact Nat.le_refl _

/-- Skips blanks, line ends and comments that end with their line. -/
def skipFiller (s : List Char) : List Char :=
  match h : newline (skipComment (skipBlank s)) with
  | some rest =>
    have := length_of_newline h
    have := length_skipComment_le (skipBlank s)
    have := length_skipBlank_le s
    skipFiller rest
  | none => skipBlank s
termination_by s.length

/-! ### Sequences -/

/-- An item of a sequence, with what is left after it: the place of a further item, or the text
after the sequence. -/
inductive Step (α : Type) where
  | more (item : α) (rest : List Char)
  | last (item : α) (rest : List Char)

/-- Reads a sequence of at least one item. Every item but the last uses up characters. -/
def sequence {α : Type} (step : List Char → Option (Step α)) (s : List Char) :
    Option (List α × List Char) :=
  match step s with
  | none => none
  | some (.last a rest) => some ([a], rest)
  | some (.more a rest) =>
    if rest.length < s.length then
      (sequence step rest).map fun (l, r) => (a :: l, r)
    else none
termination_by s.length

end Findings.Toml
