/-!
# Segments of a text

Cutting a text at every occurrence of a character, and at the end of its first line.
-/

set_option autoImplicit false

namespace Findings

/-- The segments of a text between occurrences of a character; there is always at least one. -/
def segments (separator : Char) : List Char → List (List Char)
  | [] => [[]]
  | c :: cs =>
    if c = separator then [] :: segments separator cs
    else
      match segments separator cs with
      | [] => [[c]]
      | s :: ss => (c :: s) :: ss

/-- The first line of a text. Lines end at line feeds; a carriage return in front of one belongs to
the end of the line. -/
def firstLine (s : List Char) : List Char :=
  let line := s.takeWhile (· ≠ '\n')
  if line.length < s.length && line.getLast? = some '\r' then line.dropLast else line

end Findings
