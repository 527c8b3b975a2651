import Findings.Text.Segments
import Findings.Toml.Value

/-!
# Excerpts of a TOML text

The form in which a problem at some part of a text is shown: the line it starts on, with marks
under it. Lines end at line feeds; columns count characters, and marks count bytes. The marks go no
further than the column that the length of the line in bytes gives, its end if it is all ASCII.
-/

set_option autoImplicit false

namespace Findings.Toml

/-- The number of bytes of a text. -/
def byteLength (s : List Char) : Nat := s.foldl (fun n c => n + c.utf8Size) 0

namespace Span

/-- What comes before the part. -/
def before (span : Span) (text : List Char) : List Char := text.take (text.length - span.fromStart)

/-- The part itself. -/
def part (span : Span) (text : List Char) : List Char :=
  (text.drop (text.length - span.fromStart)).take (span.fromStart - span.fromEnd)

end Span

/-- A problem with a part of a text, shown with the line it starts on. -/
def excerpt (text : List Char) (span : Span) (problem : String) : String :=
  let before := span.before text
  let line := before.count '\n'
  let column := (before.reverse.takeWhile (· ≠ '\n')).length
  let content := (segments '\n' text)[line]?.getD []
  let marks := max 1 (min (byteLength (span.part text)) (byteLength content - column))
  let number := toString (line + 1)
  let gutter := String.ofList (List.replicate (number.length + 1) ' ') ++ "|"
  "TOML parse error at line " ++ number ++ ", column " ++ toString (column + 1) ++ "\n" ++
    gutter ++ "\n" ++
    number ++ " | " ++ String.ofList content ++ "\n" ++
    gutter ++ String.ofList (List.replicate (column + 1) ' ' ++ List.replicate marks '^') ++ "\n" ++
    problem ++ "\n"

end Findings.Toml
