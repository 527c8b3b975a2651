/-!
# Blank text

The white space of Unicode: the controls from tab to carriage return, the next-line control, and
the space separators together with the line and paragraph separators.
-/

set_option autoImplicit false

namespace Findings.Text

/-- The first and last code points of the ranges of white space. -/
def blankRanges : List (Nat × Nat) :=
  [(0x9, 0xD), (0x20, 0x20), (0x85, 0x85), (0xA0, 0xA0), (0x1680, 0x1680), (0x2000, 0x200A),
    (0x2028, 0x2029), (0x202F, 0x202F), (0x205F, 0x205F), (0x3000, 0x3000)]

def isBlankChar (c : Char) : Bool :=
  blankRanges.any fun r => r.1 ≤ c.toNat && c.toNat ≤ r.2

/-- Whether a text is empty or holds white space only. -/
def isBlank (s : String) : Bool := s.toList.all isBlankChar

end Findings.Text
