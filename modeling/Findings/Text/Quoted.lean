import Findings.Text.Glyph

/-!
# Quoted text

The form in which error messages show a string: between quotation marks, with the marks inside it,
backslashes and everything that has no glyph of its own written as an escape. Tab, line feed,
carriage return and NUL have short escapes; other characters are written by code point, in
lower-case hexadecimal without padding.
-/

set_option autoImplicit false

namespace Findings.Text

/-- How one character is written between quotation marks. -/
def escapeChar (c : Char) : List Char :=
  if c = '"' then ['\\', '"']
  else if c = '\\' then ['\\', '\\']
  else if c = '\t' then ['\\', 't']
  else if c = '\n' then ['\\', 'n']
  else if c = '\r' then ['\\', 'r']
  else if c = '\x00' then ['\\', '0']
  else if isStandalone c then [c]
  else ['\\', 'u', '\x7b'] ++ Nat.toDigits 16 c.toNat ++ ['\x7d']

def quote (s : String) : String :=
  String.ofList ('"' :: s.toList.flatMap escapeChar ++ ['"'])

end Findings.Text
