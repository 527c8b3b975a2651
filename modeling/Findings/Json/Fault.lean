import Findings.Number.Shortest
import Findings.Text.Quoted

/-!
# Why a JSON text is refused

A `Fault` is a cause and a place, the place given as the number of bytes after it. `Fault.locate`
turns the place into a line and a column of the whole text: lines end at line feeds, columns count
bytes.
-/

set_option autoImplicit false

namespace Findings.Json

abbrev Bytes := List UInt8

/-- What stands where a value of another kind is wanted. -/
inductive Found where
  | null
  | boolean (value : Bool)
  | integer (value : Int)
  | float (negative : Bool) (magnitude : Binary64.Magnitude)
  | string (text : String)
  | sequence
  | map
deriving DecidableEq, Repr

/-- The kinds of value that a payload is made of. -/
inductive Wanted where
  | map
  | sequence
  | string
  | finding
deriving DecidableEq, Repr

/-- The members of a finding. -/
inductive Member where
  | posn
  | message
deriving DecidableEq, Repr

inductive Cause where
  | eofInList
  | eofInObject
  | eofInString
  | eofInValue
  | expectedColon
  | expectedListCommaOrEnd
  | expectedObjectCommaOrEnd
  | expectedIdent
  | expectedValue
  | invalidEscape
  | invalidNumber
  | numberOutOfRange
  | invalidCodePoint
  | controlCharacter
  | keyMustBeString
  | loneSurrogate
  | unexpectedEndOfHexEscape
  | trailingComma
  | trailingCharacters
  | invalidType (found : Found) (wanted : Wanted)
  | missingField (member : Member)
  | duplicateField (member : Member)
  | invalidLength (length : Nat)
deriving DecidableEq, Repr

/-- The three kinds of cause: a malformed text, a well-formed one of the wrong shape, a text that
breaks off. -/
inductive Category where
  | malformed
  | shape
  | eof
deriving DecidableEq, Repr

def Cause.category : Cause → Category
  | .eofInList | .eofInObject | .eofInString | .eofInValue => .eof
  | .invalidType .. | .missingField _ | .duplicateField _ | .invalidLength _ => .shape
  | _ => .malformed

/-- A float is written without an exponent while its leading digit stands between the fifth place
after the point and the sixteenth before it. -/
def floatText (negative : Bool) (x : Binary64.Magnitude) : String :=
  let d := x.shortest .toEven
  let text := if -5 ≤ d.power && d.power ≤ 15 then d.plain else d.scientific
  if negative then "-" ++ text else text

def Found.text : Found → String
  | .null => "null"
  | .boolean b => "boolean `" ++ toString b ++ "`"
  | .integer n => "integer `" ++ toString n ++ "`"
  | .float negative x => "floating point `" ++ floatText negative x ++ "`"
  | .string s => "string " ++ Text.quote s
  | .sequence => "sequence"
  | .map => "map"

def Wanted.text : Wanted → String
  | .map => "a map"
  | .sequence => "a sequence"
  | .string => "a string"
  | .finding => "struct RawDiagnostic"

def Member.text : Member → String
  | .posn => "posn"
  | .message => "message"

def Cause.text : Cause → String
  | .eofInList => "EOF while parsing a list"
  | .eofInObject => "EOF while parsing an object"
  | .eofInString => "EOF while parsing a string"
  | .eofInValue => "EOF while parsing a value"
  | .expectedColon => "expected `:`"
  | .expectedListCommaOrEnd => "expected `,` or `]`"
  | .expectedObjectCommaOrEnd => "expected `,` or `\x7d`"
  | .expectedIdent => "expected ident"
  | .expectedValue => "expected value"
  | .invalidEscape => "invalid escape"
  | .invalidNumber => "invalid number"
  | .numberOutOfRange => "number out of range"
  | .invalidCodePoint => "invalid unicode code point"
  | .controlCharacter => "control character (\\u0000-\\u001F) found while parsing a string"
  | .keyMustBeString => "key must be a string"
  | .loneSurrogate => "lone leading surrogate in hex escape"
  | .unexpectedEndOfHexEscape => "unexpected end of hex escape"
  | .trailingComma => "trailing comma"
  | .trailingCharacters => "trailing characters"
  | .invalidType found wanted => "invalid type: " ++ found.text ++ ", expected " ++ wanted.text
  | .missingField m => "missing field `" ++ m.text ++ "`"
  | .duplicateField m => "duplicate field `" ++ m.text ++ "`"
  | .invalidLength n =>
    "invalid length " ++ toString n ++ ", expected struct RawDiagnostic with 2 elements"

/-- A cause, and how many bytes of the text come after the place it concerns. -/
structure Fault where
  cause : Cause
  left : Nat
deriving DecidableEq, Repr

/-- Refuses the text at the place reached: `rest` is what is still unread. -/
def stop {α : Type} (cause : Cause) (rest : Bytes) : Except Fault α :=
  .error ⟨cause, rest.length⟩

/-- Refuses the text at the next byte, or at its end if there is none. -/
def stopAtNext {α : Type} (cause : Cause) (rest : Bytes) : Except Fault α :=
  .error ⟨cause, rest.length - 1⟩

/-- A place in a text: lines count from one, columns from zero. -/
structure Location where
  line : Nat
  column : Nat
deriving DecidableEq, Repr

/-- The place just after the given bytes. -/
def Location.after (bytes : Bytes) : Location where
  line := 1 + bytes.count 0x0A
  column := (bytes.reverse.takeWhile (· != 0x0A)).length

/-- A cause with the place in the text that it concerns. -/
structure ReadError where
  cause : Cause
  location : Location
deriving DecidableEq, Repr

def Fault.locate (f : Fault) (text : Bytes) : ReadError :=
  ⟨f.cause, .after (text.take (text.length - f.left))⟩

def ReadError.message (e : ReadError) : String :=
  e.cause.text ++ " at line " ++ toString e.location.line ++ " column " ++
    toString e.location.column

end Findings.Json
