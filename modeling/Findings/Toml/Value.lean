import Findings.Number.Shortest

/-!
# TOML values

The tree that a TOML text spells. Keys and values carry the parts of the text they were read from.
A table knows how it came to be, which decides whether later statements may add to it.
-/

set_option autoImplicit false

namespace Findings.Toml

/-- A part of a text: how many characters there are from its start on, and how many after it. -/
structure Span where
  fromStart : Nat
  fromEnd : Nat
deriving DecidableEq, Repr

/-- The part of a text between what was left before it and what is left after it. -/
def Span.between (before after : List Char) : Span := ⟨before.length, after.length⟩

structure Key where
  name : String
  span : Span
deriving DecidableEq, Repr

inductive TableKind where
  /-- The root, or a table with a header of its own. -/
  | header
  /-- Made by the header of a table inside it. -/
  | implied
  /-- Made by a dotted key. -/
  | dotted
  /-- Written as a value; nothing can be added to it. -/
  | inline
deriving DecidableEq, Repr

inductive Value where
  | string (text : String)
  | integer (value : Int)
  | float (value : Binary64)
  | boolean (value : Bool)
  /-- A date, a time or both. -/
  | datetime
  | array (items : List (Span × Value))
  /-- A table with its entries in the order in which they were put there. Those without a span were
  never written out themselves. -/
  | table (kind : TableKind) (entries : List (Key × Option Span × Value))
  /-- The tables that share a header in double brackets. -/
  | tables (earlier : List (Span × List (Key × Option Span × Value)))
      (last : Span × List (Key × Option Span × Value))

/-- The contents of a table. -/
abbrev Entries := List (Key × Option Span × Value)

end Findings.Toml
