import Findings.Toml.Date
import Findings.Toml.Quoted
import Findings.Toml.Table

/-!
# TOML statements

A TOML text is a sequence of lines, each empty or with one statement: a key with its value, or the
header of a table. Values may nest up to a fixed depth.
-/

set_option autoImplicit false

namespace Findings.Toml

/-! ### Keys -/

def isBareChar (c : Char) : Bool :=
  isDigit c || ('a' ≤ c && c ≤ 'z') || ('A' ≤ c && c ≤ 'Z') || c = '_' || c = '-'

/-- Reads one part of a key. -/
def simpleKey (s : List Char) : Option (String × List Char) :=
  match s with
  | '"' :: _ | '\'' :: _ => lineString s
  | _ =>
    match s.takeWhile isBareChar with
    | [] => none
    | name => some (String.ofList name, s.dropWhile isBareChar)

/-- Reads one part of a key, with the point after it unless it is the last. -/
def keyPart (s : List Char) : Option (Step Key) := do
  let s := skipBlank s
  let (name, t) ← simpleKey s
  let key : Key := ⟨name, .between s t⟩
  let t := skipBlank t
  match exact '.' t with
  | some rest => return .more key rest
  | none => return .last key t

/-- The limit to the parts of a key and to the depth of values. -/
def limit : Nat := 80

/-- Reads a key of one or more parts: those before the last, and the last. -/
def key (s : List Char) : Option (List Key × Key × List Char) := do
  let (parts, rest) ← sequence keyPart s
  if parts.length < limit then
    let last ← parts.getLast?
    return (parts.dropLast, last, rest)
  else none

/-! ### Values -/

/-- Reads a value that holds no others. -/
def scalar (s : List Char) : Option (Value × List Char) :=
  match s with
  | '"' :: _ | '\'' :: _ => (string s).map fun (t, rest) => (.string t, rest)
  | 't' :: _ => (exactAll ['t', 'r', 'u', 'e'] s).map fun rest => (.boolean true, rest)
  | 'f' :: _ => (exactAll ['f', 'a', 'l', 's', 'e'] s).map fun rest => (.boolean false, rest)
  | _ =>
    match datetime s with
    | some rest => some (.datetime, rest)
    | none =>
      match number s with
      | some (.integer n, rest) => some (.integer n, rest)
      | some (.float x, rest) => some (.float x, rest)
      | none => none

section
variable (value : List Char → Option (Value × List Char))

/-- Reads an item of an array, with the comma after it unless it is the last. A comma may follow
the last item too. -/
def arrayItem (s : List Char) : Option (Step (Span × Value)) := do
  let s := skipFiller s
  let (v, t) ← value s
  let item := (Span.between s t, v)
  let t := skipFiller t
  match exact ',' t with
  | none => return .last item t
  | some rest =>
    let rest := skipFiller rest
    return if rest.head? = some ']' then .last item rest else .more item rest

/-- Reads an array; its opening bracket has been read. -/
def array (s : List Char) : Option (Value × List Char) :=
  match exact ']' (skipFiller s) with
  | some rest => some (.array [], rest)
  | none => do
    let (items, t) ← sequence (arrayItem value) s
    let rest ← exact ']' t
    return (.array items, rest)

/-- Reads a key and its value. -/
def pair (s : List Char) : Option (Pair × List Char) := do
  let (path, last, t) ← key s
  let t ← exact '=' t
  let t := skipBlank t
  let (v, rest) ← value t
  return (⟨path, last, .between t rest, v⟩, rest)

/-- Reads a pair of an inline table, with the comma after it unless it is the last. -/
def inlinePair (s : List Char) : Option (Step Pair) := do
  let (p, t) ← pair value s
  let t := skipBlank t
  match exact ',' t with
  | some rest => return .more p rest
  | none => return .last p t

/-- Reads an inline table; its opening brace has been read. -/
def inlineTable (s : List Char) : Option (Value × List Char) :=
  match exact '\x7d' (skipBlank s) with
  | some rest => some (.table .inline [], rest)
  | none => do
    let (pairs, t) ← sequence (inlinePair value) s
    let rest ← exact '\x7d' t
    let entries ← Entries.addAll [] pairs
    return (.table .inline entries, rest)

end

/-- Reads a value in which others nest at most `depth` times. -/
def value : (depth : Nat) → List Char → Option (Value × List Char)
  | depth + 1, '[' :: s => array (value depth) s
  | depth + 1, '\x7b' :: s => inlineTable (value depth) s
  | _, s => scalar s

/-! ### Statements -/

inductive Statement where
  | pair (pair : Pair)
  | header (header : Header)

/-- Reads a table header. -/
def header (s : List Char) : Option (Header × List Char) :=
  match exactAll ['[', '['] s with
  | some t => do
    let (path, last, t) ← key t
    let rest ← exactAll [']', ']'] t
    return (⟨true, path, last, .between s rest⟩, rest)
  | none => do
    let t ← exact '[' s
    let (path, last, t) ← key t
    let rest ← exact ']' t
    return (⟨false, path, last, .between s rest⟩, rest)

/-- Reads the statement of a line, if it has one. -/
def statement? (s : List Char) : Option (Option Statement × List Char) :=
  match s with
  | [] | '#' :: _ | '\n' :: _ | '\r' :: _ => some (none, s)
  | '[' :: _ => (header s).map fun (h, rest) => (some (.header h), rest)
  | _ => (pair (value (limit - 1)) s).map fun (p, rest) => (some (.pair p), rest)

/-- Reads a line and its end. -/
def line (s : List Char) : Option (Step (Option Statement)) := do
  let (statement, t) ← statement? (skipBlank s)
  let t := skipComment (skipBlank t)
  match newline t with
  | some rest => return .more statement rest
  | none => if t = [] then return .last statement [] else none

/-- Reads the statements of a text. It may start with a byte order mark. -/
def statements (text : List Char) : Option (List Statement) := do
  let s := if text.head? = some '\uFEFF' then text.drop 1 else text
  let (lines, _) ← sequence line s
  return lines.filterMap id

/-- The pairs of the root, and those after each header. -/
def sections : List Statement → List Pair × List (Header × List Pair)
  | [] => ([], [])
  | .pair p :: rest =>
    let (pairs, later) := sections rest
    (p :: pairs, later)
  | .header h :: rest =>
    let (pairs, later) := sections rest
    ([], (h, pairs) :: later)

/-- The root table of a text, or `none` if the text is no TOML. -/
def parse (text : List Char) : Option Entries := do
  Entries.ofSections (sections (← statements text))

end Findings.Toml
