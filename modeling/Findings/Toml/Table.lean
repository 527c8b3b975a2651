import Findings.Toml.Value

/-!
# Building TOML tables

Statements add to tables. A key is defined once; a table gets one header at most; and dotted keys
add only to tables that dotted keys, or the headers of tables inside them, have made.
-/

set_option autoImplicit false

namespace Findings.Toml

/-- A key and its value; `path` holds the parts of the key before the last. -/
structure Pair where
  path : List Key
  key : Key
  span : Span
  value : Value

/-- The header of a table, or of a further table of an array of tables. -/
structure Header where
  isArray : Bool
  path : List Key
  key : Key
  span : Span

namespace Entries

def value? (entries : Entries) (name : String) : Option Value :=
  (List.find? (fun e => e.1.name == name) entries).map (·.2.2)

/-- Puts another value where `name` stands. -/
def setValue (entries : Entries) (name : String) (value : Value) : Entries :=
  entries.map fun e => if e.1.name = name then (e.1, e.2.1, value) else e

def without (entries : Entries) (name : String) : Entries := entries.filter (·.1.name ≠ name)

/-- How a path is walked: by the parts of a dotted key, or by those of a header. -/
inductive Walk where
  | dottedKey
  | header
deriving DecidableEq, Repr

/-- What a table is that had to be made on the way. -/
def Walk.makes : Walk → TableKind
  | .dottedKey => .dotted
  | .header => .implied

/-- Whether a walk may pass through a table. -/
def Walk.enters : Walk → TableKind → Bool
  | .dottedKey, kind => kind = .implied || kind = .dotted
  | .header, kind => kind ≠ .inline

/-- Changes the table that the path leads to; missing tables on the way are made. Of tables that
share a header the last one is meant. -/
def change (walk : Walk) (f : TableKind → Entries → Option Entries) :
    List Key → TableKind → Entries → Option Entries
  | [], kind, entries => f kind entries
  | k :: path, _, entries =>
    match entries.value? k.name with
    | none => do
      let inner ← change walk f path walk.makes []
      return entries ++ [(k, none, .table walk.makes inner)]
    | some (.table kind inner) =>
      if walk.enters kind then do
        let inner ← change walk f path kind inner
        return entries.setValue k.name (.table kind inner)
      else none
    | some (.tables earlier (span, inner)) => do
      let inner ← change walk f path .header inner
      return entries.setValue k.name (.tables earlier (span, inner))
    | some _ => none

/-- Adds a pair to a table. -/
def add (entries : Entries) (p : Pair) : Option Entries :=
  change .dottedKey
    (fun kind es =>
      if p.path ≠ [] && kind ≠ .dotted then none
      else if (es.value? p.key.name).isSome then none
      else some (es ++ [(p.key, some p.span, p.value)]))
    p.path .header entries

def addAll (entries : Entries) (pairs : List Pair) : Option Entries := pairs.foldlM add entries

/-- The part of the text from a header to the last value under it. -/
def sectionSpan (h : Header) (pairs : List Pair) : Span :=
  match pairs.getLast? with
  | some p => ⟨h.span.fromStart, p.span.fromEnd⟩
  | none => h.span

/-- Adds a table with a header to the table that its path leads to. -/
def addTable (h : Header) (pairs : List Pair) (entries : Entries) : Option Entries :=
  let span := sectionSpan h pairs
  match entries.value? h.key.name with
  | none => do
    let inner ← addAll [] pairs
    let value := if h.isArray then .tables [] (span, inner) else .table .header inner
    return entries ++ [(h.key, some span, value)]
  | some (.table .implied inner) =>
    if h.isArray then none
    else do
      let inner ← addAll inner pairs
      return entries.without h.key.name ++ [(h.key, some span, .table .header inner)]
  | some (.tables earlier last) =>
    if h.isArray then do
      let inner ← addAll [] pairs
      let all := (earlier ++ [last]).head?.getD last
      return entries.map fun e =>
        if e.1.name = h.key.name then
          (e.1, some ⟨all.1.fromStart, span.fromEnd⟩, .tables (earlier ++ [last]) (span, inner))
        else e
    else none
  | some _ => none

/-- The root table made of its own pairs and of the tables with headers. -/
def ofSections (s : List Pair × List (Header × List Pair)) : Option Entries := do
  let root ← addAll [] s.1
  s.2.foldlM (fun entries t => change .header (fun _ => addTable t.1 t.2) t.1.path .header entries)
    root

end Entries

end Findings.Toml
