import Findings.Session
import Findings.Settings
import Findings.Text.Utf8
import Findings.Toml.Statement

/-!
# Reading settings

A settings file is a TOML text with some of the keys of `Settings.Field`. Keys are taken in the
order of the root table, and the first problem is the result. Keys that are absent keep their
defaults.
-/

set_option autoImplicit false

namespace Findings.Settings

open Toml (Span Value Entries)

/-- What a value is, as far as a message says it. -/
def Found.ofValue : Value → Found
  | .string s => .string s
  | .integer n => .integer n
  | .float x => .float x
  | .boolean b => .boolean b
  | .datetime => .map
  | .array _ => .sequence
  | .table .. => .map
  | .tables .. => .sequence

/-- Refuses the value at `span`. -/
def refuse {α : Type} (wanted : Wanted) (span : Span) (v : Value) : Except (Span × Problem) α :=
  .error (span, .invalidType (.ofValue v) wanted)

def readText (wanted : Wanted) (span : Span) : Value → Except (Span × Problem) String
  | .string s => .ok s
  | v => refuse wanted span v

/-- Reads a list of strings. -/
def readTexts (span : Span) : Value → Except (Span × Problem) (List String)
  | .array items => items.mapM fun item => readText .string item.1 item.2
  | .tables earlier last =>
    (earlier ++ [last]).mapM fun t => refuse .string t.1 (.table .header t.2)
  | v => refuse .sequence span v

/-- Sets one field. -/
def readField (s : Settings) (span : Span) (v : Value) :
    Field → Except (Span × Problem) Settings
  | .buildCommand => (readTexts span v).map fun words => { s with buildCommand := words }
  | .buildDirectory =>
    (readText .path span v).map fun path => { s with buildDirectory := some path }
  | .tool => (readText .path span v).map fun path => { s with tool := path }
  | .analyzer => (readText .string span v).map fun name => { s with analyzer := name }
  | .extraArguments => (readTexts span v).map fun words => { s with extraArguments := words }

/-- Sets the field that an entry names. A value that was never written out is shown by its key. -/
def readEntry (s : Settings) (e : Toml.Key × Option Span × Value) :
    Except (Span × Problem) Settings :=
  match Field.ofName? e.1.name with
  | none => .error (e.1.span, .unknownField e.1.name)
  | some field => readField s (e.2.1.getD e.1.span) e.2.2 field

/-- The settings in a table. -/
def ofTable (entries : Entries) : Except (Span × Problem) Settings := entries.foldlM readEntry {}

/-- The settings in a TOML text; `path` names the text in errors. -/
def ofText (path text : String) : Except SettingsError Settings :=
  match Toml.parse text.toList with
  | none => .error (.malformed path .notToml)
  | some entries =>
    match ofTable entries with
    | .error (span, problem) => .error (.malformed path (.unfit text span problem))
    | .ok s => s.validate.map fun _ => s

/-- The settings in the bytes of a file, if it could be read. -/
def ofFile (path : String) : Except SystemError (List UInt8) → Except SettingsError Settings
  | .error cause => .error (.unreadable path cause)
  | .ok bytes =>
    match Utf8.decode? bytes with
    | none => .error (.unreadable path (.other "stream did not contain valid UTF-8"))
    | some text => ofText path text

/-- Loads a settings file. -/
def load (path : String) : Session (Except SettingsError Settings) := do
  return ofFile path (← Session.request (.file path))

end Findings.Settings
