import Findings.Proofs.Toml.Table
import Findings.Proofs.Utf8
import Findings.Settings.Reader
import Mathlib.Data.List.Induction
import Mathlib.Logic.Function.Basic

/-!
# Settings in layers

A `Layer` says of every field what it gives for it, if anything; one lies over another field by
field (`Layer.above`), and what no layer gives is the default (`Layer.settings`). A settings file is
such a layer: `Layer.WrittenIn` says which one the root table of its text is, and reading the table
gives its settings (`ofTable_eq_ok_iff`). A file either holds a layer with a program to build with
or is of no use, for one of the causes of `Unusable` (`holds_or_unusable`).
-/

set_option autoImplicit false

namespace Findings.Settings

open Toml (Value Entries)

/-- The first word of the build command has a character that is no white space. -/
def Buildable (s : Settings) : Prop :=
  ∃ program arguments, s.buildCommand = program :: arguments ∧
    ∃ c ∈ program.toList, ¬ Text.isBlankChar c

/-! ## Layers -/

/-- What settings of a field are. -/
@[reducible] def Field.Content : Field → Type
  | .buildCommand | .extraArguments => List String
  | .buildDirectory | .tool | .analyzer => String

/-- What is given for each field. -/
abbrev Layer := (f : Field) → Option f.Content

namespace Layer

/-- The layer that gives nothing. -/
def silent : Layer := fun _ => none

/-- What the upper layer gives, and where it gives nothing what the lower one does. -/
def above (upper lower : Layer) : Layer := fun f => (upper f).or (lower f)

/-- What a layer gives, and the defaults where it gives nothing. -/
def settings (l : Layer) : Settings where
  buildCommand := (l .buildCommand).getD ["make", "build"]
  buildDirectory := l .buildDirectory
  tool := (l .tool).getD "../../bin/nilaway"
  analyzer := (l .analyzer).getD "nilaway"
  extraArguments := (l .extraArguments).getD []

end Layer

/-! ## Validity -/

theorem isBlank_eq_false_iff {s : String} :
    Text.isBlank s = false ↔ ∃ c ∈ s.toList, ¬ Text.isBlankChar c := by
  simp [Text.isBlank]

theorem validate_of_buildable {s : Settings} (h : s.Buildable) : s.validate = .ok () := by
  obtain ⟨program, arguments, hwords, hprogram⟩ := h
  simp [validate, hwords, isBlank_eq_false_iff.2 hprogram]

theorem validate_of_not_buildable {s : Settings} (h : ¬ s.Buildable) :
    s.validate = .error .emptyBuildCommand := by
  unfold validate
  split
  next program arguments hwords =>
    refine if_pos (Bool.not_eq_false _ ▸ fun hblank => h ?_)
    exact ⟨program, arguments, hwords, isBlank_eq_false_iff.1 hblank⟩
  · rfl

theorem buildable_silent : Layer.silent.settings.Buildable :=
  ⟨"make", ["build"], rfl, 'm', by decide, by decide⟩

/-! ## Values -/

/-- The value is a list of strings, these ones. -/
def IsTexts (v : Value) (l : List String) : Prop :=
  ∃ items, v = .array items ∧ items.map (·.2) = l.map .string

namespace Field

/-- The value is the content. -/
def Means : (f : Field) → Value → f.Content → Prop
  | .buildCommand, v, l | .extraArguments, v, l => IsTexts v l
  | .buildDirectory, v, t | .tool, v, t | .analyzer, v, t => v = .string t

/-- Reads the content of the field. -/
def read : (f : Field) → Toml.Span → Value → Except (Toml.Span × Problem) f.Content
  | .buildCommand, span, v | .extraArguments, span, v => readTexts span v
  | .buildDirectory, span, v | .tool, span, v => readText .path span v
  | .analyzer, span, v => readText .string span v

/-- The settings with another content of the field. -/
def put : (f : Field) → f.Content → Settings → Settings
  | .buildCommand, l, s => { s with buildCommand := l }
  | .buildDirectory, t, s => { s with buildDirectory := some t }
  | .tool, t, s => { s with tool := t }
  | .analyzer, t, s => { s with analyzer := t }
  | .extraArguments, l, s => { s with extraArguments := l }

theorem ofName?_eq_some_iff {name : String} {f : Field} :
    ofName? name = some f ↔ name = f.name := by
  constructor
  · intro h
    rw [ofName?] at h
    have hname := List.find?_some h
    exact (beq_iff_eq.1 hname).symm
  · rintro rfl
    cases f <;> decide

theorem name_injective {f g : Field} (h : f.name = g.name) : f = g := by
  rw [← Option.some_inj, ← ofName?_eq_some_iff.2 h, ofName?_eq_some_iff.2 rfl]

end Field

section
variable {wanted : Wanted} {span : Toml.Span} {v : Value} {s s' : Settings}

theorem readText_eq_ok_iff {t : String} : readText wanted span v = .ok t ↔ v = .string t := by
  cases v <;> simp [readText, refuse]

theorem bind_eq_ok_iff {ε α β : Type} {x : Except ε α} {g : α → Except ε β} {b : β} :
    x >>= g = .ok b ↔ ∃ a, x = .ok a ∧ g a = .ok b := by
  cases x <;> simp [bind, Except.bind]

theorem mapM_readText_eq_ok_iff {items : List (Toml.Span × Value)} {l : List String} :
    (items.mapM fun item => readText wanted item.1 item.2) = .ok l ↔
      items.map (·.2) = l.map .string := by
  induction items generalizing l with
  | nil => cases l <;> simp [pure, Except.pure]
  | cons item items ih =>
    simp only [List.mapM_cons, bind_eq_ok_iff, readText_eq_ok_iff, ih, pure, Except.pure,
      Except.ok.injEq]
    cases l with
    | nil => simp
    | cons t l => simp

theorem readTexts_eq_ok_iff {l : List String} : readTexts span v = .ok l ↔ IsTexts v l := by
  cases v with
  | array items => simp [readTexts, mapM_readText_eq_ok_iff, IsTexts]
  | tables earlier last =>
    cases earlier <;> simp [readTexts, refuse, IsTexts, List.mapM_cons, bind, Except.bind]
  | _ => simp [readTexts, refuse, IsTexts]

theorem Field.read_eq_ok_iff {f : Field} {x : f.Content} : f.read span v = .ok x ↔ f.Means v x := by
  cases f with
  | buildCommand | extraArguments => exact readTexts_eq_ok_iff
  | buildDirectory | tool | analyzer => exact readText_eq_ok_iff

theorem readField_eq (s : Settings) (span : Toml.Span) (v : Value) (f : Field) :
    readField s span v f = (f.read span v).map (f.put · s) := by
  cases f <;> rfl

theorem readEntry_eq_ok_iff {e : Toml.Key × Option Toml.Span × Value} :
    readEntry s e = .ok s' ↔
      ∃ (f : Field) (x : f.Content), e.1.name = f.name ∧ f.Means e.2.2 x ∧ f.put x s = s' := by
  unfold readEntry
  constructor
  · intro h
    split at h
    · cases h
    next f hf =>
      rw [readField_eq] at h
      cases hread : f.read (e.2.1.getD e.1.span) e.2.2 with
      | error e => rw [hread] at h; cases h
      | ok x =>
        rw [hread] at h
        cases h
        exact ⟨f, x, Field.ofName?_eq_some_iff.1 hf, Field.read_eq_ok_iff.1 hread, rfl⟩
  · rintro ⟨f, x, hname, hmeans, rfl⟩
    rw [Field.ofName?_eq_some_iff.2 hname]
    simp only [readField_eq, Field.read_eq_ok_iff.2 hmeans]
    rfl

end

/-! ## Tables -/

/-- The layer is what the table says: a name that stands there is that of a field, and every field
has the content of its value. -/
structure Layer.WrittenIn (entries : Entries) (l : Layer) : Prop where
  known : ∀ name ∈ entries.names, ∃ f : Field, name = f.name
  content : ∀ f : Field, Option.Rel f.Means (entries.value? f.name) (l f)

section
variable {entries : Entries} {e : Toml.Key × Option Toml.Span × Value} {l : Layer} {f : Field}
  {x : f.Content} {s : Settings}

theorem settings_update : Layer.settings (Function.update l f (some x)) = f.put x l.settings := by
  cases f <;> rfl

/-- A further entry gives one field more. -/
theorem Layer.WrittenIn.append (h : l.WrittenIn entries) (hnew : entries.value? f.name = none)
    (hname : e.1.name = f.name) (hmeans : f.Means e.2.2 x) :
    Layer.WrittenIn (entries ++ [e]) (Function.update l f (some x)) where
  known name hname' := by
    rw [Entries.names, List.map_append, List.mem_append] at hname'
    rcases hname' with hold | hlast
    · exact h.known name hold
    · exact ⟨f, by simpa [hname] using hlast⟩
  content g := by
    rw [Entries.value?_append]
    by_cases hg : g = f
    · subst hg
      rw [Function.update_self, hnew, ← hname, Entries.value?_singleton_self]
      exact .some hmeans
    · have hne : e.1.name ≠ g.name := fun h => hg (Field.name_injective (h ▸ hname))
      rw [Function.update_of_ne hg, Entries.value?_singleton_of_ne hne, Option.or_none]
      exact h.content g

/-- The last entry gives its field. -/
theorem Layer.WrittenIn.exists_last (h : l.WrittenIn (entries ++ [e]))
    (hnew : entries.value? e.1.name = none) :
    ∃ (l' : Layer) (f : Field) (x : f.Content), l'.WrittenIn entries ∧ e.1.name = f.name ∧
      f.Means e.2.2 x ∧ Function.update l' f (some x) = l := by
  obtain ⟨f, hf⟩ := h.known e.1.name (by simp [Entries.names])
  have hcontent := h.content f
  rw [hf] at hnew
  rw [Entries.value?_append, hnew, ← hf, Entries.value?_singleton_self] at hcontent
  cases hx : l f with
  | none => rw [hx] at hcontent; cases hcontent
  | some x =>
    rw [hx] at hcontent
    obtain ⟨hmeans⟩ := hcontent
    refine ⟨Function.update l f none, f, x, ⟨fun name hname => ?_, fun g => ?_⟩, hf, hmeans, ?_⟩
    · exact h.known name (by simp only [Entries.names] at hname ⊢; simp_all)
    · by_cases hg : g = f
      · subst hg
        rw [Function.update_self, hnew]
        exact .none
      · have hne : e.1.name ≠ g.name := fun h => hg (Field.name_injective (h ▸ hf))
        have hold := h.content g
        rw [Entries.value?_append, Entries.value?_singleton_of_ne hne, Option.or_none] at hold
        rwa [Function.update_of_ne hg]
    · rw [Function.update_idem, ← hx, Function.update_eq_self]

theorem Layer.WrittenIn.nil : Layer.silent.WrittenIn [] :=
  ⟨fun _ h => absurd h List.not_mem_nil, fun _ => .none⟩

theorem Layer.WrittenIn.eq_silent (h : l.WrittenIn []) : l = .silent := by
  funext f
  have hcontent := h.content f
  cases hf : l f with
  | none => rfl
  | some x => rw [hf] at hcontent; cases hcontent

theorem ofTable_append_singleton_eq_ok_iff :
    ofTable (entries ++ [e]) = .ok s ↔ ∃ s', ofTable entries = .ok s' ∧ readEntry s' e = .ok s := by
  rw [ofTable, List.foldlM_append, bind_eq_ok_iff]
  refine exists_congr fun s' => and_congr_right fun _ => ?_
  rw [List.foldlM_cons]
  exact iff_of_eq (congrArg (· = _) (bind_pure (readEntry s' e)))

/-- **A table is settings iff it is a layer's.** Where every name stands once, reading the table
gives the contents of its values, and the defaults for the fields that it does not name. -/
theorem ofTable_eq_ok_iff (h : entries.Distinct) :
    ofTable entries = .ok s ↔ ∃ l : Layer, l.WrittenIn entries ∧ l.settings = s := by
  -- from the left, as the table is read: the last entry is the next to be read
  induction entries using List.reverseRecOn generalizing s with
  | nil =>
    constructor
    · intro hs
      cases hs
      exact ⟨.silent, .nil, rfl⟩
    · rintro ⟨l, hl, rfl⟩
      rw [hl.eq_silent]
      rfl
  | append_singleton entries e ih =>
    obtain ⟨hdistinct, hnew⟩ := Entries.distinct_append_singleton_iff.1 h
    rw [ofTable_append_singleton_eq_ok_iff]
    constructor
    · rintro ⟨s', hentries, hs⟩
      obtain ⟨l, hl, rfl⟩ := (ih hdistinct).1 hentries
      obtain ⟨f, x, hname, hmeans, rfl⟩ := readEntry_eq_ok_iff.1 hs
      exact ⟨_, hl.append (hname ▸ hnew) hname hmeans, settings_update⟩
    · rintro ⟨l, hl, rfl⟩
      obtain ⟨l', f, x, hl', hname, hmeans, rfl⟩ := hl.exists_last hnew
      exact ⟨_, (ih hdistinct).2 ⟨l', hl', rfl⟩,
        readEntry_eq_ok_iff.2 ⟨f, x, hname, hmeans, settings_update.symm⟩⟩

end

/-! ## Files -/

/-- The bytes of a file are a text, and its root table gives the layer. -/
def Holds (answer : Except SystemError (List UInt8)) (l : Layer) : Prop :=
  ∃ text entries, answer = .ok (Utf8.encode text) ∧ Toml.parse text.toList = some entries ∧
    l.WrittenIn entries

/-- Why the file at `path`, which was read with this answer, gives no settings. -/
inductive Unusable (path : String) : Except SystemError (List UInt8) → SettingsError → Prop
  | unreadable {cause : SystemError} : Unusable path (.error cause) (.unreadable path cause)
  | notText {bytes : List UInt8} (h : ∀ text, bytes ≠ Utf8.encode text) :
      Unusable path (.ok bytes)
        (.unreadable path (.other "stream did not contain valid UTF-8"))
  | notToml {text : String} (h : Toml.parse text.toList = none) :
      Unusable path (.ok (Utf8.encode text)) (.malformed path .notToml)
  | unfit {text : String} {entries : Entries} {span : Toml.Span} {problem : Problem}
      (h : Toml.parse text.toList = some entries)
      (hunfit : ofTable entries = .error (span, problem)) :
      Unusable path (.ok (Utf8.encode text)) (.malformed path (.unfit text span problem))
  | unbuildable {answer : Except SystemError (List UInt8)} {l : Layer} (h : Holds answer l)
      (hbuild : ¬ l.settings.Buildable) : Unusable path answer .emptyBuildCommand

section
variable {path : String} {answer : Except SystemError (List UInt8)} {l : Layer} {e : SettingsError}

theorem ofFile_encode (path text : String) :
    ofFile path (.ok (Utf8.encode text)) = ofText path text := by
  rw [ofFile, Utf8.decode?_eq_some_iff.2 rfl]

theorem Holds.ofFile_eq (h : Holds answer l) :
    ofFile path answer = l.settings.validate.map fun _ => l.settings := by
  obtain ⟨text, entries, rfl, hparse, hl⟩ := h
  have htable := (ofTable_eq_ok_iff (Toml.distinct_of_parse hparse)).2 ⟨l, hl, rfl⟩
  rw [ofFile_encode, ofText, hparse]
  simp only [htable]

theorem Holds.ofFile_eq_ok (h : Holds answer l) (hbuild : l.settings.Buildable) :
    ofFile path answer = .ok l.settings := by
  rw [h.ofFile_eq, validate_of_buildable hbuild]
  rfl

theorem Unusable.ofFile_eq (h : Unusable path answer e) : ofFile path answer = .error e := by
  cases h with
  | unreadable => rfl
  | notText h =>
    rename_i bytes
    have hnone : Utf8.decode? bytes = none :=
      Option.eq_none_iff_forall_ne_some.2 fun text htext =>
        h text (Utf8.decode?_eq_some_iff.1 htext)
    rw [ofFile, hnone]
  | notToml h => rw [ofFile_encode, ofText, h]
  | unfit h hunfit =>
    rw [ofFile_encode, ofText, h]
    simp only [hunfit]
  | unbuildable h hbuild =>
    rw [h.ofFile_eq, validate_of_not_buildable hbuild]
    rfl

/-- A file is settings that a program can be built with, or of no use. -/
theorem holds_or_unusable (path : String) (answer : Except SystemError (List UInt8)) :
    (∃ l, Holds answer l ∧ l.settings.Buildable) ∨ ∃ e, Unusable path answer e := by
  cases answer with
  | error cause => exact .inr ⟨_, .unreadable⟩
  | ok bytes =>
    by_cases htext : ∃ text, bytes = Utf8.encode text
    · obtain ⟨text, rfl⟩ := htext
      cases hparse : Toml.parse text.toList with
      | none => exact .inr ⟨_, .notToml hparse⟩
      | some entries =>
        cases htable : ofTable entries with
        | error problem => exact .inr ⟨_, .unfit hparse htable⟩
        | ok s =>
          obtain ⟨l, hl, rfl⟩ := (ofTable_eq_ok_iff (Toml.distinct_of_parse hparse)).1 htable
          have hholds : Holds (.ok (Utf8.encode text)) l := ⟨text, entries, rfl, hparse, hl⟩
          by_cases hbuild : l.settings.Buildable
          · exact .inl ⟨l, hholds, hbuild⟩
          · exact .inr ⟨_, .unbuildable hholds hbuild⟩
    · exact .inr ⟨_, .notText fun text h => htext ⟨text, h⟩⟩

end

end Findings.Settings
