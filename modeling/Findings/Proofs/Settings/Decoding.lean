import Findings.Proofs.Session
import Findings.Proofs.Settings
import Findings.Proofs.Toml.Order

/-!
# What becomes of a settings file

`Decodes path text entries r`: `r` is what the TOML text with these entries in its root table
becomes. Either every entry fits and the settings are the defaults with the entries in their place
(`GivenBy`), or there is a first entry that does not fit (`FirstFault`), and the problem reported is
that of this entry, whatever stands behind it. Every text has just one such outcome, and the entries
stand in the order of the text (`decodes_in_order_of_places`). A table stands at its own header,
even if a header of a table inside it comes earlier (`late_header_not_reported`).
-/

set_option autoImplicit false

namespace Findings

namespace Settings

open Toml (Span Value Entries)

/-! ## Settings that are given -/

/-- What the settings hold for a field. -/
def content (s : Settings) : (f : Field) → Option f.Content
  | .buildCommand => some s.buildCommand
  | .buildDirectory => s.buildDirectory
  | .tool => some s.tool
  | .analyzer => some s.analyzer
  | .extraArguments => some s.extraArguments

/-- The settings are the defaults with the entries in their place: every entry is that of a field,
which has the content of its value, and the other fields are as they are by default. -/
structure GivenBy (entries : Entries) (s : Settings) : Prop where
  known : ∀ name ∈ entries.names, ∃ f : Field, name = f.name
  given : ∀ (f : Field) v, entries.value? f.name = some v →
    ∃ x, s.content f = some x ∧ f.Means v x
  default : ∀ f : Field, entries.value? f.name = none → s.content f = content {} f

/-! ## Problems -/

/-- Some member has the property `Q`, and those before it have `P`. -/
def First {α : Type} (P Q : α → Prop) (l : List α) : Prop :=
  ∃ before a after, l = before ++ a :: after ∧ (∀ b ∈ before, P b) ∧ Q a

/-- The items of a list; tables that share a header are one too. -/
def items? : Value → Option (List (Span × Value))
  | .array items => some items
  | .tables earlier last => some ((earlier ++ [last]).map fun t => (t.1, .table .header t.2))
  | _ => none

/-- The value at `span` is no text. -/
inductive TextFault (wanted : Wanted) (span : Span) (v : Value) : Span × Problem → Prop
  | mk (h : ∀ t, v ≠ .string t) : TextFault wanted span v (span, .invalidType (.ofValue v) wanted)

/-- The value at `span` is no list, or its first item that is no text is at fault. -/
inductive TextsFault (span : Span) (v : Value) : Span × Problem → Prop
  | noList (h : items? v = none) : TextsFault span v (span, .invalidType (.ofValue v) .sequence)
  | item {items : List (Span × Value)} {p : Span × Problem} (hv : items? v = some items)
      (h : First (fun i => ∃ t, i.2 = .string t) (fun i => TextFault .string i.1 i.2 p) items) :
      TextsFault span v p

/-- What is wrong with the value of a field. -/
def Field.Fault : Field → Span → Value → Span × Problem → Prop
  | .buildCommand | .extraArguments => TextsFault
  | .buildDirectory | .tool => TextFault .path
  | .analyzer => TextFault .string

/-- The entry is that of a field, and has a content for it. -/
def Fits (e : Toml.Key × Option Span × Value) : Prop :=
  ∃ (f : Field) (x : f.Content), e.1.name = f.name ∧ f.Means e.2.2 x

/-- What is wrong with an entry, and where. A value that was never written out itself is shown by
its key. -/
inductive Fault (e : Toml.Key × Option Span × Value) : Span × Problem → Prop
  | unknown (h : ∀ f : Field, e.1.name ≠ f.name) : Fault e (e.1.span, .unknownField e.1.name)
  | value {f : Field} {p : Span × Problem} (hname : e.1.name = f.name)
      (h : f.Fault (e.2.1.getD e.1.span) e.2.2 p) : Fault e p

/-- The first entry that does not fit has the problem. -/
def FirstFault (entries : Entries) (p : Span × Problem) : Prop :=
  First Fits (fun e => Fault e p) entries

/-- What becomes of a text with these entries. -/
inductive Decodes (path text : String) (entries : Entries) : Except SettingsError Settings → Prop
  | settings {s : Settings} (h : GivenBy entries s) (hbuild : s.Buildable) :
      Decodes path text entries (.ok s)
  | unfit {span : Span} {problem : Problem} (h : FirstFault entries (span, problem)) :
      Decodes path text entries (.error (.malformed path (.unfit text span problem)))
  | unbuildable {s : Settings} (h : GivenBy entries s) (hbuild : ¬ s.Buildable) :
      Decodes path text entries (.error .emptyBuildCommand)

/-! ## Layers and what is given -/

theorem content_settings (l : Layer) (f : Field) :
    l.settings.content f = (l f).or (content {} f) := by
  cases f with
  | buildDirectory => exact (Option.or_none ..).symm
  | buildCommand => exact (Option.or_some ..).symm
  | tool => exact (Option.or_some ..).symm
  | analyzer => exact (Option.or_some ..).symm
  | extraArguments => exact (Option.or_some ..).symm

theorem eq_of_content {s s' : Settings} (h : ∀ f, s.content f = s'.content f) : s = s' := by
  cases s
  cases s'
  simp only [Settings.mk.injEq]
  exact ⟨Option.some.inj (h .buildCommand), h .buildDirectory, Option.some.inj (h .tool),
    Option.some.inj (h .analyzer), Option.some.inj (h .extraArguments)⟩

section
variable {entries : Entries} {s : Settings} {p : Span × Problem}

/-- What is given is a layer over the defaults. -/
theorem givenBy_iff : GivenBy entries s ↔ ∃ l : Layer, l.WrittenIn entries ∧ l.settings = s := by
  constructor
  · intro h
    let l : Layer := fun f => if (entries.value? f.name).isSome then s.content f else none
    refine ⟨l, ⟨h.known, fun f => ?_⟩, eq_of_content fun f => ?_⟩
    · cases hv : entries.value? f.name with
      | none =>
        have hl : l f = none := by simp [l, hv]
        rw [hl]
        exact .none
      | some v =>
        obtain ⟨x, hx, hmeans⟩ := h.given f v hv
        have hl : l f = some x := by simp [l, hv, hx]
        rw [hl]
        exact .some hmeans
    · rw [content_settings]
      cases hv : entries.value? f.name with
      | none => simp [l, hv, h.default f hv]
      | some v =>
        obtain ⟨x, hx, -⟩ := h.given f v hv
        simp [l, hv, hx]
  · rintro ⟨l, hl, rfl⟩
    refine ⟨hl.known, fun f v hv => ?_, fun f hv => ?_⟩
    · have hcontent := hl.content f
      rw [hv] at hcontent
      cases hx : l f with
      | none => rw [hx] at hcontent; cases hcontent
      | some x =>
        rw [hx] at hcontent
        obtain ⟨hmeans⟩ := hcontent
        exact ⟨x, by rw [content_settings, hx, Option.some_or], hmeans⟩
    · have hcontent := hl.content f
      rw [hv] at hcontent
      cases hx : l f with
      | none => rw [content_settings, hx, Option.none_or]
      | some x => rw [hx] at hcontent; cases hcontent

end

/-! ## First problems -/

section
variable {α β ε : Type} {P Q : α → Prop} {a : α} {l : List α} {e : ε}

theorem not_first_nil : ¬ First P Q [] := by
  rintro ⟨before, a, after, h, -⟩
  simp at h

theorem first_cons : First P Q (a :: l) ↔ Q a ∨ P a ∧ First P Q l := by
  constructor
  · rintro ⟨before, b, after, h, hbefore, hb⟩
    cases before with
    | nil =>
      cases h
      exact .inl hb
    | cons c before =>
      cases h
      refine .inr ⟨hbefore _ List.mem_cons_self, before, b, after, rfl, fun x hx => ?_, hb⟩
      exact hbefore x (List.mem_cons_of_mem _ hx)
  · rintro (ha | ⟨ha, before, b, after, rfl, hbefore, hb⟩)
    · exact ⟨[], a, l, rfl, by simp, ha⟩
    · refine ⟨a :: before, b, after, rfl, fun x hx => ?_, hb⟩
      rcases List.mem_cons.1 hx with rfl | hx
      · exact ha
      · exact hbefore x hx

/-- A loop whose steps go well or ill whatever came before fails at the first that goes ill. -/
theorem foldlM_eq_error_iff {f : β → α → Except ε β} (hP : ∀ b a, (∃ b', f b a = .ok b') ↔ P a)
    (hQ : ∀ b a, f b a = .error e ↔ Q a) {b : β} : l.foldlM f b = .error e ↔ First P Q l := by
  induction l generalizing b with
  | nil => simp [not_first_nil, pure, Except.pure]
  | cons a l ih =>
    rw [List.foldlM_cons, first_cons, ← hP b, ← hQ b]
    cases hstep : f b a with
    | error e' => simp [bind, Except.bind]
    | ok b' => simpa [bind, Except.bind] using ih

theorem mapM_eq_error_iff {f : α → Except ε β} :
    l.mapM f = .error e ↔ First (fun a => ∃ b, f a = .ok b) (fun a => f a = .error e) l := by
  induction l with
  | nil => simp [not_first_nil, pure, Except.pure]
  | cons a l ih =>
    rw [List.mapM_cons, first_cons]
    cases hstep : f a with
    | error e' => simp [bind, Except.bind]
    | ok b =>
      cases hrest : l.mapM f <;> simp [hrest, bind, Except.bind, pure, Except.pure] at ih ⊢ <;>
        exact ih

end

section
variable {entries : Entries} {s : Settings} {p : Span × Problem}

theorem readText_eq_error_iff {wanted : Wanted} {span : Span} {v : Value} :
    readText wanted span v = .error p ↔ TextFault wanted span v p := by
  by_cases hv : ∃ t, v = .string t
  · obtain ⟨t, rfl⟩ := hv
    constructor
    · rintro ⟨⟩
    · rintro ⟨h⟩
      exact absurd rfl (h t)
  · have hno : ∀ t, v ≠ .string t := fun t ht => hv ⟨t, ht⟩
    have hread : readText wanted span v = refuse wanted span v := by
      cases v with
      | string t => exact absurd rfl (hno t)
      | _ => rfl
    rw [hread]
    constructor
    · rintro ⟨⟩
      exact ⟨hno⟩
    · rintro ⟨⟩
      rfl

/-- Lists are read item by item, in both forms. -/
theorem readTexts_of_items {span : Span} {v : Value} {items : List (Span × Value)}
    (h : items? v = some items) :
    readTexts span v = items.mapM fun item => readText .string item.1 item.2 := by
  cases v with
  | array => cases h; rfl
  | tables => cases h; rw [List.mapM_map]; rfl
  | _ => cases h

theorem readTexts_of_noList {span : Span} {v : Value} (h : items? v = none) :
    readTexts span v = refuse .sequence span v := by
  cases v with
  | array => cases h
  | tables => cases h
  | _ => rfl

theorem readTexts_eq_error_iff {span : Span} {v : Value} :
    readTexts span v = .error p ↔ TextsFault span v p := by
  cases hv : items? v with
  | none =>
    rw [readTexts_of_noList hv]
    constructor
    · rintro ⟨⟩
      exact .noList hv
    · rintro (_ | ⟨hitems, -⟩)
      · rfl
      · cases hv.symm.trans hitems
  | some items =>
    have hfirst : readTexts span v = .error p ↔
        First (fun i => ∃ t, i.2 = .string t) (fun i => TextFault .string i.1 i.2 p) items := by
      rw [readTexts_of_items hv, mapM_eq_error_iff]
      simp only [readText_eq_ok_iff, readText_eq_error_iff]
    rw [hfirst]
    constructor
    · exact .item hv
    · rintro (hnone | ⟨hitems, h⟩)
      · cases hv.symm.trans hnone
      · cases hv.symm.trans hitems
        exact h

theorem Field.read_eq_error_iff {f : Field} {span : Span} {v : Value} :
    f.read span v = .error p ↔ f.Fault span v p := by
  cases f with
  | buildCommand | extraArguments => exact readTexts_eq_error_iff
  | buildDirectory | tool | analyzer => exact readText_eq_error_iff

theorem readEntry_eq_error_iff {e : Toml.Key × Option Span × Value} :
    readEntry s e = .error p ↔ Fault e p := by
  rw [readEntry]
  cases hname : Field.ofName? e.1.name with
  | none =>
    have hunknown (f : Field) : e.1.name ≠ f.name := fun h => by
      cases (Field.ofName?_eq_some_iff.2 h).symm.trans hname
    constructor
    · rintro ⟨⟩
      exact .unknown hunknown
    · rintro (_ | ⟨h, -⟩)
      · rfl
      · exact absurd h (hunknown _)
  | some f =>
    have hf := Field.ofName?_eq_some_iff.1 hname
    have hread : readField s (e.2.1.getD e.1.span) e.2.2 f = .error p ↔
        f.Fault (e.2.1.getD e.1.span) e.2.2 p := by
      rw [readField_eq, ← Field.read_eq_error_iff]
      cases f.read (e.2.1.getD e.1.span) e.2.2 <;> simp [Except.map]
    refine hread.trans ⟨.value hf, ?_⟩
    rintro (h | ⟨hg, h⟩)
    · exact absurd hf (h f)
    · cases Field.name_injective (hf.symm.trans hg)
      exact h

theorem readEntry_ok_iff {e : Toml.Key × Option Span × Value} :
    (∃ s', readEntry s e = .ok s') ↔ Fits e := by
  simp only [readEntry_eq_ok_iff]
  constructor
  · rintro ⟨_, f, x, hname, hmeans, -⟩
    exact ⟨f, x, hname, hmeans⟩
  · rintro ⟨f, x, hname, hmeans⟩
    exact ⟨_, f, x, hname, hmeans, rfl⟩

theorem ofTable_eq_error_iff : ofTable entries = .error p ↔ FirstFault entries p := by
  rw [ofTable, FirstFault]
  exact foldlM_eq_error_iff (P := Fits) (Q := fun e => Fault e p) (fun _ _ => readEntry_ok_iff)
    fun _ _ => readEntry_eq_error_iff

end

/-! ## Texts and files -/

section
variable {path text : String} {entries : Entries}

theorem buildable_iff_validate {s : Settings} : s.Buildable ↔ s.validate = .ok () := by
  constructor
  · exact validate_of_buildable
  · intro h
    by_contra hbuild
    cases (validate_of_not_buildable hbuild).symm.trans h

theorem ofText_of_table_ok {s : Settings} (h : Toml.parse text.toList = some entries)
    (htable : ofTable entries = .ok s) : ofText path text = s.validate.map fun _ => s := by
  rw [ofText, h]
  simp only [htable]

theorem Decodes.ofText_eq {r : Except SettingsError Settings}
    (hparse : Toml.parse text.toList = some entries) (h : Decodes path text entries r) :
    ofText path text = r := by
  have hgiven {s : Settings} (h : GivenBy entries s) :
      ofText path text = s.validate.map fun _ => s :=
    ofText_of_table_ok hparse
      ((ofTable_eq_ok_iff (Toml.distinct_of_parse hparse)).2 (givenBy_iff.1 h))
  cases h with
  | settings h hbuild => rw [hgiven h, validate_of_buildable hbuild]; rfl
  | unfit h =>
    rw [ofText, hparse]
    simp only [ofTable_eq_error_iff.2 h]
  | unbuildable h hbuild => rw [hgiven h, validate_of_not_buildable hbuild]; rfl

theorem exists_decodes (path : String) (hparse : Toml.parse text.toList = some entries) :
    ∃ r, Decodes path text entries r := by
  cases htable : ofTable entries with
  | error p => exact ⟨_, .unfit (ofTable_eq_error_iff.1 htable)⟩
  | ok s =>
    have hgiven := givenBy_iff.2 ((ofTable_eq_ok_iff (Toml.distinct_of_parse hparse)).1 htable)
    by_cases hbuild : s.Buildable
    · exact ⟨_, .settings hgiven hbuild⟩
    · exact ⟨_, .unbuildable hgiven hbuild⟩

end

end Settings

namespace SettingsError

/-- The error as it is shown for a file at `path`. -/
def withPath (path : String) : SettingsError → SettingsError
  | malformed _ cause => malformed path cause
  | unreadable p cause => unreadable p cause
  | emptyBuildCommand => emptyBuildCommand

end SettingsError

namespace Settings

theorem ofText_withPath (path path' text : String) :
    ofText path text = (ofText path' text).mapError (SettingsError.withPath path) := by
  unfold ofText
  cases Toml.parse text.toList with
  | none => rfl
  | some entries =>
    dsimp only
    cases ofTable entries with
    | error p => rfl
    | ok s =>
      dsimp only
      by_cases hbuild : s.Buildable
      · rw [validate_of_buildable hbuild]
        rfl
      · rw [validate_of_not_buildable hbuild]
        rfl

theorem load_eq {σ : Type} {host : Host σ} {start : σ} {path text : String}
    (h : (host.answer (.file path) start).1 = .ok (Utf8.encode text)) :
    ((load path).run host start).value = ofText path text := by
  rw [← ofFile_encode, ← h]
  rfl

/-- **A settings file is decoded key by key.** The keys of the root table stand in the order of the
text, each where it is first mentioned, but at its own header if it has one. If all entries fit, the
text becomes the defaults with the entries in their place, or is refused if these name no program to
build with; else it is refused for the first entry that does not fit, whatever else is wrong. What
is accepted is valid, and a file becomes what its text does but for the path in its errors. -/
theorem decodes_in_order_of_places (path : String) {text : String} {entries : Toml.Entries}
    (h : Toml.parse text.toList = some entries) :
    entries.AtPlaces text.toList ∧
    (∀ r, ofText path text = r ↔ Decodes path text entries r) ∧
    (∀ s, ofText path text = .ok s → s.validate = .ok ()) ∧
    ∀ {σ : Type} (host : Host σ) (start : σ),
      (host.answer (.file path) start).1 = .ok (Utf8.encode text) →
      ((load path).run host start).value =
        (ofText "" text).mapError (SettingsError.withPath path) := by
  have hdecodes (r : Except SettingsError Settings) :
      ofText path text = r ↔ Decodes path text entries r := by
    constructor
    · rintro rfl
      obtain ⟨r, hr⟩ := exists_decodes path h
      rwa [hr.ofText_eq h]
    · exact fun hr => hr.ofText_eq h
  refine ⟨Toml.atPlaces_of_parse h, hdecodes, fun s hs => ?_, fun host start hfile => ?_⟩
  · cases (hdecodes _).1 hs with
    | settings _ hbuild => exact validate_of_buildable hbuild
  · rw [load_eq hfile, ofText_withPath path "" text]

/-- An item of the wrong type, before another, an unknown key and a blank build command. -/
theorem decodes_in_order_of_places_wrongItem :
    let text := "tool = \"t\"\nextra_args = [\"a\", 1, 2]\npretty = 1\nbuild_command = []\n"
    ∃ entries, Toml.parse text.toList = some entries ∧ entries.AtPlaces text.toList ∧
      FirstFault entries (⟨36, 35⟩, .invalidType (.integer 1) .string) := by
  intro text
  have hparse : (Toml.parse text.toList).isSome = true := by decide +kernel
  obtain ⟨entries, hentries⟩ := Option.isSome_iff_exists.1 hparse
  obtain ⟨hplaces, hdecodes, -, -⟩ := decodes_in_order_of_places "" hentries
  have hresult : ofText "" text =
      .error (.malformed "" (.unfit text ⟨36, 35⟩ (.invalidType (.integer 1) .string))) := by
    decide +kernel
  cases (hdecodes _).1 hresult with
  | unfit hfirst => exact ⟨entries, hentries, hplaces, hfirst⟩

/-- The table `tool` is mentioned first, by the header of a table inside it, but its own header is
last. -/
def lateHeader : String := "[tool.x]\n[analyzer]\n[tool]\n"

/-- Its first problem in the order in which the keys are first mentioned is that of `tool`, but
`analyzer` is reported. -/
theorem late_header_not_reported :
    ∃ (l : List Toml.Statement) (entries es : Toml.Entries),
      Toml.statements lateHeader.toList = some l ∧ Toml.parse lateHeader.toList = some entries ∧
      es.Perm entries ∧ es.names = ((Toml.ofRoot l).map (·.rootKey.name)).eraseDups ∧
      FirstFault es (⟨7, 1⟩, .invalidType .map .path) ∧
      ¬ FirstFault es (⟨18, 8⟩, .invalidType .map .string) ∧
      ofText "" lateHeader =
        .error (.malformed "" (.unfit lateHeader ⟨18, 8⟩ (.invalidType .map .string))) := by
  have hstatements : (Toml.statements lateHeader.toList).map
      (fun l => (Toml.ofRoot l).map (·.rootKey.name)) = some ["tool", "analyzer", "tool"] := by
    decide +kernel
  have hentries : (Toml.parse lateHeader.toList).map
      (fun es => (Toml.Entries.names es.reverse, ofTable es.reverse)) =
        some (["tool", "analyzer"], .error (⟨7, 1⟩, .invalidType .map .path)) := by
    decide +kernel
  obtain ⟨l, hl, hmentioned⟩ := Option.map_eq_some_iff.1 hstatements
  obtain ⟨entries, hparse, heq⟩ := Option.map_eq_some_iff.1 hentries
  obtain ⟨hnames, htable⟩ := Prod.mk.inj heq
  refine ⟨l, entries, entries.reverse, hl, hparse, entries.reverse_perm, ?_,
    ofTable_eq_error_iff.1 htable, fun h => ?_, by decide +kernel⟩
  · rw [hnames, hmentioned]
    decide
  · rw [ofTable_eq_error_iff.2 h] at htable
    cases htable

end Settings

end Findings
