import Findings.Proofs.Settings.Decoding
import Findings.Proofs.Toml.Plain
import Mathlib.Data.List.Nodup

/-!
# The texts of settings

`Writes s fields text`: the text is a plain TOML document that gives the fields the content they
have in `s`, in that order. If no field stands there twice and those that are left out have their
defaults, then there are such texts and each of them decodes to `s` (`decodes_as_written`).
-/

set_option autoImplicit false

namespace Findings.Settings

open Toml (Span Value Entries Datum DocumentText)

/-- The content of a field as it stands in a text. -/
def Field.datum : (f : Field) → f.Content → Datum
  | .buildCommand, l | .extraArguments, l => .texts l
  | .buildDirectory, t | .tool, t | .analyzer, t => .text t

/-- The name is that of the field, and the datum is its content. -/
def Says (s : Settings) (f : Field) (x : String × Datum) : Prop :=
  x.1 = f.name ∧ ∃ y, s.content f = some y ∧ x.2 = f.datum y

/-- The text gives the fields the content they have in `s`, in this order. -/
def Writes (s : Settings) (fields : List Field) (text : List Char) : Prop :=
  ∃ data, DocumentText text data ∧ List.Forall₂ s.Says fields data

section
variable {s : Settings} {fields : List Field} {entries : Entries} {data : List (String × Datum)}

theorem Field.bareName (f : Field) : Toml.BareName f.name := by
  cases f <;> decide

theorem Field.means_of_is {f : Field} {x : f.Content} {v : Value} (h : (f.datum x).Is v) :
    f.Means v x := by
  cases f <;> exact h

/-- Lists that are paired by what they name have the same names. -/
theorem map_eq_of_forall₂ {α β γ : Type} {R : α → β → Prop} {l : List α} {l' : List β}
    {f : α → γ} {g : β → γ} (h : List.Forall₂ R l l') (hnames : ∀ a b, R a b → g b = f a) :
    l'.map g = l.map f := by
  induction h with
  | nil => rfl
  | cons h _ ih => rw [List.map_cons, List.map_cons, hnames _ _ h, ih]

theorem map_fst_eq (h : List.Forall₂ s.Says fields data) :
    data.map (·.1) = fields.map Field.name :=
  map_eq_of_forall₂ h fun _ _ h => h.1

/-- The entry is that of the field, with its content in `s`. -/
def HoldsIn (s : Settings) (f : Field) (e : Toml.Key × Option Span × Value) : Prop :=
  e.1.name = f.name ∧ ∃ x, s.content f = some x ∧ f.Means e.2.2 x

/-- The entries are those of the fields, each with its content in `s`. -/
def HeldBy (s : Settings) (fields : List Field) (entries : Entries) : Prop :=
  List.Forall₂ s.HoldsIn fields entries

theorem heldBy_of_data (hdata : List.Forall₂ s.Says fields data)
    (hentries : List.Forall₂ (fun e x => e.1.name = x.1 ∧ x.2.Is e.2.2) entries data) :
    s.HeldBy fields entries := by
  induction hdata generalizing entries with
  | nil =>
    cases hentries
    exact .nil
  | cons h _ ih =>
    obtain ⟨hname, x, hx, hdatum⟩ := h
    cases hentries with
    | cons he hrest =>
      have hmeans := Field.means_of_is (hdatum ▸ he.2)
      exact .cons ⟨he.1.trans hname, x, hx, hmeans⟩ (ih hrest)

theorem parse_of_writes {text : List Char} (h : s.Writes fields text) (hfields : fields.Nodup) :
    ∃ entries, Toml.parse text = some entries ∧ s.HeldBy fields entries := by
  obtain ⟨data, hdoc, hdata⟩ := h
  have hnames : (data.map (·.1)).Nodup := by
    rw [map_fst_eq hdata]
    exact List.Nodup.map (fun _ _ => Field.name_injective) hfields
  obtain ⟨entries, hparse, hentries⟩ := Toml.parse_of_documentText hdoc hnames
  exact ⟨entries, hparse, heldBy_of_data hdata hentries⟩

theorem HeldBy.names_eq (h : s.HeldBy fields entries) : entries.names = fields.map Field.name :=
  map_eq_of_forall₂ h fun _ _ h => h.1

theorem HeldBy.given (h : s.HeldBy fields entries) {f : Field} {v : Value}
    (hv : entries.value? f.name = some v) : ∃ x, s.content f = some x ∧ f.Means v x := by
  induction h with
  | nil => cases hv
  | @cons g e fields entries h _ ih =>
    rw [← List.singleton_append, Entries.value?_append] at hv
    by_cases hname : e.1.name = f.name
    · obtain rfl := Field.name_injective (h.1.symm.trans hname)
      rw [← hname, Entries.value?_singleton_self] at hv
      cases hv
      exact h.2
    · rw [Entries.value?_singleton_of_ne hname, Option.none_or] at hv
      exact ih hv

theorem HeldBy.givenBy (h : s.HeldBy fields entries)
    (hdefault : ∀ f, s.content f ≠ content {} f → f ∈ fields) : GivenBy entries s where
  known name hname := by
    rw [h.names_eq] at hname
    obtain ⟨f, -, hf⟩ := List.mem_map.1 hname
    exact ⟨f, hf.symm⟩
  given f v := h.given
  default f hf := by
    rw [Entries.value?_eq_none_iff, h.names_eq] at hf
    by_contra hcontent
    exact hf (List.mem_map_of_mem (hdefault f hcontent))

theorem exists_data (hgiven : ∀ f ∈ fields, s.content f ≠ none) :
    ∃ data, List.Forall₂ s.Says fields data := by
  induction fields with
  | nil => exact ⟨[], .nil⟩
  | cons f fields ih =>
    obtain ⟨data, hdata⟩ := ih fun g hg => hgiven g (List.mem_cons_of_mem f hg)
    obtain ⟨x, hx⟩ := Option.ne_none_iff_exists'.1 (hgiven f List.mem_cons_self)
    exact ⟨(f.name, f.datum x) :: data, .cons ⟨rfl, x, hx, rfl⟩ hdata⟩

theorem exists_writes (hgiven : ∀ f ∈ fields, s.content f ≠ none) :
    ∃ text, s.Writes fields text := by
  obtain ⟨data, hdata⟩ := exists_data hgiven
  have hbare : ∀ x ∈ data, Toml.BareName x.1 := by
    intro x hx
    have hname : x.1 ∈ fields.map Field.name := map_fst_eq hdata ▸ List.mem_map_of_mem hx
    obtain ⟨f, -, hf⟩ := List.mem_map.1 hname
    exact hf ▸ f.bareName
  obtain ⟨text, htext⟩ := Toml.exists_documentText hbare
  exact ⟨text, data, htext, hdata⟩

theorem content_ne_none {f : Field} (h : f = .buildDirectory → s.buildDirectory ≠ none) :
    s.content f ≠ none := by
  cases f with
  | buildDirectory => exact h rfl
  | buildCommand | tool | analyzer | extraArguments => exact Option.some_ne_none _

end

/-- **Settings are read back from any text that writes them.** The fields may be given in any order
and in any spelling, as long as those are among them that do not have their defaults. -/
theorem decodes_as_written {s : Settings} {fields : List Field} (hvalid : s.validate = .ok ())
    (hfields : fields.Nodup) (hdefault : ∀ f, s.content f ≠ content {} f → f ∈ fields)
    (hdirectory : .buildDirectory ∈ fields → s.buildDirectory ≠ none) :
    (∃ text : String, s.Writes fields text.toList) ∧
      ∀ path text : String, s.Writes fields text.toList → ofText path text = .ok s := by
  constructor
  · have hgiven : ∀ f ∈ fields, s.content f ≠ none := fun f hf =>
      content_ne_none fun h => hdirectory (h ▸ hf)
    obtain ⟨text, htext⟩ := exists_writes hgiven
    exact ⟨String.ofList text, by rwa [String.toList_ofList]⟩
  · intro path text htext
    obtain ⟨entries, hparse, hheld⟩ := parse_of_writes htext hfields
    have hdecodes : Decodes path text entries (.ok s) :=
      .settings (hheld.givenBy hdefault) (buildable_iff_validate.2 hvalid)
    exact hdecodes.ofText_eq hparse

open Toml in
/-- Marks of every kind within a string, a comment and the end of a line within a list, and the
fields in another order. -/
theorem decodes_as_written_lookalikes :
    let s : Settings := { tool := "\n", extraArguments := ["#\"]"] }
    let text := "extra_args = [\"#\\\"]\", # =\n]\ntool=\"\\u000A\""
    s.Writes [.extraArguments, .tool] text.toList ∧ ofText "" text = .ok s := by
  intro s text
  have hblank : Blank [' '] := by decide
  have hargument : StringText "\"#\\\"]\"".toList "#\"]" := by
    have hchars := CharsText.cons (.plain (c := '#') (by decide) (by decide) (by decide))
      (.cons (.escape (.short (b := '"') (c := '"') (by decide)))
        (.cons (.plain (c := ']') (by decide) (by decide) (by decide)) .nil))
    exact StringText.mk (t := "#\"]") hchars
  have htool : StringText "\"\\u000A\"".toList "\n" := by
    have hzero : HexDigit '0' 0 := .decimal (by decide) (by decide)
    have hten : HexDigit 'A' 10 := .upper (by decide) (by decide)
    have hhex : HexText ['0', '0', '0', 'A'] '\n'.toNat :=
      .cons hzero (.cons hzero (.cons hzero (.cons hten .nil)))
    exact StringText.mk (t := "\n") (.cons (.escape (.four hhex rfl)) .nil)
  have hlist : ListText "[\"#\\\"]\", # =\n]".toList ["#\"]"] := by
    have hcomment : CommentText "# =".toList := .mk (s := " =".toList) (by simp [TextChar])
    have hfiller : Filler " # =\n".toList := .line hblank hcomment .lf (.blank blank_nil)
    exact ListText.items (.blank blank_nil) hargument (.comma (.blank blank_nil) hfiller)
  have hfirst := LineText.pair blank_nil Field.extraArguments.bareName hblank hblank
    (.texts hlist) blank_nil .absent
  have hsecond := LineText.pair blank_nil Field.tool.bareName blank_nil blank_nil
    (.text htool) blank_nil .absent
  have hdoc : DocumentText text.toList
      [(Field.extraArguments.name, .texts ["#\"]"]), (Field.tool.name, .text "\n")] :=
    Eq.subst (motive := fun t => DocumentText t _) (by decide)
      (DocumentText.line hfirst .lf (.last hsecond))
  have hwrites : s.Writes [.extraArguments, .tool] text.toList :=
    ⟨_, hdoc, .cons ⟨rfl, _, rfl, rfl⟩ (.cons ⟨rfl, _, rfl, rfl⟩ .nil)⟩
  have hdefault : ∀ f, s.content f ≠ content {} f → f ∈ [.extraArguments, .tool] := by
    intro f hf
    cases f with
    | tool | extraArguments => decide
    | buildCommand | buildDirectory | analyzer => exact absurd rfl hf
  exact ⟨hwrites, (decodes_as_written rfl (by decide) hdefault (by decide)).2 "" text hwrites⟩

end Findings.Settings
