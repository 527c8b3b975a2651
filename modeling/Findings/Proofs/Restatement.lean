import Findings.Proofs.Payload.Spelling
import Findings.Proofs.Position.Shown

/-!
# Results stated again

A payload restates a result if it has one finding for each entry, with the entry's position in the
form `file:line:column` and its message, in whatever packages and lists (`Payload.Restates`). What
is collected from its text is the result again (`Diagnostics.collects_restated`).

Route. A file name of a result was read from a position, so it holds no colon
(`Diagnostics.colon_not_mem_filename`). A position with such a name is read as it was written, the
column apart (`Position.ofPosn_shown`).
-/

set_option autoImplicit false

namespace Findings

open Json

/-! ## Payloads that state a result -/

/-- The finding states an entry of a result. A result has no columns, so any will do. -/
def Finding.States (d : Finding) (e : Position × String) : Prop :=
  ∃ column : String, ':' ∉ column.toList ∧ d.posn = e.1.shown ++ ":" ++ column ∧ d.message = e.2

/-- The payload has the analyzer in every package, and its findings state the entries of the result,
each once. In which packages and lists they stand, and what else is there, is left open. -/
structure Payload.Restates (p : Payload) (analyzer : String) (m : Diagnostics) : Prop where
  keys : ∀ e ∈ p.toList, ∃ r, e.2.get? analyzer = some r
  findings : ∃ ds, ds.Perm (p.findings analyzer) ∧ List.Forall₂ Finding.States ds m.toList

namespace Diagnostics

variable {analyzer : String} {raw : Bytes} {m : Diagnostics} {p : Payload}

theorem placed?_of_states {d : Finding} {e : Position × String}
    (hfile : ':' ∉ e.1.filename.toList) (h : d.States e) : d.placed? = some e := by
  obtain ⟨column, hcolumn, hposn, hmessage⟩ := h
  refine Finding.placed?_eq_some_iff.2 ⟨?_, hmessage⟩
  rw [hposn]
  exact Position.ofPosn_shown hfile hcolumn

theorem colon_not_mem_filename (h : ofBytes analyzer raw = .ok m) :
    ∀ e ∈ m.toList, ':' ∉ e.1.filename.toList := by
  obtain ⟨doc, hdoc⟩ := exists_written h
  rw [ofBytes_of_written hdoc] at h
  rintro ⟨position, message⟩ he
  obtain ⟨d, -, hposn, -⟩ := (get?_of_ofPayload h).1 (SortedMap.get?_eq_some_iff.2 he)
  exact Position.colon_not_mem_of_ofPosn hposn

theorem map_placed?_of_states {ds : List Finding} {l : List (Position × String)}
    (hfile : ∀ e ∈ l, ':' ∉ e.1.filename.toList) (h : List.Forall₂ Finding.States ds l) :
    ds.map Finding.placed? = l.map some := by
  induction h with
  | nil => rfl
  | cons hd _ ih =>
    rw [List.forall_mem_cons] at hfile
    rw [List.map_cons, List.map_cons, placed?_of_states hfile.1 hd, ih hfile.2]

theorem ofPayload_of_restates (hfile : ∀ e ∈ m.toList, ':' ∉ e.1.filename.toList)
    (h : p.Restates analyzer m) : ofPayload analyzer p = .ok m := by
  obtain ⟨hkeys, ds, hperm, hstates⟩ := h
  have hplaced := map_placed?_of_states hfile hstates
  refine ofPayload_eq_ok_iff.2 ⟨hkeys, fun d hd => ?_, ?_⟩
  · have hmem := List.mem_map_of_mem (f := Finding.placed?) (hperm.mem_iff.2 hd)
    rw [hplaced] at hmem
    obtain ⟨e, -, he⟩ := List.mem_map.1 hmem
    exact ⟨e.1, (Finding.placed?_eq_some_iff.1 he.symm).1⟩
  · have hentries : ds.filterMap Finding.placed? = m.toList := by
      have h := congrArg (List.filterMap id) hplaced
      rwa [List.filterMap_map, List.filterMap_map, Function.id_comp, Function.id_comp,
        List.filterMap_some] at h
    rw [← hentries]
    exact hperm.filterMap _

/-- **A result that is stated again is collected again**: from the text of any payload that restates
it, whatever its packages, columns and other analyzers. -/
theorem collects_restated (h : ofBytes analyzer raw = .ok m) (hp : p.Restates analyzer m) :
    ofBytes analyzer p.print = .ok m := by
  rw [ofBytes_print]
  exact ofPayload_of_restates (colon_not_mem_filename h) hp

/-- Two findings in one package. -/
def together : Payload :=
  SortedMap.ofList
    [("a", SortedMap.ofList
      [("n", some [⟨"ü/y.go:+010:", "tab\t"⟩, ⟨"x.go:7:1", "say \"hi\"\n"⟩])])]

/-- The same in two packages, with other columns, a package without a list and an analyzer whose
positions cannot be read. -/
def apart : Payload :=
  SortedMap.ofList
    [("p", SortedMap.ofList
      [("k", some [⟨"nowhere", ""⟩]), ("n", some [⟨"x.go:7:é", "say \"hi\"\n"⟩])]),
      ("q", SortedMap.ofList [("n", none)]),
      ("r", SortedMap.ofList [("n", some [⟨"ü/y.go:10:99", "tab\t"⟩])])]

/-- What is collected from either. -/
def twoLines : Diagnostics :=
  SortedMap.ofList [(⟨"x.go", 7⟩, "say \"hi\"\n"), (⟨"ü/y.go", 10⟩, "tab\t")]

theorem collects_restated_apart :
    ofBytes "n" together.print = .ok twoLines ∧ apart.Restates "n" twoLines ∧
      ofBytes "n" apart.print = .ok twoLines := by
  have h : ofBytes "n" together.print = .ok twoLines := by
    rw [ofBytes_print]
    rfl
  have hp : apart.Restates "n" twoLines := by
    refine ⟨?_, [⟨"x.go:7:é", "say \"hi\"\n"⟩, ⟨"ü/y.go:10:99", "tab\t"⟩], by decide, ?_⟩
    · simp only [← Option.isSome_iff_exists]
      decide
    · exact .cons ⟨"é", by decide, by decide, rfl⟩ (.cons ⟨"99", by decide, by decide, rfl⟩ .nil)
  exact ⟨h, hp, collects_restated h hp⟩

end Diagnostics

end Findings
