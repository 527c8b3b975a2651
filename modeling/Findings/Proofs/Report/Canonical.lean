import Findings.Proofs.Report.Json
import Findings.Proofs.Report.Lines

/-!
# Reports do not tell how their diagnostics came about

Diagnostics are put in one by one, in whatever order, and a later message at a position replaces the
one that is there. What the reports show of such a history is one list of entries
(`Report.Canonical`): every position that was ever used, once and in ascending order, with the
message put there last. So histories with the same last messages have the same reports
(`Report.canonical`).

Route. A list of ascending positions is a map, and a map is its lookups (`SortedMap.ext_get?`), so
the entries are those of the map that the history makes (`Report.canonical_iff`).
-/

set_option autoImplicit false

namespace Findings.Report

/-- The last insertion at the position has the message. -/
def LastAt (history : List (Position × String)) (p : Position) (message : String) : Prop :=
  ∃ before after, history = before ++ (p, message) :: after ∧ ∀ e ∈ after, e.1 ≠ p

/-- The entries that a history of insertions comes to. -/
structure Canonical (history entries : List (Position × String)) : Prop where
  ascending : entries.Pairwise fun e e' => compare e.1 e'.1 = .lt
  once : ∀ p, (entries.map (·.1)).count p = if p ∈ history.map (·.1) then 1 else 0
  latest : ∀ p message, (p, message) ∈ entries ↔ LastAt history p message

variable {history history' entries : List (Position × String)}

theorem mem_toList_ofList {p : Position} {message : String} :
    (p, message) ∈ (SortedMap.ofList history).toList ↔ LastAt history p message := by
  rw [← SortedMap.get?_eq_some_iff, SortedMap.get?_ofList, LastAt]

theorem canonical_toList (history : List (Position × String)) :
    Canonical history (SortedMap.ofList history).toList where
  ascending := (SortedMap.ofList history).ordered
  once p := by
    rw [(SortedMap.ofList history).nodup_keys.count]
    simp only [SortedMap.mem_keys_ofList]
  latest _ _ := mem_toList_ofList

/-- A history comes to one list of entries. -/
theorem canonical_iff :
    Canonical history entries ↔ entries = (SortedMap.ofList history).toList := by
  constructor
  · intro h
    have hmap : (⟨entries, h.ascending⟩ : Diagnostics) = SortedMap.ofList history := by
      refine SortedMap.ext_get? fun p => Option.ext fun message => ?_
      rw [SortedMap.get?_eq_some_iff, SortedMap.get?_eq_some_iff, mem_toList_ofList]
      exact h.latest p message
    rw [← hmap]
  · rintro rfl
    exact canonical_toList history

/-- Histories make the same map just if they agree on the last message of every position. -/
theorem ofList_eq_iff : (SortedMap.ofList history' : Diagnostics) = SortedMap.ofList history ↔
    ∀ p message, LastAt history' p message ↔ LastAt history p message := by
  simp only [← mem_toList_ofList]
  constructor
  · intro h p message
    rw [h]
  · intro h
    refine SortedMap.ext_get? fun p => Option.ext fun message => ?_
    rw [SortedMap.get?_eq_some_iff, SortedMap.get?_eq_some_iff]
    exact h p message

theorem readAll_json (m : Diagnostics) :
    rows.readAll (Utf8.encode (json m)) = .ok (m.toList.map row) := by
  rw [encode_json, readAll_listBytes]

theorem eq_of_json {m m' : Diagnostics} (h : json m = json m') : m = m' := by
  have hrows := readAll_json m
  rw [h, readAll_json m'] at hrows
  exact SortedMap.ext (List.map_injective_iff.2 row_injective (Except.ok.inj hrows).symm)

/-- **Reports are canonical.** Whatever is put in and in whatever order, both reports list the same
entries: those in ascending order of the positions, with each position once and with its last
message; the text report has for each its file name, a colon, its line, a colon, a blank and the
message. Histories that agree on the last message of every position have the same text report, and
they are the ones that have the same JSON report. -/
theorem canonical (history : List (Position × String)) :
    ∃ entries, (∀ entries', Canonical history entries' ↔ entries' = entries) ∧
      text (SortedMap.ofList history) = String.join (entries.map fun e => shownEntry e ++ "\n") ∧
      rows.readAll (Utf8.encode (json (SortedMap.ofList history))) = .ok (entries.map row) ∧
      ∀ history',
        ((∀ p message, LastAt history' p message ↔ LastAt history p message) →
          text (SortedMap.ofList history') = text (SortedMap.ofList history)) ∧
        ((∀ p message, LastAt history' p message ↔ LastAt history p message) ↔
          json (SortedMap.ofList history') = json (SortedMap.ofList history)) := by
  refine ⟨(SortedMap.ofList history).toList, fun entries' => canonical_iff, text_eq _,
    readAll_json _, fun history' => ?_⟩
  rw [← ofList_eq_iff]
  refine ⟨fun h => ?_, fun h => ?_, eq_of_json⟩
  · rw [h]
  · rw [h]

/-- The later message at a position replaces the one before it. -/
example : text (SortedMap.ofList [(⟨"b.go", 1⟩, "x"), (⟨"a.go", 3⟩, "old"), (⟨"a.go", 3⟩, "new")]) =
    "a.go:3: new\nb.go:1: x\n" := by decide

end Findings.Report
