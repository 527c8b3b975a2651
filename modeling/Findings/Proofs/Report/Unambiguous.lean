import Findings.Proofs.Report.Lines

/-!
# Results told by their text report

The text report quotes nothing, and a message may hold anything that an entry has: colons, digits,
what looks like the head of another entry. Still, results without line feeds that have the same
report are the same (`Report.told_by_text`).

Route. Without line feeds the lines of a report are its entries. File names of a result hold no
colon, so the first one on a line ends the name, and the colon behind the digits ends the line
number (`Report.eq_of_shownEntry`).
-/

set_option autoImplicit false

namespace Findings.Report

/-- Entries on the same line are the same, if no colon is in a file name. -/
theorem eq_of_shownEntry {e e' : Position × String} (hfile : ':' ∉ e.1.filename.toList)
    (hfile' : ':' ∉ e'.1.filename.toList) (h : shownEntry e = shownEntry e') : e = e' := by
  rw [shownEntry_eq, shownEntry_eq, String.append_assoc, String.append_assoc] at h
  obtain ⟨hposition, hmessage⟩ :=
    Position.eq_of_shown_append rfl (by decide) hfile hfile' h
  exact Prod.ext hposition hmessage

theorem eq_of_map_shownEntry {l l' : List (Position × String)}
    (hfile : ∀ e ∈ l, ':' ∉ e.1.filename.toList) (hfile' : ∀ e ∈ l', ':' ∉ e.1.filename.toList)
    (h : l.map shownEntry = l'.map shownEntry) : l = l' := by
  induction l generalizing l' with
  | nil => exact (List.map_eq_nil_iff.1 h.symm).symm
  | cons e l ih =>
    cases l' with
    | nil => cases h
    | cons e' l' =>
      rw [List.forall_mem_cons] at hfile hfile'
      obtain ⟨hentry, hrest⟩ := List.cons.inj h
      rw [eq_of_shownEntry hfile.1 hfile'.1 hentry, ih hfile.2 hfile'.2 hrest]

variable {analyzer analyzer' : String} {raw raw' : Json.Bytes} {m m' : Diagnostics}

/-- **A result is told by its text report**, if no file name and no message has a line feed in it:
another such result, of whatever analyzer and output, has another report. -/
theorem told_by_text (h : Diagnostics.ofBytes analyzer raw = .ok m)
    (h' : Diagnostics.ofBytes analyzer' raw' = .ok m') (hone : ∀ e ∈ m.toList, OnOneLine e)
    (hone' : ∀ e ∈ m'.toList, OnOneLine e) (htext : text m = text m') : m = m' := by
  have hlines : Lines (text m) (m.toList.map shownEntry) := lines_of_onOneLine hone
  have hlines' : Lines (text m) (m'.toList.map shownEntry) := htext ▸ lines_of_onOneLine hone'
  refine SortedMap.ext (eq_of_map_shownEntry ?_ ?_ (hlines.eq hlines'))
  · exact Diagnostics.colon_not_mem_filename h
  · exact Diagnostics.colon_not_mem_filename h'

/-- A finding in a file without a name, with a message that looks like an entry, and one whose
message looks like the end of a head. -/
def lookalikes : Payload :=
  SortedMap.ofList
    [("p", SortedMap.ofList [("n", some [⟨":7:1", "b.go:2: x"⟩, ⟨"a b:+10:2", ": "⟩])])]

/-- The same of another analyzer, in two packages and the other order. -/
def lookalikesApart : Payload :=
  SortedMap.ofList
    [("p", SortedMap.ofList [("k", some [⟨"a b:10:", ": "⟩])]),
      ("q", SortedMap.ofList [("k", some [⟨":07:9", "b.go:2: x"⟩])])]

theorem told_by_text_lookalikes :
    let m : Diagnostics := SortedMap.ofList [(⟨"", 7⟩, "b.go:2: x"), (⟨"a b", 10⟩, ": ")]
    let m' : Diagnostics := SortedMap.ofList [(⟨"a b", 10⟩, ": "), (⟨"", 7⟩, "b.go:2: x")]
    Diagnostics.ofBytes "n" lookalikes.print = .ok m ∧
      Diagnostics.ofBytes "k" lookalikesApart.print = .ok m' ∧
      text m = ":7: b.go:2: x\na b:10: : \n" ∧ text m' = text m ∧ m = m' := by
  intro m m'
  have h : Diagnostics.ofBytes "n" lookalikes.print = .ok m := by
    rw [Diagnostics.ofBytes_print]
    rfl
  have h' : Diagnostics.ofBytes "k" lookalikesApart.print = .ok m' := by
    rw [Diagnostics.ofBytes_print]
    rfl
  have htext : text m' = text m := by decide
  refine ⟨h, h', by decide, htext, told_by_text h h' ?_ ?_ htext.symm⟩
  · unfold OnOneLine
    decide
  · unfold OnOneLine
    decide

end Findings.Report
