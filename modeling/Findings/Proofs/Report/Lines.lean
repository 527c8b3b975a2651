import Findings.Proofs.Restatement

/-!
# The lines of a text report

A text report ends every entry with a line feed, but a file name or a message may hold further ones:
a string of JSON can write them as escapes, and nothing takes them out. So the report has one line
for each entry just if no entry holds a line feed (`Report.one_line_each_iff`), and `brokenText` is
a payload of one finding whose report has two lines.

Route. To consist of lines is to be cut at line feeds into them and an empty rest
(`Report.lines_iff_segments`), so the lines of a text are its own and as many as its line feeds.
-/

set_option autoImplicit false

namespace Findings.Report

/-- The text consists of the lines, each ended by a line feed. -/
structure Lines (text : String) (lines : List String) : Prop where
  text : text = String.join (lines.map (· ++ "\n"))
  plain : ∀ l ∈ lines, '\n' ∉ l.toList

/-- An entry as `file:line: message`, with the line in decimal digits. -/
def shownEntry (e : Position × String) : String :=
  e.1.filename ++ ":" ++ toString e.1.line.toNat ++ ": " ++ e.2

/-- Neither the file name nor the message has a line feed in it. -/
def OnOneLine (e : Position × String) : Prop :=
  '\n' ∉ e.1.filename.toList ∧ '\n' ∉ e.2.toList

/-! ## Texts and their lines -/

section
variable {text text' : String} {lines lines' : List String}

theorem intercalate_append_nil (l : List (List Char)) :
    ['\n'].intercalate (l ++ [[]]) = l.flatMap (· ++ ['\n']) := by
  induction l with
  | nil => rfl
  | cons x l ih =>
    rw [List.cons_append, List.flatMap_cons, ← ih]
    cases l <;> simp [List.intercalate, List.intersperse]

theorem lines_iff_segments :
    Lines text lines ↔ segments '\n' text.toList = lines.map String.toList ++ [[]] := by
  have htext : text = String.join (lines.map (· ++ "\n")) ↔
      text.toList = ['\n'].intercalate (lines.map String.toList ++ [[]]) := by
    rw [intercalate_append_nil, ← String.toList_inj, String.toList_join]
    simp [List.flatMap_map]
  rw [segments_eq_iff, ← htext]
  constructor
  · intro h
    refine ⟨by simp, fun t ht => ?_, h.text⟩
    rcases List.mem_append.1 ht with ht | ht
    · obtain ⟨l, hl, rfl⟩ := List.mem_map.1 ht
      exact h.plain l hl
    · rw [List.mem_singleton.1 ht]
      exact List.not_mem_nil
  · rintro ⟨-, hplain, h⟩
    exact ⟨h, fun l hl => hplain _ (List.mem_append_left _ (List.mem_map_of_mem hl))⟩

/-- A text has one way to consist of lines at most. -/
theorem Lines.eq (h : Lines text lines) (h' : Lines text lines') : lines = lines' := by
  rw [lines_iff_segments] at h h'
  have hmap := List.append_cancel_right (h.symm.trans h')
  exact List.map_injective_iff.2 (fun _ _ => String.toList_inj.1) hmap

theorem Lines.length_eq (h : Lines text lines) : lines.length = text.toList.count '\n' := by
  have hlength := length_segments '\n' text.toList
  rw [lines_iff_segments.1 h] at hlength
  simpa using hlength

theorem Lines.append (h : Lines text lines) (h' : Lines text' lines') :
    Lines (text ++ text') (lines ++ lines') := by
  refine ⟨?_, fun l hl => ?_⟩
  · rw [List.map_append, String.join_append, ← h.text, ← h'.text]
  · rcases List.mem_append.1 hl with hl | hl
    · exact h.plain l hl
    · exact h'.plain l hl

end

/-! ## The lines of a report -/

section
variable {e : Position × String}

theorem shownEntry_eq (e : Position × String) : shownEntry e = e.1.shown ++ ": " ++ e.2 := by
  rw [shownEntry, Position.shown]

theorem textLine_eq (e : Position × String) : textLine e = shownEntry e ++ "\n" := by
  rw [textLine, shownEntry_eq]

theorem text_eq (m : Diagnostics) :
    text m = String.join (m.toList.map fun e => shownEntry e ++ "\n") := by
  rw [text, funext textLine_eq]

theorem toList_textLine (e : Position × String) :
    (textLine e).toList = (shownEntry e).toList ++ ['\n'] := by
  rw [textLine_eq, String.toList_append]
  rfl

theorem lines_textLine (e : Position × String) :
    Lines (textLine e) ((segments '\n' (shownEntry e).toList).map String.ofList) := by
  have hsegments := segments_append_cons '\n' (shownEntry e).toList []
  rw [lines_iff_segments, toList_textLine, hsegments, List.map_map]
  simp [Function.comp_def, segments]

theorem onOneLine_iff : OnOneLine e ↔ '\n' ∉ (shownEntry e).toList := by
  have hline := Position.newline_not_mem_toString e.1.line.toNat
  simp only [shownEntry, String.toList_append, List.mem_append, hline]
  simp [OnOneLine]

theorem lines_textLine_of_onOneLine (h : OnOneLine e) : Lines (textLine e) [shownEntry e] := by
  have hlines := lines_textLine e
  rwa [segments_of_not_mem (onOneLine_iff.1 h), List.map_singleton, String.ofList_toList] at hlines

/-- Every list of entries is printed in lines. -/
theorem exists_lines (l : List (Position × String)) :
    ∃ lines, Lines (String.join (l.map textLine)) lines := by
  induction l with
  | nil => exact ⟨[], by simp, by simp⟩
  | cons e l ih =>
    obtain ⟨lines, hlines⟩ := ih
    rw [List.map_cons, String.join_cons]
    exact ⟨_, (lines_textLine e).append hlines⟩

theorem lines_of_onOneLine {l : List (Position × String)} (h : ∀ e ∈ l, OnOneLine e) :
    Lines (String.join (l.map textLine)) (l.map shownEntry) := by
  induction l with
  | nil => exact ⟨by simp, by simp⟩
  | cons e l ih =>
    rw [List.forall_mem_cons] at h
    rw [List.map_cons, List.map_cons, String.join_cons]
    exact (lines_textLine_of_onOneLine h.1).append (ih h.2)

/-- There are as many line feeds as entries, and those within entries. -/
theorem count_textLines (l : List (Position × String)) :
    (String.join (l.map textLine)).toList.count '\n' =
      l.length + (l.flatMap fun e => (shownEntry e).toList).count '\n' := by
  induction l with
  | nil => rfl
  | cons e l ih =>
    rw [List.map_cons, String.join_cons, String.toList_append, List.count_append, ih,
      toList_textLine, List.count_append, List.count_singleton_self, List.flatMap_cons,
      List.count_append, List.length_cons]
    omega

theorem length_lines_iff {m : Diagnostics} {lines : List String} (h : Lines (text m) lines) :
    lines.length = m.size ↔ ∀ e ∈ m.toList, OnOneLine e := by
  rw [h.length_eq, text, count_textLines, SortedMap.size, Nat.add_eq_left, List.count_eq_zero]
  simp only [onOneLine_iff, List.mem_flatMap, not_exists, not_and]

end

/-- **When a text report has one line for each entry.** Every report consists of lines. There are as
many as entries just if no file name and no message has a line feed in it, and then they are the
entries in the form `file:line: message`, in the order of the positions. -/
theorem one_line_each_iff (m : Diagnostics) :
    ∃ lines, (∀ lines', Lines (text m) lines' ↔ lines' = lines) ∧
      (lines.length = m.size ↔ ∀ e ∈ m.toList, OnOneLine e) ∧
      (lines = m.toList.map shownEntry ↔ ∀ e ∈ m.toList, OnOneLine e) := by
  obtain ⟨lines, h⟩ := exists_lines m.toList
  refine ⟨lines, fun lines' => ⟨fun h' => h'.eq h, ?_⟩, length_lines_iff h, ?_, fun hone => ?_⟩
  · rintro rfl
    exact h
  · rintro rfl
    exact (length_lines_iff h).1 (by rw [List.length_map]; rfl)
  · exact h.eq (lines_of_onOneLine hone)

/-- A text with one finding, in whose message a line feed is escaped. -/
def brokenText : Json.Bytes :=
  Utf8.encode "\x7b\"p\":\x7b\"n\":[[\"a.go:1:1\",\"x\\ny\"]]\x7d\x7d"

/-- What is collected from it. -/
def brokenEntry : Diagnostics := SortedMap.ofList [(⟨"a.go", 1⟩, "x\ny")]

/-- The report of the one finding has two lines. -/
theorem breaks_line_of_message :
    Diagnostics.ofBytes "n" brokenText = .ok brokenEntry ∧ brokenEntry.size = 1 ∧
      Lines (text brokenEntry) ["a.go:1: x", "y"] ∧
      ¬ ∃ lines, Lines (text brokenEntry) lines ∧ lines.length = brokenEntry.size := by
  have hwritten : Document.WrittenIn [("p", [("n", some [⟨"a.go:1:1", "x\ny"⟩])])] brokenText := by
    decide +kernel
  have hlines : Lines (text brokenEntry) ["a.go:1: x", "y"] := ⟨by decide, by decide⟩
  refine ⟨(Diagnostics.ofBytes_of_written hwritten).trans rfl, rfl, hlines, ?_⟩
  rintro ⟨lines, h, hlength⟩
  rw [h.eq hlines] at hlength
  cases hlength

end Findings.Report
