import Findings.Text.Segments

/-!
# Segments of a text

`segments` cuts a text at every occurrence of the separator, as `List.splitOn` does. The segments
hold no separator and give the text back with separators between them, and no other list of texts
does both (`segments_eq_iff`).
-/

set_option autoImplicit false

namespace Findings

variable {separator : Char} {s t : List Char} {l : List (List Char)}

theorem segments_eq_splitOn (separator : Char) (s : List Char) :
    segments separator s = s.splitOn separator := by
  induction s with
  | nil => rw [segments, List.splitOn_nil]
  | cons c cs ih =>
    rw [segments, List.splitOn_cons_eq_if_modifyHead, ih]
    by_cases h : c = separator
    · simp [h]
    · cases hs : cs.splitOn separator with
      | nil => exact absurd hs (List.splitOn_ne_nil separator cs)
      | cons x xs => simp [h]

theorem not_mem_of_mem_segments (h : t ∈ segments separator s) : separator ∉ t := by
  induction s generalizing t with
  | nil =>
    rw [List.mem_singleton.1 h]
    exact List.not_mem_nil
  | cons c cs ih =>
    rw [segments] at h
    split at h
    · rcases List.mem_cons.1 h with rfl | h
      · exact List.not_mem_nil
      · exact ih h
    next hc =>
      have hcons {x : List Char} (hx : separator ∉ x) : separator ∉ c :: x :=
        List.not_mem_cons_of_ne_of_not_mem (Ne.symm hc) hx
      split at h
      · rw [List.mem_singleton.1 h]
        exact hcons List.not_mem_nil
      next x xs hs =>
        rw [hs] at ih
        rcases List.mem_cons.1 h with rfl | h
        · exact hcons (ih List.mem_cons_self)
        · exact ih (List.mem_cons_of_mem _ h)

theorem segments_eq_iff :
    segments separator s = l ↔
      l ≠ [] ∧ (∀ t ∈ l, separator ∉ t) ∧ s = [separator].intercalate l := by
  constructor
  · rintro rfl
    refine ⟨?_, fun t => not_mem_of_mem_segments, ?_⟩
    · rw [segments_eq_splitOn]
      exact List.splitOn_ne_nil separator s
    · rw [segments_eq_splitOn, List.intercalate_splitOn]
  · rintro ⟨hne, hl, rfl⟩
    rw [segments_eq_splitOn, List.splitOn_intercalate separator hl hne]

/-- A text without separators is one segment. -/
theorem segments_of_not_mem (h : separator ∉ s) : segments separator s = [s] :=
  segments_eq_iff.2 ⟨by simp, by simpa using h, by simp⟩

/-- The segments on both sides of a separator are cut apart from each other. -/
theorem segments_append_cons (separator : Char) (s t : List Char) :
    segments separator (s ++ separator :: t) = segments separator s ++ segments separator t := by
  simp only [segments_eq_splitOn]
  exact List.splitOnP_append_cons s t (by simp)

theorem length_segments (separator : Char) (s : List Char) :
    (segments separator s).length = s.count separator + 1 := by
  induction s with
  | nil => rfl
  | cons c cs ih =>
    rw [segments]
    split
    next h => rw [h, List.length_cons, ih, List.count_cons_self]
    next h =>
      rw [List.count_cons_of_ne h, ← ih]
      split
      next hs => rw [hs] at ih; cases ih
      next hs => rw [hs, List.length_cons, List.length_cons]

end Findings
