import Findings.Proofs.Collect
import Findings.Proofs.Position.Shown

/-!
# Failures told by their text

The text of a failure to collect quotes what it speaks of: an analyzer, a package and its whole
entry, a finding, two messages. Nothing that is quoted can be mistaken for the text around it, so
the text tells the failure (`Diagnostics.told_by_message`), whatever quotation marks, braces or
look-alikes the strings hold. Only the position of a taken line stands there unquoted. It was read
from a finding, so its name has no colon.

Route. Findings, lists of them and entries are self-delimiting (`Entry.selfDelimiting_shown`), part
by part. A failure is one of three (`Failure.Collecting`), by its first two characters.
-/

set_option autoImplicit false

namespace Findings

/-! ## Findings and entries -/

theorem Finding.selfDelimiting_shown : SelfDelimiting Finding.shown := by
  rintro ⟨posn, message⟩ ⟨posn', message'⟩ s t h
  unfold shown at h
  simp only [String.append_assoc, String.append_right_inj] at h
  obtain ⟨rfl, hmessage⟩ := Text.selfDelimiting_quote h
  rw [String.append_right_inj] at hmessage
  obtain ⟨rfl, hrest⟩ := Text.selfDelimiting_quote hmessage
  exact ⟨rfl, (String.append_right_inj _).1 hrest⟩

namespace Entry

theorem selfDelimiting_shownResult : SelfDelimiting shownResult := by
  have hlist := Finding.selfDelimiting_shown.listed "])"
    (fun s t h => by simp [← String.toList_inj] at h)
    (fun d s t h => by unfold Finding.shown at h; simp [← String.toList_inj] at h)
  intro r r' s t h
  cases r with
  | none =>
    cases r' with
    | none => exact ⟨rfl, (String.append_right_inj _).1 h⟩
    | some l' => simp [← String.toList_inj, shownResult] at h
  | some l =>
    cases r' with
    | none => simp [← String.toList_inj, shownResult] at h
    | some l' =>
      simp only [shownResult, String.append_assoc, String.append_right_inj] at h
      obtain ⟨rfl, hst⟩ := hlist (by simpa only [String.append_assoc] using h)
      exact ⟨rfl, hst⟩

theorem selfDelimiting_shown : SelfDelimiting shown := by
  have hitem : SelfDelimiting fun p : String × Option (List Finding) =>
      Text.quote p.1 ++ ": " ++ shownResult p.2 := by
    rintro ⟨analyzer, r⟩ ⟨analyzer', r'⟩ s t h
    simp only [String.append_assoc] at h
    obtain ⟨rfl, hresult⟩ := Text.selfDelimiting_quote h
    rw [String.append_right_inj] at hresult
    obtain ⟨rfl, hst⟩ := selfDelimiting_shownResult hresult
    exact ⟨rfl, hst⟩
  have hlist := hitem.listed "\x7d"
    (fun s t h => by simp [← String.toList_inj] at h)
    (fun p s t h => by simp [← String.toList_inj, Text.quote] at h)
  intro e e' s t h
  unfold shown at h
  simp only [String.append_assoc, String.append_right_inj] at h
  obtain ⟨hentries, hst⟩ := hlist (by simpa only [String.append_assoc] using h)
  exact ⟨SortedMap.ext hentries, hst⟩

end Entry

/-! ## Failures -/

/-- What is known of a failure to collect, apart from its kind. -/
inductive Failure.Collecting : Failure → Prop
  | schema (analyzer package entry : String) : Collecting (.schema analyzer package entry)
  | malformedPosition {d : Finding} {cause : PositionError}
      (h : Position.ofPosn d.posn = .error cause) : Collecting (.malformedPosition d cause)
  | duplicatePosition {p : Position} (h : ':' ∉ p.filename.toList) (existing incoming : String) :
      Collecting (.duplicatePosition p existing incoming)

theorem Diagnostics.collecting_of_ofPayload {analyzer : String} {payload : Payload} {f : Failure}
    (h : ofPayload analyzer payload = .error f) : f.Collecting := by
  obtain ⟨earlier, c, later, hchecks, -, hc⟩ := ofPayload_eq_error_iff.1 h
  cases hc with
  | lacking => exact .schema ..
  | unreadable hposn => exact .malformedPosition hposn
  | @taken p existing message =>
    have hmem : (p, message) ∈ placed (payload.checks analyzer) := by
      rw [hchecks, placed_append]
      exact List.mem_append_right _ List.mem_cons_self
    rw [placed_checks] at hmem
    obtain ⟨d, -, hposn, -⟩ := mem_filterMap_placed.1 hmem
    exact .duplicatePosition (Position.colon_not_mem_of_ofPosn hposn) existing message

namespace Failure

variable {analyzer analyzer' package package' entry entry' existing existing' incoming incoming' :
  String} {d d' : Finding} {cause cause' : PositionError} {p p' : Position}

theorem eq_of_schema_message
    (h : (schema analyzer package entry).message = (schema analyzer' package' entry').message) :
    schema analyzer package entry = schema analyzer' package' entry' := by
  unfold message at h
  simp only [String.append_assoc, String.append_right_inj] at h
  obtain ⟨rfl, hpackage⟩ := Text.selfDelimiting_quote h
  rw [String.append_right_inj] at hpackage
  obtain ⟨rfl, hentry⟩ := Text.selfDelimiting_quote hpackage
  rw [(String.append_right_inj _).1 hentry]

theorem eq_of_malformedPosition_message (hcause : Position.ofPosn d.posn = .error cause)
    (hcause' : Position.ofPosn d'.posn = .error cause')
    (h : (malformedPosition d cause).message = (malformedPosition d' cause').message) :
    malformedPosition d cause = malformedPosition d' cause' := by
  unfold message at h
  simp only [String.append_assoc, String.append_right_inj] at h
  obtain ⟨rfl, -⟩ := Finding.selfDelimiting_shown h
  rw [Except.error.inj (hcause.symm.trans hcause')]

theorem eq_of_duplicatePosition_message (hp : ':' ∉ p.filename.toList)
    (hp' : ':' ∉ p'.filename.toList)
    (h : (duplicatePosition p existing incoming).message =
      (duplicatePosition p' existing' incoming').message) :
    duplicatePosition p existing incoming = duplicatePosition p' existing' incoming' := by
  unfold message at h
  simp only [String.append_assoc, String.append_right_inj] at h
  obtain ⟨rfl, hexisting⟩ := Position.eq_of_shown_append rfl (by decide) hp hp' h
  obtain ⟨rfl, hincoming⟩ := Text.selfDelimiting_quote hexisting
  rw [String.append_right_inj] at hincoming
  rw [Text.selfDelimiting_quote.injective hincoming]

/-- Failures of different kinds differ in the first two characters of their texts. -/
theorem Collecting.eq_of_message {f f' : Failure} (hf : f.Collecting) (hf' : f'.Collecting)
    (h : f.message = f'.message) : f = f' := by
  have hstart : f.message.toList.take 2 = f'.message.toList.take 2 := by rw [h]
  unfold message at hstart
  cases hf with
  | schema =>
    cases hf' with
    | schema => exact eq_of_schema_message h
    | malformedPosition => simp at hstart
    | duplicatePosition => simp at hstart
  | malformedPosition hcause =>
    cases hf' with
    | schema => simp at hstart
    | malformedPosition hcause' => exact eq_of_malformedPosition_message hcause hcause' h
    | duplicatePosition => simp at hstart
  | duplicatePosition hp =>
    cases hf' with
    | schema => simp at hstart
    | malformedPosition => simp at hstart
    | duplicatePosition hp' => exact eq_of_duplicatePosition_message hp hp' h

end Failure

namespace Diagnostics

/-- A package that is told to lack the analyzer is shown with its whole entry. -/
theorem eq_shown_of_schema {analyzer name package text : String} {payload : Payload}
    (h : ofPayload analyzer payload = .error (.schema name package text)) :
    ∃ entry, payload.get? package = some entry ∧ text = entry.shown := by
  obtain ⟨earlier, c, later, hchecks, -, hc⟩ := ofPayload_eq_error_iff.1 h
  cases hc with
  | @lacking _ _ entry htext =>
    have hmem : .key package (some entry) ∈ payload.checks analyzer := by
      rw [hchecks]
      exact List.mem_append_right _ List.mem_cons_self
    exact ⟨entry, SortedMap.get?_eq_some_iff.2 (key_mem_checks.1 hmem).1,
      Entry.rendered_iff.1 htext⟩

/-- **A failure to collect is told by its text**: failures with the same text, of whatever analyzers
and payloads, are the same in kind and in all that they say. If they say that a package lacks the
analyzer, both payloads have the same whole entry for it. -/
theorem told_by_message {analyzer analyzer' : String} {payload payload' : Payload}
    {f f' : Failure} (h : ofPayload analyzer payload = .error f)
    (h' : ofPayload analyzer' payload' = .error f') (hmessage : f.message = f'.message) :
    f = f' ∧ ∀ name package text, f = .schema name package text →
      ∃ entry, payload.get? package = some entry ∧ payload'.get? package = some entry := by
  obtain rfl := (collecting_of_ofPayload h).eq_of_message (collecting_of_ofPayload h') hmessage
  refine ⟨rfl, ?_⟩
  rintro name package text rfl
  obtain ⟨entry, hentry, hshown⟩ := eq_shown_of_schema h
  obtain ⟨entry', hentry', hshown'⟩ := eq_shown_of_schema h'
  obtain rfl := Entry.selfDelimiting_shown.injective (hshown.symm.trans hshown')
  exact ⟨entry, hentry, hentry'⟩

/-- Results of other analyzers, with quotation marks and commas in their strings. -/
def disguised : List (String × Option (List Finding)) :=
  [("k\": ", none), ("k", some [⟨"\", ", "\\\n"⟩])]

/-- One package, with these results. -/
def disguisedAlone : Payload := SortedMap.ofList [("p\"", SortedMap.ofList disguised)]

/-- The same in another order, with a further package. -/
def disguisedAgain : Payload :=
  SortedMap.ofList [("q", ∅), ("p\"", SortedMap.ofList disguised.reverse)]

theorem told_by_message_disguised :
    let f := Failure.schema "n" "p\"" (Entry.shown (SortedMap.ofList disguised))
    let f' := Failure.schema "n" "p\"" (Entry.shown (SortedMap.ofList disguised.reverse))
    ofPayload "n" disguisedAlone = .error f ∧ ofPayload "n" disguisedAgain = .error f' ∧
      f.message = f'.message ∧ f = f' ∧
      ∃ entry, disguisedAlone.get? "p\"" = some entry ∧
        disguisedAgain.get? "p\"" = some entry := by
  have h : ofPayload "n" disguisedAlone =
      .error (.schema "n" "p\"" (Entry.shown (SortedMap.ofList disguised))) := rfl
  have h' : ofPayload "n" disguisedAgain =
      .error (.schema "n" "p\"" (Entry.shown (SortedMap.ofList disguised.reverse))) := rfl
  have hmessage : (Failure.schema "n" "p\"" (Entry.shown (SortedMap.ofList disguised))).message =
      (Failure.schema "n" "p\"" (Entry.shown (SortedMap.ofList disguised.reverse))).message := by
    decide +kernel
  obtain ⟨heq, hentry⟩ := told_by_message h h' hmessage
  exact ⟨h, h', hmessage, heq, hentry _ _ _ rfl⟩

end Diagnostics

end Findings
