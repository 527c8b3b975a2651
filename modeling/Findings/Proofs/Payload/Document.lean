import Findings.Proofs.Collect
import Findings.Proofs.Payload.Finding

/-!
# What a raw output writes

A raw output writes a `Document`: packages, in each the analyzers with their lists, all in the order
of the text. A document keeps the keys that a payload cannot: those that are repeated.

* `decode_eq_ok_iff`: `Payload.decode` accepts the raw outputs that write a document, and gives the
  payload in which the last value of a repeated key stands for all.
* `records_iff_kept`: a finding that is written is in the result just if it is kept, or one that is
  kept says the same of the same line. So nothing is lost where no key is repeated, and something
  can be where one is (`repeatedText`).
-/

set_option autoImplicit false

namespace Findings

open Json

/-- The packages that are written, in each the analyzers and their lists. -/
abbrev Document := List (String × List (String × Option (List Finding)))

namespace Document

/-- The payload of a document: of a repeated key the last value counts. -/
def payload (doc : Document) : Payload :=
  SortedMap.ofList (doc.map (Prod.map id SortedMap.ofList))

/-- The texts of documents. -/
def DocumentText : Bytes → Document → Prop :=
  ObjectText (ObjectText (OrNullText (ListText FindingText)))

/-- The bytes write the document, with blanks around it. -/
def WrittenIn (doc : Document) (raw : Bytes) : Prop :=
  ∃ w t v, Blank w ∧ DocumentText t doc ∧ Blank v ∧ raw = w ++ (t ++ v)

/-- Reads a document. -/
def reader : Reader Document := objectOf (objectOf (orNull (listOf finding)))

variable {raw : Bytes} {doc doc' : Document}

theorem reads_results : (objectOf (orNull (listOf finding))).Reads
    (ObjectText (OrNullText (ListText FindingText))) := by
  have hlist := reads_finding.listOf (neverStarts_findingText (by decide) (by decide))
  refine (hlist.orNull ?_).objectOf
  rintro t l ⟨-⟩
  exact ⟨_, _, rfl, rfl, by decide⟩

theorem writtenIn_iff : doc.WrittenIn raw ↔ reader.readAll raw = .ok doc :=
  reads_results.objectOf.readAll_eq_ok_iff.symm

set_option synthInstance.maxSize 256 in
instance (doc : Document) (raw : Bytes) : Decidable (doc.WrittenIn raw) :=
  decidable_of_iff (reader.readAll raw = .ok doc) writtenIn_iff.symm

/-- A text writes one document at most. -/
theorem WrittenIn.eq (h : doc.WrittenIn raw) (h' : doc'.WrittenIn raw) : doc = doc' := by
  rw [writtenIn_iff] at h h'
  exact Except.ok.inj (h.symm.trans h')

example : WrittenIn
    [("p", [("n", some [⟨"a.go:1:1", "m"⟩, ⟨"b.go:2:1", "𝄞"⟩]), ("k", none)])]
    (Utf8.encode ("\x7b \"p\" :\x7b\"n\":[\x7b\"message\":\"m\",\"\\u0070osn\":\"a.go:1:1\"\x7d," ++
      "[\"b.go:2:1\",\"\\uD834\\udd1e\"]],\"k\":null\x7d\x7d\n")) := by
  decide +kernel

end Document

/-- Payloads are read from the texts of documents. -/
theorem Payload.reads_reader : reader.Reads fun t p =>
    ∃ doc : Document, Document.DocumentText t doc ∧ doc.payload = p := by
  have h := (Document.reads_results.map SortedMap.ofList).objectOf.map SortedMap.ofList
  simp only [objectText_map_iff, exists_exists_and_eq_and] at h
  exact h

theorem Payload.decode_eq_ok_iff_readAll {raw : Bytes} {p : Payload} :
    decode raw = .ok p ↔ reader.readAll raw = .ok p := by
  unfold Payload.decode
  split <;> rename_i h <;> rw [h] <;> simp

/-- **What is decoded**: the payload of the document that is written. -/
theorem Payload.decode_eq_ok_iff {raw : Bytes} {p : Payload} :
    Payload.decode raw = .ok p ↔ ∃ doc : Document, doc.WrittenIn raw ∧ doc.payload = p := by
  rw [decode_eq_ok_iff_readAll, reads_reader.readAll_eq_ok_iff]
  constructor
  · rintro ⟨w, t, v, hw, ⟨doc, ht, rfl⟩, hv, rfl⟩
    exact ⟨doc, ⟨w, t, v, hw, ht, hv, rfl⟩, rfl⟩
  · rintro ⟨doc, ⟨w, t, v, hw, ht, hv, rfl⟩, rfl⟩
    exact ⟨w, t, v, hw, ⟨doc, ht, rfl⟩, hv, rfl⟩

/-! ## What becomes of a finding that is written -/

/-- The value is the last one written for the key. -/
def LastOf {α : Type} (l : List (String × α)) (k : String) (a : α) : Prop :=
  ∃ before after, l = before ++ (k, a) :: after ∧ ∀ e ∈ after, e.1 ≠ k

namespace Document

variable {analyzer : String} {doc : Document} {d : Finding}

/-- The finding stands in some list of the analyzer. -/
def Writes (doc : Document) (analyzer : String) (d : Finding) : Prop :=
  ∃ package results, (package, results) ∈ doc ∧ ∃ l, (analyzer, some l) ∈ results ∧ d ∈ l

/-- The finding stands in a list of the analyzer of which no later key takes the place. -/
def Keeps (doc : Document) (analyzer : String) (d : Finding) : Prop :=
  ∃ package results, LastOf doc package results ∧ ∃ l, LastOf results analyzer (some l) ∧ d ∈ l

/-- No package stands there twice, and no analyzer in a package. -/
def Unrepeated (doc : Document) : Prop :=
  (doc.map (·.1)).Nodup ∧ ∀ e ∈ doc, (e.2.map (·.1)).Nodup

theorem get?_payload {package : String} {entry : Entry} :
    doc.payload.get? package = some entry ↔
      ∃ results, LastOf doc package results ∧ SortedMap.ofList results = entry := by
  rw [payload, SortedMap.get?_ofList]
  constructor
  · rintro ⟨before, after, h, hafter⟩
    obtain ⟨b, r, rfl, rfl, hr⟩ := List.map_eq_append_iff.1 h
    obtain ⟨e, a, rfl, he, rfl⟩ := List.map_eq_cons_iff.1 hr
    cases he
    refine ⟨e.2, ⟨b, a, rfl, fun x hx => ?_⟩, rfl⟩
    exact hafter _ (List.mem_map_of_mem hx)
  · rintro ⟨results, ⟨before, after, rfl, hafter⟩, rfl⟩
    refine ⟨_, _, by rw [List.map_append, List.map_cons]; rfl, ?_⟩
    rintro e he
    obtain ⟨x, hx, rfl⟩ := List.mem_map.1 he
    exact hafter x hx

/-- The findings of the payload are those that are kept. -/
theorem mem_findings_payload : d ∈ doc.payload.findings analyzer ↔ doc.Keeps analyzer d := by
  have hfind (e : Entry) :
      d ∈ e.findings analyzer ↔ ∃ l, e.get? analyzer = some (some l) ∧ d ∈ l := by
    unfold Entry.findings
    split
    next h => simp [h]
    next h =>
      refine ⟨fun hd => absurd hd List.not_mem_nil, ?_⟩
      rintro ⟨l, hl, -⟩
      exact (h l hl).elim
  rw [Payload.findings, List.mem_flatMap]
  simp only [hfind, Prod.exists, ← SortedMap.get?_eq_some_iff, get?_payload]
  constructor
  · rintro ⟨package, _, ⟨results, hlast, rfl⟩, l, hl, hd⟩
    exact ⟨package, results, hlast, l, SortedMap.get?_ofList.1 hl, hd⟩
  · rintro ⟨package, results, hlast, l, hl, hd⟩
    exact ⟨package, _, ⟨results, hlast, rfl⟩, l, SortedMap.get?_ofList.2 hl, hd⟩

theorem lastOf_of_nodup {α : Type} {l : List (String × α)} {k : String} {a : α}
    (h : (l.map (·.1)).Nodup) (hm : (k, a) ∈ l) : LastOf l k a :=
  SortedMap.get?_ofList.1 ((SortedMap.get?_ofList_of_nodup h).2 hm)

theorem Unrepeated.keeps (h : doc.Unrepeated) (hd : doc.Writes analyzer d) :
    doc.Keeps analyzer d := by
  obtain ⟨package, results, he, l, hl, hd⟩ := hd
  exact ⟨package, results, lastOf_of_nodup h.1 he, l, lastOf_of_nodup (h.2 _ he) hl, hd⟩

end Document

namespace Diagnostics

/-- The message of the finding stands at its position. -/
def Records (m : Diagnostics) (d : Finding) : Prop :=
  ∃ p, Position.ofPosn d.posn = .ok p ∧ m.get? p = some d.message

variable {analyzer : String} {raw : Bytes} {doc : Document} {m : Diagnostics}

theorem collectBytes_of_written (h : doc.WrittenIn raw) :
    collectBytes analyzer raw = collect analyzer doc.payload :=
  collectBytes_of_decoded (Payload.decode_eq_ok_iff.2 ⟨doc, h, rfl⟩) analyzer

theorem ofBytes_of_written (h : doc.WrittenIn raw) :
    ofBytes analyzer raw = ofPayload analyzer doc.payload :=
  congrArg Collected.result (collectBytes_of_written h)

/-- A text with a result writes a document. -/
theorem exists_written (hm : ofBytes analyzer raw = .ok m) :
    ∃ doc : Document, doc.WrittenIn raw := by
  cases hd : Payload.decode raw with
  | error cause =>
    rw [ofBytes_of_refused hd] at hm
    cases hm
  | ok payload =>
    obtain ⟨doc, h, -⟩ := Payload.decode_eq_ok_iff.1 hd
    exact ⟨doc, h⟩

/-- A finding is recorded just if one that is kept has the same position and message. -/
theorem records_iff_kept (h : doc.WrittenIn raw) (hm : ofBytes analyzer raw = .ok m)
    (d : Finding) :
    m.Records d ↔ ∃ d', doc.Keeps analyzer d' ∧ d'.placed? = d.placed? := by
  rw [ofBytes_of_written h] at hm
  obtain ⟨-, hposn, -⟩ := ofPayload_eq_ok_iff.1 hm
  constructor
  · rintro ⟨p, hp, hget⟩
    obtain ⟨d', hd', hp', hmessage⟩ := (get?_of_ofPayload hm).1 hget
    refine ⟨d', Document.mem_findings_payload.1 hd', ?_⟩
    rw [Finding.placed?_eq_some_iff.2 ⟨hp, rfl⟩, Finding.placed?_eq_some_iff]
    exact ⟨hp', hmessage⟩
  · rintro ⟨d', hd', he⟩
    have hmem := Document.mem_findings_payload.2 hd'
    obtain ⟨p, hp⟩ := hposn d' hmem
    rw [Finding.placed?_eq_some_iff.2 ⟨hp, rfl⟩] at he
    obtain ⟨hpd, hmessage⟩ := Finding.placed?_eq_some_iff.1 he.symm
    exact ⟨p, hpd, (get?_of_ofPayload hm).2 ⟨d', hmem, hp, hmessage.symm⟩⟩

/-- **What is lost between text and result**: a text with a result writes one document, and all
findings that it writes are recorded iff each has the position and message of one that is kept. So
they are where no key is repeated. -/
theorem records_all_written_iff (hm : ofBytes analyzer raw = .ok m) :
    ∃ doc : Document, (∀ doc' : Document, doc'.WrittenIn raw ↔ doc' = doc) ∧
      ((∀ d, doc.Writes analyzer d → m.Records d) ↔
        ∀ d, doc.Writes analyzer d → ∃ d', doc.Keeps analyzer d' ∧ d'.placed? = d.placed?) ∧
      (doc.Unrepeated → ∀ d, doc.Writes analyzer d → m.Records d) := by
  obtain ⟨doc, h⟩ := exists_written hm
  refine ⟨doc, fun doc' => ⟨fun h' => h'.eq h, ?_⟩, ?_, fun hu d hd => ?_⟩
  · rintro rfl
    exact h
  · exact forall₂_congr fun d _ => records_iff_kept h hm d
  · exact (records_iff_kept h hm d).2 ⟨d, hu.keeps hd, rfl⟩

/-- A text in which a package is repeated. -/
def repeatedText : Bytes :=
  Utf8.encode "\x7b\"p\":\x7b\"n\":[[\"a.go:1:1\",\"m\"]]\x7d,\"p\":\x7b\"n\":[]\x7d\x7d"

def repeatedDocument : Document :=
  [("p", [("n", some [⟨"a.go:1:1", "m"⟩])]), ("p", [("n", some [])])]

theorem repeatedDocument_writtenIn : repeatedDocument.WrittenIn repeatedText := by
  decide +kernel

theorem ofBytes_repeatedText : ofBytes "n" repeatedText = .ok ∅ :=
  (ofBytes_of_written repeatedDocument_writtenIn).trans rfl

theorem records_all_written_iff_repeatedText :
    ofBytes "n" repeatedText = .ok ∅ ∧
      ∃ doc : Document, (∀ doc' : Document, doc'.WrittenIn repeatedText ↔ doc' = doc) ∧
        ((∀ d, doc.Writes "n" d → (∅ : Diagnostics).Records d) ↔
          ∀ d, doc.Writes "n" d → ∃ d', doc.Keeps "n" d' ∧ d'.placed? = d.placed?) ∧
        (doc.Unrepeated → ∀ d, doc.Writes "n" d → (∅ : Diagnostics).Records d) :=
  ⟨ofBytes_repeatedText, records_all_written_iff ofBytes_repeatedText⟩

/-- The finding of the first list is lost, and nothing is said of it. -/
theorem loses_finding_of_repeated_package :
    ofBytes "n" repeatedText = .ok ∅ ∧ repeatedDocument.WrittenIn repeatedText ∧
      repeatedDocument.Writes "n" ⟨"a.go:1:1", "m"⟩ ∧
      ¬ (∅ : Diagnostics).Records ⟨"a.go:1:1", "m"⟩ := by
  refine ⟨ofBytes_repeatedText, repeatedDocument_writtenIn,
    ⟨"p", _, List.mem_cons_self, _, List.mem_cons_self, List.mem_cons_self⟩, ?_⟩
  rintro ⟨p, -, h⟩
  cases h

end Diagnostics

end Findings
