import Findings.Proofs.Payload.Document
import Findings.Proofs.Utf8.Lossy

/-!
# What a raw output means

`Document.Says` gives the meaning of a document without the map operations that decoding uses: a
package has the results that are written last for it, and in these an analyzer has the list that is
written last. Decoding accepts the raw outputs that write a document, as the payload that this
document says (`Document.says_iff`), and refuses all others.

A string of the grammar is well-formed UTF-8 without control characters, escapes and all
(`Json.StringText.clean`).
-/

set_option autoImplicit false

namespace Findings

open Json

/-! ## Strings are text -/

namespace Json

variable {b : UInt8} {n : Nat} {s u : Bytes} {c : Char} {t : String}

/-- Well-formed UTF-8 without characters below U+0020. -/
def Clean (s : Bytes) : Prop :=
  ∃ text : String, s = Utf8.encode text ∧ ∀ c ∈ text.toList, 0x20 ≤ c.toNat

theorem clean_nil : Clean [] := ⟨"", rfl, by simp⟩

theorem Clean.append (h : Clean s) (h' : Clean u) : Clean (s ++ u) := by
  obtain ⟨text, rfl, htext⟩ := h
  obtain ⟨text', rfl, htext'⟩ := h'
  refine ⟨text ++ text', ?_, ?_⟩
  · simp [Utf8.encode]
  · rw [String.toList_append]
    exact List.forall_mem_append.2 ⟨htext, htext'⟩

theorem clean_utf8EncodeChar (h : 0x20 ≤ c.toNat) : Clean (String.utf8EncodeChar c) := by
  refine ⟨String.ofList [c], ?_, ?_⟩
  · simp [Utf8.encode]
  · simpa using h

/-- Letters, digits and signs: bytes that are characters by themselves. -/
def Printable (b : UInt8) : Prop := 0x20 ≤ b.toNat ∧ b.toNat < 0x80

instance (b : UInt8) : Decidable (Printable b) :=
  inferInstanceAs (Decidable (0x20 ≤ b.toNat ∧ b.toNat < 0x80))

theorem Printable.clean (h : Printable b) : Clean [b] := by
  obtain ⟨hlo, hhi⟩ := h
  have hn : (Char.ofNat b.toNat).toNat = b.toNat := Utf8.toNat_ofNat_of_bounds (by omega)
  have hb : Utf8.CharBytes (Char.ofNat b.toNat) [b] := .one (by omega) hn.symm
  rw [← (Utf8.charBytes_utf8EncodeChar _).eq hb]
  exact clean_utf8EncodeChar (by omega)

theorem clean_of_printable (h : ∀ b ∈ s, Printable b) : Clean s := by
  induction s with
  | nil => exact clean_nil
  | cons b s ih =>
    rw [List.forall_mem_cons] at h
    exact h.1.clean.append (ih h.2)

theorem HexDigit.printable (h : HexDigit b n) : Printable b := by
  cases h <;> constructor <;> omega

theorem HexUnit.printable (h : HexUnit u n) : ∀ b ∈ u, Printable b := by
  cases h with
  | mk ha hb hc hd => simp [ha.printable, hb.printable, hc.printable, hd.printable]

theorem EscapeText.printable (h : EscapeText s c) : ∀ b ∈ s, Printable b := by
  have hu : Printable 0x75 := by decide
  have hbackslash : Printable 0x5C := by decide
  cases h with
  | short h =>
    have hall : ∀ e ∈ shortEscapes, Printable e.1 := by decide
    intro b hb
    rw [List.mem_singleton.1 hb]
    exact hall _ h
  | unicode h => exact List.forall_mem_cons.2 ⟨hu, h.printable⟩
  | pair _ h h' =>
    refine List.forall_mem_cons.2 ⟨hu, List.forall_mem_append.2 ⟨h.printable, ?_⟩⟩
    exact List.forall_mem_cons.2 ⟨hbackslash, List.forall_mem_cons.2 ⟨hu, h'.printable⟩⟩

theorem CharText.clean (h : CharText s c) : Clean s := by
  cases h with
  | plain h => exact clean_utf8EncodeChar h
  | escape h => exact clean_of_printable (List.forall_mem_cons.2 ⟨by decide, h.printable⟩)

theorem CharsText.clean {l : List Char} (h : CharsText s l) : Clean s := by
  induction h with
  | nil => exact clean_nil
  | cons h _ ih => exact h.clean.append ih

/-- **A string is written in UTF-8 and without control characters.** -/
theorem StringText.clean (h : StringText s t) : Clean s := by
  have hquote : Clean [0x22] := Printable.clean (by decide)
  cases h with
  | mk h => exact hquote.append (h.clean.append hquote)

end Json

/-! ## Documents and what they say -/

namespace Document

variable {doc : Document} {p : Payload}

/-- The payload has what is written last in the document: for every package the last results, in
these for every analyzer the last list. -/
def Says (doc : Document) (p : Payload) : Prop :=
  ∀ package entry, p.get? package = some entry ↔
    ∃ results, LastOf doc package results ∧
      ∀ analyzer l, entry.get? analyzer = some l ↔ LastOf results analyzer l

theorem ofList_eq_iff {α : Type} {l : List (String × α)} {m : SortedMap String α} :
    SortedMap.ofList l = m ↔ ∀ k a, m.get? k = some a ↔ LastOf l k a := by
  constructor
  · rintro rfl k a
    exact SortedMap.get?_ofList
  · intro h
    refine SortedMap.ext_get? fun k => Option.ext fun a => ?_
    rw [SortedMap.get?_ofList, h]
    rfl

theorem says_iff : doc.Says p ↔ doc.payload = p := by
  have hpayload (package : String) (entry : Entry) :
      doc.payload.get? package = some entry ↔ ∃ results, LastOf doc package results ∧
        ∀ analyzer l, entry.get? analyzer = some l ↔ LastOf results analyzer l := by
    simp only [get?_payload, ofList_eq_iff]
  constructor
  · intro h
    refine SortedMap.ext_get? fun package => Option.ext fun entry => ?_
    rw [hpayload, h]
  · rintro rfl
    exact hpayload

end Document

/-! ## What is accepted -/

/-- **Decoding accepts documents only**, as what they say, and each text writes one document at
most. All else is refused, and collecting from it fails with the cause and with the text that its
bytes render. -/
theorem Payload.accepts_documents_only (raw : Bytes) :
    (∀ p, decode raw = .ok p ↔ ∃ doc : Document, doc.WrittenIn raw ∧ doc.Says p) ∧
    (∀ doc doc' : Document, doc.WrittenIn raw → doc'.WrittenIn raw → doc = doc') ∧
    (∀ s t, StringText s t → Clean s) ∧
    ((∀ doc : Document, ¬ doc.WrittenIn raw) → ∃ cause text, decode raw = .error cause ∧
      Utf8.Renders raw text ∧
      ∀ analyzer, Diagnostics.ofBytes analyzer raw = .error (.decode cause text)) := by
  refine ⟨fun p => ?_, fun doc doc' h h' => h.eq h', fun s t h => h.clean, fun h => ?_⟩
  · simp only [Document.says_iff]
    exact decode_eq_ok_iff
  · cases hd : decode raw with
    | error cause =>
      exact ⟨cause, Utf8.lossy raw, rfl, Utf8.renders_lossy raw, Diagnostics.ofBytes_of_refused hd⟩
    | ok p =>
      obtain ⟨doc, hdoc, -⟩ := decode_eq_ok_iff.1 hd
      exact absurd hdoc (h doc)

end Findings
