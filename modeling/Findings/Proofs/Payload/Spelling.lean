import Findings.Proofs.Payload.Document
import Findings.Report
import Mathlib.Data.List.Forall2

/-!
# The texts of a payload

`Payload.Spells raw p`: the raw output `raw` has the packages of `p` and in each its analyzers, each
once and in any order. Every such text decodes to `p` (`decode_eq_ok_of_spells`), and one of them is
what `Payload.print` writes (`spells_print`). Moving whole packages within a text changes nothing
(`Document.payload_eq_of_perm`).
-/

set_option autoImplicit false

namespace Findings

open Json

/-! ## Order -/

namespace Document

/-- The document has the entries of the payload, in any order at both levels. -/
def Arranges (doc : Document) (p : Payload) : Prop :=
  ∃ entries : List (String × Entry), entries.Perm p.toList ∧
    List.Forall₂ (fun e e' => e.1 = e'.1 ∧ e.2.Perm e'.2.toList) doc entries

variable {doc doc' : Document} {p : Payload}

theorem Arranges.payload_eq (h : doc.Arranges p) : doc.payload = p := by
  obtain ⟨entries, hp, hf⟩ := h
  have hmap : doc.map (Prod.map id SortedMap.ofList) = entries := by
    clear hp
    induction hf with
    | nil => rfl
    | cons he _ ih =>
      rw [List.map_cons, ih]
      exact congrArg (· :: _) (Prod.ext he.1 (SortedMap.ofList_eq_of_perm he.2))
  rw [payload, hmap]
  exact SortedMap.ofList_eq_of_perm hp

/-- The order of packages that are named once does not count. -/
theorem payload_eq_of_perm (h : doc.Perm doc') (hn : (doc.map (·.1)).Nodup) :
    doc.payload = doc'.payload := by
  have hk (l : Document) :
      (l.map (Prod.map id SortedMap.ofList) : List (String × Entry)).map (·.1) = l.map (·.1) := by
    rw [List.map_map]
    rfl
  refine SortedMap.ofList_eq_of_perm ((h.map _).trans ?_)
  refine (SortedMap.toList_ofList_perm ?_).symm
  rw [hk]
  exact (h.map _).nodup_iff.1 hn

end Document

/-- The text writes the payload: each package and in it each analyzer once, in any order. -/
def Payload.Spells (raw : Bytes) (p : Payload) : Prop :=
  ∃ doc : Document, doc.WrittenIn raw ∧ doc.Arranges p

theorem Payload.decode_eq_ok_of_spells {raw : Bytes} {p : Payload} (h : Spells raw p) :
    decode raw = .ok p := by
  obtain ⟨doc, hw, ha⟩ := h
  exact decode_eq_ok_iff.2 ⟨doc, hw, ha.payload_eq⟩

/-! ## Printing -/

namespace Json

section
variable {α : Type} (print : α → Bytes)

/-- The items with commas between them. -/
def printItems : List α → Bytes
  | [] => []
  | a :: l => print a ++ l.flatMap fun b => 0x2C :: print b

def printList (l : List α) : Bytes := 0x5B :: (printItems print l ++ [0x5D])

/-- A text as a string, with escapes where they are needed and nowhere else. -/
def printString (t : String) : Bytes := Utf8.encode (Report.jsonString t)

def printMember (e : String × α) : Bytes := printString e.1 ++ 0x3A :: print e.2

def printObject (m : List (String × α)) : Bytes :=
  0x7B :: (printItems (printMember print) m ++ [0x7D])

def printOrNull : Option α → Bytes
  | none => [0x6E, 0x75, 0x6C, 0x6C]
  | some a => print a

end

def printFinding (d : Finding) : Bytes :=
  printObject printString [("posn", d.posn), ("message", d.message)]

end Json

/-- The payload as one line of JSON without blanks. -/
def Payload.print (p : Payload) : Bytes :=
  printObject (fun e : Entry => printObject (printOrNull (printList printFinding)) e.toList)
    p.toList

namespace Json

/-! ### Strings -/

/-- The digit that is printed has the value that is meant. -/
theorem exists_hexDigit (n : Nat) :
    ∃ b, String.utf8EncodeChar (Report.hexDigit n) = [b] ∧ HexDigit b (n % 16) := by
  have h : ∀ k < 16, (String.utf8EncodeChar (Nat.digitChar k)).map hexDigit? = [some k] := by
    decide
  obtain ⟨b, hb, hk⟩ := List.map_eq_singleton_iff.1 (h (n % 16) (Nat.mod_lt n (by decide)))
  exact ⟨b, hb, hexDigit?_eq_some_iff.1 hk⟩

theorem charText_jsonChar (c : Char) :
    CharText ((Report.jsonChar c).flatMap String.utf8EncodeChar) c := by
  have short {b : UInt8} {c : Char} (h : (b, c) ∈ shortEscapes) : CharText [0x5C, b] c :=
    .escape (.short h)
  unfold Report.jsonChar
  split
  next h => subst h; exact short (b := 0x22) (by decide)
  split
  next h => subst h; exact short (b := 0x5C) (by decide)
  split
  next h => subst h; exact short (b := 0x62) (by decide)
  split
  next h => subst h; exact short (b := 0x66) (by decide)
  split
  next h => subst h; exact short (b := 0x6E) (by decide)
  split
  next h => subst h; exact short (b := 0x72) (by decide)
  split
  next h => subst h; exact short (b := 0x74) (by decide)
  split
  next hlt =>
    obtain ⟨b, hb, hhigh⟩ := exists_hexDigit (c.toNat / 16)
    obtain ⟨b', hb', hlow⟩ := exists_hexDigit c.toNat
    have hzero : HexDigit 0x30 0 := .decimal (by decide) rfl
    have hn : ((0 * 16 + 0) * 16 + c.toNat / 16 % 16) * 16 + c.toNat % 16 = c.toNat := by omega
    have hu := HexUnit.mk hzero hzero hhigh hlow
    rw [hn] at hu
    simp only [List.flatMap_cons, List.flatMap_nil, hb, hb']
    exact .escape (.unicode hu)
  next hq hb _ _ _ _ _ hge =>
    rw [List.flatMap_cons, List.flatMap_nil, List.append_nil]
    exact .plain (Nat.not_lt.1 hge) hq hb

theorem stringText_printString (t : String) : StringText (printString t) t := by
  have hchars (cs : List Char) :
      CharsText ((cs.flatMap Report.jsonChar).flatMap String.utf8EncodeChar) cs := by
    induction cs with
    | nil => exact .nil
    | cons c cs ih =>
      rw [List.flatMap_cons, List.flatMap_append]
      exact .cons (charText_jsonChar c) ih
  have hquote : String.utf8EncodeChar '"' = [0x22] := rfl
  have := StringText.mk (hchars t.toList)
  simpa [printString, Report.jsonString, Utf8.encode, hquote] using this

/-! ### Lists and objects -/

section
variable {α : Type} {G : Bytes → α → Prop} {print : α → Bytes}

theorem bodyText_printItems (h : ∀ a, G (print a) a) (closing : UInt8) (l : List α) :
    BodyText closing G true (printItems print l ++ [closing]) l := by
  have htail (l : List α) : BodyText closing G false
      ((l.flatMap fun b => 0x2C :: print b) ++ [closing]) l := by
    induction l with
    | nil => exact .close blank_nil
    | cons a l ih =>
      have := BodyText.item (.comma blank_nil blank_nil) (h a) ih
      simpa using this
  cases l with
  | nil => exact .close blank_nil
  | cons a l =>
    have := BodyText.item (.first blank_nil) (h a) (htail l)
    rw [printItems, List.append_assoc]
    exact this

theorem listText_printList (h : ∀ a, G (print a) a) (l : List α) :
    ListText G (printList print l) l := .mk (bodyText_printItems h 0x5D l)

theorem memberText_printMember (h : ∀ a, G (print a) a) (e : String × α) :
    MemberText G (printMember print e) e := by
  have := MemberText.mk (stringText_printString e.1) blank_nil blank_nil (h e.2)
  exact this

theorem objectText_printObject (h : ∀ a, G (print a) a) (m : List (String × α)) :
    ObjectText G (printObject print m) m :=
  .mk (bodyText_printItems (memberText_printMember h) 0x7D m)

theorem orNullText_printOrNull (h : ∀ a, G (print a) a) (a : Option α) :
    OrNullText G (printOrNull print a) a := by
  cases a with
  | none => exact .null
  | some a => exact .value (h a)

end

theorem findingText_printFinding (d : Finding) : FindingText (printFinding d) d := by
  have hfield (e : Member × String) :
      FieldText (printMember printString (e.1.text, e.2)) (some e) :=
    .counted (memberText_printMember stringText_printString _)
  have hbody := bodyText_printItems (G := fun s e => FieldText s (some e)) hfield 0x7D (fieldsOf d)
  exact .object (bodyText_map (f := some) (H := FieldText) (fun _ _ h => h) hbody) (.refl _)

end Json

/-- **What is printed spells the payload.** -/
theorem Payload.spells_print (p : Payload) : Spells p.print p := by
  have hresults (e : Entry) : ObjectText (OrNullText (ListText FindingText))
      (printObject (printOrNull (printList printFinding)) e.toList) e.toList :=
    objectText_printObject (orNullText_printOrNull (listText_printList findingText_printFinding)) _
  have hdoc := objectText_printObject (G := fun t (e : Entry) =>
    ObjectText (OrNullText (ListText FindingText)) t e.toList) hresults p.toList
  have hwritten : Document.DocumentText p.print (p.toList.map (Prod.map id SortedMap.toList)) :=
    objectText_map (f := SortedMap.toList) (fun _ _ h => h) hdoc
  refine ⟨_, ⟨[], p.print, [], blank_nil, hwritten, blank_nil, by simp⟩, p.toList, .refl _, ?_⟩
  rw [List.forall₂_map_left_iff]
  exact List.forall₂_same.2 fun e _ => ⟨rfl, .refl _⟩

theorem Diagnostics.ofBytes_print (analyzer : String) (p : Payload) :
    ofBytes analyzer p.print = ofPayload analyzer p :=
  ofBytes_of_decoded (Payload.decode_eq_ok_of_spells (Payload.spells_print p)) analyzer

/-- **Every text of a payload decodes to it**: whatever blanks, escapes and forms of its findings it
is written with. What `print` writes is such a text, and the order of the packages does not count
for what is collected, be it a failure. -/
theorem Payload.decodes_every_spelling :
    (∀ raw p, Spells raw p → decode raw = .ok p) ∧
    (∀ p : Payload, Spells p.print p ∧ decode p.print = .ok p) ∧
    ∀ (analyzer : String) (raw raw' : Bytes) (doc doc' : Document), doc.WrittenIn raw →
      doc'.WrittenIn raw' → doc.Perm doc' → (doc.map (·.1)).Nodup →
      Diagnostics.ofBytes analyzer raw = Diagnostics.ofBytes analyzer raw' := by
  refine ⟨fun raw p => decode_eq_ok_of_spells, fun p => ?_, ?_⟩
  · exact ⟨spells_print p, decode_eq_ok_of_spells (spells_print p)⟩
  · intro analyzer raw raw' doc doc' h h' hp hn
    rw [Diagnostics.ofBytes_of_written h, Diagnostics.ofBytes_of_written h',
      Document.payload_eq_of_perm hp hn]

end Findings
