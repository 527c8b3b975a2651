import Findings.Proofs.Payload.Spelling

/-!
# Members that do not count

A finding that is written as an object may have members other than `posn` and `message`, of any
name and any value. Here such a member is put into an accepted text or taken out of it, at any
place in front of, among or behind the members of any of its objects; what is decoded stays the same
(`Payload.unaffected_by_further_member`).

* `BodyPlace closing G first before after`: an item of a body stands between `before` and `after`.
  Whatever text of the item's value stands there, the values are the same
  (`BodyPlace.exists_bodyText`), and every item stands at such a place (`BodyText.exists_place`).
* `FindingPlace before after`: the same for the findings of a whole text.
* `PutIn closing G m first s s' l₁ l₂`: the body `s'` is `s` with the text `m` and a comma put in,
  at one place, behind the items `l₁` and in front of `l₂`.
-/

set_option autoImplicit false

namespace Findings

open Json

namespace Json

section
variable {α : Type} {closing : UInt8} {G : Bytes → α → Prop} {first : Bool} {a : α}
  {l l₁ l₂ : List α} {m s s' v w before after : Bytes}

/-! ## Places of items -/

/-- What stands before and after one of the items of a body. -/
inductive BodyPlace (closing : UInt8) (G : Bytes → α → Prop) : Bool → Bytes → Bytes → Prop
  | here {first : Bool} {v s : Bytes} {l : List α} (hv : Separator first v)
      (hs : BodyText closing G false s l) : BodyPlace closing G first v s
  | later {first : Bool} {v t before after : Bytes} {a : α} (hv : Separator first v) (ht : G t a)
      (h : BodyPlace closing G false before after) :
      BodyPlace closing G first (v ++ (t ++ before)) after

/-- What is read of the other items does not depend on the item at a place. -/
theorem BodyPlace.exists_bodyText (h : BodyPlace closing G first before after) :
    ∃ l₁ l₂, ∀ t a, G t a → BodyText closing G first (before ++ (t ++ after)) (l₁ ++ a :: l₂) := by
  induction h with
  | here hv hs => exact ⟨[], _, fun t a ht => .item hv ht hs⟩
  | @later _ _ _ _ _ b hv hb _ ih =>
    obtain ⟨l₁, l₂, hl⟩ := ih
    refine ⟨b :: l₁, l₂, fun t a ht => ?_⟩
    rw [List.append_assoc, List.append_assoc]
    exact .item hv hb (hl t a ht)

theorem BodyText.exists_place (h : BodyText closing G first s l) (ha : a ∈ l) :
    ∃ before t after, BodyPlace closing G first before after ∧ G t a ∧
      s = before ++ (t ++ after) := by
  induction h with
  | close => cases ha
  | @item _ v t s b l hv ht hs ih =>
    rcases List.mem_cons.1 ha with rfl | ha
    · exact ⟨v, t, s, .here hv hs, ht, rfl⟩
    · obtain ⟨before, t', after, hplace, ht', rfl⟩ := ih ha
      exact ⟨_, t', after, .later hv ht hplace, ht', by simp⟩

/-! ## One item more -/

/-- The body `s'` is the body `s` of the items `l₁ ++ l₂` with the text `m` put in behind `l₁`, and
a comma with it. Where blanks stand already, it is put in among them. -/
inductive PutIn (closing : UInt8) (G : Bytes → α → Prop) (m : Bytes) :
    Bool → Bytes → Bytes → List α → List α → Prop
  /-- In front of an item, with the comma behind it. -/
  | front {first : Bool} {v u x w t s : Bytes} {a : α} {l : List α} (hv : Separator first v)
      (hu : Blank u) (hx : Blank x) (hw : Blank w) (ht : G t a)
      (hs : BodyText closing G false s l) :
      PutIn closing G m first (v ++ (w ++ (t ++ s)))
        (v ++ (u ++ m ++ x ++ [0x2C]) ++ (w ++ (t ++ s))) [] (a :: l)
  /-- Behind an item, with the comma in front of it. -/
  | back {first : Bool} {v t w u x s : Bytes} {a : α} {l : List α} (hv : Separator first v)
      (ht : G t a) (hw : Blank w) (hu : Blank u) (hx : Blank x)
      (hs : BodyText closing G false s l) :
      PutIn closing G m first (v ++ (t ++ w) ++ s)
        (v ++ (t ++ w) ++ (u ++ [0x2C] ++ x ++ m) ++ s) [a] l
  | later {first : Bool} {v t s s' : Bytes} {a : α} {l₁ l₂ : List α} (hv : Separator first v)
      (ht : G t a) (h : PutIn closing G m false s s' l₁ l₂) :
      PutIn closing G m first (v ++ (t ++ s)) (v ++ (t ++ s')) (a :: l₁) l₂

theorem BodyText.blank_append (hw : Blank w) (h : BodyText closing G false s l) :
    BodyText closing G false (w ++ s) l := by
  cases h with
  | close hw' =>
    rw [← List.append_assoc]
    exact .close (hw.append hw')
  | item hv ht hs =>
    cases hv with
    | comma hu hx =>
      have := BodyText.item (.comma (hw.append hu) hx) ht hs
      simpa using this

namespace PutIn

theorem bodyText (h : PutIn closing G m first s s' l₁ l₂) :
    BodyText closing G first s (l₁ ++ l₂) := by
  induction h with
  | front hv _ _ hw ht hs =>
    rw [← List.append_assoc]
    exact .item (hv.append hw) ht hs
  | back hv ht hw _ _ hs =>
    have := BodyText.item hv ht (hs.blank_append hw)
    simpa using this
  | later hv ht _ ih => exact .item hv ht ih

/-- Put in where it says, the item is read there. -/
theorem bodyText_putIn (h : PutIn closing G m first s s' l₁ l₂) (hm : G m a) :
    BodyText closing G first s' (l₁ ++ a :: l₂) := by
  induction h with
  | front hv hu hx hw ht hs =>
    have := BodyText.item (hv.append hu) hm (.item (.comma hx hw) ht hs)
    simpa using this
  | back hv ht hw hu hx hs =>
    have := BodyText.item hv ht (.item (.comma (hw.append hu) hx) hm hs)
    simpa using this
  | later hv ht _ ih => exact .item hv ht ih

end PutIn

/-- There is a way to put an item in behind any number of items. -/
theorem BodyText.exists_putIn (h : BodyText closing G first s (l₁ ++ l₂)) (hne : l₁ ++ l₂ ≠ [])
    (m : Bytes) : ∃ s', PutIn closing G m first s s' l₁ l₂ := by
  induction l₁ generalizing first s with
  | nil =>
    cases l₂ with
    | nil => exact absurd rfl hne
    | cons b l₂ =>
      cases h with
      | item hv ht hs => exact ⟨_, .front hv blank_nil blank_nil blank_nil ht hs⟩
  | cons b l₁ ih =>
    cases h with
    | @item _ v t s _ _ hv ht hs =>
      by_cases hl : l₁ = []
      · subst hl
        have := PutIn.back (m := m) hv ht blank_nil blank_nil blank_nil hs
        rw [List.append_nil, List.append_assoc] at this
        exact ⟨_, this⟩
      · obtain ⟨s', hs'⟩ := ih hs (by simp [hl])
        exact ⟨_, .later hv ht hs'⟩

/-- An item that is not the only one can be taken out, so that putting it in gives the body. -/
theorem BodyText.exists_takenOut (h : BodyText closing G first s' (l₁ ++ a :: l₂))
    (hne : l₁ ++ l₂ ≠ []) : ∃ m s, G m a ∧ PutIn closing G m first s s' l₁ l₂ := by
  induction l₁ generalizing first s' with
  | nil =>
    cases l₂ with
    | nil => exact absurd rfl hne
    | cons b l₂ =>
      cases h with
      | @item _ v m _ _ _ hv hm hs =>
        cases hs with
        | @item _ y t s _ _ hy ht hs =>
          cases hy with
          | @comma x w hx hw =>
            have := PutIn.front (m := m) hv blank_nil hx hw ht hs
            refine ⟨m, v ++ (w ++ (t ++ s)), hm, ?_⟩
            simpa using this
  | cons b l₁ ih =>
    cases h with
    | @item _ v t s' _ _ hv ht hs =>
      by_cases hl : l₁ = [] ∧ l₂ = []
      · obtain ⟨rfl, rfl⟩ := hl
        cases hs with
        | @item _ y m s _ _ hy hm hs =>
          cases hy with
          | @comma u x hu hx =>
            have := PutIn.back (m := m) hv ht blank_nil hu hx hs
            refine ⟨m, v ++ (t ++ []) ++ s, hm, ?_⟩
            simpa using this
      · obtain ⟨m, s, hm, hs⟩ := ih hs (by simpa using hl)
        exact ⟨m, _, hm, .later hv ht hs⟩

end

end Json

/-! ## Places of findings -/

/-- The name of a member, up to where its value starts. -/
inductive NameText : Bytes → String → Prop
  | mk {k w v : Bytes} {name : String} (hk : StringText k name) (hw : Blank w) (hv : Blank v) :
      NameText (k ++ (w ++ 0x3A :: v)) name

theorem NameText.memberText {α : Type} {G : Bytes → α → Prop} {k t : Bytes} {name : String} {a : α}
    (hk : NameText k name) (ht : G t a) : MemberText G (k ++ t) (name, a) := by
  cases hk with
  | mk hk hw hv =>
    have := MemberText.mk hk hw hv ht
    simpa using this

theorem exists_nameText {α : Type} {G : Bytes → α → Prop} {s : Bytes} {e : String × α}
    (h : MemberText G s e) : ∃ k t, NameText k e.1 ∧ G t e.2 ∧ s = k ++ t := by
  cases h with
  | mk hk hw hv ht => exact ⟨_, _, .mk hk hw hv, ht, by simp⟩

/-- What stands before and after one of the findings of a raw output: the rest of its list, in the
rest of its package, in the rest of the output. -/
inductive FindingPlace : Bytes → Bytes → Prop
  | mk {w v b₁ a₁ k₁ b₂ a₂ k₂ b₃ a₃ : Bytes} {package analyzer : String} (hw : Blank w)
      (hv : Blank v)
      (hpackage : BodyPlace 0x7D (MemberText (ObjectText (OrNullText (ListText FindingText)))) true
        b₁ a₁)
      (hk₁ : NameText k₁ package)
      (hanalyzer : BodyPlace 0x7D (MemberText (OrNullText (ListText FindingText))) true b₂ a₂)
      (hk₂ : NameText k₂ analyzer) (hlist : BodyPlace 0x5D FindingText true b₃ a₃) :
      FindingPlace (w ++ 0x7B :: (b₁ ++ (k₁ ++ 0x7B :: (b₂ ++ (k₂ ++ 0x5B :: b₃)))))
        (a₃ ++ (a₂ ++ (a₁ ++ v)))

variable {raw before after s s' m : Bytes} {d : Finding}

/-- What a raw output writes depends on the finding that is written at a place, but not on the text
of the finding. -/
theorem FindingPlace.exists_document (h : FindingPlace before after) (d : Finding) :
    ∃ doc : Document, ∀ t, FindingText t d → doc.WrittenIn (before ++ (t ++ after)) := by
  cases h with
  | @mk w v b₁ a₁ k₁ b₂ a₂ k₂ b₃ a₃ package analyzer hw hv hpackage hk₁ hanalyzer hk₂ hlist =>
    obtain ⟨ds, ds', hds⟩ := hlist.exists_bodyText
    obtain ⟨rs, rs', hrs⟩ := hanalyzer.exists_bodyText
    obtain ⟨ps, ps', hps⟩ := hpackage.exists_bodyText
    let results := rs ++ (analyzer, some (ds ++ d :: ds')) :: rs'
    refine ⟨ps ++ (package, results) :: ps', fun t ht => ?_⟩
    have hl : ListText FindingText (0x5B :: (b₃ ++ (t ++ a₃))) _ := .mk (hds t d ht)
    have he : ObjectText _ (0x7B :: (b₂ ++ (k₂ ++ _ ++ a₂))) results :=
      .mk (hrs _ _ (hk₂.memberText (.value hl)))
    have hdoc : Document.DocumentText (0x7B :: (b₁ ++ (k₁ ++ _ ++ a₁))) _ :=
      .mk (hps _ _ (hk₁.memberText he))
    exact ⟨w, _, v, hw, hdoc, hv, by simp⟩

/-- Every finding that is written stands at a place. -/
theorem Document.WrittenIn.exists_place {doc : Document} {analyzer : String}
    (h : doc.WrittenIn raw) (hd : doc.Writes analyzer d) :
    ∃ before t after, FindingPlace before after ∧ FindingText t d ∧
      raw = before ++ (t ++ after) := by
  obtain ⟨w, _, v, hw, ⟨hdoc⟩, hv, rfl⟩ := h
  obtain ⟨package, results, he, l, hl, hd⟩ := hd
  obtain ⟨b₁, _, a₁, hpackage, hentry, rfl⟩ := hdoc.exists_place he
  obtain ⟨k₁, _, hk₁, ⟨hresults⟩, rfl⟩ := exists_nameText hentry
  obtain ⟨b₂, _, a₂, hanalyzer, hresult, rfl⟩ := hresults.exists_place hl
  obtain ⟨k₂, _, hk₂, hlist, rfl⟩ := exists_nameText hresult
  cases hlist with
  | value hlist =>
    obtain ⟨hlist⟩ := hlist
    obtain ⟨b₃, t, a₃, hplace, ht, rfl⟩ := hlist.exists_place hd
    exact ⟨_, t, _, .mk hw hv hpackage hk₁ hanalyzer hk₂ hplace, ht, by simp⟩

/-! ## Findings with a further member -/

/-- The raw output writes the finding `d` as an object, which stands between `before` and `after`
and has the body `s` with the members `l`. -/
structure WritesObject (raw before s after : Bytes) (l : List (Option (Member × String)))
    (d : Finding) : Prop where
  text : raw = before ++ (0x7B :: s ++ after)
  place : FindingPlace before after
  body : BodyText 0x7D FieldText true s l
  fields : (l.filterMap id).Perm (fieldsOf d)

/-- Both raw outputs are accepted, as the same payload, and what is collected from them is the same
for every analyzer. -/
def Agree (raw raw' : Bytes) : Prop :=
  ∃ p, Payload.decode raw = .ok p ∧ Payload.decode raw' = .ok p ∧
    ∀ analyzer, Diagnostics.ofBytes analyzer raw = Diagnostics.ofBytes analyzer raw'

theorem FindingPlace.agree {t t' : Bytes} (h : FindingPlace before after) (ht : FindingText t d)
    (ht' : FindingText t' d) : Agree (before ++ (t ++ after)) (before ++ (t' ++ after)) := by
  obtain ⟨doc, hdoc⟩ := h.exists_document d
  refine ⟨doc.payload, Payload.decode_eq_ok_iff.2 ⟨doc, hdoc t ht, rfl⟩,
    Payload.decode_eq_ok_iff.2 ⟨doc, hdoc t' ht', rfl⟩, fun analyzer => ?_⟩
  rw [Diagnostics.ofBytes_of_written (hdoc t ht), Diagnostics.ofBytes_of_written (hdoc t' ht')]

variable {l₁ l₂ : List (Option (Member × String))}

theorem ne_nil_of_fields {l : List (Option (Member × String))}
    (h : (l.filterMap id).Perm (fieldsOf d)) : l ≠ [] := by
  rintro rfl
  exact absurd h.length_eq (by simp [fieldsOf])

/-- With and without a member that does not count, an object writes the same finding. -/
theorem Json.PutIn.findingText (h : PutIn 0x7D FieldText m true s s' l₁ l₂)
    (hm : FieldText m none) (hd : ((l₁ ++ l₂).filterMap id).Perm (fieldsOf d)) :
    FindingText (0x7B :: s) d ∧ FindingText (0x7B :: s') d :=
  ⟨.object h.bodyText hd, .object (h.bodyText_putIn hm) (by simpa using hd)⟩

/-- **A further member does not count.** The findings of an accepted raw output stand at places, and
those that are objects have their members. At every place among these, a member with another name
and a value of any kind can be put in, and each such member that is there can be taken out; the
other raw output is accepted as well, as the same payload. -/
theorem Payload.unaffected_by_further_member (raw : Bytes) :
    (∀ doc : Document, doc.WrittenIn raw → ∀ analyzer d, doc.Writes analyzer d →
      (∃ before s after l, WritesObject raw before s after l d) ∨
        ∃ before s after, raw = before ++ (0x5B :: s ++ after) ∧ FindingPlace before after ∧
          BodyText 0x5D StringText true s [d.posn, d.message]) ∧
    (∀ before s after l₁ l₂ d, WritesObject raw before s after (l₁ ++ l₂) d →
      ∀ m, FieldText m none →
        (∃ s', PutIn 0x7D FieldText m true s s' l₁ l₂) ∧
        ∀ s', PutIn 0x7D FieldText m true s s' l₁ l₂ →
          Agree raw (before ++ (0x7B :: s' ++ after))) ∧
    ∀ before s' after l₁ l₂ d, WritesObject raw before s' after (l₁ ++ none :: l₂) d →
      (∃ m s, FieldText m none ∧ PutIn 0x7D FieldText m true s s' l₁ l₂) ∧
      ∀ m s, FieldText m none → PutIn 0x7D FieldText m true s s' l₁ l₂ →
        Agree raw (before ++ (0x7B :: s ++ after)) := by
  refine ⟨fun doc hdoc analyzer d hd => ?_, ?_, ?_⟩
  · obtain ⟨before, t, after, hplace, ht, rfl⟩ := hdoc.exists_place hd
    cases ht with
    | object hs hl => exact .inl ⟨before, _, after, _, rfl, hplace, hs, hl⟩
    | list hs => exact .inr ⟨before, _, after, rfl, hplace, hs⟩
  · intro before s after l₁ l₂ d h m hm
    refine ⟨h.body.exists_putIn (ne_nil_of_fields h.fields) m, fun s' hs' => ?_⟩
    obtain ⟨ht, ht'⟩ := hs'.findingText hm h.fields
    rw [h.text]
    exact h.place.agree ht ht'
  · intro before s' after l₁ l₂ d h
    have hd : ((l₁ ++ l₂).filterMap id).Perm (fieldsOf d) := by simpa using h.fields
    refine ⟨h.body.exists_takenOut (ne_nil_of_fields hd), fun m s hm hs => ?_⟩
    obtain ⟨ht, ht'⟩ := hs.findingText hm hd
    rw [h.text]
    exact h.place.agree ht' ht

/-- A raw output of one finding, which is written as an object with the body `s`. -/
def outputOf (s : Bytes) : Bytes :=
  0x7B :: (printString "p" ++ 0x3A :: 0x7B :: (printString "n" ++ [0x3A, 0x5B])) ++
    (0x7B :: s ++ [0x5D, 0x7D, 0x7D])

def posnMember : Bytes := printMember printString ("posn", "a.go:1:1")

def messageMember : Bytes := printMember printString ("message", "m")

/-- Its value has a number out of range and half of a character. -/
def furtherMember : Bytes := printString "x" ++ 0x3A :: Utf8.encode "[1e999,\"\\ud800\"]"

theorem fieldText_furtherMember : FieldText furtherMember none := by
  have hskip : skipValue (Utf8.encode "[1e999,\"\\ud800\"]") = .ok [] := by
    have h : (skipValue (Utf8.encode "[1e999,\"\\ud800\"]")).toOption = some [] := by
      decide +kernel
    revert h
    cases skipValue (Utf8.encode "[1e999,\"\\ud800\"]") <;> simp [Except.toOption]
  obtain ⟨w, t, hw, ht, hvalue⟩ := exists_of_skipValue hskip
  have h : MemberText (fun t (_ : Unit) => ValueText t) _ ("x", ()) :=
    .mk (stringText_printString "x") blank_nil hw ht
  have hname (member : Member) : "x" ≠ member.text := by cases member <;> decide
  refine .skipped ?_ hname
  rw [furtherMember, hvalue]
  simpa using h

theorem findingPlace_outputOf :
    FindingPlace (0x7B :: (printString "p" ++ 0x3A :: 0x7B :: (printString "n" ++ [0x3A, 0x5B])))
      [0x5D, 0x7D, 0x7D] := by
  have hname (t : String) : NameText (printString t ++ ([] ++ [0x3A])) t :=
    .mk (stringText_printString t) blank_nil blank_nil
  have h := FindingPlace.mk blank_nil blank_nil
    (.here (.first blank_nil) (.close blank_nil)) (hname "p")
    (.here (.first blank_nil) (.close blank_nil)) (hname "n")
    (.here (.first blank_nil) (.close blank_nil))
  simpa using h

theorem Payload.unaffected_by_further_member_between :
    let s := posnMember ++ 0x2C :: messageMember ++ [0x7D]
    let s' := posnMember ++ 0x2C :: furtherMember ++ 0x2C :: messageMember ++ [0x7D]
    PutIn 0x7D FieldText furtherMember true s s' [some (.posn, "a.go:1:1")]
      [some (.message, "m")] ∧ Agree (outputOf s) (outputOf s') := by
  intro s s'
  have hposn : FieldText posnMember (some (.posn, "a.go:1:1")) :=
    .counted (memberText_printMember stringText_printString ("posn", "a.go:1:1"))
  have hmessage : FieldText messageMember (some (.message, "m")) :=
    .counted (memberText_printMember stringText_printString ("message", "m"))
  have hput : PutIn 0x7D FieldText furtherMember true s s' [some (.posn, "a.go:1:1")]
      [some (.message, "m")] := by
    have hrest : BodyText 0x7D FieldText false _ [some (.message, "m")] :=
      .item (.comma blank_nil blank_nil) hmessage (.close blank_nil)
    have h := PutIn.back (m := furtherMember) (.first blank_nil) hposn blank_nil blank_nil blank_nil
      hrest
    simpa [s, s'] using h
  have hwrites : WritesObject (outputOf s) _ s _
      ([some (.posn, "a.go:1:1")] ++ [some (.message, "m")]) ⟨"a.go:1:1", "m"⟩ :=
    ⟨rfl, findingPlace_outputOf, hput.bodyText, .refl _⟩
  obtain ⟨-, hadd, -⟩ := Payload.unaffected_by_further_member (outputOf s)
  exact ⟨hput, (hadd _ _ _ _ _ _ hwrites _ fieldText_furtherMember).2 _ hput⟩

end Findings
