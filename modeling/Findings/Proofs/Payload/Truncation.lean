import Findings.Proofs.Json.Truncation
import Findings.Proofs.Payload.FurtherMember
import Findings.Proofs.Payload.Meaning

/-!
# Raw outputs that break off

An accepted raw output of which more than blanks are cut off is refused, and the error says that it
breaks off, wherever the cut is: in a string, in an escape, in a character, in a word or between
them. One cut may give another error, a malformed number: it goes through a number in the value of
a member that does not count (`InSkippedNumber`). No other part of a payload is a number.

Route. `value.BreaksOff G X`: the reader `value` says so of every text of `G` that is cut, unless
the cut is one of `X`. Lists and objects carry this from their items to themselves, like
`Reader.Reads`, over `BodyPlace`, the places of items.
-/

set_option autoImplicit false

namespace Findings

open Json

namespace Json

section
variable {α : Type} {G : Bytes → α → Prop} {X : Bytes → Bytes → Prop} {value : Reader α}
  {s t u v w x y k : Bytes} {first : Bool} {a : α} {name : String} {closing : UInt8}

/-! ## Readers -/

/-- Of a text of `G` that is cut, and of blanks without one, the reader says that it breaks off, or
that a number is malformed where the cut is one of `X`. -/
structure Reader.BreaksOff (value : Reader α) (G : Bytes → α → Prop)
    (X : Bytes → Bytes → Prop) : Prop where
  blank : ∀ {w : Bytes}, Blank w → Breaks False (value.read w)
  cut : ∀ {w t u v : Bytes} {a : α}, Blank w → G t a → Cut t u v →
    Breaks (X u v) (value.read (w ++ u))

/-- A cut in front of a text leaves only blanks, so the text may be taken to be begun. -/
theorem Reader.BreaksOff.of_begun (hblank : ∀ {w : Bytes}, Blank w → Breaks False (value.read w))
    (hbegun : ∀ {w t u v : Bytes} {b : UInt8} {a : α}, Blank w → G (b :: t) a → Cut t u v →
      Breaks (X (b :: u) v) (value.read (w ++ b :: u))) :
    value.BreaksOff G X where
  blank := hblank
  cut {w t u v a} hw ht h := by
    cases t with
    | nil => exact absurd h not_cut_nil
    | cons b t =>
      rcases h.cons_cases with rfl | ⟨u, rfl, hu⟩
      · rw [List.append_nil]
        exact (hblank hw).mono False.elim
      · exact hbegun hw ht hu

theorem breaksOff_stringValue : stringValue.BreaksOff StringText fun _ _ => False := by
  refine .of_begun (fun {w} hw => ?blank) (fun {w t u v b a} hw ht h => ?begun)
  case blank =>
    show Breaks False (readString w)
    rw [readString, skipBlank_blank hw]
    exact breaks_stop rfl []
  case begun =>
    cases ht with
    | mk ht =>
      show Breaks _ (readString _)
      rw [readString, skipBlank_append hw rfl]
      simp only [if_true, string_cut ht h]
      exact breaks_stop rfl []

/-- The cut is one of the value, or it is behind the value. -/
theorem Reader.BreaksOff.value_cut (hb : value.BreaksOff G X) (hw : Blank w) (ht : G t a)
    (h : Cut (w ++ (t ++ s)) u v) :
    Breaks (∃ u' c, u = w ++ u' ∧ v = c ++ s ∧ X u' c) (value.read u) ∨
      ∃ u', u = w ++ (t ++ u') ∧ Cut s u' v := by
  rcases h.blank_append_cases hw with hblank | ⟨u, rfl, hu⟩
  · exact .inl ((hb.blank hblank).mono False.elim)
  rcases hu.append_cases with ⟨c, hvalue, rfl⟩ | ⟨u, rfl, hrest⟩
  · exact .inl ((hb.cut hw ht hvalue).mono fun hc => ⟨u, c, rfl, rfl, hc⟩)
  · exact .inr ⟨u, rfl, hrest⟩

/-- The cut of a body goes through one of its items, as `X` says. -/
inductive ItemCut (closing : UInt8) (G : Bytes → α → Prop) (X : Bytes → Bytes → Prop)
    (first : Bool) : Bytes → Bytes → Prop
  | mk {before u v after : Bytes} (hplace : BodyPlace closing G first before after) (h : X u v) :
      ItemCut closing G X first (before ++ u) (v ++ after)

/-- The cut of a member goes through its value, as `X` says. -/
inductive MemberCut (X : Bytes → Bytes → Prop) : Bytes → Bytes → Prop
  | mk {k u v : Bytes} {name : String} (hk : NameText k name) (h : X u v) : MemberCut X (k ++ u) v

/-- The cut of a list or an object is one of its body. -/
inductive BodyCut (opening : UInt8) (X : Bytes → Bytes → Prop) : Bytes → Bytes → Prop
  | mk {u v : Bytes} (h : X u v) : BodyCut opening X (opening :: u) v

section
variable {β : Type} {H : Bytes → β → Prop} {f : α → β} {before after : Bytes}

/-- Places are the same among values that are mapped. -/
theorem BodyPlace.of_mapped (hf : ∀ t b, H t b → ∃ a, G t a ∧ f a = b)
    (h : BodyPlace closing H first before after) : BodyPlace closing G first before after := by
  induction h with
  | here hv hs =>
    obtain ⟨l, hl, -⟩ := exists_of_bodyText hf hs
    exact .here hv hl
  | later hv ht _ ih =>
    obtain ⟨a, ha, -⟩ := hf _ _ ht
    exact .later hv ha ih

end

theorem ItemCut.later (h : ItemCut closing G X false u v) (hx : Separator first x) (ht : G t a) :
    ItemCut closing G X first (x ++ (t ++ u)) v := by
  cases h with
  | mk hplace h =>
    have := ItemCut.mk (.later hx ht hplace) h
    simpa using this

/-! ### Lists -/

variable {l acc : List α}

theorem items_cut (hr : value.Reads G) (hb : value.BreaksOff G X) (hs : NeverStarts G 0x5D)
    (hl : BodyText 0x5D G first s l) (h : Cut s u v) (acc : List α) :
    Breaks (ItemCut 0x5D G X first u v) (items value first acc u) := by
  induction hl generalizing u acc with
  | close hw =>
    rcases h.blank_cons_cases hw with hblank | ⟨u, rfl, hnil⟩
    · exact breaks_items_of_next (breaks_nextItem_blank hblank)
    · exact absurd hnil not_cut_nil
  | @item first x t s a l hx ht hl ih =>
    rcases nextItem_cut hx ((hs ht).append s) h with hbreak | ⟨u, rfl, hu, hn⟩
    · exact breaks_items_of_next hbreak
    rcases hu.append_cases with ⟨c, hitem, rfl⟩ | ⟨u, rfl, hrest⟩
    · have hread := hb.cut blank_nil ht hitem
      exact (breaks_items_of_item hn hread).mono (.mk (.here hx hl))
    · rw [items_of_item hn (hr.complete u blank_nil ht)]
      exact (ih hrest (a :: acc)).mono fun hc => hc.later hx ht

theorem Reader.BreaksOff.listOf (hr : value.Reads G) (hb : value.BreaksOff G X)
    (hs : NeverStarts G 0x5D) :
    (Json.listOf value).BreaksOff (ListText G) (BodyCut 0x5B (ItemCut 0x5D G X true)) := by
  refine .of_begun (fun {w} hw => ?blank) (fun {w t u v b l} hw ht h => ?begun)
  case blank =>
    simp only [Json.listOf, skipBlank_blank hw]
    exact breaks_stop rfl []
  case begun =>
    cases ht with
    | mk hl =>
      have hopen := skipBlank_append hw (b := 0x5B) rfl u
      obtain ⟨e, he, hbreak⟩ := items_cut hr hb hs hl h []
      refine Breaks.mono ⟨e, ?_, hbreak⟩ .mk
      simp only [Json.listOf, hopen, if_true, he]

/-! ### Objects -/

variable {m macc : List (String × α)}

theorem nameText_mk (hk : CharsText k name.toList) (hw : Blank w) (hy : Blank y) :
    NameText (0x22 :: (k ++ 0x22 :: (w ++ 0x3A :: y))) name := by
  have := NameText.mk (.mk hk) hw hy
  simpa using this

theorem members_cut (hr : value.Reads G) (hb : value.BreaksOff G X)
    (hm : BodyText 0x7D (MemberText G) first s m) (h : Cut s u v) (macc : List (String × α)) :
    Breaks (ItemCut 0x7D (MemberText G) (MemberCut X) first u v) (members value first macc u) := by
  induction hm generalizing u macc with
  | close hw =>
    rcases h.blank_cons_cases hw with hblank | ⟨u, rfl, hnil⟩
    · exact breaks_members_of_next (breaks_nextMember_blank hblank)
    · exact absurd hnil not_cut_nil
  | @item first x t s e m hx ht hm ih =>
    cases ht with
    | @mk k w y t name a hk hw hy ht =>
      cases hk with
      | @mk k _ hk =>
        have hname := nameText_mk hk hw hy
        simp only [List.append_assoc, List.cons_append, List.nil_append] at h
        rcases nextMember_cut hx h with hbreak | ⟨u, rfl, hu⟩
        · exact breaks_members_of_next hbreak
        have hn := nextMember_item hx u
        rcases name_cut hk hw hu with hbreak | ⟨u, rfl, hvalue⟩
        · exact breaks_members_of_name hn hbreak
        have hkey := key_append hk hw u
        rcases hb.value_cut hy ht hvalue with hbreak | ⟨u, rfl, hrest⟩
        · refine (breaks_members_of_item hn hkey hbreak).mono ?_
          rintro ⟨u, c, rfl, rfl, hc⟩
          have hcut := ItemCut.mk (.here hx hm) (MemberCut.mk hname hc)
          simpa using hcut
        · rw [members_of_item hn hkey (hr.complete u hy ht)]
          refine (ih hrest _).mono fun hc => ?_
          have hcut := hc.later hx (hname.memberText ht)
          simpa using hcut

theorem Reader.BreaksOff.objectOf (hr : value.Reads G) (hb : value.BreaksOff G X) :
    (Json.objectOf value).BreaksOff (ObjectText G)
      (BodyCut 0x7B (ItemCut 0x7D (MemberText G) (MemberCut X) true)) := by
  refine .of_begun (fun {w} hw => ?blank) (fun {w t u v b m} hw ht h => ?begun)
  case blank =>
    simp only [Json.objectOf, skipBlank_blank hw]
    exact breaks_stop rfl []
  case begun =>
    cases ht with
    | mk hm =>
      have hopen := skipBlank_append hw (b := 0x7B) rfl u
      obtain ⟨e, he, hbreak⟩ := members_cut hr hb hm h []
      refine Breaks.mono ⟨e, ?_, hbreak⟩ .mk
      simp only [Json.objectOf, hopen, if_true, he]

/-! ### `null` and mapped values -/

theorem Reader.BreaksOff.orNull (hb : value.BreaksOff G X) (hs : NeverStarts G 0x6E) :
    (Json.orNull value).BreaksOff (OrNullText G) X := by
  refine .of_begun (fun {w} hw => ?blank) (fun {w t u v b a} hw ht h => ?begun)
  case blank =>
    simp only [Json.orNull, skipBlank_blank hw]
    exact (hb.blank blank_nil).map _
  case begun =>
    cases ht with
    | null =>
      have hopen := skipBlank_append hw (b := 0x6E) rfl u
      have hnull : literal ullBytes u = stop .eofInValue [] := literal_cut h
      simp only [Json.orNull, hopen, if_true, hnull]
      exact breaks_stop rfl []
    | value ht =>
      have hread := hb.cut blank_nil ht (h.cons b)
      obtain ⟨_, _, he, hblank, hne⟩ := hs ht
      cases he
      have hfirst := skipBlank_append hw hblank u
      simp only [Json.orNull, hfirst, if_neg hne]
      exact hread.map _

theorem Reader.BreaksOff.map {β : Type} (f : α → β) (hb : value.BreaksOff G X) :
    (value.map f).BreaksOff (fun t b => ∃ a, G t a ∧ f a = b) X where
  blank hw := (hb.blank hw).map _
  cut {w t u v b} hw ht h := by
    obtain ⟨a, ht, rfl⟩ := ht
    exact (hb.cut hw ht h).map _

/-- A whole text of which more than blanks are cut off. -/
theorem Reader.BreaksOff.readAll_cut (hr : value.Reads G) (hb : value.BreaksOff G X)
    (h : value.readAll (u ++ v) = .ok a) (hv : ¬ Blank v) :
    Breaks (∃ w u' c y, Blank w ∧ Blank y ∧ u = w ++ u' ∧ v = c ++ y ∧ X u' c)
      (value.readAll u) := by
  obtain ⟨w, t, y, hw, ht, hy, he⟩ := hr.readAll_eq_ok_iff.1 h
  have hcut : Cut (w ++ (t ++ y)) u v := ⟨he.symm, fun hnil => hv (hnil ▸ blank_nil)⟩
  rcases hb.value_cut hw ht hcut with ⟨e, he, hbreak⟩ | ⟨u, rfl, hrest⟩
  · have hread : value.readAll u = .error e := by rw [Reader.readAll, he]
    refine Breaks.mono ⟨e, hread, hbreak⟩ ?_
    rintro ⟨u, c, rfl, rfl, hc⟩
    exact ⟨w, u, c, y, hw, hy, rfl, rfl, hc⟩
  · -- only blanks are cut off
    refine absurd (fun b hb => hy b ?_) hv
    rw [hrest.1]
    exact List.mem_append_right _ hb

end

/-! ## Findings -/

/-- The cut of a member of a finding goes through a number in a value that is passed over. -/
inductive SkippedCut : Bytes → Bytes → Prop
  | mk {k u v : Bytes} {name : String} (hk : NameText k name)
      (hname : ∀ member : Member, name ≠ member.text) (h : NumberCut ValueText u v) :
      SkippedCut (k ++ u) v

section
variable {s t u v w x y k : Bytes} {first : Bool} {m : Members} {d : Finding}
  {member : Member} {name text : String} {l : List (Option (Member × String))} {C : Prop}

theorem breaks_findingMembers_of_next (h : Breaks C (nextMember first s)) :
    Breaks C (findingMembers first m s) := by
  obtain ⟨e, he, h⟩ := h
  rw [findingMembers.eq_def]
  split
  next he' => rw [he] at he'; cases he'; exact ⟨e, rfl, h⟩
  next he' => rw [he] at he'; cases he'
  next he' => rw [he] at he'; cases he'

theorem breaks_findingMembers_of_name (h : nextMember first s = .ok (.item t))
    (hk : NameBreaks name t)
    (hm : ∀ member, Member.ofName? name = some member → m.get? member = none) :
    Breaks C (findingMembers first m s) := by
  rw [findingMembers.eq_def]
  split
  next h' => rw [h] at h'; cases h'
  next h' => rw [h] at h'; cases h'
  next h' =>
    rw [h] at h'
    cases h'
    rcases hk with hk | ⟨r, hk, hc⟩
    · split
      next hk' => rw [hk] at hk'; cases hk'; exact breaks_stop rfl []
      next hk' => rw [hk] at hk'; cases hk'
    · split
      next hk' => rw [hk] at hk'; cases hk'
      next hk' =>
        rw [hk] at hk'
        cases hk'
        -- whether the member is new is asked before the colon is read
        split
        next hname =>
          rw [hm _ hname, if_neg (by decide)]
          split
          next hc' => rw [hc] at hc'; cases hc'; exact breaks_stop rfl []
          next hc' => rw [hc] at hc'; cases hc'
        next =>
          split
          next hc' => rw [hc] at hc'; cases hc'; exact breaks_stop rfl []
          next hc' => rw [hc] at hc'; cases hc'

/-- A member that is cut breaks off in front of its value, or the cut is behind its colon. -/
theorem findingMembers_name_cut (hx : Separator first x) (hk : CharsText k name.toList)
    (hw : Blank w) (hm : ∀ member, Member.ofName? name = some member → m.get? member = none)
    (h : Cut (x ++ 0x22 :: (k ++ 0x22 :: (w ++ 0x3A :: y))) u v) :
    Breaks C (findingMembers first m u) ∨
      ∃ u', u = x ++ 0x22 :: (k ++ 0x22 :: (w ++ 0x3A :: u')) ∧ Cut y u' v := by
  rcases nextMember_cut hx h with hbreak | ⟨u, rfl, hu⟩
  · exact .inl (breaks_findingMembers_of_next hbreak)
  rcases name_cut hk hw hu with hbreak | ⟨u, rfl, hvalue⟩
  · exact .inl (breaks_findingMembers_of_name (nextMember_item hx u) hbreak hm)
  · exact .inr ⟨u, rfl, hvalue⟩

/-- A cut in a member that counts or behind it; `ih` is about the members behind it. -/
theorem findingMembers_counted_cut (hx : Separator first x)
    (ht : MemberText StringText t (member.text, text)) (hm : m.get? member = none)
    (h : Cut (x ++ (t ++ s)) u v)
    (ih : ∀ u, Cut s u v → Breaks (ItemCut 0x7D FieldText SkippedCut false u v)
      (findingMembers false (m.set text member) u)) :
    Breaks (ItemCut 0x7D FieldText SkippedCut first u v) (findingMembers first m u) := by
  cases ht with
  | @mk k w y t _ _ hk hw hy ht =>
    cases hk with
    | @mk k _ hk =>
      have hname := Member.ofName?_eq_some_iff.2 (rfl : member.text = member.text)
      have hnew (member' : Member) (h' : Member.ofName? member.text = some member') :
          m.get? member' = none := Option.some.inj (hname.symm.trans h') ▸ hm
      simp only [List.append_assoc, List.cons_append, List.nil_append] at h
      rcases findingMembers_name_cut hx hk hw hnew h with hbreak | ⟨u, rfl, hvalue⟩
      · exact hbreak
      rw [findingMembers_of_item (nextMember_item hx _) (string_append hk _) (colon_append hw _),
        hname]
      simp only [hm, Option.isSome_none, Bool.false_eq_true, if_false]
      rcases breaksOff_stringValue.value_cut hy ht hvalue with ⟨e, he, hbreak⟩ | ⟨u, rfl, hu⟩
      · rw [he]
        refine Breaks.mono ⟨e, rfl, hbreak⟩ ?_
        rintro ⟨_, _, -, -, hc⟩
        exact hc.elim
      · rw [reads_stringValue.complete u hy ht]
        refine (ih u hu).mono fun hc => ?_
        have hcut := hc.later hx (.counted ((nameText_mk hk hw hy).memberText ht))
        simpa using hcut

/-- A cut in a member that does not count or behind it. -/
theorem findingMembers_skipped_cut (hx : Separator first x)
    (ht : MemberText (fun t (_ : Unit) => ValueText t) t (name, ()))
    (hname : ∀ member : Member, name ≠ member.text) (hs : BodyText 0x7D FieldText false s l)
    (h : Cut (x ++ (t ++ s)) u v)
    (ih : ∀ u, Cut s u v →
      Breaks (ItemCut 0x7D FieldText SkippedCut false u v) (findingMembers false m u)) :
    Breaks (ItemCut 0x7D FieldText SkippedCut first u v) (findingMembers first m u) := by
  cases ht with
  | @mk k w y t _ _ hk hw hy ht =>
    cases hk with
    | @mk k _ hk =>
      have hnone := Member.ofName?_eq_none_iff.2 hname
      have hnew (member : Member) (h' : Member.ofName? name = some member) :
          m.get? member = none := absurd (hnone.symm.trans h') (Option.some_ne_none _).symm
      have htext := nameText_mk hk hw hy
      simp only [List.append_assoc, List.cons_append, List.nil_append] at h
      rcases findingMembers_name_cut hx hk hw hnew h with hbreak | ⟨u, rfl, hvalue⟩
      · exact hbreak
      rw [findingMembers_of_item (nextMember_item hx _) (string_append hk _) (colon_append hw _),
        hnone]
      simp only
      rcases skipValue_cut hy ht hvalue with ⟨e, he, hbreak⟩ | he | ⟨u, rfl, hu⟩
      · rw [he]
        refine Breaks.mono ⟨e, rfl, hbreak⟩ ?_
        rintro ⟨u, c, rfl, rfl, hc⟩
        have hcut := ItemCut.mk (.here hx hs) (SkippedCut.mk htext hname hc)
        simpa using hcut
      · -- a number ends at the cut, and the object breaks off behind it
        rw [he]
        exact breaks_findingMembers_of_next (breaks_nextMember_blank blank_nil)
      · rw [skipValue_append hy ht (hu.separated hs.separated)]
        refine (ih u hu).mono fun hc => ?_
        have hcut := hc.later hx (.skipped (htext.memberText ht) hname)
        simpa using hcut

theorem findingMembers_cut (hs : BodyText 0x7D FieldText first s l)
    (hp : (m.fields ++ l.filterMap id).Perm (fieldsOf d)) (h : Cut s u v) :
    Breaks (ItemCut 0x7D FieldText SkippedCut first u v) (findingMembers first m u) := by
  -- the invariant is that of `findingMembers_append`
  induction hs generalizing m u with
  | close hw =>
    rcases h.blank_cons_cases hw with hblank | ⟨u, rfl, hnil⟩
    · exact breaks_findingMembers_of_next (breaks_nextMember_blank hblank)
    · exact absurd hnil not_cut_nil
  | @item first x t s f l hx ht hs ih =>
    cases ht with
    | @counted member text ht =>
      have hm := Members.get?_eq_none_of_perm hp
      have hp' : ((m.set text member).fields ++ l.filterMap id).Perm (fieldsOf d) :=
        ((Members.fields_set hm text).append_right _).trans (List.perm_middle.symm.trans hp)
      exact findingMembers_counted_cut hx ht hm h fun u hu => ih hp' hu
    | skipped ht hname =>
      exact findingMembers_skipped_cut hx ht hname hs h fun u hu => ih hp hu

/-! ### Findings written as lists -/

theorem findingItem_cut {i : Nat} (hx : Separator (i = 0) x) (ht : StringText t text)
    (h : Cut (x ++ (t ++ s)) u v) :
    Breaks C (findingItem i u) ∨ ∃ u', u = x ++ (t ++ u') ∧ Cut s u' v := by
  rcases nextItem_cut hx ((neverStarts_stringText (by decide) ht).append s) h with
    ⟨e, he, hbreak⟩ | ⟨u, rfl, hu, hn⟩
  · left
    refine ⟨e, ?_, hbreak⟩
    rw [findingItem, he]
  rcases breaksOff_stringValue.value_cut blank_nil ht hu with hbreak | ⟨u, rfl, hs⟩
  · left
    rw [findingItem, hn]
    refine hbreak.mono ?_
    rintro ⟨_, _, -, -, hc⟩
    exact hc.elim
  · exact .inr ⟨u, rfl, hs⟩

theorem findingItems_cut (hs : BodyText 0x5D StringText true s [d.posn, d.message])
    (h : Cut s u v) : Breaks C (findingItems u) := by
  cases hs with
  | @item _ x t _ _ _ hx ht hs =>
    cases hs with
    | @item _ x' t' _ _ _ hx' ht' hs =>
      cases hs with
      | @close _ w hw =>
        rcases findingItem_cut (i := 0) hx ht h with ⟨e, he, hbreak⟩ | ⟨u, rfl, hu⟩
        · refine ⟨e, ?_, hbreak⟩
          rw [findingItems, he]
        rw [findingItems, findingItem_append (i := 0) hx ht]
        simp only
        rcases findingItem_cut (i := 1) hx' ht' hu with ⟨e, he, hbreak⟩ | ⟨u, rfl, hend⟩
        · rw [he]
          exact ⟨e, rfl, hbreak⟩
        rw [findingItem_append (i := 1) hx' ht']
        simp only
        rcases hend.blank_cons_cases hw with hblank | ⟨u, rfl, hnil⟩
        · rw [findingEnd, skipBlank_blank hblank]
          exact breaks_stop rfl []
        · exact absurd hnil not_cut_nil

theorem breaksOff_finding :
    finding.BreaksOff FindingText (BodyCut 0x7B (ItemCut 0x7D FieldText SkippedCut true)) := by
  refine .of_begun (fun {w} hw => ?blank) (fun {w t u v b d} hw ht h => ?begun)
  case blank =>
    simp only [finding, skipBlank_blank hw]
    exact breaks_stop rfl []
  case begun =>
    cases ht with
    | @object s l _ hs hl =>
      have hopen := skipBlank_append hw (b := 0x7B) rfl u
      have hm : (({} : Members).fields ++ l.filterMap id).Perm (fieldsOf d) := hl
      simp only [finding, hopen, if_true]
      exact (findingMembers_cut hs hm h).mono .mk
    | list hs =>
      have hopen := skipBlank_append hw (b := 0x5B) rfl u
      simp only [finding, hopen]
      exact findingItems_cut hs h

end

end Json

/-! ## Raw outputs -/

/-- A raw output is cut inside a number in the value of a member that does not count: the member has
another name than those of a finding, and any value could stand in place of the number. -/
inductive InSkippedNumber : Bytes → Bytes → Prop
  | mk {b₁ a₁ b₂ a₂ k u v : Bytes} {name : String} (hfinding : FindingPlace b₁ a₁)
      (hmember : BodyPlace 0x7D FieldText true b₂ a₂) (hk : NameText k name)
      (hname : ∀ member : Member, name ≠ member.text) (hnumber : NumberCut ValueText u v) :
      InSkippedNumber (b₁ ++ 0x7B :: (b₂ ++ (k ++ u))) (v ++ (a₂ ++ a₁))

namespace Payload

variable {before after : Bytes} {p : Payload}

theorem breaks_reader (h : reader.readAll (before ++ after) = .ok p) (hafter : ¬ Blank after) :
    Breaks (InSkippedNumber before after) (reader.readAll before) := by
  have hread := reads_finding.listOf (neverStarts_findingText (by decide) (by decide))
  have hlist := breaksOff_finding.listOf reads_finding
    (neverStarts_findingText (by decide) (by decide))
  have hstarts : NeverStarts (ListText FindingText) 0x6E := by
    rintro t l ⟨-⟩
    exact ⟨_, _, rfl, rfl, by decide⟩
  have hresults := (hlist.orNull hstarts).objectOf (hread.orNull hstarts)
  have hentry := hresults.map SortedMap.ofList
  have hpayload := (hentry.objectOf (Document.reads_results.map _)).map SortedMap.ofList
  have hreads := (Document.reads_results.map SortedMap.ofList).objectOf.map SortedMap.ofList
  refine (hpayload.readAll_cut hreads h hafter).mono ?_
  rintro ⟨w, _, _, y, hw, hy, rfl, rfl, ⟨hpackage, hk₁, ⟨hanalyzer, hk₂, ⟨hplace, ⟨hmember,
    hk, hname, hnumber⟩⟩⟩⟩⟩
  -- the places of packages are those of the results that are made into maps
  have hpackage' := hpackage.of_mapped (f := Prod.map id SortedMap.ofList)
    (G := MemberText (ObjectText (OrNullText (ListText FindingText)))) (by
      rintro t _ ⟨hk, hw, hv, results, ht, rfl⟩
      exact ⟨(_, results), .mk hk hw hv ht, rfl⟩)
  have hfinding := FindingPlace.mk hw hy hpackage' hk₁ hanalyzer hk₂ hplace
  have hcut := InSkippedNumber.mk hfinding hmember hk hname hnumber
  simpa using hcut

/-- **A raw output that is cut off is reported as such.** If an output is accepted and more than
blanks of it are cut off, what is left is refused, and so is what is collected from it. The error is
that it breaks off, wherever the cut is, but in a number of a member that does not count: such a
number may also be malformed. -/
theorem breaks_off_where_cut (h : decode (before ++ after) = .ok p) (hafter : ¬ Blank after) :
    ∃ e, decode before = .error e ∧
      (∀ analyzer, Diagnostics.ofBytes analyzer before = .error (.decode e (Utf8.lossy before))) ∧
      (e.cause.category = .eof ∨ e.cause = .invalidNumber ∧ InSkippedNumber before after) := by
  rw [decode_eq_ok_iff_readAll] at h
  obtain ⟨fault, hfault, hbreak⟩ := breaks_reader h hafter
  have hd : decode before = .error (fault.locate before) := by rw [decode, hfault]
  exact ⟨_, hd, Diagnostics.ofBytes_of_refused hd, hbreak⟩

/-- A text with a number in a member that does not count, and a character that is written as two
escapes. -/
def escapedText : Bytes :=
  Utf8.encode ("\x7b\"p\":\x7b\"n\":[\x7b\"x\":[1e5],\"posn\":\"a.go:1:1\"," ++
    "\"message\":\"\\uD834\\udd1e\"\x7d]\x7d\x7d")

theorem breaks_off_where_cut_escapedText :
    (∃ e, decode (escapedText.take 60) = .error e ∧ e.cause.category = .eof) ∧
      ∃ e, decode (escapedText.take 19) = .error e ∧ e.cause = .invalidNumber ∧
        InSkippedNumber (escapedText.take 19) (escapedText.drop 19) := by
  have hd (n : Nat) : decode (escapedText.take n ++ escapedText.drop n) =
      .ok (Document.payload [("p", [("n", some [⟨"a.go:1:1", "𝄞"⟩])])]) := by
    rw [List.take_append_drop]
    exact decode_eq_ok_iff.2 ⟨_, by decide +kernel, rfl⟩
  have hstring : decode (escapedText.take 60) = .error ⟨.eofInString, ⟨1, 60⟩⟩ := by
    decide +kernel
  have hnumber : decode (escapedText.take 19) = .error ⟨.invalidNumber, ⟨1, 19⟩⟩ := by
    decide +kernel
  constructor
  · obtain ⟨e, he, -, hbreak⟩ := breaks_off_where_cut (hd 60) (by decide +kernel)
    refine ⟨e, he, hbreak.resolve_right fun h => ?_⟩
    rw [hstring] at he
    cases he
    exact absurd h.1 (by decide)
  · obtain ⟨e, he, -, hbreak⟩ := breaks_off_where_cut (hd 19) (by decide +kernel)
    refine ⟨e, he, hbreak.resolve_left fun h => ?_⟩
    rw [hnumber] at he
    cases he
    exact absurd h (by decide)

end Payload

end Findings
