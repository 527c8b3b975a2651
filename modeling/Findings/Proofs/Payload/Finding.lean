import Findings.Payload.Reader
import Findings.Proofs.Json.Containers

/-!
# Reading findings

A finding is spelled as an object with the members `posn` and `message` once each, in any order and
among others of any name and value, or as a list of its two strings: `FindingText`. The reader
`Json.finding` reads just these (`reads_finding`).

Route. `findingMembers` keeps what it has read of the two members. That and the members it is still
to read are the fields of the finding, in some order: the invariant of `findingMembers_append` and
`bodyText_of_findingMembers`.
-/

set_option autoImplicit false

namespace Findings.Json

/-- The members of a finding and their texts. -/
def fieldsOf (d : Finding) : List (Member × String) := [(.posn, d.posn), (.message, d.message)]

/-- A member of a finding: one that counts, or one that is skipped. -/
inductive FieldText : Bytes → Option (Member × String) → Prop
  | counted {s : Bytes} {member : Member} {text : String}
      (h : MemberText StringText s (member.text, text)) : FieldText s (some (member, text))
  | skipped {s : Bytes} {name : String}
      (h : MemberText (fun t (_ : Unit) => ValueText t) s (name, ()))
      (hn : ∀ member : Member, name ≠ member.text) : FieldText s none

/-- The two ways to write a finding. -/
inductive FindingText : Bytes → Finding → Prop
  | object {s : Bytes} {l : List (Option (Member × String))} {d : Finding}
      (h : BodyText 0x7D FieldText true s l) (hl : (l.filterMap id).Perm (fieldsOf d)) :
      FindingText (0x7B :: s) d
  | list {s : Bytes} {d : Finding} (h : BodyText 0x5D StringText true s [d.posn, d.message]) :
      FindingText (0x5B :: s) d

variable {s t u v w rest : Bytes} {first : Bool} {m : Members} {d : Finding} {member : Member}
  {name text : String} {l : List (Option (Member × String))}

/-! ## The members read so far -/

theorem Member.ofName?_eq_some_iff : Member.ofName? name = some member ↔ name = member.text := by
  unfold Member.ofName?
  constructor
  · intro h
    split at h
    next hn => cases h; exact hn
    split at h
    next hn => cases h; exact hn
    cases h
  · rintro rfl
    cases member <;> rfl

theorem Member.ofName?_eq_none_iff :
    Member.ofName? name = none ↔ ∀ member : Member, name ≠ member.text := by
  rw [Option.eq_none_iff_forall_ne_some]
  exact forall_congr' fun member => not_congr ofName?_eq_some_iff

namespace Members

/-- The members that have been read and their texts. -/
def fields (m : Members) : List (Member × String) :=
  (m.posn.map (Member.posn, ·)).toList ++ (m.message.map (Member.message, ·)).toList

theorem fields_set (h : m.get? member = none) (text : String) :
    (m.set text member).fields.Perm ((member, text) :: m.fields) := by
  obtain ⟨posn, message⟩ := m
  cases member with
  | posn =>
    cases h
    exact .refl _
  | message =>
    cases h
    cases posn
    · exact .refl _
    · exact .swap _ _ _

theorem mem_fields_of_get? (h : m.get? member = some text) : (member, text) ∈ m.fields := by
  obtain ⟨posn, message⟩ := m
  cases member <;> cases h <;> simp [fields]

/-- No member is read twice. -/
theorem get?_eq_none_of_perm {r : List (Member × String)}
    (h : (m.fields ++ (member, text) :: r).Perm (fieldsOf d)) : m.get? member = none := by
  have hd : ((fieldsOf d).map Prod.fst).Nodup := show [Member.posn, Member.message].Nodup by decide
  have hk := (h.map Prod.fst).nodup_iff.2 hd
  rw [List.map_append, List.map_cons, List.nodup_append] at hk
  refine Option.eq_none_iff_forall_ne_some.2 fun x hx => ?_
  exact hk.2.2 _ (List.mem_map_of_mem (mem_fields_of_get? hx)) _ List.mem_cons_self rfl

theorem finish_eq_ok_iff {rest : Bytes} : m.finish rest = .ok d ↔ m.fields.Perm (fieldsOf d) := by
  obtain ⟨posn, message⟩ := m
  constructor
  · intro h
    cases posn with
    | none => cases message <;> cases h
    | some p =>
      cases message with
      | none => cases h
      | some q => cases h; exact .refl _
  · intro h
    have hl := h.length_eq
    cases posn with
    | none => cases message <;> cases hl
    | some p =>
      cases message with
      | none => cases hl
      | some q =>
        have hp := h.subset (List.mem_cons_self (a := (Member.posn, p)))
        have hq := h.subset (List.mem_cons_of_mem (Member.posn, p)
          (List.mem_cons_self (a := (Member.message, q))))
        simp [fieldsOf] at hp hq
        rw [hp, hq]
        rfl

end Members

/-! ## Findings written as objects -/

theorem BodyText.separated {α : Type} {G : Bytes → α → Prop} {l : List α}
    (h : BodyText 0x7D G false s l) : Separated (s ++ rest) := by
  cases h with
  | close hw =>
    rw [List.append_assoc]
    exact separated_blank_append hw ⟨by simp [IsDigit], by decide, by decide⟩ rest
  | item hv =>
    cases hv with
    | comma hw =>
      rw [List.append_assoc, List.append_assoc, List.cons_append]
      exact separated_blank_append hw ⟨by simp [IsDigit], by decide, by decide⟩ _

theorem findingMembers_of_done (h : nextMember first s = .ok (.done rest)) :
    findingMembers first m s = (m.finish rest).map fun d => (d, rest) := by
  rw [findingMembers.eq_def]
  split
  next h' => rw [h] at h'; cases h'
  next h' => rw [h] at h'; cases h'; rfl
  next h' => rw [h] at h'; cases h'

theorem findingMembers_of_item (h : nextMember first s = .ok (.item t))
    (hk : string t = .ok (name, u)) (hc : colon u = .ok v) :
    findingMembers first m s =
      match Member.ofName? name with
      | some member =>
        if (m.get? member).isSome then stop (.duplicateField member) (afterRepeated u)
        else
          match stringValue.read v with
          | .error e => .error e
          | .ok (text, rest) => findingMembers false (m.set text member) rest
      | none =>
        match skipValue v with
        | .error e => .error e
        | .ok rest => findingMembers false m rest := by
  rw [findingMembers.eq_def]
  split
  next h' => rw [h] at h'; cases h'
  next h' => rw [h] at h'; cases h'
  next h' =>
    rw [h] at h'
    cases h'
    split
    next hk' => rw [hk] at hk'; cases hk'
    next hk' =>
      rw [hk] at hk'
      cases hk'
      cases Member.ofName? name with
      | some member =>
        simp only
        split
        · rfl
        · split
          next hc' => rw [hc] at hc'; cases hc'
          next hc' =>
            rw [hc] at hc'
            cases hc'
            split <;> rename_i hv <;> rw [hv]
      | none =>
        simp only
        split
        next hc' => rw [hc] at hc'; cases hc'
        next hc' =>
          rw [hc] at hc'
          cases hc'
          split <;> rename_i hv <;> rw [hv]

theorem findingMembers_append (h : BodyText 0x7D FieldText first s l)
    (hp : (m.fields ++ l.filterMap id).Perm (fieldsOf d)) (rest : Bytes) :
    findingMembers first m (s ++ rest) = .ok (d, rest) := by
  induction h generalizing m with
  | close hw =>
    rw [List.filterMap_nil, List.append_nil] at hp
    have hf : m.finish rest = .ok d := Members.finish_eq_ok_iff.2 hp
    rw [List.append_assoc]
    refine (findingMembers_of_done (nextMember_done hw rest)).trans ?_
    rw [hf]
    rfl
  | @item first v t s f l hv ht hs ih =>
    cases ht with
    | @counted member text ht =>
      cases ht with
      | @mk k w x t _ _ hk hw hx ht =>
        cases hk with
        | @mk k _ hk =>
          have hn := nextMember_item hv (k ++ 0x22 :: (w ++ 0x3A :: (x ++ (t ++ (s ++ rest)))))
          have ha := reads_stringValue.complete (s ++ rest) hx ht
          have hm := Members.get?_eq_none_of_perm hp
          have hp' : ((m.set text member).fields ++ l.filterMap id).Perm (fieldsOf d) :=
            ((Members.fields_set hm text).append_right _).trans (List.perm_middle.symm.trans hp)
          have := findingMembers_of_item (m := m) hn (string_append hk _) (colon_append hw _)
          rw [Member.ofName?_eq_some_iff.2 rfl] at this
          simp only [hm, ha] at this
          simp [this, ih hp']
    | @skipped name ht hname =>
      cases ht with
      | @mk k w x t _ _ hk hw hx ht =>
        cases hk with
        | @mk k _ hk =>
          have hn := nextMember_item hv (k ++ 0x22 :: (w ++ 0x3A :: (x ++ (t ++ (s ++ rest)))))
          have hsep : Separated (s ++ rest) := hs.separated
          have ha := skipValue_append hx ht hsep
          have := findingMembers_of_item (m := m) hn (string_append hk _) (colon_append hw _)
          rw [Member.ofName?_eq_none_iff.2 hname] at this
          simp only [ha] at this
          simp [this, ih hp]

theorem bodyText_of_findingMembers (h : findingMembers first m s = .ok (d, rest)) :
    ∃ u l, BodyText 0x7D FieldText first u l ∧
      (m.fields ++ l.filterMap id).Perm (fieldsOf d) ∧ s = u ++ rest := by
  fun_induction findingMembers first m s with
  | case2 first m s r hd =>
    rw [map_eq_ok_iff] at h
    obtain ⟨d', hf, he⟩ := h
    cases he
    obtain ⟨w, hw, rfl⟩ := exists_of_nextMember_done hd
    exact ⟨_, [], .close hw, by simpa using Members.finish_eq_ok_iff.1 hf, by simp⟩
  | case7 first m s t hn name u hk member hname hm v hc text r hv _ _ _ _ ih =>
    obtain ⟨b, l, hb, hp, rfl⟩ := ih h
    obtain ⟨y, hy, rfl⟩ := exists_of_nextMember hn
    obtain ⟨k, hk', rfl⟩ := exists_of_string hk
    obtain ⟨w, hw, rfl⟩ := exists_of_colon hc
    obtain ⟨x, t, hx, ht, rfl⟩ := reads_stringValue.sound hv
    obtain rfl := Member.ofName?_eq_some_iff.1 hname
    have hm : m.get? member = none := by simpa using hm
    refine ⟨_, _, .item hy (.counted (.mk (.mk hk') hw hx ht)) hb, ?_, by simp⟩
    exact List.perm_middle.trans (((Members.fields_set hm text).append_right _).symm.trans hp)
  | case10 first m s t hn name u hk hname v hc r hv _ _ _ _ ih =>
    obtain ⟨b, l, hb, hp, rfl⟩ := ih h
    obtain ⟨y, hy, rfl⟩ := exists_of_nextMember hn
    obtain ⟨k, hk', rfl⟩ := exists_of_string hk
    obtain ⟨w, hw, rfl⟩ := exists_of_colon hc
    obtain ⟨x, t, hx, ht, rfl⟩ := exists_of_skipValue hv
    rw [Member.ofName?_eq_none_iff] at hname
    exact ⟨_, _, .item hy (.skipped (.mk (.mk hk') hw hx ht) hname) hb, hp, by simp⟩
  | _ => cases h

/-! ## Findings written as lists -/

theorem findingItem_append {i : Nat} (hv : Separator (i = 0) v) (ht : StringText t text)
    (rest : Bytes) : findingItem i (v ++ (t ++ rest)) = .ok (text, rest) := by
  have ha := reads_stringValue.complete rest blank_nil ht
  rw [findingItem, nextItem_item hv ((neverStarts_stringText (by decide) ht).append rest)]
  exact ha

theorem exists_of_findingItem {i : Nat} (h : findingItem i s = .ok (text, rest)) :
    ∃ v t, Separator (i = 0) v ∧ StringText t text ∧ s = v ++ (t ++ rest) := by
  unfold findingItem at h
  split at h
  · cases h
  · cases h
  next hn =>
    obtain ⟨v, hv, rfl⟩ := exists_of_nextItem hn
    obtain ⟨w, t, hw, ht, rfl⟩ := reads_stringValue.sound h
    exact ⟨v ++ w, t, hv.append hw, ht, by simp⟩

theorem findingEnd_append (hw : Blank w) (rest : Bytes) :
    findingEnd (w ++ 0x5D :: rest) = .ok rest := by
  rw [findingEnd, skipBlank_append hw rfl]
  exact if_pos rfl

theorem exists_of_findingEnd (h : findingEnd s = .ok rest) :
    ∃ w, Blank w ∧ s = w ++ 0x5D :: rest := by
  unfold findingEnd at h
  split at h
  · cases h
  next heq =>
    obtain ⟨w, hw, rfl⟩ := exists_of_skipBlank heq
    split at h
    next hb => cases h; exact ⟨w, hw, by rw [hb]⟩
    split at h
    · split at h
      · cases h
      · split at h <;> cases h
    · cases h

theorem findingItems_append (h : BodyText 0x5D StringText true s [d.posn, d.message])
    (rest : Bytes) : findingItems (s ++ rest) = .ok (d, rest) := by
  cases h with
  | @item _ v t _ _ _ hv ht h =>
    cases h with
    | @item _ v' t' _ _ _ hv' ht' h =>
      cases h with
      | @close _ w hw =>
        have h₀ := findingItem_append (i := 0) hv ht (v' ++ (t' ++ (w ++ 0x5D :: rest)))
        have h₁ := findingItem_append (i := 1) hv' ht' (w ++ 0x5D :: rest)
        simp [findingItems, h₀, h₁, findingEnd_append hw, Except.map]

theorem bodyText_of_findingItems (h : findingItems s = .ok (d, rest)) :
    ∃ u, BodyText 0x5D StringText true u [d.posn, d.message] ∧ s = u ++ rest := by
  unfold findingItems at h
  split at h
  · cases h
  next h₀ =>
    obtain ⟨v, t, hv, ht, rfl⟩ := exists_of_findingItem h₀
    split at h
    · cases h
    next h₁ =>
      obtain ⟨v', t', hv', ht', rfl⟩ := exists_of_findingItem h₁
      rw [map_eq_ok_iff] at h
      obtain ⟨r, hr, he⟩ := h
      cases he
      obtain ⟨w, hw, rfl⟩ := exists_of_findingEnd hr
      exact ⟨_, .item hv ht (.item hv' ht' (.close hw)), by simp⟩

/-! ## Findings -/

/-- **The reader of findings reads just what spells one.** -/
theorem reads_finding : finding.Reads FindingText where
  sound {s rest d} h := by
    simp only [finding] at h
    split at h
    · cases h
    next heq =>
      obtain ⟨w, hw, rfl⟩ := exists_of_skipBlank heq
      split at h
      next hb =>
        obtain ⟨u, l, hu, hp, rfl⟩ := bodyText_of_findingMembers h
        exact ⟨w, 0x7B :: u, hw, .object hu hp, by rw [hb]; rfl⟩
      split at h
      next hb =>
        obtain ⟨u, hu, rfl⟩ := bodyText_of_findingItems h
        exact ⟨w, 0x5B :: u, hw, .list hu, by rw [hb]; rfl⟩
      · exact absurd h refuse_ne_ok
  complete {w t d} rest hw ht := by
    cases ht with
    | @object s l _ hs hl =>
      have hb := skipBlank_append hw (b := 0x7B) rfl (s ++ rest)
      have hm : (({} : Members).fields ++ l.filterMap id).Perm (fieldsOf d) := hl
      rw [List.cons_append]
      simp only [finding, hb, if_true, findingMembers_append hs hm]
    | @list s _ hs =>
      have hb := skipBlank_append hw (b := 0x5B) rfl (s ++ rest)
      rw [List.cons_append]
      simp only [finding, hb, findingItems_append hs]
      rfl

theorem neverStarts_findingText {x : UInt8} (ho : x ≠ 0x7B) (hl : x ≠ 0x5B) :
    NeverStarts FindingText x := by
  intro t d ht
  cases ht with
  | object => exact ⟨_, _, rfl, rfl, ho.symm⟩
  | list => exact ⟨_, _, rfl, rfl, hl.symm⟩

end Findings.Json
