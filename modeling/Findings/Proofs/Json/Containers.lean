import Findings.Proofs.Json.Skipping

/-!
# Readers and the grammar

`value.Reads G`: the reader `value` reads the texts of `G`, with blanks before them, and nothing
else. Lists, objects and `null` carry this from their items to themselves: `Reads.listOf`,
`Reads.objectOf`, `Reads.orNull`, over `reads_stringValue`.
-/

set_option autoImplicit false

namespace Findings.Json

variable {α : Type} {G : Bytes → α → Prop} {s t u v w rest : Bytes} {first : Bool}

/-- The reader reads just what `G` spells. -/
structure Reader.Reads (value : Reader α) (G : Bytes → α → Prop) : Prop where
  sound : ∀ {s rest : Bytes} {a : α}, value.read s = .ok (a, rest) →
    ∃ w t, Blank w ∧ G t a ∧ s = w ++ (t ++ rest)
  complete : ∀ {w t : Bytes} {a : α} (rest : Bytes), Blank w → G t a →
    value.read (w ++ (t ++ rest)) = .ok (a, rest)

/-- No text starts with a blank or with `x`. -/
def NeverStarts (G : Bytes → α → Prop) (x : UInt8) : Prop :=
  ∀ {t : Bytes} {a : α}, G t a → Apart x t

theorem refuse_ne_ok {β : Type} {wanted : Wanted} {b : UInt8} {r : β} :
    refuse wanted b s ≠ .ok r := by
  unfold refuse
  split <;> simp [stop]

/-! ## Strings and keys -/

theorem reads_stringValue : stringValue.Reads StringText where
  sound {s rest t} h := by
    change readString s = _ at h
    unfold readString at h
    split at h
    · cases h
    next heq =>
      obtain ⟨w, hw, rfl⟩ := exists_of_skipBlank heq
      split at h
      next hb =>
        obtain ⟨u, hu, rfl⟩ := exists_of_string h
        exact ⟨w, _, hw, .mk hu, by rw [hb]; simp⟩
      · exact absurd h refuse_ne_ok
  complete {w t a} rest hw ht := by
    cases ht with
    | @mk u a hu =>
      have hs := skipBlank_append hw (b := 0x22) rfl (u ++ 0x22 :: rest)
      show readString _ = _
      rw [List.cons_append, List.append_assoc, readString]
      simp only [List.cons_append, List.nil_append, hs, if_true, string_append hu]

theorem neverStarts_stringText {x : UInt8} (hx : x ≠ 0x22) : NeverStarts StringText x := by
  intro t a ht
  cases ht with
  | mk => exact ⟨_, _, rfl, rfl, hx.symm⟩

theorem key_append {name : String} (hu : CharsText u name.toList) (hw : Blank w) (rest : Bytes) :
    key (u ++ 0x22 :: (w ++ 0x3A :: rest)) = .ok (name, rest) := by
  rw [key, string_append hu]
  simp only [colon_append hw]

theorem exists_of_key {name : String} (h : key s = .ok (name, rest)) :
    ∃ u w, CharsText u name.toList ∧ Blank w ∧ s = u ++ 0x22 :: (w ++ 0x3A :: rest) := by
  unfold key at h
  split at h
  · cases h
  next hs =>
    split at h
    · cases h
    next hc =>
      cases h
      obtain ⟨u, hu, rfl⟩ := exists_of_string hs
      obtain ⟨w, hw, rfl⟩ := exists_of_colon hc
      exact ⟨u, w, hu, hw, rfl⟩

/-! ## From item to item -/

theorem Separator.append (hv : Separator first v) (hw : Blank w) : Separator first (v ++ w) := by
  cases hv with
  | first h => exact .first (h.append hw)
  | @comma v w' h h' =>
    rw [List.append_assoc]
    exact .comma h (h'.append hw)

theorem nextItem_done (hw : Blank w) (rest : Bytes) :
    nextItem first (w ++ 0x5D :: rest) = .ok (.done rest) := by
  rw [nextItem, skipBlank_append hw rfl]
  exact if_pos rfl

theorem nextItem_item (hv : Separator first v) (hs : Apart 0x5D s) :
    nextItem first (v ++ s) = .ok (.item s) := by
  obtain ⟨b, r, rfl, hb, hne⟩ := hs
  cases hv with
  | first hw =>
    rw [nextItem, skipBlank_append hw hb]
    simp only [if_neg hne, if_true]
  | @comma w v hw hv =>
    rw [List.append_assoc, List.cons_append, nextItem, skipBlank_append hw rfl]
    simp [skipBlank_append hv hb, hne]

theorem nextMember_done (hw : Blank w) (rest : Bytes) :
    nextMember first (w ++ 0x7D :: rest) = .ok (.done rest) := by
  rw [nextMember, skipBlank_append hw rfl]
  exact if_pos rfl

theorem nextMember_item (hv : Separator first v) (s : Bytes) :
    nextMember first (v ++ 0x22 :: s) = .ok (.item s) := by
  cases hv with
  | first hw =>
    rw [nextMember, skipBlank_append hw rfl]
    simp
  | @comma w v hw hv =>
    rw [List.append_assoc, List.cons_append, nextMember, skipBlank_append hw rfl]
    simp [skipBlank_append hv (b := 0x22) rfl]

theorem exists_of_nextItem_done (h : nextItem first s = .ok (.done rest)) :
    ∃ w, Blank w ∧ s = w ++ 0x5D :: rest := by
  unfold nextItem at h
  split at h
  · cases h
  next heq =>
    obtain ⟨w, hw, rfl⟩ := exists_of_skipBlank heq
    repeat' (split at h)
    all_goals cases h
    next hb => exact ⟨w, hw, by rw [hb]⟩

theorem exists_of_nextItem (h : nextItem first s = .ok (.item rest)) :
    ∃ v, Separator first v ∧ s = v ++ rest := by
  unfold nextItem at h
  split at h
  · cases h
  next heq =>
    obtain ⟨w, hw, rfl⟩ := exists_of_skipBlank heq
    split at h
    · cases h
    split at h
    next hf =>
      cases h
      subst hf
      exact ⟨w, .first hw, rfl⟩
    next hf =>
      rw [Bool.not_eq_true] at hf
      subst hf
      split at h
      next hb =>
        split at h
        · cases h
        next heq' =>
          obtain ⟨v, hv, rfl⟩ := exists_of_skipBlank heq'
          split at h
          · cases h
          · cases h
            exact ⟨w ++ 0x2C :: v, .comma hw hv, by rw [hb]; simp⟩
      · cases h

theorem exists_of_nextMember_done (h : nextMember first s = .ok (.done rest)) :
    ∃ w, Blank w ∧ s = w ++ 0x7D :: rest := by
  unfold nextMember at h
  split at h
  · cases h
  next heq =>
    obtain ⟨w, hw, rfl⟩ := exists_of_skipBlank heq
    repeat' (split at h)
    all_goals cases h
    next hb => exact ⟨w, hw, by rw [hb]⟩

theorem exists_of_nextMember (h : nextMember first s = .ok (.item rest)) :
    ∃ v, Separator first v ∧ s = v ++ 0x22 :: rest := by
  unfold nextMember at h
  split at h
  · cases h
  next heq =>
    obtain ⟨w, hw, rfl⟩ := exists_of_skipBlank heq
    split at h
    · cases h
    split at h
    next hf =>
      subst hf
      split at h
      next hb => cases h; exact ⟨w, .first hw, by rw [hb]⟩
      · cases h
    next hf =>
      rw [Bool.not_eq_true] at hf
      subst hf
      split at h
      next hb =>
        split at h
        · cases h
        next heq' =>
          obtain ⟨v, hv, rfl⟩ := exists_of_skipBlank heq'
          split at h
          next hq =>
            cases h
            exact ⟨w ++ 0x2C :: v, .comma hw hv, by rw [hb, hq]; simp⟩
          · split at h <;> cases h
      · cases h

/-! ## Lists and objects -/

variable {value : Reader α} {l acc : List α}

theorem items_of_done (h : nextItem first s = .ok (.done rest)) :
    items value first acc s = .ok (acc, rest) := by
  rw [items.eq_def]
  split
  next h' => rw [h] at h'; cases h'
  next h' => rw [h] at h'; cases h'; rfl
  next h' => rw [h] at h'; cases h'

theorem items_of_item {a : α} (h : nextItem first s = .ok (.item t))
    (ha : value.read t = .ok (a, rest)) :
    items value first acc s = items value false (a :: acc) rest := by
  rw [items.eq_def]
  split
  next h' => rw [h] at h'; cases h'
  next h' => rw [h] at h'; cases h'
  next h' =>
    rw [h] at h'
    cases h'
    split
    next ha' => rw [ha] at ha'; cases ha'
    next ha' => rw [ha] at ha'; cases ha'; rfl

theorem items_append (hr : value.Reads G) (hs : NeverStarts G 0x5D)
    (hl : BodyText 0x5D G first s l) (acc : List α) (rest : Bytes) :
    items value first acc (s ++ rest) = .ok (l.reverse ++ acc, rest) := by
  induction hl generalizing acc with
  | close hw =>
    rw [List.append_assoc]
    exact items_of_done (nextItem_done hw rest)
  | @item first v t s a l hv ht _ ih =>
    have ha := hr.complete (s ++ rest) blank_nil ht
    rw [List.nil_append] at ha
    rw [List.append_assoc, List.append_assoc,
      items_of_item (nextItem_item hv ((hs ht).append _)) ha, ih]
    simp

theorem bodyText_of_items (hr : value.Reads G) {r : List α}
    (h : items value first acc s = .ok (r, rest)) :
    ∃ u l, BodyText 0x5D G first u l ∧ s = u ++ rest ∧ r = l.reverse ++ acc := by
  fun_induction items value first acc s with
  | case1 => cases h
  | case2 first acc s r hd =>
    cases h
    obtain ⟨w, hw, rfl⟩ := exists_of_nextItem_done hd
    exact ⟨_, [], .close hw, by simp, rfl⟩
  | case3 => cases h
  | case4 first acc s t hn a _ hv _ _ ih =>
    obtain ⟨u, l, hl, rfl, rfl⟩ := ih h
    obtain ⟨v, hv', rfl⟩ := exists_of_nextItem hn
    obtain ⟨w, t, hw, ht, rfl⟩ := hr.sound hv
    exact ⟨_, a :: l, .item (hv'.append hw) ht hl, by simp, by simp⟩

theorem Reader.Reads.listOf (hr : value.Reads G) (hs : NeverStarts G 0x5D) :
    (Json.listOf value).Reads (ListText G) where
  sound {s rest l} h := by
    simp only [Json.listOf] at h
    split at h
    · cases h
    next heq =>
      obtain ⟨w, hw, rfl⟩ := exists_of_skipBlank heq
      split at h
      next hb =>
        split at h
        · cases h
        next hi =>
          cases h
          obtain ⟨u, l, hl, rfl, rfl⟩ := bodyText_of_items hr hi
          exact ⟨w, 0x5B :: u, hw, by simpa using .mk hl, by rw [hb]; rfl⟩
      · exact absurd h refuse_ne_ok
  complete {w t l} rest hw ht := by
    cases ht with
    | @mk u l hl =>
      have hb := skipBlank_append hw (b := 0x5B) rfl (u ++ rest)
      rw [List.cons_append]
      simp only [Json.listOf, hb, if_true, items_append hr hs hl, List.append_nil,
        List.reverse_reverse]

variable {m macc : List (String × α)}

theorem members_of_done (h : nextMember first s = .ok (.done rest)) :
    members value first macc s = .ok (macc, rest) := by
  rw [members.eq_def]
  split
  next h' => rw [h] at h'; cases h'
  next h' => rw [h] at h'; cases h'; rfl
  next h' => rw [h] at h'; cases h'

theorem members_of_item {name : String} {a : α} (h : nextMember first s = .ok (.item t))
    (hk : key t = .ok (name, u)) (ha : value.read u = .ok (a, rest)) :
    members value first macc s = members value false ((name, a) :: macc) rest := by
  rw [members.eq_def]
  split
  next h' => rw [h] at h'; cases h'
  next h' => rw [h] at h'; cases h'
  next h' =>
    rw [h] at h'
    cases h'
    split
    next hk' => rw [hk] at hk'; cases hk'
    next hk' =>
      rw [hk] at hk'
      cases hk'
      split
      next ha' => rw [ha] at ha'; cases ha'
      next ha' => rw [ha] at ha'; cases ha'; rfl

theorem members_append (hr : value.Reads G) (hm : BodyText 0x7D (MemberText G) first s m)
    (macc : List (String × α)) (rest : Bytes) :
    members value first macc (s ++ rest) = .ok (m.reverse ++ macc, rest) := by
  induction hm generalizing macc with
  | close hw =>
    rw [List.append_assoc]
    exact members_of_done (nextMember_done hw rest)
  | @item first v t s e l hv ht _ ih =>
    cases ht with
    | @mk k w x t name a hk hw hx ht =>
      cases hk with
      | @mk k _ hk =>
        have hn := nextMember_item hv (k ++ 0x22 :: (w ++ 0x3A :: (x ++ (t ++ (s ++ rest)))))
        have ha := hr.complete (s ++ rest) hx ht
        simp [members_of_item hn (key_append hk hw _) ha, ih]

theorem bodyText_of_members (hr : value.Reads G) {r : List (String × α)}
    (h : members value first macc s = .ok (r, rest)) :
    ∃ u m, BodyText 0x7D (MemberText G) first u m ∧ s = u ++ rest ∧ r = m.reverse ++ macc := by
  fun_induction members value first macc s with
  | case1 => cases h
  | case2 first macc s r hd =>
    cases h
    obtain ⟨w, hw, rfl⟩ := exists_of_nextMember_done hd
    exact ⟨_, [], .close hw, by simp, rfl⟩
  | case3 => cases h
  | case4 => cases h
  | case5 first macc s t hn name _ hk a _ hv _ _ _ ih =>
    obtain ⟨u, m, hm, rfl, rfl⟩ := ih h
    obtain ⟨v, hv', rfl⟩ := exists_of_nextMember hn
    obtain ⟨k, w, hk', hw, rfl⟩ := exists_of_key hk
    obtain ⟨x, t, hx, ht, rfl⟩ := hr.sound hv
    exact ⟨_, (name, a) :: m, .item hv' (.mk (.mk hk') hw hx ht) hm, by simp, by simp⟩

theorem Reader.Reads.objectOf (hr : value.Reads G) :
    (Json.objectOf value).Reads (ObjectText G) where
  sound {s rest m} h := by
    simp only [Json.objectOf] at h
    split at h
    · cases h
    next heq =>
      obtain ⟨w, hw, rfl⟩ := exists_of_skipBlank heq
      split at h
      next hb =>
        split at h
        · cases h
        next hi =>
          cases h
          obtain ⟨u, m, hm, rfl, rfl⟩ := bodyText_of_members hr hi
          exact ⟨w, 0x7B :: u, hw, by simpa using .mk hm, by rw [hb]; rfl⟩
      · exact absurd h refuse_ne_ok
  complete {w t m} rest hw ht := by
    cases ht with
    | @mk u m hm =>
      have hb := skipBlank_append hw (b := 0x7B) rfl (u ++ rest)
      rw [List.cons_append]
      simp only [Json.objectOf, hb, if_true, members_append hr hm, List.append_nil,
        List.reverse_reverse]

theorem map_eq_ok_iff {β γ : Type} {x : Except Fault β} {f : β → γ} {c : γ} :
    x.map f = .ok c ↔ ∃ b, x = .ok b ∧ f b = c := by
  cases x <;> simp [Except.map]

theorem Reader.Reads.orNull (hr : value.Reads G) (hs : NeverStarts G 0x6E) :
    (Json.orNull value).Reads (OrNullText G) where
  sound {s rest a} h := by
    simp only [Json.orNull] at h
    split at h
    next heq =>
      obtain ⟨w, hw, rfl⟩ := exists_of_skipBlank heq
      rw [map_eq_ok_iff] at h
      obtain ⟨⟨a, r⟩, ha, hc⟩ := h
      cases hc
      obtain ⟨v, t, hv, ht, he⟩ := hr.sound ha
      exact ⟨w ++ v, t, hw.append hv, .value ht, by rw [he]; simp⟩
    next heq =>
      obtain ⟨w, hw, rfl⟩ := exists_of_skipBlank heq
      split at h
      next hb =>
        rw [map_eq_ok_iff] at h
        obtain ⟨r, hr, hc⟩ := h
        cases hc
        exact ⟨w, _, hw, .null, by rw [hb, eq_of_literal hr]; rfl⟩
      · rw [map_eq_ok_iff] at h
        obtain ⟨⟨a, r⟩, ha, hc⟩ := h
        cases hc
        obtain ⟨v, t, hv, ht, he⟩ := hr.sound ha
        exact ⟨w ++ v, t, hw.append hv, .value ht, by rw [he]; simp⟩
  complete {w t a} rest hw ht := by
    cases ht with
    | null =>
      have hb := skipBlank_append hw (b := 0x6E) rfl (ullBytes ++ rest)
      show (Json.orNull value).read (w ++ 0x6E :: (ullBytes ++ rest)) = _
      simp only [Json.orNull, hb, if_true, literal_append]
      rfl
    | @value _ a ht =>
      have ha := hr.complete rest blank_nil ht
      obtain ⟨b, r, rfl, hb, hne⟩ := hs ht
      have hb := skipBlank_append hw hb (r ++ rest)
      rw [List.nil_append, List.cons_append] at ha
      simp only [Json.orNull, List.cons_append, hb, if_neg hne, ha]
      rfl

theorem Reader.Reads.map {β : Type} (f : α → β) (hr : value.Reads G) :
    (value.map f).Reads fun t b => ∃ a, G t a ∧ f a = b where
  sound {s rest b} h := by
    change Except.map _ _ = _ at h
    rw [map_eq_ok_iff] at h
    obtain ⟨⟨a, r⟩, ha, hc⟩ := h
    cases hc
    obtain ⟨w, t, hw, ht, rfl⟩ := hr.sound ha
    exact ⟨w, t, hw, ⟨a, ht, rfl⟩, rfl⟩
  complete {w t b} rest hw ht := by
    obtain ⟨a, ht, rfl⟩ := ht
    show Except.map _ _ = _
    rw [hr.complete rest hw ht]
    rfl

/-! ## Mapped values -/

section
variable {β : Type} {f : α → β}

theorem bodyText_map {H : Bytes → β → Prop} (hf : ∀ t a, G t a → H t (f a)) {closing : UInt8}
    {l : List α} (h : BodyText closing G first s l) : BodyText closing H first s (l.map f) := by
  induction h with
  | close hw => exact .close hw
  | item hv ht _ ih => exact .item hv (hf _ _ ht) ih

theorem exists_of_bodyText {H : Bytes → β → Prop} (hf : ∀ t b, H t b → ∃ a, G t a ∧ f a = b)
    {closing : UInt8} {l : List β} (h : BodyText closing H first s l) :
    ∃ l', BodyText closing G first s l' ∧ l'.map f = l := by
  induction h with
  | close hw => exact ⟨[], .close hw, rfl⟩
  | item hv ht _ ih =>
    obtain ⟨a, ha, rfl⟩ := hf _ _ ht
    obtain ⟨l', hl, rfl⟩ := ih
    exact ⟨a :: l', .item hv ha hl, rfl⟩

theorem objectText_map {H : Bytes → β → Prop} (hf : ∀ t a, G t a → H t (f a))
    {m : List (String × α)} (h : ObjectText G s m) : ObjectText H s (m.map (Prod.map id f)) := by
  obtain ⟨h⟩ := h
  refine .mk (bodyText_map ?_ h)
  rintro t _ ⟨hk, hw, hv, ha⟩
  exact .mk hk hw hv (hf _ _ ha)

/-- The members of an object can be read first and mapped afterwards. -/
theorem objectText_map_iff {m : List (String × β)} :
    ObjectText (fun t b => ∃ a, G t a ∧ f a = b) s m ↔
      ∃ l, ObjectText G s l ∧ l.map (Prod.map id f) = m := by
  constructor
  · rintro ⟨h⟩
    obtain ⟨l, hl, hm⟩ := exists_of_bodyText (G := MemberText G) (f := Prod.map id f) (by
      rintro t _ ⟨hk, hw, hv, a, ha, rfl⟩
      exact ⟨(_, a), .mk hk hw hv ha, rfl⟩) h
    exact ⟨l, .mk hl, hm⟩
  · rintro ⟨l, h, rfl⟩
    exact objectText_map (fun _ a ha => ⟨a, ha, rfl⟩) h

end

/-! ## Whole texts -/

/-- **A reader accepts a whole text just if it is one of the grammar, between blanks.** -/
theorem Reader.Reads.readAll_eq_ok_iff {a : α} (hr : value.Reads G) :
    value.readAll s = .ok a ↔ ∃ w t v, Blank w ∧ G t a ∧ Blank v ∧ s = w ++ (t ++ v) := by
  constructor
  · intro h
    unfold Reader.readAll at h
    split at h
    · cases h
    next ha =>
      obtain ⟨w, t, hw, ht, rfl⟩ := hr.sound ha
      split at h
      next heq =>
        cases h
        obtain ⟨v, hv, hv'⟩ := exists_of_skipBlank heq
        exact ⟨w, t, v, hw, ht, hv, by rw [hv', List.append_nil]⟩
      · cases h
  · rintro ⟨w, t, v, hw, ht, hv, rfl⟩
    rw [Reader.readAll, hr.complete v hw ht]
    simp only [skipBlank_blank hv]

end Findings.Json
