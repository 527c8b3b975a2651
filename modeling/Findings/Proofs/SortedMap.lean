import Findings.SortedMap
import Mathlib.Data.List.Dedup
import Mathlib.Data.List.Induction
import Mathlib.Data.List.Nodup

/-!
# Laws of sorted maps

A sorted map is determined by its lookups (`ext_get?`), and what `insert` and `ofList` do is said
through them: `insert` changes the lookup of one key (`get?_insert`), `ofList` keeps the last value
of every key (`get?_ofList`). A list that names every entry of a map once, in whatever order, gives
back that map (`ofList_eq_of_perm`).
-/

set_option autoImplicit false

namespace Findings.SortedMap

variable {κ ν : Type} [Ord κ]

/-! ## Entries and lookups -/

@[simp] theorem get?_empty (k : κ) : (∅ : SortedMap κ ν).get? k = none := rfl

section
variable [Std.LawfulEqOrd κ]

theorem ne_of_compare_lt {a b : κ} (h : compare a b = .lt) : a ≠ b := by
  rintro rfl
  simp at h

theorem nodup_keys (m : SortedMap κ ν) : (m.toList.map (·.1)).Nodup :=
  List.pairwise_map.2 (m.ordered.imp ne_of_compare_lt)

theorem nodup_toList (m : SortedMap κ ν) : m.toList.Nodup := m.nodup_keys.of_map

/-- A key has one entry. -/
theorem eq_of_mem {m : SortedMap κ ν} {e e' : κ × ν} (h : e ∈ m.toList) (h' : e' ∈ m.toList)
    (hk : e.1 = e'.1) : e = e' :=
  List.inj_on_of_nodup_map m.nodup_keys h h' hk

theorem get?_eq_some_iff {m : SortedMap κ ν} {k : κ} {v : ν} :
    m.get? k = some v ↔ (k, v) ∈ m.toList := by
  simp only [get?, Option.map_eq_some_iff]
  constructor
  · rintro ⟨e, he, rfl⟩
    have hk := List.find?_some he
    simp only [beq_iff_eq, Std.LawfulEqOrd.compare_eq_iff_eq] at hk
    exact hk ▸ List.mem_of_find?_eq_some he
  · intro h
    cases hf : m.toList.find? fun e => compare e.1 k == .eq with
    | none => simpa using List.find?_eq_none.1 hf _ h
    | some e =>
      have hk := List.find?_some hf
      simp only [beq_iff_eq, Std.LawfulEqOrd.compare_eq_iff_eq] at hk
      exact ⟨e, rfl, by rw [eq_of_mem (List.mem_of_find?_eq_some hf) h hk]⟩

theorem get?_eq_none_iff {m : SortedMap κ ν} {k : κ} :
    m.get? k = none ↔ ∀ v, (k, v) ∉ m.toList := by
  simp only [Option.eq_none_iff_forall_ne_some, ne_eq, get?_eq_some_iff]

/-- Among keys that are named once, the entries at a key are its one entry. -/
theorem filter_key_eq_singleton_iff {α β : Type} [DecidableEq α] {l : List (α × β)}
    (h : (l.map (·.1)).Nodup) {k : α} {v : β} :
    l.filter (·.1 = k) = [(k, v)] ↔ (k, v) ∈ l := by
  constructor
  · intro hf
    exact List.mem_of_mem_filter (hf ▸ List.mem_singleton_self (k, v))
  · intro hm
    refine List.perm_singleton.1 ((List.perm_ext_iff_of_nodup (h.of_map.filter _) (by simp)).2 ?_)
    intro e
    simp only [List.mem_filter, decide_eq_true_eq, List.mem_singleton]
    constructor
    · rintro ⟨he, hk⟩
      exact List.inj_on_of_nodup_map h he hm hk
    · rintro rfl
      exact ⟨hm, rfl⟩

variable [Std.TransOrd κ]

omit [Std.LawfulEqOrd κ] in
/-- Two ordered lists with the same entries are the same list. -/
theorem eq_of_perm {m m' : SortedMap κ ν} (h : m.toList.Perm m'.toList) : m = m' := by
  refine SortedMap.ext (h.eq_of_pairwise (fun a b _ _ hab hba => ?_) m.ordered m'.ordered)
  exact absurd hba (Std.OrientedCmp.not_lt_of_lt hab)

/-- **A map is its lookups.** -/
theorem ext_get? {m m' : SortedMap κ ν} (h : ∀ k, m.get? k = m'.get? k) : m = m' := by
  have hmem : ∀ e, e ∈ m.toList ↔ e ∈ m'.toList := fun e => by
    rw [← get?_eq_some_iff, ← get?_eq_some_iff, h]
  exact eq_of_perm ((List.perm_ext_iff_of_nodup m.nodup_toList m'.nodup_toList).2 hmem)

/-! ## Insertion -/

theorem mem_insertEntry_iff {k : κ} {v : ν} {e : κ × ν} {l : List (κ × ν)}
    (h : l.Pairwise fun a b => compare a.1 b.1 = .lt) :
    e ∈ insertEntry k v l ↔ e = (k, v) ∨ e ∈ l ∧ e.1 ≠ k := by
  induction l with
  | nil => simp [insertEntry]
  | cons x xs ih =>
    obtain ⟨hx, hxs⟩ := List.pairwise_cons.1 h
    simp only [insertEntry]
    split
    next hlt =>
      have hne : ∀ e ∈ x :: xs, e.1 ≠ k := by
        intro e he
        rcases List.mem_cons.1 he with rfl | he
        · exact (ne_of_compare_lt hlt).symm
        · exact (ne_of_compare_lt (Std.TransCmp.lt_trans hlt (hx e he))).symm
      simp only [List.mem_cons (a := e) (b := (k, v))]
      exact or_congr_right ⟨fun he => ⟨he, hne e he⟩, And.left⟩
    next heq =>
      have hk : k = x.1 := Std.LawfulEqOrd.compare_eq_iff_eq.1 heq
      have hne : ∀ e ∈ xs, e.1 ≠ k := fun e he => hk ▸ (ne_of_compare_lt (hx e he)).symm
      simp only [List.mem_cons]
      refine or_congr_right ⟨fun he => ⟨.inr he, hne e he⟩, ?_⟩
      rintro ⟨rfl | he, hn⟩
      · exact absurd hk.symm hn
      · exact he
    next hgt =>
      have hk : x.1 ≠ k := ne_of_compare_lt (Std.OrientedCmp.gt_iff_lt.1 hgt)
      simp only [List.mem_cons, ih hxs]
      constructor
      · rintro (rfl | rfl | ⟨he, hn⟩)
        · exact .inr ⟨.inl rfl, hk⟩
        · exact .inl rfl
        · exact .inr ⟨.inr he, hn⟩
      · rintro (rfl | ⟨rfl | he, hn⟩)
        · exact .inr (.inl rfl)
        · exact .inl rfl
        · exact .inr (.inr ⟨he, hn⟩)

theorem mem_toList_insert {m : SortedMap κ ν} {k : κ} {v : ν} {e : κ × ν} :
    e ∈ (m.insert k v).toList ↔ e = (k, v) ∨ e ∈ m.toList ∧ e.1 ≠ k :=
  mem_insertEntry_iff m.ordered

theorem get?_insert_self (m : SortedMap κ ν) (k : κ) (v : ν) : (m.insert k v).get? k = some v :=
  get?_eq_some_iff.2 (mem_toList_insert.2 (.inl rfl))

theorem get?_insert_ne (m : SortedMap κ ν) {k k' : κ} (v : ν) (h : k' ≠ k) :
    (m.insert k v).get? k' = m.get? k' := by
  refine Option.ext fun w => ?_
  rw [get?_eq_some_iff, get?_eq_some_iff, mem_toList_insert]
  simp [h]

/-- **A new key adds one entry** and leaves the others. -/
theorem toList_insert_perm {m : SortedMap κ ν} {k : κ} (v : ν) (h : m.get? k = none) :
    (m.insert k v).toList.Perm ((k, v) :: m.toList) := by
  have hnew : ∀ e ∈ m.toList, e.1 ≠ k := by
    rintro ⟨k', w⟩ he rfl
    exact get?_eq_none_iff.1 h w he
  refine (List.perm_ext_iff_of_nodup (nodup_toList _) ?_).2 fun e => ?_
  · exact List.nodup_cons.2 ⟨fun hm => hnew _ hm rfl, m.nodup_toList⟩
  · rw [mem_toList_insert, List.mem_cons]
    exact or_congr_right ⟨And.left, fun he => ⟨he, hnew e he⟩⟩

/-! ## Maps from lists -/

omit [Std.LawfulEqOrd κ] in
theorem ofList_append_singleton (l : List (κ × ν)) (e : κ × ν) :
    ofList (l ++ [e]) = (ofList l).insert e.1 e.2 := by
  simp [ofList]

/-- **The last value of a key stays.** -/
theorem get?_ofList_eq (l : List (κ × ν)) (k : κ) :
    (ofList l).get? k = (l.reverse.find? fun e => compare e.1 k == .eq).map (·.2) := by
  induction l using List.reverseRecOn with
  | nil => rfl
  | append_singleton l e ih =>
    rw [ofList_append_singleton, List.reverse_append, List.reverse_singleton,
      List.singleton_append, List.find?_cons]
    by_cases hk : k = e.1
    · subst hk
      simp [get?_insert_self]
    · have hne : (compare e.1 k == .eq) = false := by simpa using Ne.symm hk
      rw [get?_insert_ne _ _ hk, ih, hne]

theorem get?_ofList {l : List (κ × ν)} {k : κ} {v : ν} :
    (ofList l).get? k = some v ↔
      ∃ before after, l = before ++ (k, v) :: after ∧ ∀ e ∈ after, e.1 ≠ k := by
  simp only [get?_ofList_eq, Option.map_eq_some_iff, List.find?_eq_some_iff_append, beq_iff_eq,
    Std.LawfulEqOrd.compare_eq_iff_eq, Bool.not_eq_true', beq_eq_false_iff_ne, ne_eq]
  constructor
  · rintro ⟨e, ⟨rfl, after, before, hl, hafter⟩, rfl⟩
    refine ⟨before.reverse, after.reverse, ?_, fun x hx => hafter x (List.mem_reverse.1 hx)⟩
    rw [← List.reverse_reverse l, hl]
    simp
  · rintro ⟨before, after, rfl, hafter⟩
    refine ⟨(k, v), ⟨rfl, after.reverse, before.reverse, by simp, fun x hx => ?_⟩, rfl⟩
    exact hafter x (List.mem_reverse.1 hx)

/-- With every key named once no value is replaced. -/
theorem get?_ofList_of_nodup {l : List (κ × ν)} (h : (l.map (·.1)).Nodup) {k : κ} {v : ν} :
    (ofList l).get? k = some v ↔ (k, v) ∈ l := by
  rw [get?_ofList]
  constructor
  · rintro ⟨before, after, rfl, -⟩
    simp
  · intro hm
    obtain ⟨before, after, rfl⟩ := List.append_of_mem hm
    refine ⟨before, after, rfl, fun e he hk => ?_⟩
    simp only [List.map_append, List.map_cons] at h
    have := (List.nodup_cons.1 (List.nodup_append.1 h).2.1).1
    exact this (hk ▸ List.mem_map_of_mem he)

/-- Such a list gives a map with its entries. -/
theorem toList_ofList_perm {l : List (κ × ν)} (h : (l.map (·.1)).Nodup) :
    (ofList l).toList.Perm l := by
  refine (List.perm_ext_iff_of_nodup (nodup_toList _) h.of_map).2 fun e => ?_
  rw [← get?_eq_some_iff, get?_ofList_of_nodup h]

theorem mem_keys_ofList {l : List (κ × ν)} {k : κ} :
    k ∈ (ofList l).toList.map (·.1) ↔ k ∈ l.map (·.1) := by
  have hkey : k ∈ (ofList l).toList.map (·.1) ↔ ((ofList l).get? k).isSome := by
    simp [Option.isSome_iff_exists, get?_eq_some_iff]
  rw [hkey, get?_ofList_eq, Option.isSome_map, List.find?_isSome]
  simp

/-- There is one entry for each key, however often it is named. -/
theorem size_ofList [DecidableEq κ] (l : List (κ × ν)) :
    (ofList l).size = (l.map (·.1)).dedup.length := by
  have hperm : ((ofList l).toList.map (·.1)).Perm (l.map (·.1)).dedup :=
    (List.perm_ext_iff_of_nodup (nodup_keys _) (List.nodup_dedup _)).2 fun k => by
      rw [mem_keys_ofList, List.mem_dedup]
  rw [size, ← hperm.length_eq, List.length_map]

theorem ofList_eq_of_perm {m : SortedMap κ ν} {l : List (κ × ν)} (h : l.Perm m.toList) :
    ofList l = m := by
  refine ext_get? fun k => Option.ext fun v => ?_
  rw [get?_ofList_of_nodup ((h.map _).nodup_iff.2 m.nodup_keys), get?_eq_some_iff, h.mem_iff]

end

end Findings.SortedMap
