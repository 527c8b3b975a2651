import Findings.Toml.Statement

/-!
# Tables name each key once

Every statement of a text leaves the names of the root table distinct (`Entries.Distinct.add`,
`Entries.Distinct.addTable`), so those of a whole text are (`distinct_of_parse`), and a name has at
most one value there.
-/

set_option autoImplicit false

namespace Findings.Toml

namespace Entries

variable {entries entries' : Entries} {e : Key × Option Span × Value} {name : String} {v : Value}

/-- The names of the keys of a table, in the order of its entries. -/
def names (entries : Entries) : List String := entries.map (·.1.name)

/-- No name stands twice. -/
def Distinct (entries : Entries) : Prop := entries.names.Nodup

theorem names_append (entries entries' : Entries) :
    names (entries ++ entries') = entries.names ++ entries'.names := List.map_append

/-! ## Looking up -/

theorem value?_eq_none_iff : entries.value? name = none ↔ name ∉ entries.names := by
  simp [value?, names]

theorem value?_append (entries entries' : Entries) (name : String) :
    value? (entries ++ entries') name = (entries.value? name).or (entries'.value? name) := by
  rw [value?, List.find?_append]
  cases h : entries.find? fun e => e.1.name == name <;> simp [value?, h]

theorem value?_singleton_self (e : Key × Option Span × Value) :
    value? [e] e.1.name = some e.2.2 := by
  simp [value?]

theorem value?_singleton_of_ne (h : e.1.name ≠ name) : value? [e] name = none := by
  simp [value?, h]

/-! ## Changing a table -/

theorem names_setValue (entries : Entries) (name : String) (v : Value) :
    (entries.setValue name v).names = entries.names := by
  rw [names, setValue, List.map_map]
  refine List.map_congr_left fun e _ => ?_
  dsimp only [Function.comp_apply]
  split <;> rfl

theorem distinct_nil : Distinct [] := List.nodup_nil

theorem distinct_append_singleton_iff :
    Distinct (entries ++ [e]) ↔ entries.Distinct ∧ entries.value? e.1.name = none := by
  rw [value?_eq_none_iff, Distinct, Distinct, names_append, List.nodup_append]
  refine and_congr_right fun _ => ⟨fun h hmem => ?_, fun h => ⟨by simp [names], ?_⟩⟩
  · exact h.2 _ hmem _ List.mem_cons_self rfl
  · rintro a ha b hb rfl
    rw [List.mem_singleton.1 hb] at ha
    exact h ha

theorem Distinct.append_singleton (h : entries.Distinct) (hnew : entries.value? e.1.name = none) :
    Distinct (entries ++ [e]) :=
  distinct_append_singleton_iff.2 ⟨h, hnew⟩

theorem Distinct.setValue (h : entries.Distinct) : (entries.setValue name v).Distinct := by
  rw [Distinct, names_setValue]
  exact h

/-- What leaves names distinct where the path ends does so from its start on. -/
theorem Distinct.change {walk : Walk} {f : TableKind → Entries → Option Entries} {path : List Key}
    {kind : TableKind}
    (hf : ∀ kind es es', es.Distinct → f kind es = some es' → es'.Distinct)
    (h : entries.Distinct) (hchange : change walk f path kind entries = some entries') :
    entries'.Distinct := by
  cases path with
  | nil => exact hf kind entries entries' h hchange
  | cons k path =>
    rw [Entries.change] at hchange
    split at hchange
    next hnew =>
      obtain ⟨inner, -, hadded⟩ := Option.bind_eq_some_iff.1 hchange
      cases hadded
      exact h.append_singleton hnew
    next =>
      split at hchange
      · obtain ⟨inner, -, hset⟩ := Option.bind_eq_some_iff.1 hchange
        cases hset
        exact h.setValue
      · cases hchange
    next =>
      obtain ⟨inner, -, hset⟩ := Option.bind_eq_some_iff.1 hchange
      cases hset
      exact h.setValue
    next => cases hchange

theorem Distinct.add {p : Pair} (h : entries.Distinct) (hadd : entries.add p = some entries') :
    entries'.Distinct := by
  refine h.change (fun kind es es' hes hlast => ?_) hadd
  split at hlast
  · cases hlast
  split at hlast
  · cases hlast
  next hnew =>
    cases hlast
    exact hes.append_singleton (Option.not_isSome_iff_eq_none.1 hnew)

/-- What every step of a loop leaves distinct, the loop does. -/
theorem Distinct.foldlM {α : Type} {f : Entries → α → Option Entries} {l : List α}
    (hf : ∀ es es' x, es.Distinct → f es x = some es' → es'.Distinct) (h : entries.Distinct)
    (hfold : l.foldlM f entries = some entries') : entries'.Distinct := by
  induction l generalizing entries with
  | nil => cases hfold; exact h
  | cons x l ih =>
    rw [List.foldlM_cons] at hfold
    obtain ⟨es, hx, hrest⟩ := Option.bind_eq_some_iff.1 hfold
    exact ih (hf entries es x h hx) hrest

theorem Distinct.addAll {pairs : List Pair} (h : entries.Distinct)
    (hadd : entries.addAll pairs = some entries') : entries'.Distinct :=
  h.foldlM (fun _ _ _ h => h.add) hadd

theorem Distinct.without (h : entries.Distinct) : (entries.without name).Distinct :=
  h.sublist (List.filter_sublist.map _)

theorem value?_without_self (entries : Entries) (name : String) :
    (entries.without name).value? name = none := by
  simp [value?, Entries.without]

theorem Distinct.addTable {header : Header} {pairs : List Pair} (h : entries.Distinct)
    (hadd : addTable header pairs entries = some entries') : entries'.Distinct := by
  rw [Entries.addTable] at hadd
  split at hadd
  next hnew =>
    obtain ⟨inner, -, hadded⟩ := Option.bind_eq_some_iff.1 hadd
    cases hadded
    exact h.append_singleton hnew
  next =>
    split at hadd
    · cases hadd
    · obtain ⟨inner, -, hadded⟩ := Option.bind_eq_some_iff.1 hadd
      cases hadded
      exact h.without.append_singleton (value?_without_self entries _)
  next =>
    split at hadd
    · obtain ⟨inner, -, hadded⟩ := Option.bind_eq_some_iff.1 hadd
      cases hadded
      rw [Distinct, names, List.map_map]
      refine Eq.subst (motive := List.Nodup) (List.map_congr_left fun e _ => ?_) h
      dsimp only [Function.comp_apply]
      split <;> rfl
    · cases hadd
  next => cases hadd

theorem Distinct.ofSections {s : List Pair × List (Header × List Pair)}
    (h : ofSections s = some entries) : entries.Distinct := by
  obtain ⟨root, hroot, htables⟩ := Option.bind_eq_some_iff.1 h
  exact (distinct_nil.addAll hroot).foldlM
    (fun _ _ _ hes => hes.change fun _ _ _ hes => hes.addTable) htables

end Entries

theorem distinct_of_parse {text : List Char} {entries : Entries}
    (h : parse text = some entries) : entries.Distinct := by
  obtain ⟨statements, -, hsections⟩ := Option.bind_eq_some_iff.1 h
  exact Entries.Distinct.ofSections hsections

end Findings.Toml
