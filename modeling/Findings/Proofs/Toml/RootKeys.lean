import Findings.Proofs.Toml.Table
import Mathlib.Data.List.Induction

/-!
# The keys of the root table

Under which key the root table has a name is said by the statements about the root table alone
(`place?`): under the key of the name's own header if it has one, else under that of the first
statement about it. A table that was only made by headers of tables inside it is taken out at its
own header and put behind the others, with the key of that header.

Route. A pair or a header does to the keys what `placeKey` says (`Entries.keys_add`,
`Entries.keys_header`), so the keys of a text come from its statements by a fold
(`Entries.keys_ofSections`), and those of the fold are at their places (`mem_foldl_placeKey_iff`).
-/

set_option autoImplicit false

namespace Findings.Toml

/-! ## Statements about the root table -/

/-- The key of the root table that a pair is about. -/
def Pair.rootKey (p : Pair) : Key := p.path.headD p.key

/-- The key of the root table that a header is about. -/
def Header.rootKey (h : Header) : Key := h.path.headD h.key

namespace Statement

def rootKey : Statement → Key
  | .pair p => p.rootKey
  | .header h => h.rootKey

def isHeader : Statement → Bool
  | .pair _ => false
  | .header _ => true

/-- Whether a statement is the header, in single brackets, of a table in the root table. -/
def isOwnHeader : Statement → Bool
  | .pair _ => false
  | .header h => !h.isArray && h.path.isEmpty

end Statement

/-- The statements about the root table: the pairs before the first header, and all headers. -/
def ofRoot (l : List Statement) : List Statement :=
  l.takeWhile (!·.isHeader) ++ l.filter Statement.isHeader

/-- The key under which statements place a name: that of its own header if it has one, else that of
the first statement about it. -/
def place? (l : List Statement) (name : String) : Option Key :=
  ((l.filter fun s => s.isOwnHeader && s.rootKey.name == name).getLast?.or
    (l.find? (·.rootKey.name == name))).map Statement.rootKey

/-- The keys after one more is mentioned. -/
def mention (keys : List Key) (k : Key) : List Key :=
  if k.name ∈ keys.map (·.name) then keys else keys ++ [k]

/-- The keys of the root table after a statement. -/
def placeKey (keys : List Key) (s : Statement) : List Key :=
  if s.isOwnHeader then keys.filter (·.name ≠ s.rootKey.name) ++ [s.rootKey]
  else mention keys s.rootKey

theorem ofRoot_eq_sections (l : List Statement) :
    ofRoot l = (sections l).1.map .pair ++ (sections l).2.map fun t => .header t.1 := by
  have hheaders (l : List Statement) :
      l.filter Statement.isHeader = (sections l).2.map fun t => .header t.1 := by
    induction l with
    | nil => rfl
    | cons s l ih =>
      cases s with
      | pair p => exact ih
      | header h => exact congrArg _ ih
  rw [ofRoot, hheaders]
  refine congrArg (· ++ _) ?_
  induction l with
  | nil => rfl
  | cons s l ih =>
    cases s with
    | pair p => exact congrArg _ ih
    | header h => rfl

theorem ofRoot_sublist (l : List Statement) : (ofRoot l).Sublist l := by
  induction l with
  | nil => exact .slnil
  | cons s l ih =>
    cases s with
    | pair p => exact ih.cons_cons _
    | header h => exact (List.filter_sublist (l := l)).cons_cons _

/-! ## What a statement does to the keys -/

namespace Entries

variable {entries entries' : Entries}

def keys (entries : Entries) : List Key := entries.map (·.1)

theorem keys_append (entries entries' : Entries) :
    keys (entries ++ entries') = entries.keys ++ entries'.keys := List.map_append

theorem keys_map {g : Key × Option Span × Value → Key × Option Span × Value}
    (hg : ∀ e, (g e).1 = e.1) (entries : Entries) : keys (entries.map g) = entries.keys := by
  rw [keys, List.map_map]
  exact List.map_congr_left fun e _ => hg e

theorem keys_setValue (entries : Entries) (name : String) (v : Value) :
    (entries.setValue name v).keys = entries.keys :=
  keys_map (fun e => by split <;> rfl) entries

theorem keys_without (entries : Entries) (name : String) :
    (entries.without name).keys = entries.keys.filter (·.name ≠ name) := by
  rw [keys, keys, Entries.without, List.filter_map]
  rfl

theorem map_name_keys (entries : Entries) : entries.keys.map (·.name) = entries.names := by
  rw [keys, names, List.map_map]
  rfl

theorem mention_of_new {k : Key} (h : entries.value? k.name = none) :
    mention entries.keys k = entries.keys ++ [k] := by
  rw [mention, map_name_keys, if_neg (value?_eq_none_iff.1 h)]

theorem mention_of_known {k : Key} {v : Value} (h : entries.value? k.name = some v) :
    mention entries.keys k = entries.keys := by
  have hmem : k.name ∈ entries.names := by
    by_contra hnew
    rw [value?_eq_none_iff.2 hnew] at h
    cases h
  rw [mention, map_name_keys, if_pos hmem]

/-- A change further inside mentions the first key of its path. -/
theorem keys_change_cons {walk : Walk} {f : TableKind → Entries → Option Entries} {k : Key}
    {path : List Key} {kind : TableKind}
    (h : change walk f (k :: path) kind entries = some entries') :
    entries'.keys = mention entries.keys k := by
  rw [Entries.change] at h
  split at h
  next hnew =>
    obtain ⟨inner, -, hadded⟩ := Option.bind_eq_some_iff.1 h
    cases hadded
    rw [mention_of_new hnew, keys_append]
    rfl
  next hknown =>
    split at h
    · obtain ⟨inner, -, hchanged⟩ := Option.bind_eq_some_iff.1 h
      cases hchanged
      rw [mention_of_known hknown, keys_setValue]
    · cases h
  next hknown =>
    obtain ⟨inner, -, hchanged⟩ := Option.bind_eq_some_iff.1 h
    cases hchanged
    rw [mention_of_known hknown, keys_setValue]
  next => cases h

theorem keys_add {p : Pair} (h : entries.add p = some entries') :
    entries'.keys = placeKey entries.keys (.pair p) := by
  show _ = mention entries.keys p.rootKey
  rw [Entries.add] at h
  unfold Pair.rootKey
  cases hpath : p.path with
  | nil =>
    rw [hpath, Entries.change] at h
    split at h
    · cases h
    split at h
    · cases h
    next hnew =>
      cases h
      rw [List.headD_nil, mention_of_new (Option.not_isSome_iff_eq_none.1 hnew), keys_append]
      rfl
  | cons k path =>
    rw [hpath] at h
    exact keys_change_cons h

/-- A table that is there already gets its place anew, tables of an array keep it. -/
theorem keys_addTable {header : Header} {pairs : List Pair}
    (h : addTable header pairs entries = some entries') :
    entries'.keys =
      if header.isArray then mention entries.keys header.key
      else entries.keys.filter (·.name ≠ header.key.name) ++ [header.key] := by
  rw [Entries.addTable] at h
  split at h
  next hnew =>
    obtain ⟨inner, -, hadded⟩ := Option.bind_eq_some_iff.1 h
    cases hadded
    have hfilter : entries.keys.filter (·.name ≠ header.key.name) = entries.keys := by
      refine List.filter_eq_self.2 fun k hk => ?_
      have hnames := value?_eq_none_iff.1 hnew
      rw [← map_name_keys] at hnames
      exact decide_eq_true fun hname => hnames (hname ▸ List.mem_map_of_mem hk)
    rw [hfilter, mention_of_new hnew, ite_self, keys_append]
    rfl
  next =>
    split at h
    · cases h
    next harray =>
      obtain ⟨inner, -, hadded⟩ := Option.bind_eq_some_iff.1 h
      cases hadded
      rw [if_neg harray, keys_append, keys_without]
      rfl
  next hknown =>
    split at h
    next harray =>
      obtain ⟨inner, -, hadded⟩ := Option.bind_eq_some_iff.1 h
      cases hadded
      rw [if_pos harray, mention_of_known hknown, keys_map fun e => by split <;> rfl]
    · cases h
  next => cases h

theorem keys_header {header : Header} {pairs : List Pair}
    (h : change .header (fun _ => addTable header pairs) header.path .header entries =
      some entries') : entries'.keys = placeKey entries.keys (.header header) := by
  rw [placeKey, Statement.isOwnHeader, Statement.rootKey, Header.rootKey]
  cases hpath : header.path with
  | nil =>
    rw [hpath, Entries.change] at h
    rw [keys_addTable h]
    cases header.isArray <;> rfl
  | cons k path =>
    rw [hpath] at h
    rw [keys_change_cons h]
    cases header.isArray <;> rfl

/-- The keys after a loop whose steps do to them what statements do. -/
theorem keys_foldlM {α : Type} {f : Entries → α → Option Entries} {g : α → Statement} {l : List α}
    (hf : ∀ es es' x, f es x = some es' → es'.keys = placeKey es.keys (g x))
    (h : l.foldlM f entries = some entries') :
    entries'.keys = (l.map g).foldl placeKey entries.keys := by
  induction l generalizing entries with
  | nil =>
    cases h
    rfl
  | cons x l ih =>
    rw [List.foldlM_cons] at h
    obtain ⟨es, hx, hrest⟩ := Option.bind_eq_some_iff.1 h
    rw [ih hrest, hf entries es x hx]
    rfl

theorem keys_ofSections {l : List Statement} (h : ofSections (sections l) = some entries) :
    entries.keys = (ofRoot l).foldl placeKey [] := by
  obtain ⟨root, hroot, htables⟩ := Option.bind_eq_some_iff.1 h
  have hpairs : root.keys = ((sections l).1.map .pair).foldl placeKey [] :=
    keys_foldlM (fun _ _ _ hadd => keys_add hadd) hroot
  rw [ofRoot_eq_sections, List.foldl_append, ← hpairs]
  exact keys_foldlM (g := fun t : Header × List Pair => .header t.1)
    (fun _ _ _ hchange => keys_header hchange) htables

end Entries

/-! ## Places -/

section
variable {l : List Statement} {s : Statement} {k : Key}

theorem placeKey_sublist (keys : List Key) (s : Statement) :
    (placeKey keys s).Sublist (keys ++ [s.rootKey]) := by
  unfold placeKey mention
  split
  · exact List.filter_sublist.append (List.Sublist.refl _)
  split
  · exact List.sublist_append_left _ _
  · exact List.Sublist.refl _

theorem foldl_placeKey_sublist (l : List Statement) :
    (l.foldl placeKey []).Sublist (l.map Statement.rootKey) := by
  induction l using List.reverseRecOn with
  | nil => exact .slnil
  | append_singleton l s ih =>
    rw [List.foldl_append, List.map_append]
    exact (placeKey_sublist _ s).trans (ih.append (List.Sublist.refl _))

theorem name_of_place? {name : String} (h : place? l name = some k) : k.name = name := by
  obtain ⟨s, hs, rfl⟩ := Option.map_eq_some_iff.1 h
  rcases Option.or_eq_some_iff.1 hs with hs | ⟨-, hs⟩
  · have hmem := (List.mem_filter.1 (List.mem_of_getLast? hs)).2
    rw [Bool.and_eq_true, beq_iff_eq] at hmem
    exact hmem.2
  · have hname := List.find?_some hs
    exact beq_iff_eq.1 hname

/-- One more statement. -/
theorem place?_concat (l : List Statement) (s : Statement) (name : String) :
    place? (l ++ [s]) name =
      if s.isOwnHeader && s.rootKey.name == name then some s.rootKey
      else (place? l name).or (if s.rootKey.name == name then some s.rootKey else none) := by
  unfold place?
  rw [List.filter_append, List.find?_append]
  split
  next h => simp [h]
  next h =>
    rw [List.filter_cons_of_neg (by simpa using h), List.filter_nil, List.append_nil,
      ← Option.or_assoc, Option.map_or]
    refine congrArg _ ?_
    rw [List.find?_singleton]
    split <;> rfl

theorem mem_mention_iff {keys : List Key} {k' : Key} :
    k ∈ mention keys k' ↔ k ∈ keys ∨ k = k' ∧ k'.name ∉ keys.map (·.name) := by
  unfold mention
  split
  next h => simp only [h, not_true_eq_false, and_false, or_false]
  next h => simp only [h, not_false_eq_true, and_true, List.mem_append, List.mem_singleton]

/-- **A statement keeps the keys at their places.** -/
theorem mem_placeKey_iff {keys : List Key} (h : ∀ k, k ∈ keys ↔ place? l k.name = some k) :
    k ∈ placeKey keys s ↔ place? (l ++ [s]) k.name = some k := by
  have hnames {name : String} : name ∈ keys.map (·.name) ↔ ∃ k', place? l name = some k' := by
    constructor
    · intro hname
      obtain ⟨k', hk', rfl⟩ := List.mem_map.1 hname
      exact ⟨k', (h k').1 hk'⟩
    · rintro ⟨k', hk'⟩
      obtain rfl := name_of_place? hk'
      exact List.mem_map_of_mem ((h k').2 hk')
  rw [place?_concat]
  unfold placeKey
  by_cases hname : s.rootKey.name = k.name
  · cases hown : s.isOwnHeader with
    | true => simp [hname, eq_comm]
    | false =>
      rw [if_neg Bool.false_ne_true, mem_mention_iff, h, hname, hnames]
      cases place? l k.name <;> simp [eq_comm]
  · have hne : k ≠ s.rootKey := by
      rintro rfl
      exact hname rfl
    cases hown : s.isOwnHeader with
    | true => simp [hname, hne, h, Ne.symm hname]
    | false => simp [hname, hne, h, mem_mention_iff]

theorem mem_foldl_placeKey_iff : k ∈ l.foldl placeKey [] ↔ place? l k.name = some k := by
  induction l using List.reverseRecOn generalizing k with
  | nil => simp [place?]
  | append_singleton l s ih =>
    rw [List.foldl_append]
    exact mem_placeKey_iff fun _ => ih

end

/-- **The keys of a root table stand at their places.** -/
theorem mem_keys_iff {text : List Char} {l : List Statement} {entries : Entries} {k : Key}
    (hl : statements text = some l) (h : parse text = some entries) :
    k ∈ entries.keys ↔ place? (ofRoot l) k.name = some k := by
  rw [parse, hl] at h
  rw [Entries.keys_ofSections h, mem_foldl_placeKey_iff]

end Findings.Toml
