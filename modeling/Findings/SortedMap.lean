/-!
# Maps kept in key order

`SortedMap κ ν` is a list of entries whose keys strictly increase. The order is a field of the
type, so a map has one representation: two maps with the same entries are equal, and whatever
walks a map meets its keys in ascending order.
-/

set_option autoImplicit false

namespace Findings

/-- A finite map, as its entries in ascending key order. -/
@[ext] structure SortedMap (κ ν : Type) [Ord κ] where
  toList : List (κ × ν)
  ordered : toList.Pairwise fun a b => compare a.1 b.1 = .lt
deriving DecidableEq

namespace SortedMap

variable {κ ν : Type} [Ord κ]

/-- Puts `v` at `k`, in place of the value already there. -/
def insertEntry (k : κ) (v : ν) : List (κ × ν) → List (κ × ν)
  | [] => [(k, v)]
  | e :: rest =>
    match compare k e.1 with
    | .lt => (k, v) :: e :: rest
    | .eq => (k, v) :: rest
    | .gt => e :: insertEntry k v rest

theorem mem_insertEntry {k : κ} {v : ν} {e : κ × ν} {l : List (κ × ν)}
    (h : e ∈ insertEntry k v l) : e = (k, v) ∨ e ∈ l := by
  induction l with
  | nil => simpa [insertEntry] using h
  | cons x xs ih =>
    simp only [insertEntry] at h
    split at h <;> grind

theorem pairwise_insertEntry [Std.TransOrd κ] (k : κ) (v : ν) {l : List (κ × ν)}
    (h : l.Pairwise fun a b => compare a.1 b.1 = .lt) :
    (insertEntry k v l).Pairwise fun a b => compare a.1 b.1 = .lt := by
  induction l with
  | nil => simp [insertEntry]
  | cons x xs ih =>
    obtain ⟨hx, hxs⟩ := List.pairwise_cons.1 h
    simp only [insertEntry]
    split
    next hlt =>
      refine List.pairwise_cons.2 ⟨fun e he => ?_, h⟩
      rcases List.mem_cons.1 he with rfl | he
      · exact hlt
      · exact Std.TransCmp.lt_trans hlt (hx e he)
    next heq =>
      exact List.pairwise_cons.2 ⟨fun e he => Std.TransCmp.lt_of_eq_of_lt heq (hx e he), hxs⟩
    next hgt =>
      refine List.pairwise_cons.2 ⟨fun e he => ?_, ih hxs⟩
      rcases mem_insertEntry he with rfl | he
      · exact Std.OrientedCmp.gt_iff_lt.1 hgt
      · exact hx e he

def empty : SortedMap κ ν := ⟨[], .nil⟩

instance : EmptyCollection (SortedMap κ ν) := ⟨empty⟩

instance : Inhabited (SortedMap κ ν) := ⟨empty⟩

def size (m : SortedMap κ ν) : Nat := m.toList.length

def get? (m : SortedMap κ ν) (k : κ) : Option ν :=
  (m.toList.find? fun e => compare e.1 k == .eq).map (·.2)

@[simp] theorem toList_empty : (∅ : SortedMap κ ν).toList = [] := rfl

variable [Std.TransOrd κ]

/-- The map with `v` at `k`; what was at `k` before is replaced. -/
def insert (m : SortedMap κ ν) (k : κ) (v : ν) : SortedMap κ ν :=
  ⟨insertEntry k v m.toList, pairwise_insertEntry k v m.ordered⟩

/-- Inserts the entries from left to right, so the last one of a key stays. -/
def ofList (l : List (κ × ν)) : SortedMap κ ν :=
  l.foldl (fun m e => m.insert e.1 e.2) ∅

@[simp] theorem toList_insert (m : SortedMap κ ν) (k : κ) (v : ν) :
    (m.insert k v).toList = insertEntry k v m.toList := rfl

end SortedMap

end Findings
