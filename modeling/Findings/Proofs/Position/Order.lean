import Findings.Position
import Findings.Proofs.Utf8

/-!
# The order of positions

Positions are ordered by file name and line. File names can be compared in two ways that are easily
taken for one another, by the bytes of their UTF-8 and by their code points, and both come to the
same (`compare_encode`, `compare_codePoints`). The order is strict and total, and equal in it are
only equal positions, so a list of positions can be sorted in one way (`Position.eq_sorted_iff`).

Route. Comparisons that agree on what comes first agree (`compare_eq_of_lt_iff`), and lists are
compared as they are ordered (`compare_list_eq_lt_iff`), so that the order of texts and of their
bytes (`Utf8.encode_lt_encode_iff`) is what is left.
-/

set_option autoImplicit false

namespace Findings

/-! ## Comparing texts -/

section
variable {α β : Type} [Ord α] [Ord β]

theorem compare_eq_of_lt_iff [Std.OrientedOrd α] [Std.OrientedOrd β] {a b : α} {x y : β}
    (h : compare a b = .lt ↔ compare x y = .lt) (h' : compare b a = .lt ↔ compare y x = .lt) :
    compare a b = compare x y := by
  rw [← Std.OrientedCmp.gt_iff_lt, ← Std.OrientedCmp.gt_iff_lt] at h'
  cases hab : compare a b <;> cases hxy : compare x y <;> simp_all

theorem compare_list_eq_lt_iff [LT α] [Std.LawfulEqOrd α]
    (h : ∀ a b : α, compare a b = .lt ↔ a < b) (l l' : List α) :
    compare l l' = .lt ↔ l < l' := by
  induction l generalizing l' with
  | nil => cases l' <;> simp
  | cons a l ih =>
    cases l' with
    | nil => simp
    | cons b l' =>
      rw [List.compare_cons_cons, Ordering.then_eq_lt, List.cons_lt_cons_iff, h, ih,
        Std.LawfulEqOrd.compare_eq_iff_eq]

theorem compare_map {f : α → β} (h : ∀ a b, compare (f a) (f b) = compare a b) (l l' : List α) :
    compare (l.map f) (l'.map f) = compare l l' := by
  induction l generalizing l' with
  | nil => cases l' <;> rfl
  | cons a l ih =>
    cases l' with
    | nil => rfl
    | cons b l' =>
      rw [List.map_cons, List.map_cons, List.compare_cons_cons, List.compare_cons_cons, h, ih]

end

theorem compare_char_eq_lt_iff (c d : Char) : compare c d = .lt ↔ c < d := compareOfLessAndEq_eq_lt

theorem compare_string_eq_lt_iff (s t : String) : compare s t = .lt ↔ s < t :=
  compareOfLessAndEq_eq_lt

theorem compare_toNat (c d : Char) : compare c.toNat d.toNat = compare c d := by
  have hlt (c d : Char) : compare c.toNat d.toNat = .lt ↔ compare c d = .lt := by
    rw [Nat.compare_eq_lt, compare_char_eq_lt_iff]
    rfl
  exact compare_eq_of_lt_iff (hlt c d) (hlt d c)

/-- Texts are compared as their bytes are. -/
theorem compare_encode (s t : String) :
    compare (Utf8.encode s) (Utf8.encode t) = compare s t := by
  have hbyte (a b : UInt8) : compare a b = .lt ↔ a < b := Std.compare_eq_lt
  have hlt (s t : String) :
      compare (Utf8.encode s) (Utf8.encode t) = .lt ↔ compare s t = .lt := by
    rw [compare_list_eq_lt_iff hbyte, Utf8.compare_eq_lt_iff]
  exact compare_eq_of_lt_iff (hlt s t) (hlt t s)

/-- Texts are compared as the numbers of their characters are. -/
theorem compare_codePoints (s t : String) :
    compare (s.toList.map Char.toNat) (t.toList.map Char.toNat) = compare s t := by
  have hlt (s t : String) : compare s.toList t.toList = .lt ↔ compare s t = .lt := by
    rw [compare_list_eq_lt_iff compare_char_eq_lt_iff, compare_string_eq_lt_iff]
    rfl
  rw [compare_map compare_toNat]
  exact compare_eq_of_lt_iff (hlt s t) (hlt t s)

namespace Position

/-! ## Comparing positions -/

/-- By the bytes of the file name, and then by the number of the line. -/
def byBytes (p q : Position) : Ordering :=
  (compare (Utf8.encode p.filename) (Utf8.encode q.filename)).then
    (compare p.line.toNat q.line.toNat)

/-- By the code points of the file name, and then by the number of the line. -/
def byCodePoints (p q : Position) : Ordering :=
  (compare (p.filename.toList.map Char.toNat) (q.filename.toList.map Char.toNat)).then
    (compare p.line.toNat q.line.toNat)

/-- The position stands before the other one. -/
def Before (p q : Position) : Prop := compare p q = .lt

/-- No position stands behind a later one, and only equal ones stand for each other. -/
def Ascending (l : List Position) : Prop :=
  l.Pairwise fun p q => p.Before q ∨ p.filename = q.filename ∧ p.line = q.line

/-- The positions in their order, equal ones as they come. -/
def sorted (l : List Position) : List Position := l.mergeSort fun p q => (compare p q).isLE

variable {p q r : Position} {l l' : List Position}

theorem compare_eq (p q : Position) :
    compare p q = (compare p.filename q.filename).then (compare p.line q.line) := rfl

theorem compare_line (m n : UInt32) : compare m.toNat n.toNat = compare m n := by
  have hlt (m n : UInt32) : compare m.toNat n.toNat = .lt ↔ compare m n = .lt := by
    rw [Nat.compare_eq_lt, Std.compare_eq_lt, UInt32.lt_iff_toNat_lt]
  exact compare_eq_of_lt_iff (hlt m n) (hlt n m)

theorem byBytes_eq (p q : Position) : byBytes p q = compare p q := by
  rw [byBytes, compare_encode, compare_line, compare_eq]

theorem byCodePoints_eq (p q : Position) : byCodePoints p q = compare p q := by
  rw [byCodePoints, compare_codePoints, compare_line, compare_eq]

theorem isLE_iff : (compare p q).isLE = true ↔
    p.Before q ∨ p.filename = q.filename ∧ p.line = q.line := by
  rw [Ordering.isLE_iff_eq_lt_or_eq_eq, Std.LawfulEqOrd.compare_eq_iff_eq, Position.mk.injEq]
  rfl

theorem trichotomy (p q : Position) :
    p.Before q ∧ p ≠ q ∧ ¬ q.Before p ∨ ¬ p.Before q ∧ p = q ∧ ¬ q.Before p ∨
      ¬ p.Before q ∧ p ≠ q ∧ q.Before p := by
  have hswap : compare q p = (compare p q).swap := Std.OrientedCmp.eq_swap
  have heq : compare p q = .eq ↔ p = q := Std.LawfulEqOrd.compare_eq_iff_eq
  simp only [Before, ne_eq, hswap, ← heq]
  cases compare p q with
  | lt => simp
  | eq => simp
  | gt => simp

/-! ## Sorting -/

theorem ascending_iff : Ascending l ↔ l.Pairwise fun p q => (compare p q).isLE = true := by
  simp only [Ascending, isLE_iff]

theorem ascending_sorted (l : List Position) : Ascending (sorted l) := by
  rw [ascending_iff]
  refine List.pairwise_mergeSort (fun p q r hpq hqr => ?_) (fun p q => ?_) l
  · exact Std.TransCmp.isLE_trans hpq hqr
  · have hswap : compare q p = (compare p q).swap := Std.OrientedCmp.eq_swap
    rw [hswap]
    cases compare p q <;> rfl

theorem Ascending.eq_of_perm (h : Ascending l) (h' : Ascending l') (hperm : l.Perm l') :
    l = l' := by
  rw [ascending_iff] at h h'
  refine hperm.eq_of_pairwise (fun p q _ _ hpq hqp => ?_) h h'
  exact Std.LawfulEqOrd.compare_eq_iff_eq.1 (Std.OrientedCmp.isLE_antisymm hpq hqp)

/-- **There is one way to sort.** -/
theorem eq_sorted_iff : l' = sorted l ↔ l'.Perm l ∧ Ascending l' := by
  have hperm : (sorted l).Perm l := List.mergeSort_perm l _
  constructor
  · rintro rfl
    exact ⟨hperm, ascending_sorted l⟩
  · rintro ⟨hperm', h⟩
    exact h.eq_of_perm (ascending_sorted l) (hperm'.trans hperm.symm)

/-- **Positions are totally ordered**, by the bytes of their file names as by the code points, and
then by line. Those with the same file name and line are equal, of two others exactly one stands
before the other, and the order is transitive. A list of positions has one arrangement in which it
ascends, and to this it is sorted. -/
theorem totally_ordered (p q r : Position) (l l' : List Position) :
    compare p q = byBytes p q ∧ byBytes p q = byCodePoints p q ∧
      (compare p q = .eq ↔ p.filename = q.filename ∧ p.line = q.line) ∧
      (p.Before q ∧ p ≠ q ∧ ¬ q.Before p ∨ ¬ p.Before q ∧ p = q ∧ ¬ q.Before p ∨
        ¬ p.Before q ∧ p ≠ q ∧ q.Before p) ∧
      (p.Before q → q.Before r → p.Before r) ∧
      (l' = sorted l ↔ l'.Perm l ∧ Ascending l') := by
  refine ⟨(byBytes_eq p q).symm, ?_, ?_, trichotomy p q, ?_, eq_sorted_iff⟩
  · rw [byBytes_eq, byCodePoints_eq]
  · rw [Std.LawfulEqOrd.compare_eq_iff_eq, Position.mk.injEq]
  · intro hpq hqr
    exact Std.TransCmp.lt_trans hpq hqr

/-- Lines are compared as numbers, and a character of three bytes comes before one of four. -/
example : compare (⟨"a.go", 3⟩ : Position) ⟨"a.go", 20⟩ = .lt ∧
    compare (⟨"\uFFFD.go", 20⟩ : Position) ⟨"𐀀.go", 3⟩ = .lt := by decide

end Position

end Findings
