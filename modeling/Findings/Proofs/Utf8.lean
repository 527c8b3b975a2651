import Findings.Text.Utf8

/-!
# Reading and ordering UTF-8

`CharBytes c l` is the table of UTF-8: the one to four bytes `l` of a character `c`, by value. Both
the encoding of the core library and `Utf8.next` follow it, so `next` reads what is encoded
(`next_utf8EncodeChar`) and nothing else (`eq_of_next`), and

* `decode?_eq_some_iff`: `decode?` accepts just the encoded texts,
* `encode_lt_encode_iff`: texts are ordered by code points as their bytes are.
-/

set_option autoImplicit false

namespace Findings.Utf8

/-! ## The bytes of a character -/

/-- The bytes of a character, by number of bytes. -/
inductive CharBytes (c : Char) : List UInt8 → Prop
  | one {b : UInt8} (h : c.toNat < 0x80) (hb : b.toNat = c.toNat) : CharBytes c [b]
  | two {b b₁ : UInt8} (h : 0x80 ≤ c.toNat ∧ c.toNat < 0x800)
      (hb : b.toNat = 0xC0 + c.toNat / 64) (hb₁ : b₁.toNat = 0x80 + c.toNat % 64) :
      CharBytes c [b, b₁]
  | three {b b₁ b₂ : UInt8} (h : 0x800 ≤ c.toNat ∧ c.toNat < 0x10000)
      (hb : b.toNat = 0xE0 + c.toNat / 4096) (hb₁ : b₁.toNat = 0x80 + c.toNat / 64 % 64)
      (hb₂ : b₂.toNat = 0x80 + c.toNat % 64) : CharBytes c [b, b₁, b₂]
  | four {b b₁ b₂ b₃ : UInt8} (h : 0x10000 ≤ c.toNat)
      (hb : b.toNat = 0xF0 + c.toNat / 262144) (hb₁ : b₁.toNat = 0x80 + c.toNat / 4096 % 64)
      (hb₂ : b₂.toNat = 0x80 + c.toNat / 64 % 64) (hb₃ : b₃.toNat = 0x80 + c.toNat % 64) :
      CharBytes c [b, b₁, b₂, b₃]

theorem toNat_bounds (c : Char) :
    c.toNat < 0xD800 ∨ 0xDFFF < c.toNat ∧ c.toNat < 0x110000 := c.valid

theorem toNat_ofNat_of_lt {n : Nat} (h : n < 256) : (UInt8.ofNat n).toNat = n := by
  rw [UInt8.toNat_ofNat']
  omega

theorem charBytes_utf8EncodeChar (c : Char) : CharBytes c (String.utf8EncodeChar c) := by
  have hv := toNat_bounds c
  have hc : c.val.toNat = c.toNat := rfl
  fun_cases String.utf8EncodeChar c with
  | case1 v h => exact .one (by omega) (toNat_ofNat_of_lt (by omega))
  | case2 v h h₁ =>
    refine .two (by omega) ?_ ?_ <;> rw [toNat_ofNat_of_lt (by omega)] <;> omega
  | case3 v h h₁ h₂ =>
    refine .three (by omega) ?_ ?_ ?_ <;> rw [toNat_ofNat_of_lt (by omega)] <;> omega
  | case4 v h h₁ h₂ =>
    refine .four (by omega) ?_ ?_ ?_ ?_ <;> rw [toNat_ofNat_of_lt (by omega)] <;> omega

/-- The bytes of smaller characters are smaller, whatever follows. -/
theorem CharBytes.append_lt {c d : Char} {l l' : List UInt8} (hc : CharBytes c l)
    (hd : CharBytes d l') (h : c.toNat < d.toNat) (x y : List UInt8) : l ++ x < l' ++ y := by
  have hv := toNat_bounds c
  have hv' := toNat_bounds d
  cases hc <;> cases hd <;>
    simp only [List.cons_append, List.nil_append, List.cons_lt_cons_iff, UInt8.lt_iff_toNat_lt,
      ← UInt8.toNat_inj] <;>
    omega

theorem CharBytes.eq {c : Char} {l l' : List UInt8} (h : CharBytes c l) (h' : CharBytes c l') :
    l = l' := by
  cases h <;> cases h' <;> first
    | omega
    | simp only [List.cons.injEq, ← UInt8.toNat_inj, and_true, *]

/-! ## Reading a character -/

section
variable {lo hi lead b : UInt8}

theorem between_iff :
    (decide (lo ≤ b) && decide (b ≤ hi)) = true ↔ lo.toNat ≤ b.toNat ∧ b.toNat ≤ hi.toNat := by
  simp only [Bool.and_eq_true, decide_eq_true_eq, UInt8.le_iff_toNat_le]

theorem isAscii_iff : b < 0x80 ↔ b.toNat < 0x80 := UInt8.lt_iff_toNat_lt

theorem leadsTwo_iff : (0xC2 ≤ b && b ≤ 0xDF) = true ↔ 0xC2 ≤ b.toNat ∧ b.toNat ≤ 0xDF :=
  between_iff

theorem leadsThree_iff : (0xE0 ≤ b && b ≤ 0xEF) = true ↔ 0xE0 ≤ b.toNat ∧ b.toNat ≤ 0xEF :=
  between_iff

theorem leadsFour_iff : (0xF0 ≤ b && b ≤ 0xF4) = true ↔ 0xF0 ≤ b.toNat ∧ b.toNat ≤ 0xF4 :=
  between_iff

theorem isContinuation_iff :
    isContinuation b = true ↔ 0x80 ≤ b.toNat ∧ b.toNat ≤ 0xBF := between_iff

theorem isSecondOfThree_iff :
    isSecondOfThree lead b = true ↔ 0x80 ≤ b.toNat ∧ b.toNat ≤ 0xBF ∧
      (lead.toNat = 0xE0 → 0xA0 ≤ b.toNat) ∧ (lead.toNat = 0xED → b.toNat ≤ 0x9F) := by
  have h₁ : lead = 0xE0 ↔ lead.toNat = 0xE0 := UInt8.toNat_inj.symm
  have h₂ : lead = 0xED ↔ lead.toNat = 0xED := UInt8.toNat_inj.symm
  unfold isSecondOfThree
  split <;> rename_i h <;> rw [h₁] at h
  · rw [between_iff]
    simp
    omega
  · split <;> rename_i h' <;> rw [h₂] at h'
    · rw [between_iff]
      simp
      omega
    · rw [isContinuation_iff]
      omega

theorem isSecondOfFour_iff :
    isSecondOfFour lead b = true ↔ 0x80 ≤ b.toNat ∧ b.toNat ≤ 0xBF ∧
      (lead.toNat = 0xF0 → 0x90 ≤ b.toNat) ∧ (lead.toNat = 0xF4 → b.toNat ≤ 0x8F) := by
  have h₁ : lead = 0xF0 ↔ lead.toNat = 0xF0 := UInt8.toNat_inj.symm
  have h₂ : lead = 0xF4 ↔ lead.toNat = 0xF4 := UInt8.toNat_inj.symm
  unfold isSecondOfFour
  split <;> rename_i h <;> rw [h₁] at h
  · rw [between_iff]
    simp
    omega
  · split <;> rename_i h' <;> rw [h₂] at h'
    · rw [between_iff]
      simp
      omega
    · rw [isContinuation_iff]
      omega

end

/-- `next` reads a character's bytes. -/
theorem CharBytes.next_eq {c : Char} {b : UInt8} {l : List UInt8} (h : CharBytes c (b :: l))
    (rest : List UInt8) : next b (l ++ rest) = (some c, rest) := by
  have hv := toNat_bounds c
  rw [next.eq_def]
  simp only [isAscii_iff, leadsTwo_iff, leadsThree_iff, leadsFour_iff]
  cases h with
  | one h hb => rw [if_pos (by omega), hb, Char.ofNat_toNat, List.nil_append]
  | @two _ b₁ h hb hb₁ =>
    have hn : b.toNat % 32 * 64 + b₁.toNat % 64 = c.toNat := by omega
    have hc₁ : isContinuation b₁ = true := isContinuation_iff.2 (by omega)
    rw [if_neg (by omega), if_pos (by omega)]
    simp only [List.cons_append, List.nil_append, payload, hc₁, hn, if_true, Char.ofNat_toNat]
  | @three _ b₁ b₂ h hb hb₁ hb₂ =>
    have hn : (b.toNat % 16 * 64 + b₁.toNat % 64) * 64 + b₂.toNat % 64 = c.toNat := by omega
    have hc₁ : isSecondOfThree b b₁ = true := isSecondOfThree_iff.2 (by omega)
    have hc₂ : isContinuation b₂ = true := isContinuation_iff.2 (by omega)
    rw [if_neg (by omega), if_neg (by omega), if_pos (by omega)]
    simp only [List.cons_append, List.nil_append, payload, hc₁, hc₂, hn, if_true,
      Char.ofNat_toNat]
  | @four _ b₁ b₂ b₃ h hb hb₁ hb₂ hb₃ =>
    have hn : ((b.toNat % 8 * 64 + b₁.toNat % 64) * 64 + b₂.toNat % 64) * 64 + b₃.toNat % 64 =
        c.toNat := by omega
    have hc₁ : isSecondOfFour b b₁ = true := isSecondOfFour_iff.2 (by omega)
    have hc₂ : isContinuation b₂ = true := isContinuation_iff.2 (by omega)
    have hc₃ : isContinuation b₃ = true := isContinuation_iff.2 (by omega)
    rw [if_neg (by omega), if_neg (by omega), if_neg (by omega), if_pos (by omega)]
    simp only [List.cons_append, List.nil_append, payload, hc₁, hc₂, hc₃, hn, if_true,
      Char.ofNat_toNat]

theorem toNat_ofNat_of_bounds {n : Nat} (h : n < 0xD800 ∨ 0xDFFF < n ∧ n < 0x110000) :
    (Char.ofNat n).toNat = n := by
  rw [Char.ofNat, dif_pos h]
  rfl

/-- What `next` reads as a character are its bytes. -/
theorem charBytes_of_next {c : Char} {b : UInt8} {rest r : List UInt8}
    (h : next b rest = (some c, r)) : ∃ l, CharBytes c (b :: l) ∧ rest = l ++ r := by
  revert h
  -- a refusal is no character; the four cases left read one to four bytes
  fun_cases next b rest <;> intro h <;> try cases h
  · rename_i hb
    rw [isAscii_iff] at hb
    have hn := toNat_ofNat_of_bounds (n := b.toNat) (by omega)
    exact ⟨[], .one (by omega) hn.symm, rfl⟩
  · rename_i hb hb₂ b₁ hc₁
    rw [leadsTwo_iff] at hb₂
    rw [isContinuation_iff] at hc₁
    have hn := toNat_ofNat_of_bounds (n := b.toNat % 32 * 64 + payload b₁)
      (by rw [payload]; omega)
    rw [payload] at *
    exact ⟨[b₁], .two (by omega) (by omega) (by omega), rfl⟩
  · rename_i hb hb₂ hb₃ b₁ hc₁ b₂ hc₂
    rw [leadsThree_iff] at hb₃
    rw [isSecondOfThree_iff] at hc₁
    rw [isContinuation_iff] at hc₂
    have hn := toNat_ofNat_of_bounds (n := (b.toNat % 16 * 64 + payload b₁) * 64 + payload b₂)
      (by rw [payload, payload]; omega)
    rw [payload, payload] at *
    exact ⟨[b₁, b₂], .three (by omega) (by omega) (by omega) (by omega), rfl⟩
  · rename_i hb hb₂ hb₃ hb₄ b₁ hc₁ b₂ hc₂ b₃ hc₃
    rw [leadsFour_iff] at hb₄
    rw [isSecondOfFour_iff] at hc₁
    rw [isContinuation_iff] at hc₂ hc₃
    have hn := toNat_ofNat_of_bounds
      (n := ((b.toNat % 8 * 64 + payload b₁) * 64 + payload b₂) * 64 + payload b₃)
      (by rw [payload, payload, payload]; omega)
    rw [payload, payload, payload] at *
    exact ⟨[b₁, b₂, b₃], .four (by omega) (by omega) (by omega) (by omega) (by omega), rfl⟩

theorem next_utf8EncodeChar (c : Char) (rest : List UInt8) :
    ∃ b r, String.utf8EncodeChar c ++ rest = b :: r ∧ next b r = (some c, rest) := by
  have hc := charBytes_utf8EncodeChar c
  cases hl : String.utf8EncodeChar c with
  | nil => exact absurd hl String.utf8EncodeChar_ne_nil
  | cons b l => exact ⟨b, l ++ rest, rfl, (hl ▸ hc).next_eq rest⟩

theorem eq_of_next {c : Char} {b : UInt8} {rest r : List UInt8} (h : next b rest = (some c, r)) :
    b :: rest = String.utf8EncodeChar c ++ r := by
  obtain ⟨l, hl, rfl⟩ := charBytes_of_next h
  rw [(charBytes_utf8EncodeChar c).eq hl]
  rfl

/-! ## Reading a text -/

/-- Bytes have what holds of no bytes and of those behind whose first unit it holds. -/
@[elab_as_elim] theorem unit_induction {motive : List UInt8 → Prop} (nil : motive [])
    (unit : ∀ b rest, motive (next b rest).2 → motive (b :: rest)) (l : List UInt8) :
    motive l := by
  induction l using (measure List.length).wf.induction with
  | h l ih =>
    cases l with
    | nil => exact nil
    | cons b rest => exact unit b rest (ih _ (Nat.lt_succ_of_le (next_length_le b rest)))

theorem units_nil : units [] = [] := by simp [units, units.go]

theorem units_go (acc : List (Option Char)) (l : List UInt8) :
    units.go acc l = acc.reverse ++ units l := by
  induction l using unit_induction generalizing acc with
  | nil => simp [units, units.go]
  | unit b rest ih =>
    rw [units, units.go, ih, units.go, ih]
    simp

theorem units_cons (b : UInt8) (rest : List UInt8) :
    units (b :: rest) = (next b rest).1 :: units (next b rest).2 := by
  rw [units, units.go, units_go]
  rfl

theorem units_utf8EncodeChar_append (c : Char) (rest : List UInt8) :
    units (String.utf8EncodeChar c ++ rest) = some c :: units rest := by
  obtain ⟨b, r, hl, hn⟩ := next_utf8EncodeChar c rest
  rw [hl, units_cons, hn]

theorem mapM_units_eq_some_iff {l : List UInt8} {cs : List Char} :
    (units l).mapM id = some cs ↔ l = cs.flatMap String.utf8EncodeChar := by
  constructor
  · intro h
    induction l using unit_induction generalizing cs with
    | nil =>
      rw [units_nil, List.mapM_nil] at h
      cases h
      rfl
    | unit b rest ih =>
      rw [units_cons] at h
      simp only [List.mapM_cons, id, Option.bind_eq_bind, Option.bind_eq_some_iff,
        Option.pure_def, Option.some.injEq] at h
      obtain ⟨c, hc, cs', hcs', rfl⟩ := h
      rw [List.flatMap_cons, ← ih hcs']
      exact eq_of_next (Prod.ext hc rfl)
  · rintro rfl
    induction cs with
    | nil => rw [List.flatMap_nil, units_nil, List.mapM_nil]; rfl
    | cons c cs ih =>
      rw [List.flatMap_cons, units_utf8EncodeChar_append, List.mapM_cons, ih]
      rfl

/-- **Well-formed bytes are the encoded texts.** -/
theorem decode?_eq_some_iff {l : List UInt8} {t : String} :
    decode? l = some t ↔ l = encode t := by
  simp only [decode?, Option.map_eq_some_iff, mapM_units_eq_some_iff, encode]
  constructor
  · rintro ⟨cs, rfl, rfl⟩
    rw [String.toList_ofList]
  · rintro rfl
    exact ⟨t.toList, rfl, String.ofList_toList⟩

/-! ## Order -/

theorem flatMap_utf8EncodeChar_lt {cs ds : List Char} (h : cs < ds) :
    cs.flatMap String.utf8EncodeChar < ds.flatMap String.utf8EncodeChar := by
  induction h with
  | @nil d ds =>
    obtain ⟨b, r, hl, -⟩ := next_utf8EncodeChar d (ds.flatMap String.utf8EncodeChar)
    rw [List.flatMap_cons, hl]
    exact List.nil_lt_cons b r
  | @rel c cs d ds h =>
    exact (charBytes_utf8EncodeChar c).append_lt (charBytes_utf8EncodeChar d) h _ _
  | cons h ih =>
    rw [List.flatMap_cons, List.flatMap_cons]
    exact List.append_left_lt ih

/-- **Texts are ordered as their bytes are.** -/
theorem encode_lt_encode_iff {s t : String} : encode s < encode t ↔ s < t := by
  refine ⟨fun h => Decidable.byContradiction fun hn => ?_, fun h => flatMap_utf8EncodeChar_lt h⟩
  rcases List.le_iff_lt_or_eq.1 (List.not_lt.1 hn) with hlt | heq
  · exact List.lt_asymm h (flatMap_utf8EncodeChar_lt hlt)
  · rw [encode, encode, heq] at h
    exact List.lt_irrefl _ h

theorem compare_eq_lt_iff {s t : String} : compare s t = .lt ↔ encode s < encode t := by
  rw [encode_lt_encode_iff]
  exact compareOfLessAndEq_eq_lt

end Findings.Utf8
