import Findings.Proofs.Json.Containers
import Findings.Proofs.Position

/-!
# Reading printed numbers

`Json.number` reads the decimal digits of a number of 64 bits as that number, when nothing follows
that could go on with it (`number_digitBytes`). `anyValue` reads a value of any kind and says what
it is, by the readers that a payload is read with; of strings and printed numbers it gives back
what they say (`read_anyValue_string`, `read_anyValue_digitBytes`).
-/

set_option autoImplicit false

namespace Findings.Json

variable {s w rest : Bytes} {c : Char} {cs : List Char} {n : Nat}

/-! ## Digits -/

/-- A decimal digit is one byte, of the same value. -/
theorem exists_digitByte (h : c.isDigit = true) : ∃ b, String.utf8EncodeChar c = [b] ∧
    isDigit b = true ∧ digitValue b = c.toNat - '0'.toNat ∧ (b = 0x30 → c = '0') := by
  have hc : 0x30 ≤ c.toNat ∧ c.toNat ≤ 0x39 := by
    simpa [Char.isDigit, UInt32.le_iff_toNat_le] using h
  obtain ⟨b, l, he, -, -, hone⟩ := exists_utf8EncodeChar_eq_cons c
  obtain ⟨hb, rfl⟩ := hone (.inr (by omega))
  refine ⟨b, he, isDigit_iff.2 ⟨by omega, by omega⟩, by rw [digitValue, hb]; rfl, ?_⟩
  rintro rfl
  exact Char.ext (UInt32.toNat_inj.1 hb.symm)

/-- The digits of a text as bytes. -/
theorem isDigit_of_mem_encoded (h : ∀ c ∈ cs, c.isDigit = true) :
    ∀ b ∈ cs.flatMap String.utf8EncodeChar, IsDigit b := by
  intro b hb
  obtain ⟨c, hc, hb⟩ := List.mem_flatMap.1 hb
  obtain ⟨d, he, hd, -, -⟩ := exists_digitByte (h c hc)
  rw [he, List.mem_singleton] at hb
  rw [hb]
  exact isDigit_iff.1 hd

/-- Digits go into a number as long as it stays within the bound. -/
theorem takeDigits_append {bound value count : Nat} (h : ∀ c ∈ cs, c.isDigit = true)
    (hbound : Nat.ofDigitChars 10 cs value ≤ bound) (hrest : Stops rest) :
    takeDigits bound value count (cs.flatMap String.utf8EncodeChar ++ rest) =
      (Nat.ofDigitChars 10 cs value, count + cs.length, rest) := by
  induction cs generalizing value count with
  | nil =>
    rw [List.flatMap_nil, List.nil_append, Nat.ofDigitChars_nil, List.length_nil, Nat.add_zero]
    cases rest with
    | nil => rfl
    | cons b r =>
      have hb : isDigit b = false := Bool.eq_false_iff.2 fun hb => hrest b rfl (isDigit_iff.1 hb)
      rw [takeDigits, hb, Bool.false_and, if_neg (by decide)]
  | cons c cs ih =>
    rw [List.forall_mem_cons] at h
    obtain ⟨b, he, hb, hvalue, -⟩ := exists_digitByte h.1
    rw [Nat.ofDigitChars_cons, Nat.mul_comm, ← hvalue] at hbound ⊢
    have hle := Nat.le_trans (Position.le_ofDigitChars cs _) hbound
    rw [List.flatMap_cons, he, List.singleton_append, List.cons_append, takeDigits, hb,
      Bool.true_and, if_pos (decide_eq_true hle), ih h.2 hbound, List.length_cons]
    rw [Nat.add_assoc, Nat.add_comm 1]

theorem exists_toDigits_eq_cons (h : 0 < n) :
    ∃ c cs, Nat.toDigits 10 n = c :: cs ∧ c ≠ '0' := by
  induction n using Nat.strongRecOn with
  | ind n ih =>
    rcases Nat.lt_or_ge n 10 with hlt | hge
    · have hdigit : ∀ k < 10, 0 < k → Nat.digitChar k ≠ '0' := by decide
      exact ⟨_, [], Nat.toDigits_of_lt_base hlt, hdigit n hlt h⟩
    · obtain ⟨c, cs, hcs, hc⟩ := ih (n / 10) (by omega) (by omega)
      refine ⟨c, cs ++ [Nat.digitChar (n % 10)], ?_, hc⟩
      rw [Nat.toDigits_of_base_le (by decide) hge, hcs, List.cons_append]

/-- The digits of a number as bytes. -/
def digitBytes (n : Nat) : Bytes := (Nat.toDigits 10 n).flatMap String.utf8EncodeChar

/-- Zero is one digit; the digits of any other number start with another. -/
theorem digitBytes_cases (n : Nat) : n = 0 ∧ digitBytes n = [0x30] ∨
    ∃ b c cs, digitBytes n = b :: cs.flatMap String.utf8EncodeChar ∧ isDigit b = true ∧ b ≠ 0x30 ∧
      (∀ c ∈ cs, c.isDigit = true) ∧ digitValue b = c.toNat - '0'.toNat ∧
      Nat.ofDigitChars 10 (c :: cs) 0 = n := by
  rcases Nat.eq_zero_or_pos n with rfl | hpos
  · exact .inl ⟨rfl, rfl⟩
  · obtain ⟨c, cs, hcs, hc⟩ := exists_toDigits_eq_cons hpos
    have hdigits : ∀ d ∈ Nat.toDigits 10 n, d.isDigit = true := fun d hd =>
      Nat.isDigit_of_mem_toDigits (by decide) (by decide) hd
    have hvalue : Nat.ofDigitChars 10 (Nat.toDigits 10 n) 0 = n :=
      Nat.ofDigitChars_toDigits (by decide) (by decide)
    rw [hcs] at hdigits hvalue
    rw [List.forall_mem_cons] at hdigits
    obtain ⟨b, he, hb, hdigit, hzero⟩ := exists_digitByte hdigits.1
    refine .inr ⟨b, c, cs, ?_, hb, fun h => hc (hzero h), hdigits.2, hdigit, hvalue⟩
    rw [digitBytes, hcs, List.flatMap_cons, he, List.singleton_append]

theorem numberText_digitBytes (n : Nat) : NumberText (digitBytes n) := by
  have hinteger : IntegerText (digitBytes n) := by
    rcases digitBytes_cases n with ⟨-, h⟩ | ⟨b, c, cs, h, hb, hne, hcs, -⟩
    · rw [h]
      exact .zero
    · rw [h]
      exact .digits (isDigit_iff.1 hb) hne (isDigit_of_mem_encoded hcs)
  have h := NumberText.mk hinteger .absent .absent
  rwa [List.append_nil, List.append_nil] at h

/-! ## Numbers -/

/-- Digits that nothing goes on with are an integer. -/
theorem afterInteger_separated (n : Nat) (h : Separated rest) :
    afterInteger false n 0 rest = .ok (.integer n, rest) := by
  cases rest with
  | nil => rfl
  | cons b r =>
    obtain ⟨-, hpoint, hmark⟩ := h b rfl
    rw [afterInteger, if_neg hpoint, if_neg (by rw [hmark]; decide), if_pos rfl]
    rfl

/-- **A printed number is read as it is.** -/
theorem number_digitBytes (hn : n ≤ maxSignificand) (h : Separated rest) :
    number false (digitBytes n ++ rest) = .ok (.integer n, rest) := by
  rcases digitBytes_cases n with ⟨rfl, he⟩ | ⟨b, c, cs, he, hb, hne, hcs, hdigit, hvalue⟩
  · show number false (0x30 :: rest) = _
    rw [number, if_pos rfl, startsWithDigit_eq_false h.stops, if_neg (by decide)]
    exact afterInteger_separated 0 h
  · rw [Nat.ofDigitChars_cons, Nat.mul_zero, Nat.zero_add, ← hdigit] at hvalue
    have htake : takeDigits maxSignificand (digitValue b) 0 _ = _ :=
      takeDigits_append hcs (hvalue ▸ hn) h.stops
    have hskip : skipDigits rest = rest := skipDigits_append (s := []) (by simp) h.stops
    rw [he, List.cons_append, number, if_neg hne, if_pos hb]
    simp only [htake, hskip, hvalue, Nat.sub_self]
    exact afterInteger_separated n h

/-! ## Values of any kind -/

/-- What the next value is; the value is passed over as a whole. -/
def readAny (s : Bytes) : Except Fault (Found × Bytes) :=
  match skipBlank s with
  | [] => stop .eofInValue []
  | b :: r =>
    match found b r with
    | .error e => .error e
    | .ok (f, _) => (skipValue (b :: r)).map fun rest => (f, rest)

theorem length_of_readAny {f : Found} (h : readAny s = .ok (f, rest)) : rest.length < s.length := by
  have hs := length_skipBlank_le s
  unfold readAny at h
  split at h
  · cases h
  next heq =>
    split at h
    · cases h
    · obtain ⟨r, hr, he⟩ := map_eq_ok_iff.1 h
      cases he
      have := length_of_skipValue hr
      rw [heq] at hs
      omega

/-- Reads a value of any kind and says what it is. -/
def anyValue : Reader Found := ⟨readAny, length_of_readAny⟩

/-- What is found where a value stands is what is read. -/
theorem read_anyValue {b : UInt8} {t r : Bytes} {f : Found} (hw : Blank w)
    (ht : ValueText (b :: t)) (hf : found b (t ++ rest) = .ok (f, r)) (hrest : Separated rest) :
    anyValue.read (w ++ (b :: t ++ rest)) = .ok (f, rest) := by
  obtain ⟨_, _, he, hb, -⟩ := ht.apart
  cases he
  have hblank := skipBlank_append hw hb (t ++ rest)
  have hskip := skipValue_append blank_nil ht hrest
  rw [List.nil_append, List.cons_append] at hskip
  simp only [anyValue, readAny, List.cons_append, hblank, hf, hskip]
  rfl

/-! ### Strings -/

theorem SkippedChars.append {t : Bytes} (hs : SkippedChars s) (ht : SkippedChars t) :
    SkippedChars (s ++ t) := by
  induction hs with
  | nil => exact ht
  | cons h _ ih =>
    rw [List.append_assoc]
    exact .cons h ih

theorem skippedChars_of_plain (h : ∀ b ∈ s, isPlainByte b = true) : SkippedChars s := by
  induction s with
  | nil => exact .nil
  | cons b s ih =>
    rw [List.forall_mem_cons, isPlainByte_iff] at h
    obtain ⟨⟨hq, hb, hlow⟩, h⟩ := h
    refine .cons (s := [b]) (.plain hlow ?_ ?_) (ih h) <;> rintro rfl
    · exact hq rfl
    · exact hb rfl

theorem SkippedChar.skippedChars (h : SkippedChar s) : SkippedChars s := by
  have := SkippedChars.cons h .nil
  rwa [List.append_nil] at this

theorem CharText.skippedChars (h : CharText s c) : SkippedChars s := by
  cases h with
  | plain h hq hb => exact skippedChars_of_plain (isPlainByte_of_mem_utf8EncodeChar h hq hb)
  | escape h =>
    cases h with
    | short h => exact (SkippedChar.short h).skippedChars
    | unicode h => exact (SkippedChar.unicode h).skippedChars
    | pair _ hu hv =>
      exact (SkippedChar.unicode hu).skippedChars.append (SkippedChar.unicode hv).skippedChars

/-- A string whose value counts is one whose value does not. -/
theorem StringText.valueText {x : String} (h : StringText s x) : ValueText s := by
  obtain ⟨h⟩ := h
  refine .scalar (.string (.mk ?_))
  generalize x.toList = l at h
  induction h with
  | nil => exact .nil
  | cons h _ ih => exact h.skippedChars.append ih

theorem read_anyValue_string {x : String} (hw : Blank w) (hs : StringText s x)
    (hrest : Separated rest) : anyValue.read (w ++ (s ++ rest)) = .ok (.string x, rest) := by
  have ht := hs.valueText
  obtain ⟨hu⟩ := hs
  refine read_anyValue hw ht (r := rest) ?_ hrest
  rw [List.append_assoc]
  show Except.map _ (string (_ ++ 0x22 :: rest)) = _
  rw [string_append hu]
  rfl

/-! ### Printed numbers -/

theorem found_eq_number {b : UInt8} (h : isDigit b = true) (s : Bytes) :
    found b s = number false (b :: s) := by
  have hne (x : UInt8) (hx : isDigit x = false) : b ≠ x := by
    rintro rfl
    rw [h] at hx
    cases hx
  rw [found, if_neg (hne _ rfl), if_neg (hne _ rfl), if_neg (hne _ rfl), if_neg (hne _ rfl),
    if_pos h]

theorem read_anyValue_digitBytes (hw : Blank w) (hn : n ≤ maxSignificand)
    (hrest : Separated rest) :
    anyValue.read (w ++ (digitBytes n ++ rest)) = .ok (.integer n, rest) := by
  have ht := numberText_digitBytes n
  have hnumber := number_digitBytes hn hrest
  obtain ⟨b, r, he, hb⟩ := ht.exists_cons
  rw [he] at ht hnumber ⊢
  exact read_anyValue hw (.scalar (.number ht)) ((found_eq_number hb _).trans hnumber) hrest

end Findings.Json
