import Findings.Proofs.Utf8

/-!
# Reading UTF-8 leniently

`Renders bytes text` says what becomes of bytes that may be ill-formed, without the reader: a
character where its bytes stand, U+FFFD for a maximal ill-formed subpart (`Subpart`), one after the
other from left to right. Bytes are rendered in one way, which is `lossy` (`renders_iff`).

A character's first byte never continues anything (`isContinuation_eq_false`), so it ends whatever
stands before it: texts that stand anywhere between other bytes are read as they are
(`lossy_append_encode_append`).

Route. A subpart is given up at the first byte that does not fit, whatever comes after it
(`exists_of_next_none`). So no longer beginning of the bytes is the beginning of a character, and
`next` stops at the end of a maximal subpart (`next_eq_none_iff`).
-/

set_option autoImplicit false

namespace Findings.Utf8

/-- The bytes are those of a character, or the first of them. -/
def Begins (l : List UInt8) : Prop := ∃ c : Char, l <+: String.utf8EncodeChar c

/-- `part` is the maximal ill-formed subpart at the start of `part ++ rest`: no character stands
there, and `part` is the longest beginning that some character begins with, or a single byte if
there is none. -/
structure Subpart (part rest : List UInt8) : Prop where
  nonempty : part ≠ []
  noCharacter : ∀ c : Char, ¬ String.utf8EncodeChar c <+: part ++ rest
  begins : Begins part ∨ part.length = 1
  longest : ∀ l, l <+: part ++ rest → Begins l → l.length ≤ part.length

/-- The text renders the bytes: every character as it is, and U+FFFD for every maximal ill-formed
subpart. -/
inductive Renders : List UInt8 → String → Prop
  | nil : Renders [] ""
  | character (c : Char) {rest : List UInt8} {text : String} (h : Renders rest text) :
      Renders (String.utf8EncodeChar c ++ rest) (String.singleton c ++ text)
  | illFormed {part rest : List UInt8} {text : String} (hpart : Subpart part rest)
      (h : Renders rest text) : Renders (part ++ rest) ("\uFFFD" ++ text)

/-- The text tells what the bytes hold. -/
structure Tells (bytes : List UInt8) (text : String) : Prop where
  /-- It is the one rendering of the bytes. -/
  rendered : ∀ t, Renders bytes t ↔ t = text
  /-- Well-formed bytes are told as what they encode. -/
  whole : ∀ s, bytes = encode s → text = s
  /-- A text that stands anywhere in the bytes stands in what is told, between the renderings of
  what is before it and after it. -/
  between : ∀ before s after, s ≠ "" → bytes = before ++ encode s ++ after →
    ∃ t u, Renders before t ∧ Renders after u ∧ text = t ++ s ++ u

/-! ## Reading one unit -/

section
variable {b x lead : UInt8} {l part rest r : List UInt8} {c : Char}

theorem isContinuation_of_isSecond
    (h : isSecondOfThree lead b = true ∨ isSecondOfFour lead b = true) :
    isContinuation b = true := by
  rw [isSecondOfThree_iff, isSecondOfFour_iff] at h
  exact isContinuation_iff.2 (by omega)

/-- A character begins with a byte that continues nothing. -/
theorem isContinuation_eq_false (h : String.utf8EncodeChar c = b :: l) :
    isContinuation b = false := by
  have hv := toNat_bounds c
  have hc := charBytes_utf8EncodeChar c
  rw [h] at hc
  rw [Bool.eq_false_iff, Ne, isContinuation_iff]
  cases hc <;> omega

/-- A byte that continues nothing ends the unit before it. -/
theorem next_append (b : UInt8) (l s : List UInt8) (hx : isContinuation x = false) :
    next b (l ++ x :: s) = ((next b l).1, (next b l).2 ++ x :: s) := by
  have hthree : isSecondOfThree b x = false :=
    Bool.eq_false_iff.2 fun h => by simp [isContinuation_of_isSecond (.inl h)] at hx
  have hfour : isSecondOfFour b x = false :=
    Bool.eq_false_iff.2 fun h => by simp [isContinuation_of_isSecond (.inr h)] at hx
  fun_cases next b l <;>
    simp only [next, List.cons_append, List.nil_append, if_true, if_false, Bool.false_eq_true, *]

theorem next_of_character (h : String.utf8EncodeChar c ++ r = b :: rest) :
    next b rest = (some c, r) := by
  obtain ⟨b', rest', hbytes, hnext⟩ := next_utf8EncodeChar c r
  obtain ⟨rfl, rfl⟩ := List.cons.inj (h.symm.trans hbytes)
  exact hnext

theorem begins_of_next (t : List UInt8) (h : ∃ c, next b (l ++ t) = (some c, [])) :
    Begins (b :: l) := by
  obtain ⟨c, h⟩ := h
  have hbytes := eq_of_next h
  rw [List.append_nil] at hbytes
  exact ⟨c, t, hbytes⟩

/-- What `next` gives up: the lead byte alone, or with bytes that fit behind it. The first byte that
does not fit decides. -/
theorem exists_of_next_none (h : next b rest = (none, r)) :
    ∃ part, rest = part ++ r ∧ (part = [] ∨ Begins (b :: part)) ∧
      ∀ x r', r = x :: r' → ∀ s, next b (part ++ x :: s) = (none, x :: s) := by
  have hcontinues : isContinuation 0x80 = true := rfl
  revert h
  fun_cases next b rest <;> intro h <;> cases h
  -- nothing fits behind the byte, or no character begins with it
  case case3 | case4 | case8 | case9 | case15 | case16 | case17 =>
    refine ⟨[], rfl, .inl rfl, fun x r' hr s => ?_⟩
    cases hr <;>
      simp only [next, List.nil_append, if_true, if_false, Bool.false_eq_true, *]
  -- the third byte of three is missing
  case case6 | case7 =>
    refine ⟨[_], rfl, .inr (begins_of_next [0x80] ?_), fun x r' hr s => ?_⟩
    · simp only [next, List.cons_append, List.nil_append, if_true, if_false, Bool.false_eq_true, *]
      exact ⟨_, rfl⟩
    · cases hr <;>
        simp only [next, List.cons_append, List.nil_append, if_true, if_false,
          Bool.false_eq_true, *]
  -- the third byte of four is missing
  case case13 | case14 =>
    refine ⟨[_], rfl, .inr (begins_of_next [0x80, 0x80] ?_), fun x r' hr s => ?_⟩
    · simp only [next, List.cons_append, List.nil_append, if_true, if_false, Bool.false_eq_true, *]
      exact ⟨_, rfl⟩
    · cases hr <;>
        simp only [next, List.cons_append, List.nil_append, if_true, if_false,
          Bool.false_eq_true, *]
  -- the fourth byte is missing
  case case11 | case12 =>
    refine ⟨[_, _], rfl, .inr (begins_of_next [0x80] ?_), fun x r' hr s => ?_⟩
    · simp only [next, List.cons_append, List.nil_append, if_true, if_false, Bool.false_eq_true, *]
      exact ⟨_, rfl⟩
    · cases hr <;>
        simp only [next, List.cons_append, List.nil_append, if_true, if_false,
          Bool.false_eq_true, *]

/-- What `next` reads as ill-formed is a maximal ill-formed subpart. -/
theorem exists_subpart_of_next (h : next b rest = (none, r)) :
    ∃ part, rest = part ++ r ∧ Subpart (b :: part) r := by
  obtain ⟨part, rfl, hbegins, hdecided⟩ := exists_of_next_none h
  refine ⟨part, rfl, ⟨List.cons_ne_nil _ _, fun c hc => ?_, ?_, fun l hl hbl => ?_⟩⟩
  · obtain ⟨t, ht⟩ := hc
    have hread : next b (part ++ r) = (some c, t) := next_of_character ht
    rw [h] at hread
    cases hread
  · rcases hbegins with rfl | hbegins
    · exact .inr rfl
    · exact .inl hbegins
  · -- a longer beginning would go on with the byte that does not fit
    refine Nat.le_of_not_lt fun hlonger => ?_
    obtain ⟨l', rfl⟩ :=
      List.prefix_of_prefix_length_le (List.prefix_append _ r) hl (Nat.le_of_lt hlonger)
    rw [List.prefix_append_right_inj] at hl
    cases l' with
    | nil => simp at hlonger
    | cons x l' =>
      obtain ⟨s, rfl⟩ := hl
      obtain ⟨c, t, ht⟩ := hbl
      have hread : next b (part ++ x :: (l' ++ t)) = (some c, []) :=
        next_of_character (by rw [List.append_nil, ← ht]; simp)
      rw [hdecided x (l' ++ s) rfl] at hread
      cases hread

theorem Subpart.length_le {part' rest' : List UInt8} (h : Subpart part rest)
    (h' : Subpart part' rest') (heq : part ++ rest = part' ++ rest') :
    part.length ≤ part'.length := by
  rcases h.begins with hbegins | hsingle
  · exact h'.longest part ⟨rest, heq⟩ hbegins
  · have hpos := List.length_pos_iff.2 h'.nonempty
    omega

/-- **The reader takes maximal subparts**, and only where no character stands. -/
theorem next_eq_none_iff :
    next b rest = (none, r) ↔ ∃ part, rest = part ++ r ∧ Subpart (b :: part) r := by
  refine ⟨exists_subpart_of_next, ?_⟩
  rintro ⟨part, rfl, hpart⟩
  cases hnext : next b (part ++ r) with
  | mk unit r' =>
    cases unit with
    | some c =>
      exact absurd ⟨r', (eq_of_next hnext).symm⟩ (hpart.noCharacter c)
    | none =>
      obtain ⟨part', heq, hpart'⟩ := exists_subpart_of_next hnext
      have heq' : b :: part ++ r = b :: part' ++ r' := congrArg (b :: ·) heq
      have hle := hpart.length_le hpart' heq'
      have hge := hpart'.length_le hpart heq'.symm
      obtain ⟨-, rfl⟩ := List.append_inj heq' (Nat.le_antisymm hle hge)
      rfl

end

/-! ## Reading bytes -/

section
variable {b x : UInt8} {l rest r s : List UInt8} {c : Char} {text : String}

theorem lossy_nil : lossy [] = "" := by
  rw [lossy, units_nil]
  rfl

theorem lossy_of_next {unit : Option Char} (h : next b rest = (unit, r)) :
    lossy (b :: rest) = String.singleton (unit.getD '\uFFFD') ++ lossy r := by
  rw [lossy, units_cons, h, List.map_cons, String.ofList_cons, lossy]

theorem lossy_utf8EncodeChar_append (c : Char) (rest : List UInt8) :
    lossy (String.utf8EncodeChar c ++ rest) = String.singleton c ++ lossy rest := by
  rw [lossy, units_utf8EncodeChar_append, List.map_cons, String.ofList_cons, lossy]
  rfl

theorem Subpart.lossy_append {part : List UInt8} (h : Subpart part rest) :
    lossy (part ++ rest) = "\uFFFD" ++ lossy rest := by
  cases part with
  | nil => exact absurd rfl h.nonempty
  | cons b part => exact lossy_of_next (next_eq_none_iff.2 ⟨part, rfl, h⟩)

theorem renders_lossy (l : List UInt8) : Renders l (lossy l) := by
  induction l using unit_induction with
  | nil => exact lossy_nil ▸ .nil
  | unit b rest ih =>
    cases hnext : next b rest with
    | mk unit r =>
      rw [hnext] at ih
      rw [lossy_of_next hnext]
      cases unit with
      | some c =>
        rw [eq_of_next hnext]
        exact .character c ih
      | none =>
        obtain ⟨part, rfl, hpart⟩ := exists_subpart_of_next hnext
        exact .illFormed hpart ih

/-- **Bytes are rendered in one way.** -/
theorem renders_iff : Renders l text ↔ text = lossy l := by
  constructor
  · intro h
    induction h with
    | nil => exact lossy_nil.symm
    | character c _ ih => rw [lossy_utf8EncodeChar_append, ih]
    | illFormed hpart _ ih => rw [hpart.lossy_append, ih]
  · rintro rfl
    exact renders_lossy l

/-! ## Texts between other bytes -/

/-- Bytes are read apart from those before them, if the first of them continues nothing. -/
theorem lossy_append (l : List UInt8) (hx : isContinuation x = false) :
    lossy (l ++ x :: s) = lossy l ++ lossy (x :: s) := by
  induction l using unit_induction with
  | nil => rw [lossy_nil, List.nil_append, String.empty_append]
  | unit b rest ih =>
    have hunit : lossy (b :: rest) =
        String.singleton ((next b rest).1.getD '\uFFFD') ++ lossy (next b rest).2 :=
      lossy_of_next rfl
    rw [List.cons_append, lossy_of_next (next_append b rest s hx), ih, hunit, String.append_assoc]

theorem lossy_encode_append (t : String) (rest : List UInt8) :
    lossy (encode t ++ rest) = t ++ lossy rest := by
  have hchars (cs : List Char) :
      lossy (cs.flatMap String.utf8EncodeChar ++ rest) = String.ofList cs ++ lossy rest := by
    induction cs with
    | nil => simp
    | cons c cs ih =>
      rw [List.flatMap_cons, List.append_assoc, lossy_utf8EncodeChar_append, ih,
        String.ofList_cons, String.append_assoc]
  rw [encode, hchars, String.ofList_toList]

theorem lossy_encode (t : String) : lossy (encode t) = t := by
  have h := lossy_encode_append t []
  rwa [List.append_nil, lossy_nil, String.append_empty] at h

/-- **A text is read as it is between any bytes**, and they are read apart from it. -/
theorem lossy_append_encode_append {t : String} (ht : t ≠ "") (before after : List UInt8) :
    lossy (before ++ encode t ++ after) = lossy before ++ t ++ lossy after := by
  obtain ⟨b, r, hbytes, hb⟩ : ∃ b r, encode t ++ after = b :: r ∧ isContinuation b = false := by
    cases hchars : t.toList with
    | nil => exact absurd (String.toList_eq_nil_iff.1 hchars) ht
    | cons c cs =>
      cases hc : String.utf8EncodeChar c with
      | nil => exact absurd hc String.utf8EncodeChar_ne_nil
      | cons b l =>
        have hbytes : encode t ++ after =
            b :: (l ++ cs.flatMap String.utf8EncodeChar ++ after) := by
          rw [encode, hchars, List.flatMap_cons, hc, List.cons_append, List.cons_append]
        exact ⟨b, _, hbytes, isContinuation_eq_false hc⟩
  rw [List.append_assoc, hbytes, lossy_append before hb, ← hbytes, lossy_encode_append,
    String.append_assoc]

theorem tells_lossy (bytes : List UInt8) : Tells bytes (lossy bytes) where
  rendered _ := renders_iff
  whole _ h := h ▸ lossy_encode _
  between before _ after hs h :=
    ⟨lossy before, lossy after, renders_lossy before, renders_lossy after,
      h ▸ lossy_append_encode_append hs before after⟩

/-- A character that breaks off in front of a text, and one that is continued. -/
example : lossy ([0xE2, 0x82] ++ encode "é") = "\uFFFDé" ∧
    lossy ([0xE2, 0x82] ++ [0xAC]) = "€" := by
  decide +kernel

end

end Findings.Utf8
