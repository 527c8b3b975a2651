import Findings.Proofs.Json.Grammar
import Findings.Proofs.Utf8

/-!
# Reading strings

`Json.string` reads the strings of the grammar, whose opening mark has been read, and nothing else:
`string_append` and `exists_of_string`. `skipString_append` and `exists_of_skipString` say the same
of `Json.skipString`.

Route. `stringBytes` collects bytes, and asks only afterwards whether they are UTF-8. `Collects u v`
says that it collects `v` from `u`. Of the bytes of a character only the first can come from an
escape, as no character starts with a continuation byte, so where `v` is an encoded text, `u` spells
its characters one after the other (`collects_flatMap_iff`).
-/

set_option autoImplicit false

namespace Findings.Json

variable {s u v rest : Bytes} {b : UInt8} {c : Char} {n : Nat}

/-! ## Runs of bytes -/

section
variable {p : UInt8 → Bool}

/-- A run and the byte that ends it. -/
theorem span_append_cons (hw : ∀ x ∈ u, p x = true) (hb : p b = false) (s : Bytes) :
    (u ++ b :: s).takeWhile p = u ∧ (u ++ b :: s).dropWhile p = b :: s := by
  have hb' : ¬ p b = true := by rw [hb]; decide
  rw [List.takeWhile_append_of_pos hw, List.takeWhile_cons_of_neg hb', List.append_nil,
    List.dropWhile_append_of_pos hw, List.dropWhile_cons_of_neg hb']
  exact ⟨rfl, rfl⟩

theorem span_spec (p : UInt8 → Bool) (s : Bytes) :
    (∀ x ∈ s.takeWhile p, p x = true) ∧ s = s.takeWhile p ++ s.dropWhile p :=
  ⟨List.all_eq_true.1 List.all_takeWhile, List.takeWhile_append_dropWhile.symm⟩

theorem eq_false_of_dropWhile (h : s.dropWhile p = b :: rest) : p b = false := by
  have := List.head?_dropWhile_not p s
  rwa [h] at this

end

/-! ## Escapes -/

theorem hexDigit?_eq_some_iff : hexDigit? b = some n ↔ HexDigit b n := by
  have hdecimal : (0x30 ≤ b && b ≤ 0x39) = true ↔ 0x30 ≤ b.toNat ∧ b.toNat ≤ 0x39 :=
    Utf8.between_iff
  have hupper : (0x41 ≤ b && b ≤ 0x46) = true ↔ 0x41 ≤ b.toNat ∧ b.toNat ≤ 0x46 :=
    Utf8.between_iff
  have hlower : (0x61 ≤ b && b ≤ 0x66) = true ↔ 0x61 ≤ b.toNat ∧ b.toNat ≤ 0x66 :=
    Utf8.between_iff
  simp only [hexDigit?, hdecimal, hupper, hlower]
  constructor
  · intro h
    split at h
    next hb => cases h; exact .decimal (by omega) (by omega)
    split at h
    next hb => cases h; exact .upper (by omega) (by omega)
    split at h
    next hb => cases h; exact .lower (by omega) (by omega)
    cases h
  · intro h
    cases h with
    | decimal h hb => rw [if_pos (by omega), Option.some.injEq]; omega
    | upper h hb => rw [if_neg (by omega), if_pos (by omega), Option.some.injEq]; omega
    | lower h hb =>
      rw [if_neg (by omega), if_neg (by omega), if_pos (by omega), Option.some.injEq]
      omega

theorem HexDigit.lt (h : HexDigit b n) : n < 16 := by
  cases h <;> omega

theorem HexUnit.lt (h : HexUnit u n) : n < 0x10000 := by
  cases h with
  | mk ha hb hc hd =>
    have := ha.lt
    have := hb.lt
    have := hc.lt
    have := hd.lt
    omega

theorem hexUnit_append (h : HexUnit u n) (rest : Bytes) : hexUnit (u ++ rest) = .ok (n, rest) := by
  cases h with
  | mk ha hb hc hd =>
    rw [← hexDigit?_eq_some_iff] at ha hb hc hd
    simp [hexUnit, hexUnit?, ha, hb, hc, hd]

theorem exists_of_hexUnit (h : hexUnit s = .ok (n, rest)) : ∃ u, HexUnit u n ∧ s = u ++ rest := by
  unfold hexUnit at h
  split at h
  next a b c d r =>
    split at h
    next m hm =>
      cases h
      simp only [hexUnit?, Option.bind_eq_bind, Option.bind_eq_some_iff, Option.pure_def,
        Option.some.injEq, hexDigit?_eq_some_iff] at hm
      obtain ⟨k, ha, l, hb, m, hc, n, hd, rfl⟩ := hm
      exact ⟨[a, b, c, d], .mk ha hb hc hd, rfl⟩
    · cases h
  · cases h

theorem shortEscape?_eq_some_iff : shortEscape? b = some c ↔ (b, c) ∈ shortEscapes := by
  constructor
  · intro h
    unfold shortEscape? at h
    repeat' (split at h)
    all_goals cases h
    all_goals subst b; decide
  · intro h
    simp only [shortEscapes, List.mem_cons, Prod.mk.injEq, List.not_mem_nil, or_false] at h
    rcases h with ⟨rfl, rfl⟩ | ⟨rfl, rfl⟩ | ⟨rfl, rfl⟩ | ⟨rfl, rfl⟩ | ⟨rfl, rfl⟩ | ⟨rfl, rfl⟩ |
      ⟨rfl, rfl⟩ | ⟨rfl, rfl⟩ <;> rfl

/-- The letter of a `\u` escape is not one of a short escape. -/
theorem ne_of_mem_shortEscapes (h : (b, c) ∈ shortEscapes) : b ≠ 0x75 := by
  rintro rfl
  rw [← shortEscape?_eq_some_iff] at h
  cases h

theorem isHighSurrogate_iff : isHighSurrogate n = true ↔ 0xD800 ≤ n ∧ n ≤ 0xDBFF := by
  rw [isHighSurrogate, Bool.and_eq_true, decide_eq_true_eq, decide_eq_true_eq]

theorem isLowSurrogate_iff : isLowSurrogate n = true ↔ 0xDC00 ≤ n ∧ n ≤ 0xDFFF := by
  rw [isLowSurrogate, Bool.and_eq_true, decide_eq_true_eq, decide_eq_true_eq]

theorem escape_append (h : EscapeText u c) (rest : Bytes) : escape (u ++ rest) = .ok (c, rest) := by
  have hc := Utf8.toNat_bounds c
  cases h with
  | short h =>
    show escape (_ :: rest) = _
    rw [escape, if_neg (ne_of_mem_shortEscapes h), shortEscape?_eq_some_iff.2 h]
  | @unicode u _ h =>
    show escape (0x75 :: (u ++ rest)) = _
    rw [escape, if_pos rfl, unicodeEscape, hexUnit_append h]
    show ite _ _ _ = _
    rw [if_neg (by rw [isLowSurrogate_iff]; omega), if_neg (by rw [isHighSurrogate_iff]; omega),
      Char.ofNat_toNat]
  | @pair u v _ h hu hv =>
    have hn : (0xD800 + (c.toNat - 0x10000) / 0x400 - 0xD800) * 0x400 +
        (0xDC00 + (c.toNat - 0x10000) % 0x400 - 0xDC00) + 0x10000 = c.toNat := by omega
    show escape (0x75 :: (u ++ 0x5C :: 0x75 :: v ++ rest)) = _
    rw [escape, if_pos rfl, unicodeEscape, List.append_assoc, hexUnit_append hu]
    show ite _ _ (ite _ (lowSurrogate _ (0x5C :: 0x75 :: (v ++ rest))) _) = _
    rw [if_neg (by rw [isLowSurrogate_iff]; omega), if_pos (by rw [isHighSurrogate_iff]; omega),
      lowSurrogate, if_neg (by decide)]
    show ite _ _ _ = _
    rw [if_neg (by decide), hexUnit_append hv]
    show ite _ _ _ = _
    rw [if_pos (by rw [isLowSurrogate_iff]; omega), hn, Char.ofNat_toNat]

theorem exists_of_lowSurrogate (h : lowSurrogate n s = .ok (c, rest)) :
    ∃ v m, HexUnit v m ∧ isLowSurrogate m = true ∧ s = 0x5C :: 0x75 :: (v ++ rest) ∧
      c = Char.ofNat ((n - 0xD800) * 0x400 + (m - 0xDC00) + 0x10000) := by
  revert h
  fun_cases lowSurrogate n s with
  | case6 b hb u t hu m r hs hm =>
    intro h
    rw [Except.ok.injEq, Prod.mk.injEq] at h
    obtain ⟨v, hv, rfl⟩ := exists_of_hexUnit hs
    rw [Decidable.not_not] at hb hu
    exact ⟨v, m, hv, hm, by rw [hb, hu, h.2], h.1.symm⟩
  | _ => intro h; cases h

theorem exists_of_unicodeEscape (h : unicodeEscape s = .ok (c, rest)) :
    ∃ u, EscapeText (0x75 :: u) c ∧ s = u ++ rest := by
  unfold unicodeEscape at h
  split at h
  · cases h
  next n r hs =>
    obtain ⟨u, hu, rfl⟩ := exists_of_hexUnit hs
    have hlt := hu.lt
    split at h
    · cases h
    next hl =>
      rw [isLowSurrogate_iff] at hl
      split at h
      next hh =>
        rw [isHighSurrogate_iff] at hh
        obtain ⟨v, m, hv, hm, rfl, hc⟩ := exists_of_lowSurrogate h
        rw [isLowSurrogate_iff] at hm
        replace hc := congrArg Char.toNat hc
        rw [Utf8.toNat_ofNat_of_bounds (by omega)] at hc
        refine ⟨u ++ 0x5C :: 0x75 :: v, .pair (by omega) ?_ ?_, by simp⟩
        · rw [show 0xD800 + (c.toNat - 0x10000) / 0x400 = n by omega]
          exact hu
        · rw [show 0xDC00 + (c.toNat - 0x10000) % 0x400 = m by omega]
          exact hv
      next hh =>
        rw [isHighSurrogate_iff] at hh
        cases h
        have hc := Utf8.toNat_ofNat_of_bounds (n := n) (by omega)
        exact ⟨u, .unicode (by rw [hc]; exact hu), rfl⟩

theorem exists_of_escape (h : escape s = .ok (c, rest)) :
    ∃ u, EscapeText u c ∧ s = u ++ rest := by
  unfold escape at h
  split at h
  · cases h
  next b r =>
    split at h
    next hb =>
      obtain ⟨u, hu, rfl⟩ := exists_of_unicodeEscape h
      exact ⟨0x75 :: u, hu, by rw [hb]; rfl⟩
    · split at h
      next hc =>
        cases h
        exact ⟨[b], .short (shortEscape?_eq_some_iff.1 hc), rfl⟩
      · cases h

/-! ## The bytes that are collected -/

/-- `stringBytes` collects the second bytes from the first. -/
inductive Collects : Bytes → Bytes → Prop
  | nil : Collects [] []
  | plain {b : UInt8} {u v : Bytes} (h : isPlainByte b = true) (hs : Collects u v) :
      Collects (b :: u) (b :: v)
  | escape {e u v : Bytes} {c : Char} (h : EscapeText e c) (hs : Collects u v) :
      Collects (0x5C :: (e ++ u)) (String.utf8EncodeChar c ++ v)

theorem Collects.append_plain {p : Bytes} (hp : ∀ b ∈ p, isPlainByte b = true)
    (h : Collects u v) : Collects (p ++ u) (p ++ v) := by
  induction p with
  | nil => exact h
  | cons b p ih =>
    rw [List.forall_mem_cons] at hp
    exact .plain hp.1 (ih hp.2)

theorem isPlainByte_iff :
    isPlainByte b = true ↔ b.toNat ≠ 0x22 ∧ b.toNat ≠ 0x5C ∧ 0x20 ≤ b.toNat := by
  simp [isPlainByte, ← UInt8.toNat_inj, UInt8.lt_iff_toNat_lt, and_assoc]

theorem collects_of_go {read v' : Bytes} (h : stringBytes.go read s = .ok (v', rest)) :
    ∃ u v, Collects u v ∧ s = u ++ 0x22 :: rest ∧ v' = read.reverse ++ v := by
  fun_induction stringBytes.go read s with
  | case1 => cases h
  | case2 => cases h
  | case3 read s r read' hs hlt =>
    cases h
    obtain ⟨hplain, hparts⟩ := span_spec isPlainByte s
    refine ⟨_, _, Collects.nil.append_plain hplain, ?_, ?_⟩
    · rw [List.append_nil, ← hs]
      exact hparts
    · simp [read', List.reverseAux_eq]
  | case4 => cases h
  | case5 read s b r hs read' hlt hne c r' he _ _ ih =>
    obtain ⟨u, v, hc, rfl, rfl⟩ := ih h
    obtain ⟨e, hx, rfl⟩ := exists_of_escape he
    have hb : b = 0x5C := by
      have hp := eq_false_of_dropWhile hs
      simpa [isPlainByte, hne, hlt] using hp
    obtain ⟨hplain, hparts⟩ := span_spec isPlainByte s
    refine ⟨_, _, (Collects.escape hx hc).append_plain hplain, ?_, ?_⟩
    · rw [List.append_assoc, List.cons_append, List.append_assoc, ← hb, ← hs]
      exact hparts
    · simp [read', List.reverseAux_eq]

theorem go_close {p : Bytes} (hp : ∀ b ∈ p, isPlainByte b = true) (read rest : Bytes) :
    stringBytes.go read (p ++ 0x22 :: rest) = .ok (read.reverse ++ p, rest) := by
  obtain ⟨ht, hd⟩ := span_append_cons hp (b := 0x22) rfl rest
  rw [stringBytes.go.eq_def]
  split
  next hs => rw [hd] at hs; cases hs
  next hs =>
    rw [hd] at hs
    cases hs
    simp [ht, List.reverseAux_eq]

theorem go_escape {p e : Bytes} (hp : ∀ b ∈ p, isPlainByte b = true) (h : EscapeText e c)
    (read s : Bytes) : stringBytes.go read (p ++ 0x5C :: (e ++ s)) =
      stringBytes.go ((String.utf8EncodeChar c).reverseAux (p.reverseAux read)) s := by
  obtain ⟨ht, hd⟩ := span_append_cons hp (b := 0x5C) rfl (e ++ s)
  rw [stringBytes.go.eq_def]
  split
  next hs => rw [hd] at hs; cases hs
  next hs =>
    rw [hd] at hs
    cases hs
    simp only [ht]
    rw [if_neg (by decide), if_neg (by decide)]
    split
    next he => rw [escape_append h] at he; cases he
    next he => rw [escape_append h] at he; cases he; rfl

theorem go_of_collects {p : Bytes} (h : Collects u v) (hp : ∀ b ∈ p, isPlainByte b = true)
    (read rest : Bytes) : stringBytes.go read (p ++ (u ++ 0x22 :: rest)) =
      .ok (read.reverse ++ (p ++ v), rest) := by
  -- `p` are the plain bytes before `u` that have been passed but not yet put to `read`
  induction h generalizing p read with
  | nil => rw [List.nil_append, go_close hp, List.append_nil]
  | @plain b u v hb _ ih =>
    have hpb : ∀ x ∈ p ++ [b], isPlainByte x = true :=
      List.forall_mem_append.2 ⟨hp, List.forall_mem_singleton.2 hb⟩
    have := ih hpb read
    rwa [List.append_assoc, List.append_assoc] at this
  | @escape e u v c he _ ih =>
    have := ih (p := []) (fun _ h => absurd h List.not_mem_nil)
      ((String.utf8EncodeChar c).reverseAux (p.reverseAux read))
    rw [List.cons_append, List.append_assoc, go_escape hp he]
    rw [List.nil_append] at this
    rw [this]
    simp [List.reverseAux_eq]

theorem stringBytes_append (h : Collects u v) (rest : Bytes) :
    stringBytes (u ++ 0x22 :: rest) = .ok (v, rest) :=
  go_of_collects h (p := []) (fun _ h => absurd h List.not_mem_nil) [] rest

/-! ## Collected bytes and characters -/

theorem eq_of_utf8EncodeChar_append {d : Char}
    (h : String.utf8EncodeChar c ++ u = String.utf8EncodeChar d ++ v) : c = d ∧ u = v := by
  obtain ⟨b, r, hl, hn⟩ := Utf8.next_utf8EncodeChar c u
  obtain ⟨b', r', hl', hn'⟩ := Utf8.next_utf8EncodeChar d v
  rw [hl, hl'] at h
  cases h
  rw [hn] at hn'
  cases hn'
  exact ⟨rfl, rfl⟩

/-- The first byte of a character and those after it, which are continuation bytes; a byte below
0x80 is a character by itself. -/
theorem exists_utf8EncodeChar_eq_cons (c : Char) : ∃ b l, String.utf8EncodeChar c = b :: l ∧
    (b.toNat < 0x80 ∨ 0xC0 ≤ b.toNat) ∧ (∀ x ∈ l, 0x80 ≤ x.toNat ∧ x.toNat < 0xC0) ∧
    (b.toNat < 0x80 ∨ c.toNat < 0x80 → b.toNat = c.toNat ∧ l = []) := by
  have hv := Utf8.toNat_bounds c
  have hc := Utf8.charBytes_utf8EncodeChar c
  generalize String.utf8EncodeChar c = e at hc
  cases hc with
  | one h hb => exact ⟨_, _, rfl, by omega, by simp, fun _ => ⟨hb, rfl⟩⟩
  | two h hb hb₁ => exact ⟨_, _, rfl, by omega, by simp; omega, by omega⟩
  | three h hb hb₁ hb₂ => exact ⟨_, _, rfl, by omega, by simp; omega, by omega⟩
  | four h hb hb₁ hb₂ hb₃ => exact ⟨_, _, rfl, by omega, by simp; omega, by omega⟩

/-- Continuation bytes are collected from themselves only. -/
theorem exists_of_collects_continuation {l : Bytes}
    (hl : ∀ x ∈ l, 0x80 ≤ x.toNat ∧ x.toNat < 0xC0) (h : Collects u (l ++ v)) :
    ∃ t, u = l ++ t ∧ Collects t v := by
  induction l generalizing u with
  | nil => exact ⟨u, rfl, h⟩
  | cons x l ih =>
    rw [List.forall_mem_cons] at hl
    generalize hx : x :: l ++ v = y at h
    cases h with
    | nil => cases hx
    | plain _ hs =>
      cases hx
      obtain ⟨t, rfl, ht⟩ := ih hl.2 hs
      exact ⟨t, rfl, ht⟩
    | @escape e t w c he hs =>
      obtain ⟨b, r, hbr, hb, -⟩ := exists_utf8EncodeChar_eq_cons c
      rw [hbr] at hx
      rw [(List.cons.inj hx).1] at hl
      omega

theorem charText_of_plain {l : Bytes} (hc : String.utf8EncodeChar c = b :: l)
    (hb : isPlainByte b = true) : CharText (b :: l) c := by
  obtain ⟨b', l', he, -, -, hone⟩ := exists_utf8EncodeChar_eq_cons c
  rw [hc] at he
  cases he
  rw [isPlainByte_iff] at hb
  rw [← hc]
  refine .plain ?_ ?_ ?_
  · omega
  · rintro rfl
    exact hb.1 (hone (.inr (by decide))).1
  · rintro rfl
    exact hb.2.1 (hone (.inr (by decide))).1

theorem isPlainByte_of_mem_utf8EncodeChar (h : 0x20 ≤ c.toNat) (hq : c ≠ '"') (hb : c ≠ '\\') :
    ∀ x ∈ String.utf8EncodeChar c, isPlainByte x = true := by
  have hq' : c.toNat ≠ 0x22 := fun hn => hq (Char.ext (UInt32.toNat_inj.1 hn))
  have hb' : c.toNat ≠ 0x5C := fun hn => hb (Char.ext (UInt32.toNat_inj.1 hn))
  obtain ⟨b, l, he, hlead, hl, hone⟩ := exists_utf8EncodeChar_eq_cons c
  rw [he, List.forall_mem_cons]
  refine ⟨isPlainByte_iff.2 (by omega), fun x hx => isPlainByte_iff.2 ?_⟩
  have := hl x hx
  omega

theorem charsText_of_collects {cs : List Char}
    (h : Collects u (cs.flatMap String.utf8EncodeChar)) : CharsText u cs := by
  induction cs generalizing u with
  | nil =>
    rw [List.flatMap_nil] at h
    generalize hv : ([] : Bytes) = v at h
    cases h with
    | nil => exact .nil
    | plain => cases hv
    | escape => exact absurd (List.append_eq_nil_iff.1 hv.symm).1 String.utf8EncodeChar_ne_nil
  | cons c cs ih =>
    rw [List.flatMap_cons] at h
    generalize hv : String.utf8EncodeChar c ++ cs.flatMap String.utf8EncodeChar = v at h
    cases h with
    | nil => exact absurd (List.append_eq_nil_iff.1 hv).1 String.utf8EncodeChar_ne_nil
    | @plain b u v hb hs =>
      -- the first byte of `c`; the others are collected from `u`
      obtain ⟨b', l, he, -, hl, -⟩ := exists_utf8EncodeChar_eq_cons c
      rw [he, List.cons_append] at hv
      obtain ⟨rfl, rfl⟩ := List.cons.inj hv
      obtain ⟨t, rfl, ht⟩ := exists_of_collects_continuation hl hs
      exact .cons (charText_of_plain he hb) (ih ht)
    | @escape e u v d he hs =>
      obtain ⟨rfl, rfl⟩ := eq_of_utf8EncodeChar_append hv
      exact .cons (.escape he) (ih hs)

theorem CharsText.collects {cs : List Char} (h : CharsText u cs) :
    Collects u (cs.flatMap String.utf8EncodeChar) := by
  induction h with
  | nil => exact .nil
  | @cons s t c cs h _ ih =>
    rw [List.flatMap_cons]
    cases h with
    | plain h hq hb => exact ih.append_plain (isPlainByte_of_mem_utf8EncodeChar h hq hb)
    | escape he => exact .escape he ih

/-! ## Strings -/

variable {t : String}

theorem string_append (h : CharsText u t.toList) (rest : Bytes) :
    string (u ++ 0x22 :: rest) = .ok (t, rest) := by
  have hd : Utf8.decode? (t.toList.flatMap String.utf8EncodeChar) = some t :=
    Utf8.decode?_eq_some_iff.2 rfl
  rw [string, stringBytes_append h.collects]
  simp only [hd]

theorem exists_of_string (h : string s = .ok (t, rest)) :
    ∃ u, CharsText u t.toList ∧ s = u ++ 0x22 :: rest := by
  unfold string at h
  split at h
  · cases h
  next v r hs =>
    split at h
    next hd =>
      cases h
      rw [Utf8.decode?_eq_some_iff] at hd
      obtain ⟨u, v', hc, rfl, rfl⟩ := collects_of_go hs
      subst hd
      exact ⟨u, charsText_of_collects hc, rfl⟩
    · cases h

/-! ## Skipped strings -/

theorem skipEscape_append {e : Bytes} (h : SkippedChar (0x5C :: e)) (s : Bytes) :
    skipEscape (e ++ s) = .ok s := by
  cases h with
  | plain _ _ hb => exact absurd rfl hb
  | short h =>
    show skipEscape (_ :: s) = _
    rw [skipEscape, if_neg (ne_of_mem_shortEscapes h), shortEscape?_eq_some_iff.2 h]
    rfl
  | unicode h =>
    show skipEscape (0x75 :: (_ ++ s)) = _
    rw [skipEscape, if_pos rfl, hexUnit_append h]

theorem exists_of_skipEscape (h : skipEscape s = .ok rest) :
    ∃ e, SkippedChar (0x5C :: e) ∧ s = e ++ rest := by
  unfold skipEscape at h
  split at h
  · cases h
  next b r =>
    split at h
    next hb =>
      split at h
      · cases h
      next hs =>
        cases h
        obtain ⟨u, hu, rfl⟩ := exists_of_hexUnit hs
        exact ⟨0x75 :: u, .unicode hu, by rw [hb]; rfl⟩
    · split at h
      next hc =>
        cases h
        obtain ⟨c, hc⟩ := Option.isSome_iff_exists.1 hc
        exact ⟨[b], .short (shortEscape?_eq_some_iff.1 hc), rfl⟩
      · cases h

theorem skipString_char (h : SkippedChar u) (s : Bytes) :
    skipString (u ++ s) = skipString s := by
  have hu := h
  cases h with
  | @plain b h hq hb =>
    show skipString (b :: s) = _
    rw [skipString.eq_def]
    simp only
    rw [if_neg hq, if_neg hb, if_neg (by rw [UInt8.lt_iff_toNat_lt]; exact Nat.not_lt.2 h)]
  | short | unicode =>
    rw [List.cons_append, skipString.eq_def]
    simp only
    rw [if_neg (by decide), if_pos trivial]
    split
    next he => rw [skipEscape_append hu] at he; cases he
    next he => rw [skipEscape_append hu] at he; cases he; rfl

theorem skipString_append (h : SkippedChars u) (rest : Bytes) :
    skipString (u ++ 0x22 :: rest) = .ok rest := by
  induction h with
  | nil =>
    rw [List.nil_append, skipString, if_pos rfl]
  | cons h _ ih =>
    rw [List.append_assoc, skipString_char h, ih]

theorem exists_of_skipString (h : skipString s = .ok rest) :
    ∃ u, SkippedChars u ∧ s = u ++ 0x22 :: rest := by
  fun_induction skipString s with
  | case1 => cases h
  | case2 => cases h; exact ⟨[], .nil, rfl⟩
  | case3 => cases h
  | case4 s _ he _ _ ih =>
    obtain ⟨u, hu, rfl⟩ := ih h
    obtain ⟨e, hx, rfl⟩ := exists_of_skipEscape he
    exact ⟨_, .cons hx hu, by rw [List.append_assoc]; rfl⟩
  | case5 => cases h
  | case6 b s hq hb hlt ih =>
    obtain ⟨u, hu, rfl⟩ := ih h
    have h20 : 0x20 ≤ b.toNat := Nat.not_lt.1 (by rwa [UInt8.lt_iff_toNat_lt] at hlt)
    exact ⟨_, .cons (.plain h20 hq hb) hu, rfl⟩

end Findings.Json
