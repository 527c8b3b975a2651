import Findings.Proofs.Json.Containers

/-!
# Texts that break off

A token that is read is cut, and its reader gets the part before the cut. It refuses that part since
the text breaks off: `literal_cut`, `string_cut`, `skipString_cut`, and between tokens
`nextItem_cut`, `nextMember_cut` and `name_cut`. So do values that are passed over, at any depth
(`skipValue_cut`).

A number is the exception. It may end where the cut is, and where it may not it is malformed and not
broken off (`skipNumber_cut`). `NumberCut ValueText` tells where that happens within a value.
-/

set_option autoImplicit false

namespace Findings.Json

variable {s t u v w x y rest : Bytes} {b : UInt8} {C : Prop}

/-! ## Cuts -/

/-- The text is cut into two parts, of which the second is not empty. -/
def Cut (t u v : Bytes) : Prop := t = u ++ v ∧ v ≠ []

theorem not_cut_nil : ¬ Cut [] u v := fun h => h.2 (List.append_eq_nil_iff.1 h.1.symm).2

theorem Cut.cons (h : Cut y u v) (b : UInt8) : Cut (b :: y) (b :: u) v := ⟨by rw [h.1]; rfl, h.2⟩

/-- A cut goes through the first part of a text or through what follows it. -/
theorem Cut.append_cases (h : Cut (x ++ y) u v) :
    (∃ c, Cut x u c ∧ v = c ++ y) ∨ ∃ u', u = x ++ u' ∧ Cut y u' v := by
  obtain ⟨h, hv⟩ := h
  rcases List.append_eq_append_iff.1 h with ⟨u', rfl, rfl⟩ | ⟨c, rfl, rfl⟩
  · exact .inr ⟨u', rfl, rfl, hv⟩
  · cases c with
    | nil => exact .inr ⟨[], by simp, rfl, hv⟩
    | cons => exact .inl ⟨_, ⟨rfl, List.cons_ne_nil _ _⟩, rfl⟩

theorem Cut.cons_cases (h : Cut (b :: y) u v) : u = [] ∨ ∃ u', u = b :: u' ∧ Cut y u' v := by
  obtain ⟨h, hv⟩ := h
  cases u with
  | nil => exact .inl rfl
  | cons => cases h; exact .inr ⟨_, rfl, rfl, hv⟩

theorem Cut.eq_nil (h : Cut [b] u v) : u = [] := by
  rcases h.cons_cases with rfl | ⟨u', rfl, hu⟩
  · rfl
  · exact absurd hu not_cut_nil

/-- Blanks may be cut, or what follows them. -/
theorem Cut.blank_append_cases (hw : Blank w) (h : Cut (w ++ y) u v) :
    Blank u ∨ ∃ u', u = w ++ u' ∧ Cut y u' v := by
  rcases h.append_cases with ⟨c, ⟨rfl, -⟩, -⟩ | hu
  · exact .inl fun x hx => hw x (List.mem_append_left _ hx)
  · exact .inr hu

theorem Cut.blank_cons_cases (hw : Blank w) (h : Cut (w ++ b :: y) u v) :
    Blank u ∨ ∃ u', u = w ++ b :: u' ∧ Cut y u' v := by
  rcases h.blank_append_cases hw with hu | ⟨u', rfl, hu⟩
  · exact .inl hu
  · rcases hu.cons_cases with rfl | ⟨u', rfl, hy⟩
    · exact .inl (by rwa [List.append_nil])
    · exact .inr ⟨u', rfl, hy⟩

/-- The result is that the text breaks off, or a malformed number where `C` holds. -/
def Breaks {β : Type} (C : Prop) (r : Except Fault β) : Prop :=
  ∃ e, r = .error e ∧ (e.cause.category = .eof ∨ e.cause = .invalidNumber ∧ C)

section
variable {β γ : Type} {r : Except Fault β}

theorem breaks_stop {cause : Cause} (h : cause.category = .eof) (rest : Bytes) :
    Breaks C (stop cause rest : Except Fault β) := ⟨_, rfl, .inl h⟩

theorem Breaks.mono {D : Prop} (h : Breaks C r) (hC : C → D) : Breaks D r := by
  obtain ⟨e, he, h⟩ := h
  exact ⟨e, he, h.imp_right fun h => ⟨h.1, hC h.2⟩⟩

theorem Breaks.map (h : Breaks C r) (f : β → γ) : Breaks C (r.map f) := by
  obtain ⟨e, rfl, h⟩ := h
  exact ⟨e, rfl, h⟩

end

/-! ## Numbers in place of values -/

/-- A number with its sign. -/
inductive NumberToken : Bytes → Prop
  | plain {s : Bytes} (h : NumberText s) : NumberToken s
  | negative {s : Bytes} (h : NumberText s) : NumberToken (0x2D :: s)

/-- The cut goes through a number in whose place any value could stand: the text would still be one
for which `P` holds. -/
def NumberCut (P : Bytes → Prop) (u v : Bytes) : Prop :=
  ∃ x n m y, u = x ++ n ∧ v = m ++ y ∧ n ≠ [] ∧ m ≠ [] ∧ NumberToken (n ++ m) ∧
    ∀ t, ValueText t → P (x ++ (t ++ y))

section
variable {P Q : Bytes → Prop}

theorem NumberCut.mono (h : NumberCut P u v) (hP : ∀ s, P s → Q s) : NumberCut Q u v := by
  obtain ⟨x, n, m, y, hu, hv, hn, hm, ht, h⟩ := h
  exact ⟨x, n, m, y, hu, hv, hn, hm, ht, fun t ht => hP _ (h t ht)⟩

/-- More stands before the text. -/
theorem NumberCut.after (h : NumberCut P u v) (b : Bytes) (hP : ∀ s, P s → Q (b ++ s)) :
    NumberCut Q (b ++ u) v := by
  obtain ⟨x, n, m, y, rfl, rfl, hn, hm, ht, h⟩ := h
  refine ⟨b ++ x, n, m, y, by simp, rfl, hn, hm, ht, fun t ht => ?_⟩
  rw [List.append_assoc]
  exact hP _ (h t ht)

/-- More stands after the text. -/
theorem NumberCut.before (h : NumberCut P u v) (a : Bytes) (hP : ∀ s, P s → Q (s ++ a)) :
    NumberCut Q u (v ++ a) := by
  obtain ⟨x, n, m, y, rfl, rfl, hn, hm, ht, h⟩ := h
  refine ⟨x, n, m, y ++ a, rfl, by simp, hn, hm, ht, fun t ht => ?_⟩
  have := hP _ (h t ht)
  rwa [List.append_assoc, List.append_assoc] at this

/-- The text is a number itself. -/
theorem NumberToken.cut (ht : NumberToken t) (h : Cut t u v) (hu : u ≠ []) :
    NumberCut ValueText u v := by
  obtain ⟨rfl, hv⟩ := h
  exact ⟨[], u, v, [], rfl, by simp, hu, hv, ht, fun t ht => by simpa using ht⟩

end

/-! ## Tokens -/

theorem literal_cut {es : Bytes} (h : Cut es u v) : literal es u = stop .eofInValue [] := by
  induction es generalizing u with
  | nil => exact absurd h not_cut_nil
  | cons e es ih =>
    rcases h.cons_cases with rfl | ⟨u, rfl, hu⟩
    · rfl
    · rw [literal, if_pos rfl, ih hu]

theorem hexUnit_cut {n : Nat} (ht : HexUnit t n) (h : Cut t u v) :
    hexUnit u = stop .eofInString [] := by
  obtain ⟨-, -, -, -⟩ := ht
  rcases h.cons_cases with rfl | ⟨u, rfl, h₁⟩
  · rfl
  rcases h₁.cons_cases with rfl | ⟨u, rfl, h₂⟩
  · rfl
  rcases h₂.cons_cases with rfl | ⟨u, rfl, h₃⟩
  · rfl
  rw [h₃.eq_nil]
  rfl

theorem escape_cut {c : Char} (ht : EscapeText t c) (h : Cut t u v) :
    escape u = stop .eofInString [] := by
  have hc := Utf8.toNat_bounds c
  cases ht with
  | short =>
    rw [h.eq_nil]
    rfl
  | unicode ht =>
    rcases h.cons_cases with rfl | ⟨u, rfl, hu⟩
    · rfl
    · rw [escape, if_pos rfl, unicodeEscape, hexUnit_cut ht hu]
      rfl
  | @pair t t' _ _ ht ht' =>
    rcases h.cons_cases with rfl | ⟨u, rfl, hu⟩
    · rfl
    rw [escape, if_pos rfl, unicodeEscape]
    rcases hu.append_cases with ⟨c, hhigh, -⟩ | ⟨u, rfl, hlow⟩
    · rw [hexUnit_cut ht hhigh]
      rfl
    · rw [hexUnit_append ht]
      show ite _ _ (ite _ (lowSurrogate _ u) _) = _
      rw [if_neg (by rw [isLowSurrogate_iff]; omega), if_pos (by rw [isHighSurrogate_iff]; omega)]
      -- the second escape is cut in front of its digits or among them
      rcases hlow.cons_cases with rfl | ⟨u, rfl, hmark⟩
      · rfl
      rcases hmark.cons_cases with rfl | ⟨u, rfl, hdigits⟩
      · rfl
      rw [lowSurrogate, if_neg (by decide)]
      show ite _ _ _ = _
      rw [if_neg (by decide), hexUnit_cut ht' hdigits]
      rfl

theorem go_plain {p : Bytes} (hp : ∀ b ∈ p, isPlainByte b = true) (read : Bytes) :
    stringBytes.go read p = stop .eofInString [] := by
  have hd : p.dropWhile isPlainByte = [] := by
    rw [← List.append_nil p, List.dropWhile_append_of_pos hp, List.dropWhile_nil]
  rw [stringBytes.go.eq_def]
  split
  · rfl
  next hs => cases hd.symm.trans hs

theorem go_cut_escape {p e d : Bytes} {c : Char} (hp : ∀ b ∈ p, isPlainByte b = true)
    (he : EscapeText e c) (h : Cut e u d) (read : Bytes) :
    stringBytes.go read (p ++ 0x5C :: u) = stop .eofInString [] := by
  obtain ⟨-, hd⟩ := span_append_cons hp (b := 0x5C) rfl u
  rw [stringBytes.go.eq_def]
  split
  · rfl
  next hs =>
    rw [hd] at hs
    cases hs
    simp only
    rw [if_neg (by decide), if_neg (by decide)]
    split
    next hx => rw [escape_cut he h] at hx; cases hx; rfl
    next hx => rw [escape_cut he h] at hx; cases hx

theorem go_cut {p : Bytes} (ht : Collects t y) (hp : ∀ b ∈ p, isPlainByte b = true)
    (h : Cut (t ++ [0x22]) u v) (read : Bytes) :
    stringBytes.go read (p ++ u) = stop .eofInString [] := by
  -- as in `go_of_collects`, `p` are the plain bytes that have been passed
  induction ht generalizing p u read with
  | nil =>
    rw [h.eq_nil, List.append_nil]
    exact go_plain hp read
  | @plain b t y hb _ ih =>
    rcases h.cons_cases with rfl | ⟨u, rfl, hu⟩
    · rw [List.append_nil]
      exact go_plain hp read
    · have hpb : ∀ x ∈ p ++ [b], isPlainByte x = true :=
        List.forall_mem_append.2 ⟨hp, List.forall_mem_singleton.2 hb⟩
      rw [List.append_cons]
      exact ih hpb hu read
  | @escape e t y c he _ ih =>
    rw [List.cons_append, List.append_assoc] at h
    rcases h.cons_cases with rfl | ⟨u, rfl, hu⟩
    · rw [List.append_nil]
      exact go_plain hp read
    rcases hu.append_cases with ⟨d, hx, -⟩ | ⟨u, rfl, ht⟩
    · exact go_cut_escape hp he hx read
    · rw [go_escape hp he]
      exact ih (p := []) (fun _ h => absurd h List.not_mem_nil) ht _

/-- **A string that is cut breaks off**: behind any byte, in an escape or between two that stand for
one character. -/
theorem string_cut {text : String} (ht : CharsText t text.toList) (h : Cut (t ++ [0x22]) u v) :
    string u = stop .eofInString [] := by
  have hgo := go_cut ht.collects (p := []) (fun _ h => absurd h List.not_mem_nil) h []
  rw [List.nil_append] at hgo
  rw [string, stringBytes, hgo]
  rfl

theorem skipEscape_cut {e : Bytes} (ht : SkippedChar (0x5C :: e)) (h : Cut e u v) :
    skipEscape u = stop .eofInString [] := by
  cases ht with
  | plain _ _ hb => exact absurd rfl hb
  | short =>
    rw [h.eq_nil]
    rfl
  | unicode ht =>
    rcases h.cons_cases with rfl | ⟨u, rfl, hu⟩
    · rfl
    · rw [skipEscape, if_pos rfl, hexUnit_cut ht hu]
      rfl

theorem skipString_cut_char {e : Bytes} (ht : SkippedChar (0x5C :: e)) (h : Cut (0x5C :: e) u v) :
    skipString u = stop .eofInString [] := by
  rcases h.cons_cases with rfl | ⟨u, rfl, hu⟩
  · rw [skipString]
  · rw [skipString.eq_def]
    simp only
    rw [if_neg (by decide), if_pos trivial]
    split
    next hx => rw [skipEscape_cut ht hu] at hx; cases hx; rfl
    next hx => rw [skipEscape_cut ht hu] at hx; cases hx

theorem skipString_cut (ht : SkippedChars t) (h : Cut (t ++ [0x22]) u v) :
    skipString u = stop .eofInString [] := by
  induction ht generalizing u with
  | nil => rw [h.eq_nil, skipString]
  | @cons s t hs _ ih =>
    rw [List.append_assoc] at h
    rcases h.append_cases with ⟨c, hu, -⟩ | ⟨u, rfl, hu⟩
    · have hchar := hs
      cases hs with
      | plain => rw [hu.eq_nil, skipString]
      | short | unicode => exact skipString_cut_char hchar hu
    · rw [skipString_char hs, ih hu]

/-! ## Numbers -/

/-- Digits that something else ends are the same, whatever follows. -/
theorem skipDigits_extend (hne : skipDigits s ≠ []) (v : Bytes) :
    skipDigits (s ++ v) = skipDigits s ++ v := by
  obtain ⟨t, ht, hs⟩ := exists_of_skipDigits s
  obtain ⟨b, r, h⟩ := List.exists_cons_of_ne_nil hne
  have hb : isDigit b = false := eq_false_of_dropWhile h
  rw [h] at hs ⊢
  rw [hs, List.append_assoc]
  refine skipDigits_append ht fun x hx hdigit => ?_
  cases hx
  rw [isDigit_iff.2 hdigit] at hb
  cases hb

theorem skipExponent_extend (h : skipExponent s = .ok rest) (hne : rest ≠ []) (v : Bytes) :
    skipExponent (s ++ v) = .ok (rest ++ v) := by
  have hdigits {b : UInt8} {r : Bytes} (h : (if isDigit b then .ok (skipDigits r)
      else stop .invalidNumber r : Except Fault Bytes) = .ok rest) :
      (if isDigit b then .ok (skipDigits (r ++ v)) else stop .invalidNumber (r ++ v)) =
        (.ok (rest ++ v) : Except Fault Bytes) := by
    split at h
    next hb =>
      cases h
      rw [if_pos hb, skipDigits_extend hne]
    · cases h
  cases s with
  | nil => cases h
  | cons c r =>
    simp only [skipExponent, List.cons_append] at h ⊢
    split at h
    · cases h
    next hs =>
      split at hs
      next hc =>
        rw [if_pos hc, hs]
        exact hdigits h
      next hc =>
        rw [if_neg hc]
        cases hs
        exact hdigits h

theorem skipExponent?_extend (h : skipExponent? s = .ok rest) (hne : rest ≠ []) (v : Bytes) :
    skipExponent? (s ++ v) = .ok (rest ++ v) := by
  cases s with
  | nil => cases h; exact absurd rfl hne
  | cons b r =>
    simp only [skipExponent?, List.cons_append] at h ⊢
    split at h
    next hb => rw [if_pos hb, skipExponent_extend h hne]
    next hb => cases h; rw [if_neg hb]; rfl

theorem skipFraction_extend (h : skipFraction s = .ok rest) (hne : rest ≠ []) (v : Bytes) :
    skipFraction (s ++ v) = .ok (rest ++ v) := by
  cases s with
  | nil => cases h; exact absurd rfl hne
  | cons b r =>
    simp only [skipFraction, List.cons_append] at h ⊢
    split at h
    next hb =>
      rw [if_pos hb]
      split at h
      next hd =>
        have hdigit : startsWithDigit (r ++ v) = true := by
          obtain ⟨d, hd, hr⟩ := exists_digits hd
          rw [hr, List.append_assoc]
          exact startsWithDigit_append hd
        have hrest : skipDigits r ≠ [] := by
          intro hnil
          rw [hnil] at h
          cases h
          exact hne rfl
        rw [if_pos hdigit, skipDigits_extend hrest, skipExponent?_extend h hne]
      · cases h
    next hb => rw [if_neg hb, ← List.cons_append, skipExponent?_extend h hne]

/-- A number that something else ends is the same, whatever follows. -/
theorem skipNumber_extend (h : skipNumber s = .ok rest) (hne : rest ≠ []) (v : Bytes) :
    skipNumber (s ++ v) = .ok (rest ++ v) := by
  have hnil {r : Bytes} (h : skipFraction r = .ok rest) : r ≠ [] := by
    rintro rfl
    cases h
    exact hne rfl
  cases s with
  | nil => cases h
  | cons b r =>
    simp only [skipNumber, List.cons_append] at h ⊢
    split at h
    next hb =>
      rw [if_pos hb]
      split at h
      · cases h
      next hd =>
        obtain ⟨c, r, rfl⟩ := List.exists_cons_of_ne_nil (hnil h)
        rw [List.cons_append, if_neg (by exact hd), ← List.cons_append, skipFraction_extend h hne]
    next hb =>
      rw [if_neg hb]
      split at h
      next hd => rw [if_pos hd, skipDigits_extend (hnil h), skipFraction_extend h hne]
      · cases h

theorem cause_of_skipExponent? {e : Fault} (h : skipExponent? s = .error e) :
    e.cause = .invalidNumber := by
  unfold skipExponent? at h
  split at h
  · cases h
  split at h
  · simp only [skipExponent] at h
    split at h
    · cases h; rfl
    split at h <;> cases h
    rfl
  · cases h

theorem cause_of_skipFraction {e : Fault} (h : skipFraction s = .error e) :
    e.cause = .invalidNumber := by
  unfold skipFraction at h
  split at h
  · cases h
  split at h
  · split at h
    · exact cause_of_skipExponent? h
    · cases h; rfl
  · exact cause_of_skipExponent? h

theorem cause_of_skipNumber {e : Fault} (h : skipNumber s = .error e) :
    e.cause = .invalidNumber := by
  unfold skipNumber at h
  split at h
  · cases h; rfl
  split at h
  · split at h
    · cases h; rfl
    · exact cause_of_skipFraction h
  split at h
  · exact cause_of_skipFraction h
  · cases h; rfl

/-- **A number that is cut ends at the cut or is malformed.** -/
theorem skipNumber_cut (ht : NumberText t) (h : Cut t u v) :
    (∃ e, skipNumber u = .error e ∧ e.cause = .invalidNumber) ∨ skipNumber u = .ok [] := by
  obtain ⟨rfl, hv⟩ := h
  cases hu : skipNumber u with
  | error e => exact .inl ⟨e, rfl, cause_of_skipNumber hu⟩
  | ok rest =>
    refine .inr (congrArg _ (Decidable.byContradiction fun hne => ?_))
    have hwhole : skipNumber (u ++ v ++ []) = .ok [] := skipNumber_append ht fun b hb => by cases hb
    rw [List.append_nil, skipNumber_extend hu hne v] at hwhole
    exact hv (List.append_eq_nil_iff.1 (Except.ok.inj hwhole)).2

/-! ## Values that are passed over -/

theorem colon_blank (hw : Blank w) : colon w = stop .eofInObject [] := by
  rw [colon, skipBlank_blank hw]

/-- What does not break off ends at the cut, with a number. -/
theorem skipScalar_cut (ht : ScalarText (b :: t)) (h : Cut t u v) :
    Breaks (NumberCut ValueText (b :: u) v) (skipScalar b u) ∨ skipScalar b u = .ok [] := by
  have hcut := h.cons b
  have hliteral {es : Bytes} (h : Cut es u v) :
      Breaks (NumberCut ValueText (b :: u) v) (literal es u) := by
    rw [literal_cut h]
    exact breaks_stop rfl []
  have hnumber {s : Bytes} (ht : NumberToken (b :: t))
      (hs : (∃ e, skipNumber s = .error e ∧ e.cause = .invalidNumber) ∨ skipNumber s = .ok []) :
      Breaks (NumberCut ValueText (b :: u) v) (skipNumber s) ∨ skipNumber s = .ok [] :=
    hs.imp_left fun ⟨e, he, hcause⟩ =>
      ⟨e, he, .inr ⟨hcause, ht.cut hcut (List.cons_ne_nil _ _)⟩⟩
  cases ht with
  | nullWord | trueWord | falseWord => exact .inl (hliteral h)
  | string hs =>
    cases hs with
    | mk hs =>
      left
      show Breaks _ (skipString u)
      rw [skipString_cut hs h]
      exact breaks_stop rfl []
  | number hn =>
    obtain ⟨_, _, he, hb⟩ := hn.exists_cons
    cases he
    rw [skipScalar_digit hb]
    exact hnumber (.plain hn) (skipNumber_cut hn hcut)
  | negative hn => exact hnumber (.negative hn) (skipNumber_cut hn h)

/-- A name that is cut breaks off, or the cut is behind its colon. -/
theorem skipKey_cut {k : Bytes} (hw : Blank w) (hk : SkippedString k) (hx : Blank x)
    (h : Cut (k ++ (x ++ 0x3A :: y)) u v) :
    Breaks C (skipKey (w ++ u)) ∨ ∃ u', u = k ++ (x ++ 0x3A :: u') ∧ Cut y u' v := by
  cases hk with
  | @mk k hk =>
    rcases h.cons_cases with rfl | ⟨u, rfl, hu⟩
    · left
      rw [List.append_nil, skipKey, skipBlank_blank hw]
      exact breaks_stop rfl []
    rw [skipKey, skipBlank_append hw rfl]
    simp only [if_true]
    rcases hu.append_cases with ⟨c, hname, -⟩ | ⟨u, rfl, hcolon⟩
    · left
      rw [skipString_cut hk hname]
      exact breaks_stop rfl []
    · rcases hcolon.blank_cons_cases hx with hblank | ⟨u, rfl, hy⟩
      · left
        rw [List.append_assoc, List.singleton_append, skipString_append hk]
        simp only [colon_blank hblank]
        exact breaks_stop rfl []
      · exact .inr ⟨u, by simp, hy⟩

section
variable {stack : List Frame} {f : Frame}

theorem breaks_skip_value (hw : Blank w) : Breaks C (skip stack .value w) := by
  have hs := skipBlank_blank hw
  rw [skip.eq_def]
  simp only
  split
  next => exact breaks_stop rfl []
  next heq => rw [hs] at heq; cases heq

theorem breaks_skip_member (h : Breaks C (skipKey s)) : Breaks C (skip stack .member s) := by
  obtain ⟨e, he, h⟩ := h
  rw [skip.eq_def]
  simp only
  split
  next he' => rw [he] at he'; cases he'; exact ⟨e, rfl, h⟩
  next he' => rw [he] at he'; cases he'

theorem breaks_skip_item (hw : Blank w) : Breaks C (skip stack f.item w) := by
  cases f with
  | list => exact breaks_skip_value hw
  | object =>
    refine breaks_skip_member ?_
    rw [skipKey, skipBlank_blank hw]
    exact breaks_stop rfl []

theorem breaks_skip_commaOrEnd (hw : Blank w) :
    Breaks C (skip (f :: stack) .commaOrEnd w) := by
  have hs := skipBlank_blank hw
  rw [skip.eq_def]
  simp only
  split
  next => exact breaks_stop (by cases f <;> rfl) []
  next heq => rw [hs] at heq; cases heq

theorem breaks_skip_open (hw : Blank w) (hv : Blank v) :
    Breaks C (skip stack .value (w ++ f.opening :: v)) := by
  have hf := skipBlank_append hw (by cases f <;> rfl : isBlankByte f.opening = false) v
  have hs := skipBlank_blank hv
  rw [skip.eq_def]
  simp only
  split
  next heq => rw [hf] at heq; cases heq
  next heq =>
    rw [hf] at heq
    cases heq
    split
    next g hg =>
      rw [opened?_opening] at hg
      cases hg
      split
      next => exact breaks_stop (by cases f <;> rfl) []
      next heq => rw [hs] at heq; cases heq
    next hg => rw [opened?_opening] at hg; cases hg

/-- What does not break off ends at the cut, with a number. -/
def CutsValue (t : Bytes) : Prop :=
  ∀ (stack : List Frame) (w u v : Bytes), Blank w → Cut t u v →
    Breaks (NumberCut ValueText u v) (skip stack .value (w ++ u)) ∨
      skip stack .value (w ++ u) = skip stack .commaOrEnd []

/-- Inside a container also a number that ends at the cut breaks off. -/
def CutsItem (f : Frame) (t : Bytes) : Prop :=
  ∀ (stack : List Frame) (w u v : Bytes), Blank w → Cut t u v →
    Breaks (NumberCut (ItemText f) u v) (skip (f :: stack) f.item (w ++ u))

def CutsRest (f : Frame) (s : Bytes) : Prop :=
  ∀ (stack : List Frame) (u v : Bytes), Cut s u v →
    Breaks (NumberCut (RestText f) u v) (skip (f :: stack) .commaOrEnd u)

theorem CutsValue.breaks (ht : CutsValue t) (hw : Blank w) (h : Cut t u v) :
    Breaks (NumberCut ValueText u v) (skip (f :: stack) .value (w ++ u)) := by
  rcases ht (f :: stack) w u v hw h with hbreak | he
  · exact hbreak
  · rw [he]
    exact breaks_skip_commaOrEnd blank_nil

theorem skipsItem (ht : ItemText f t) : SkipsItem f t := by
  intro stack w rest hw hr
  cases ht with
  | value ht => exact skipsValue ht stack w rest hw hr
  | member hk hu hv ht =>
    rw [List.append_assoc, List.append_assoc, List.cons_append, List.append_assoc]
    show skip stack .member _ = _
    rw [skip_member hw hk hu, skipsValue ht stack _ rest hv hr]

/-- Where nothing goes on with a number, nothing does in front of a cut. -/
theorem Cut.separated (h : Cut s u v) (hs : Separated (s ++ [])) : Separated u := by
  rw [List.append_nil, h.1] at hs
  cases u with
  | nil => exact fun b hb => by cases hb
  | cons b u => exact hs

/-- An item and what follows it. -/
theorem breaks_skip_items (ht : ItemText f t) (hs : RestText f s) (iht : CutsItem f t)
    (ihs : CutsRest f s) (hw : Blank w) (h : Cut (t ++ s) u v) :
    Breaks (NumberCut (fun s' => ∃ t' r, ItemText f t' ∧ RestText f r ∧ s' = t' ++ r) u v)
      (skip (f :: stack) f.item (w ++ u)) := by
  rcases h.append_cases with ⟨c, hitem, rfl⟩ | ⟨u, rfl, hrest⟩
  · refine (iht stack w u c hw hitem).mono fun hc => ?_
    exact hc.before s fun t' ht' => ⟨t', s, ht', hs, rfl⟩
  · rw [skipsItem ht (f :: stack) w u hw (hrest.separated hs.separated)]
    refine (ihs stack u v hrest).mono fun hc => ?_
    exact hc.after t fun r hr => ⟨t, r, ht, hr, rfl⟩

/-- **A value that is cut breaks off**, at any depth, unless it is a number: by induction on the
derivation, with the two other relations of the grammar. -/
theorem cutsValue (ht : ValueText t) : CutsValue t := by
  refine @ValueText.rec (fun t _ => CutsValue t) (fun f t _ => CutsItem f t)
    (fun f s _ => CutsRest f s) ?scalar ?empty ?items ?value ?member ?close ?comma t ht
  case scalar =>
    intro t ht stack w u v hw h
    obtain ⟨b, r, rfl, hb, ho, -⟩ := ht.exists_cons
    rcases h.cons_cases with rfl | ⟨u, rfl, hu⟩
    · rw [List.append_nil]
      exact .inl (breaks_skip_value hw)
    rw [skip_scalar_start hw hb ho]
    rcases skipScalar_cut ht hu with ⟨e, he, hbreak⟩ | he
    · rw [he]
      exact .inl ⟨e, rfl, hbreak⟩
    · rw [he]
      exact .inr rfl
  case empty =>
    intro f x hx stack w u v hw h
    left
    rcases h.cons_cases with rfl | ⟨u, rfl, hu⟩
    · rw [List.append_nil]
      exact breaks_skip_value hw
    · rcases hu.blank_cons_cases hx with hblank | ⟨u, rfl, hnil⟩
      · exact breaks_skip_open hw hblank
      · exact absurd hnil not_cut_nil
  case items =>
    intro f x t s hx ht hs iht ihs stack w u v hw h
    left
    rcases h.cons_cases with rfl | ⟨u, rfl, hu⟩
    · rw [List.append_nil]
      exact breaks_skip_value hw
    obtain ⟨b, r, he, hb, hc⟩ := ht.apart.append s
    rw [he] at hu
    rcases hu.blank_cons_cases hx with hblank | ⟨u, rfl, hr⟩
    · exact breaks_skip_open hw hblank
    · have hbody : Cut (t ++ s) (b :: u) v := he ▸ hr.cons b
      rw [skip_open hw hx hb, if_neg hc]
      refine (breaks_skip_items (w := []) ht hs iht ihs blank_nil hbody).mono fun hcut => ?_
      have hvalue := hcut.after (f.opening :: x) (Q := ValueText) ?_
      · simpa using hvalue
      · rintro _ ⟨t', r', ht', hr', rfl⟩
        exact .items hx ht' hr'
  case value =>
    intro t _ iht stack w u v hw h
    exact (iht.breaks hw h).mono fun hc => hc.mono fun _ => .value
  case member =>
    intro k x y t hk hx hy ht iht stack w u v hw h
    rcases skipKey_cut hw hk hx h with hbreak | ⟨u, rfl, hu⟩
    · exact breaks_skip_member hbreak
    show Breaks _ (skip (Frame.object :: stack) .member _)
    rw [skip_member hw hk hx]
    rcases hu.blank_append_cases hy with hblank | ⟨u, rfl, hvalue⟩
    · exact breaks_skip_value hblank
    · refine (iht.breaks hy hvalue).mono fun hcut => ?_
      have hitem := hcut.after (k ++ (x ++ 0x3A :: y)) (Q := ItemText .object) ?_
      · simpa using hitem
      · intro t' ht'
        simpa using ItemText.member hk hx hy ht'
  case close =>
    intro f w hw stack u v h
    rcases h.blank_cons_cases hw with hblank | ⟨u, rfl, hnil⟩
    · exact breaks_skip_commaOrEnd hblank
    · exact absurd hnil not_cut_nil
  case comma =>
    intro f w x t s hw hx ht hs iht ihs stack u v h
    rcases h.blank_cons_cases hw with hblank | ⟨u, rfl, hu⟩
    · exact breaks_skip_commaOrEnd hblank
    rw [skip_comma hw]
    rcases hu.blank_append_cases hx with hblank | ⟨u, rfl, hbody⟩
    · exact breaks_skip_item hblank
    · refine (breaks_skip_items ht hs iht ihs hx hbody).mono fun hcut => ?_
      have hrest := hcut.after (w ++ 0x2C :: x) (Q := RestText f) ?_
      · simpa using hrest
      · rintro _ ⟨t', r', ht', hr', rfl⟩
        simpa using RestText.comma hw hx ht' hr'

/-- The cut is one of the value, which ends there with a number if it does not break off, or it is
behind the value. -/
theorem skipValue_cut (hw : Blank w) (ht : ValueText t) (h : Cut (w ++ (t ++ s)) u v) :
    Breaks (∃ u' c, u = w ++ u' ∧ v = c ++ s ∧ NumberCut ValueText u' c) (skipValue u) ∨
      skipValue u = .ok [] ∨ ∃ u', u = w ++ (t ++ u') ∧ Cut s u' v := by
  rcases h.blank_append_cases hw with hblank | ⟨u, rfl, hu⟩
  · exact .inl (breaks_skip_value hblank)
  rcases hu.append_cases with ⟨c, hvalue, rfl⟩ | ⟨u, rfl, hrest⟩
  · rcases cutsValue ht [] w u c hw hvalue with hbreak | he
    · exact .inl (hbreak.mono fun hc => ⟨u, c, rfl, rfl, hc⟩)
    · right; left
      rw [skipValue, he, skip.eq_def]
  · exact .inr (.inr ⟨u, rfl, hrest⟩)

end

/-! ## From item to item -/

section
variable {α : Type} {value : Reader α} {first : Bool} {c k : Bytes} {name : String}
  {acc : List α} {macc : List (String × α)}

/-- Blanks and a comma may be cut, or what follows them. -/
theorem Separator.cut_cases (hv : Separator first v) (h : Cut (v ++ b :: y) u c) :
    Blank u ∨ Separator first u ∨ ∃ u', u = v ++ b :: u' ∧ Cut y u' c := by
  cases hv with
  | first hw => exact (h.blank_cons_cases hw).imp_right .inr
  | @comma w x hw hx =>
    rw [List.append_assoc, List.cons_append] at h
    rcases h.blank_cons_cases hw with hu | ⟨u, rfl, hu⟩
    · exact .inl hu
    · rcases hu.blank_cons_cases hx with hu' | ⟨u, rfl, hy⟩
      · exact .inr (.inl (.comma hw hu'))
      · exact .inr (.inr ⟨u, by simp, hy⟩)

theorem breaks_nextItem_blank (hw : Blank w) : Breaks C (nextItem first w) := by
  rw [nextItem, skipBlank_blank hw]
  exact breaks_stop rfl []

theorem breaks_nextItem (hv : Separator first v) : Breaks C (nextItem first v) := by
  cases hv with
  | first hw => exact breaks_nextItem_blank hw
  | comma hw hx =>
    rw [nextItem, skipBlank_append hw rfl]
    simp only [skipBlank_blank hx]
    exact breaks_stop rfl []

theorem breaks_nextMember_blank (hw : Blank w) : Breaks C (nextMember first w) := by
  rw [nextMember, skipBlank_blank hw]
  exact breaks_stop rfl []

theorem breaks_nextMember (hv : Separator first v) : Breaks C (nextMember first v) := by
  cases hv with
  | first hw => exact breaks_nextMember_blank hw
  | comma hw hx =>
    rw [nextMember, skipBlank_append hw rfl]
    simp only [skipBlank_blank hx]
    exact breaks_stop rfl []

theorem nextItem_cut (hv : Separator first v) (hs : Apart 0x5D s) (h : Cut (v ++ s) u c) :
    Breaks C (nextItem first u) ∨
      ∃ u', u = v ++ u' ∧ Cut s u' c ∧ nextItem first u = .ok (.item u') := by
  obtain ⟨b, r, rfl, hb, hne⟩ := hs
  rcases hv.cut_cases h with hu | hu | ⟨u, rfl, hr⟩
  · exact .inl (breaks_nextItem_blank hu)
  · exact .inl (breaks_nextItem hu)
  · exact .inr ⟨b :: u, rfl, hr.cons b, nextItem_item hv ⟨b, u, rfl, hb, hne⟩⟩

theorem nextMember_cut (hv : Separator first v) (h : Cut (v ++ 0x22 :: s) u c) :
    Breaks C (nextMember first u) ∨ ∃ u', u = v ++ 0x22 :: u' ∧ Cut s u' c := by
  rcases hv.cut_cases h with hu | hu | hu
  · exact .inl (breaks_nextMember_blank hu)
  · exact .inl (breaks_nextMember hu)
  · exact .inr hu

theorem breaks_items_of_next (h : Breaks C (nextItem first s)) :
    Breaks C (items value first acc s) := by
  obtain ⟨e, he, h⟩ := h
  rw [items.eq_def]
  split
  next he' => rw [he] at he'; cases he'; exact ⟨e, rfl, h⟩
  next he' => rw [he] at he'; cases he'
  next he' => rw [he] at he'; cases he'

theorem breaks_items_of_item (h : nextItem first s = .ok (.item t)) (ha : Breaks C (value.read t)) :
    Breaks C (items value first acc s) := by
  obtain ⟨e, he, ha⟩ := ha
  rw [items.eq_def]
  split
  next h' => rw [h] at h'; cases h'
  next h' => rw [h] at h'; cases h'
  next h' =>
    rw [h] at h'
    cases h'
    split
    next he' => rw [he] at he'; cases he'; exact ⟨e, rfl, ha⟩
    next he' => rw [he] at he'; cases he'

/-- The text breaks off in a name or in front of the colon behind it. -/
def NameBreaks (name : String) (s : Bytes) : Prop :=
  string s = stop .eofInString [] ∨
    ∃ r, string s = .ok (name, r) ∧ colon r = stop .eofInObject []

theorem name_cut (hk : CharsText k name.toList) (hw : Blank w)
    (h : Cut (k ++ 0x22 :: (w ++ 0x3A :: y)) u v) :
    NameBreaks name u ∨ ∃ u', u = k ++ 0x22 :: (w ++ 0x3A :: u') ∧ Cut y u' v := by
  rw [List.append_cons] at h
  rcases h.append_cases with ⟨c, hname, -⟩ | ⟨u, rfl, hcolon⟩
  · exact .inl (.inl (string_cut hk hname))
  · rw [← List.append_cons]
    rcases hcolon.blank_cons_cases hw with hblank | ⟨u, rfl, hy⟩
    · exact .inl (.inr ⟨u, string_append hk u, colon_blank hblank⟩)
    · exact .inr ⟨u, rfl, hy⟩

theorem NameBreaks.key (h : NameBreaks name s) : Breaks C (key s) := by
  rcases h with hs | ⟨r, hs, hc⟩
  · rw [Json.key, hs]
    exact breaks_stop rfl []
  · rw [Json.key, hs]
    simp only [hc]
    exact breaks_stop rfl []

theorem breaks_members_of_next (h : Breaks C (nextMember first s)) :
    Breaks C (members value first macc s) := by
  obtain ⟨e, he, h⟩ := h
  rw [members.eq_def]
  split
  next he' => rw [he] at he'; cases he'; exact ⟨e, rfl, h⟩
  next he' => rw [he] at he'; cases he'
  next he' => rw [he] at he'; cases he'

theorem breaks_members_of_name (h : nextMember first s = .ok (.item t)) (hk : NameBreaks name t) :
    Breaks C (members value first macc s) := by
  obtain ⟨e, he, hk⟩ : Breaks C (key t) := hk.key
  rw [members.eq_def]
  split
  next h' => rw [h] at h'; cases h'
  next h' => rw [h] at h'; cases h'
  next h' =>
    rw [h] at h'
    cases h'
    split
    next he' => rw [he] at he'; cases he'; exact ⟨e, rfl, hk⟩
    next he' => rw [he] at he'; cases he'

theorem breaks_members_of_item (h : nextMember first s = .ok (.item t))
    (hk : key t = .ok (name, u)) (ha : Breaks C (value.read u)) :
    Breaks C (members value first macc s) := by
  obtain ⟨e, he, ha⟩ := ha
  rw [members.eq_def]
  split
  next h' => rw [h] at h'; cases h'
  next h' => rw [h] at h'; cases h'
  next h' =>
    rw [h] at h'
    cases h'
    split
    next hk' => rw [hk] at hk'; cases hk'
    next hk' =>
      rw [hk] at hk'
      cases hk'
      split
      next he' => rw [he] at he'; cases he'; exact ⟨e, rfl, ha⟩
      next he' => rw [he] at he'; cases he'

end

end Findings.Json
