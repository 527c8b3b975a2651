import Findings.Proofs.Json.Strings

/-!
# Skipping values

`Json.skipValue` passes over the values of the grammar, with blanks before them, and nothing else:

* `skipValue_append`: it passes over any value, at any depth. What follows must not go on with a
  number that ends the value (`Separated`).
* `exists_of_skipValue`: what it passes over is a value.

Route. `skip` keeps the open containers on a stack. `Closed stack s` says that `s` holds what is
left of each of them, innermost first, and `Pending` adds what is awaited before that: one reading
of the state of the machine at every step.
-/

set_option autoImplicit false

namespace Findings.Json

variable {s t w rest : Bytes} {b : UInt8}

/-! ## Blanks and literals -/

theorem isBlankByte_iff :
    isBlankByte b = true ↔ b = 0x20 ∨ b = 0x0A ∨ b = 0x09 ∨ b = 0x0D := by
  simp [isBlankByte, or_assoc]

theorem Blank.append {v : Bytes} (hw : Blank w) (hv : Blank v) : Blank (w ++ v) :=
  List.forall_mem_append.2 ⟨hw, hv⟩

theorem blank_nil : Blank [] := fun _ h => absurd h List.not_mem_nil

theorem blank_of_all (h : w.all isBlankByte = true) : Blank w := fun x hx =>
  isBlankByte_iff.1 (List.all_eq_true.1 h x hx)

theorem skipBlank_append (hw : Blank w) (hb : isBlankByte b = false) (s : Bytes) :
    skipBlank (w ++ b :: s) = b :: s :=
  (span_append_cons (fun x hx => isBlankByte_iff.2 (hw x hx)) hb s).2

/-- The text starts with a byte that is neither blank nor `x`. -/
def Apart (x : UInt8) (s : Bytes) : Prop := ∃ b r, s = b :: r ∧ isBlankByte b = false ∧ b ≠ x

theorem Apart.append {x : UInt8} (h : Apart x s) (t : Bytes) : Apart x (s ++ t) := by
  obtain ⟨b, r, rfl, hb⟩ := h
  exact ⟨b, r ++ t, rfl, hb⟩

theorem skipBlank_blank (hw : Blank w) : skipBlank w = [] := by
  rw [skipBlank, ← List.append_nil w,
    List.dropWhile_append_of_pos fun x hx => isBlankByte_iff.2 (hw x hx), List.dropWhile_nil]

theorem exists_of_skipBlank (h : skipBlank s = t) : ∃ w, Blank w ∧ s = w ++ t := by
  obtain ⟨hw, hs⟩ := span_spec isBlankByte s
  exact ⟨_, fun x hx => isBlankByte_iff.1 (hw x hx), h ▸ hs⟩

theorem colon_append (hw : Blank w) (rest : Bytes) : colon (w ++ 0x3A :: rest) = .ok rest := by
  rw [colon, skipBlank_append hw rfl]
  exact if_pos rfl

theorem exists_of_colon (h : colon s = .ok rest) : ∃ w, Blank w ∧ s = w ++ 0x3A :: rest := by
  unfold colon at h
  split at h
  · cases h
  next heq =>
    split at h
    next hb =>
      cases h
      rw [hb] at heq
      exact exists_of_skipBlank heq
    · cases h

theorem literal_append (es rest : Bytes) : literal es (es ++ rest) = .ok rest := by
  induction es with
  | nil => rfl
  | cons e es ih => rw [List.cons_append, literal, if_pos rfl, ih]

theorem eq_of_literal {es : Bytes} (h : literal es s = .ok rest) : s = es ++ rest := by
  fun_induction literal es s with
  | case1 => cases h; rfl
  | case2 => cases h
  | case3 b es s ih => rw [ih h]; rfl
  | case4 => cases h

/-! ## Numbers -/

/-- No digit stands in front. -/
def Stops (s : Bytes) : Prop := ∀ b ∈ s.head?, ¬ IsDigit b

/-- Nothing stands in front that could go on with a number. -/
def Separated (s : Bytes) : Prop :=
  ∀ b ∈ s.head?, ¬ IsDigit b ∧ b ≠ 0x2E ∧ isExponentMark b = false

theorem isDigit_iff : isDigit b = true ↔ IsDigit b := Utf8.between_iff

theorem Separated.stops (h : Separated s) : Stops s := fun b hb => (h b hb).1

theorem skipDigits_append (hs : ∀ b ∈ s, IsDigit b) (h : Stops rest) :
    skipDigits (s ++ rest) = rest := by
  rw [skipDigits, List.dropWhile_append_of_pos fun b hb => isDigit_iff.2 (hs b hb)]
  cases rest with
  | nil => rfl
  | cons b r => exact List.dropWhile_cons_of_neg fun hb => h b rfl (isDigit_iff.1 hb)

theorem exists_of_skipDigits (s : Bytes) :
    ∃ t, (∀ b ∈ t, IsDigit b) ∧ s = t ++ skipDigits s := by
  obtain ⟨ht, hs⟩ := span_spec isDigit s
  exact ⟨_, fun b hb => isDigit_iff.1 (ht b hb), hs⟩

theorem startsWithDigit_append (h : Digits s) : startsWithDigit (s ++ rest) = true := by
  obtain ⟨hne, hs⟩ := h
  cases s with
  | nil => exact absurd rfl hne
  | cons b s => exact isDigit_iff.2 (hs b List.mem_cons_self)

theorem startsWithDigit_eq_false (h : Stops s) : startsWithDigit s = false := by
  cases s with
  | nil => rfl
  | cons b s => exact Bool.eq_false_iff.2 fun hb => h b rfl (isDigit_iff.1 hb)

/-- Digits of which the first has been looked at. -/
theorem exists_digits (h : startsWithDigit s = true) : ∃ t, Digits t ∧ s = t ++ skipDigits s := by
  obtain ⟨t, ht, hs⟩ := exists_of_skipDigits s
  refine ⟨t, ⟨?_, ht⟩, hs⟩
  rintro rfl
  cases s with
  | nil => cases h
  | cons b s =>
    rw [skipDigits, List.dropWhile_cons_of_pos (p := isDigit) h] at hs
    have := congrArg List.length hs
    have := (List.dropWhile_sublist isDigit (l := s)).length_le
    simp only [List.nil_append, List.length_cons] at *
    omega

theorem ExponentText.stops {e : Bytes} (he : ExponentText e) (h : Stops rest) :
    Stops (e ++ rest) := by
  cases he with
  | absent => exact h
  | digits he =>
    intro b hb
    cases hb
    rcases he with rfl | rfl <;> simp [IsDigit]

theorem FractionText.stops {f : Bytes} (hf : FractionText f) (h : Stops rest) :
    Stops (f ++ rest) := by
  cases hf with
  | absent => exact h
  | digits => intro b hb; cases hb; simp [IsDigit]

theorem skipExponent_append {sign : Bytes} (hsign : sign = [] ∨ sign = [0x2B] ∨ sign = [0x2D])
    (hs : Digits s) (h : Stops rest) : skipExponent (sign ++ (s ++ rest)) = .ok rest := by
  obtain ⟨hne, hs⟩ := hs
  cases s with
  | nil => exact absurd rfl hne
  | cons b s =>
    rw [List.forall_mem_cons] at hs
    have hb : isDigit b = true := isDigit_iff.2 hs.1
    have hsg : ¬ (b = 0x2B ∨ b = 0x2D) := by
      rintro (rfl | rfl) <;> cases hb
    rcases hsign with rfl | rfl | rfl <;>
      simp [skipExponent, hsg, hb, skipDigits_append hs.2 h]

theorem skipExponent?_append {e : Bytes} (he : ExponentText e) (h : Separated rest) :
    skipExponent? (e ++ rest) = .ok rest := by
  cases he with
  | absent =>
    cases rest with
    | nil => rfl
    | cons b r =>
      show skipExponent? (b :: r) = _
      rw [skipExponent?, if_neg (by rw [(h b rfl).2.2]; decide)]
  | @digits e sign s he hsign hs =>
    show skipExponent? (e :: (sign ++ s ++ rest)) = _
    rw [skipExponent?, if_pos (by rcases he with rfl | rfl <;> rfl), List.append_assoc,
      skipExponent_append hsign hs h.stops]

theorem skipFraction_append {f e : Bytes} (hf : FractionText f) (he : ExponentText e)
    (h : Separated rest) : skipFraction (f ++ (e ++ rest)) = .ok rest := by
  cases hf with
  | absent =>
    rw [List.nil_append]
    have hx := skipExponent?_append he h
    cases he with
    | absent =>
      cases rest with
      | nil => rfl
      | cons b r =>
        show skipFraction (b :: r) = _
        rw [skipFraction, if_neg (h b rfl).2.1]
        exact hx
    | @digits e sign s he =>
      show skipFraction (e :: (sign ++ s ++ rest)) = _
      rw [skipFraction, if_neg (by rcases he with rfl | rfl <;> decide)]
      exact hx
  | @digits s hs =>
    show skipFraction (0x2E :: (s ++ (e ++ rest))) = _
    rw [skipFraction, if_pos rfl, if_pos (startsWithDigit_append hs),
      skipDigits_append hs.2 (he.stops h.stops), skipExponent?_append he h]

theorem skipNumber_append (ht : NumberText t) (h : Separated rest) :
    skipNumber (t ++ rest) = .ok rest := by
  cases ht with
  | @mk i f e hi hf he =>
    rw [List.append_assoc, List.append_assoc]
    have hstop := hf.stops (he.stops h.stops)
    cases hi with
    | zero =>
      show skipNumber (0x30 :: (f ++ (e ++ rest))) = _
      rw [skipNumber, if_pos rfl, startsWithDigit_eq_false hstop, if_neg (by decide),
        skipFraction_append hf he h]
    | @digits b s hb hz hs =>
      show skipNumber (b :: (s ++ (f ++ (e ++ rest)))) = _
      rw [skipNumber, if_neg hz, if_pos (isDigit_iff.2 hb), skipDigits_append hs hstop,
        skipFraction_append hf he h]

theorem exists_of_skipExponent {e : UInt8} (he : isExponentMark e = true)
    (h : skipExponent s = .ok rest) : ∃ u, ExponentText (e :: u) ∧ s = u ++ rest := by
  have he' : e = 0x65 ∨ e = 0x45 := by simpa [isExponentMark] using he
  have digits {b : UInt8} {r : Bytes} (hb : isDigit b = true) (hr : skipDigits r = rest) :
      ∃ d, Digits d ∧ b :: r = d ++ rest := by
    obtain ⟨d, hd, hs⟩ := exists_digits (s := b :: r) hb
    rw [skipDigits, List.dropWhile_cons_of_pos hb] at hs
    exact ⟨d, hd, hr ▸ hs⟩
  unfold skipExponent at h
  cases s with
  | nil => cases h
  | cons c r =>
    simp only at h
    split at h
    · cases h
    next b r' hs =>
      split at h
      next hb =>
        obtain ⟨d, hd, hdr⟩ := digits hb (Except.ok.inj h)
        split at hs
        next hc =>
          rw [hs, hdr]
          exact ⟨[c] ++ d, .digits he' (by simpa using hc) hd, rfl⟩
        · exact ⟨[] ++ d, .digits he' (.inl rfl) hd, hs.trans hdr⟩
      · cases h

theorem exists_of_skipExponent? (h : skipExponent? s = .ok rest) :
    ∃ e, ExponentText e ∧ s = e ++ rest := by
  unfold skipExponent? at h
  split at h
  · cases h; exact ⟨[], .absent, rfl⟩
  · split at h
    next he =>
      obtain ⟨u, hu, rfl⟩ := exists_of_skipExponent he h
      exact ⟨_, hu, rfl⟩
    · cases h; exact ⟨[], .absent, rfl⟩

theorem exists_of_skipFraction (h : skipFraction s = .ok rest) :
    ∃ f e, FractionText f ∧ ExponentText e ∧ s = f ++ (e ++ rest) := by
  unfold skipFraction at h
  split at h
  · cases h; exact ⟨[], [], .absent, .absent, rfl⟩
  next b r =>
    split at h
    next hb =>
      split at h
      next hd =>
        obtain ⟨d, hd, hr⟩ := exists_digits hd
        obtain ⟨e, he, hs⟩ := exists_of_skipExponent? h
        exact ⟨0x2E :: d, e, .digits hd, he, by rw [hb, List.cons_append, ← hs, ← hr]⟩
      · cases h
    · obtain ⟨e, he, hs⟩ := exists_of_skipExponent? h
      exact ⟨[], e, .absent, he, hs⟩

theorem exists_of_skipNumber (h : skipNumber s = .ok rest) :
    ∃ t, NumberText t ∧ s = t ++ rest := by
  unfold skipNumber at h
  split at h
  · cases h
  next b r =>
    split at h
    next hb =>
      split at h
      · cases h
      · obtain ⟨f, e, hf, he, rfl⟩ := exists_of_skipFraction h
        exact ⟨_, .mk .zero hf he, by rw [hb]; simp⟩
    next hz =>
      split at h
      next hb =>
        obtain ⟨d, hd, hr⟩ := exists_of_skipDigits r
        obtain ⟨f, e, hf, he, hs⟩ := exists_of_skipFraction h
        exact ⟨_, .mk (.digits (isDigit_iff.1 hb) hz hd) hf he, by rw [hr, hs]; simp⟩
      · cases h

theorem NumberText.exists_cons (ht : NumberText t) : ∃ b r, t = b :: r ∧ isDigit b = true := by
  cases ht with
  | mk hi =>
    cases hi with
    | zero => exact ⟨_, _, rfl, rfl⟩
    | digits hb => exact ⟨_, _, rfl, isDigit_iff.2 hb⟩

/-! ## Values that are neither lists nor objects -/

theorem skipScalar_digit (hb : isDigit b = true) (s : Bytes) :
    skipScalar b s = skipNumber (b :: s) := by
  have hne (x : UInt8) (hx : isDigit x = false) : b ≠ x := by
    rintro rfl
    rw [hb] at hx
    cases hx
  rw [skipScalar, if_neg (hne _ rfl), if_neg (hne _ rfl), if_neg (hne _ rfl), if_neg (hne _ rfl),
    if_neg (hne _ rfl), if_pos hb]

theorem skipScalar_append (ht : ScalarText (b :: t)) (h : Separated rest) :
    skipScalar b (t ++ rest) = .ok rest := by
  cases ht with
  | nullWord => exact literal_append ullBytes rest
  | trueWord => exact literal_append rueBytes rest
  | falseWord => exact literal_append alseBytes rest
  | string hs =>
    cases hs with
    | mk hs =>
      rw [List.append_assoc]
      exact skipString_append hs rest
  | number hn =>
    obtain ⟨_, _, he, hb⟩ := hn.exists_cons
    cases he
    rw [skipScalar_digit hb]
    exact skipNumber_append hn h
  | negative hn => exact skipNumber_append hn h

theorem exists_of_skipScalar (h : skipScalar b s = .ok rest) :
    ∃ t, ScalarText (b :: t) ∧ s = t ++ rest := by
  unfold skipScalar at h
  split at h
  next hb => subst hb; exact ⟨ullBytes, .nullWord, eq_of_literal h⟩
  split at h
  next hb => subst hb; exact ⟨rueBytes, .trueWord, eq_of_literal h⟩
  split at h
  next hb => subst hb; exact ⟨alseBytes, .falseWord, eq_of_literal h⟩
  split at h
  next hb =>
    subst hb
    obtain ⟨u, hu, rfl⟩ := exists_of_skipString h
    exact ⟨u ++ [0x22], .string (.mk hu), by simp⟩
  split at h
  next hb =>
    subst hb
    obtain ⟨t, ht, rfl⟩ := exists_of_skipNumber h
    exact ⟨t, .negative ht, rfl⟩
  split at h
  next hb =>
    obtain ⟨t, ht, hs⟩ := exists_of_skipNumber h
    obtain ⟨_, t, rfl, -⟩ := ht.exists_cons
    cases hs
    exact ⟨t, .number ht, rfl⟩
  · cases h

/-! ## How values start and what follows them -/

theorem ScalarText.exists_cons (ht : ScalarText t) : ∃ b r, t = b :: r ∧ isBlankByte b = false ∧
    opened? b = none ∧ b ≠ 0x5D := by
  cases ht with
  | nullWord | trueWord | falseWord | negative => exact ⟨_, _, rfl, by decide⟩
  | string hs => cases hs with | mk => exact ⟨_, _, rfl, by decide⟩
  | number hn =>
    obtain ⟨b, r, rfl, hb⟩ := hn.exists_cons
    refine ⟨b, r, rfl, ?_⟩
    refine ⟨Bool.eq_false_iff.2 fun h => ?_, ?_, ?_⟩
    · rcases isBlankByte_iff.1 h with rfl | rfl | rfl | rfl <;> cases hb
    · rw [opened?, if_neg (by rintro rfl; cases hb), if_neg (by rintro rfl; cases hb)]
    · rintro rfl; cases hb

theorem opened?_opening (f : Frame) : opened? f.opening = some f := by cases f <;> rfl

theorem eq_opening_of_opened? {f : Frame} (h : opened? b = some f) : b = f.opening := by
  unfold opened? at h
  split at h
  next hb => cases h; exact hb
  split at h
  next hb => cases h; exact hb
  cases h

theorem ValueText.apart (ht : ValueText t) : Apart 0x5D t := by
  cases ht with
  | scalar h =>
    obtain ⟨b, r, rfl, hb, -, hc⟩ := h.exists_cons
    exact ⟨b, r, rfl, hb, hc⟩
  | @empty f | @items f => cases f <;> exact ⟨_, _, rfl, by decide⟩

theorem ItemText.apart {f : Frame} (ht : ItemText f t) : Apart f.closing t := by
  cases ht with
  | value h => exact h.apart
  | member hk => cases hk with | mk => exact ⟨_, _, rfl, by decide⟩

/-- Blanks and a mark that is none of a number separate. -/
theorem separated_blank_append (hw : Blank w) (hb : ¬ IsDigit b ∧ b ≠ 0x2E ∧
    isExponentMark b = false) (s : Bytes) : Separated (w ++ b :: s) := by
  intro x hx
  cases w with
  | nil => cases hx; exact hb
  | cons y w =>
    cases hx
    rcases hw x List.mem_cons_self with rfl | rfl | rfl | rfl <;> simp [IsDigit] <;> decide

theorem RestText.separated {f : Frame} (hs : RestText f s) : Separated (s ++ rest) := by
  cases hs with
  | close hw =>
    rw [List.append_assoc]
    refine separated_blank_append hw ?_ rest
    cases f <;> simp [IsDigit, Frame.closing] <;> decide
  | comma hw =>
    rw [List.append_assoc]
    refine separated_blank_append hw ?_ _
    simp [IsDigit]
    decide

/-! ## Values of any depth -/

section
variable {stack : List Frame}

theorem skip_scalar_start (hw : Blank w) (hb : isBlankByte b = false) (ho : opened? b = none)
    (s : Bytes) : skip stack .value (w ++ b :: s) =
      match skipScalar b s with
      | .error e => .error e
      | .ok rest => skip stack .commaOrEnd rest := by
  have hs := skipBlank_append hw hb s
  rw [skip.eq_def]
  simp only
  split
  next heq => rw [hs] at heq; cases heq
  next heq =>
    rw [hs] at heq
    cases heq
    split
    next hf => rw [ho] at hf; cases hf
    · split <;> rename_i he <;> rw [he]

theorem skip_scalar (hw : Blank w) (ht : ScalarText t) (hr : Separated rest) :
    skip stack .value (w ++ (t ++ rest)) = skip stack .commaOrEnd rest := by
  obtain ⟨b, r, rfl, hb, ho, -⟩ := ht.exists_cons
  rw [List.cons_append, skip_scalar_start hw hb ho, skipScalar_append ht hr]

/-- A container is opened, and closed at once or entered. -/
theorem skip_open {f : Frame} {v : Bytes} (hw : Blank w) (hv : Blank v)
    (hb : isBlankByte b = false) (s : Bytes) :
    skip stack .value (w ++ f.opening :: (v ++ b :: s)) =
      if b = f.closing then skip stack .commaOrEnd s else skip (f :: stack) f.item (b :: s) := by
  have hf := skipBlank_append hw (by cases f <;> rfl : isBlankByte f.opening = false)
    (v ++ b :: s)
  have hs := skipBlank_append hv hb s
  rw [skip.eq_def]
  simp only
  split
  next heq => rw [hf] at heq; cases heq
  next heq =>
    rw [hf] at heq
    cases heq
    split
    next g hg =>
      rw [opened?_opening] at hg
      cases hg
      split
      next heq => rw [hs] at heq; cases heq
      next heq =>
        rw [hs] at heq
        cases heq
        rfl
    next hg => rw [opened?_opening] at hg; cases hg

theorem skip_member {k v : Bytes} (hw : Blank w) (hk : SkippedString k) (hv : Blank v)
    (s : Bytes) : skip stack .member (w ++ (k ++ (v ++ 0x3A :: s))) = skip stack .value s := by
  have hkey : skipKey (w ++ (k ++ (v ++ 0x3A :: s))) = .ok s := by
    cases hk with
    | @mk k hk =>
      have hs := skipBlank_append hw (b := 0x22) rfl (k ++ 0x22 :: (v ++ 0x3A :: s))
      rw [List.cons_append, List.append_assoc, skipKey]
      simp only [List.cons_append, List.nil_append, hs, if_true, skipString_append hk,
        colon_append hv]
  rw [skip.eq_def]
  simp only
  split
  next he => rw [hkey] at he; cases he
  next he => rw [hkey] at he; cases he; rfl

theorem skip_comma {f : Frame} (hw : Blank w) (s : Bytes) :
    skip (f :: stack) .commaOrEnd (w ++ 0x2C :: s) = skip (f :: stack) f.item s := by
  have hs := skipBlank_append hw (b := 0x2C) rfl s
  rw [skip.eq_def]
  simp only
  split
  next heq => rw [hs] at heq; cases heq
  next heq =>
    rw [hs] at heq
    cases heq
    exact if_pos rfl

theorem Frame.isBlankByte_closing (f : Frame) : isBlankByte f.closing = false := by
  cases f <;> rfl

theorem skip_close {f : Frame} (hw : Blank w) (s : Bytes) :
    skip (f :: stack) .commaOrEnd (w ++ f.closing :: s) = skip stack .commaOrEnd s := by
  have hs := skipBlank_append hw f.isBlankByte_closing s
  rw [skip.eq_def]
  simp only
  split
  next heq => rw [hs] at heq; cases heq
  next heq =>
    rw [hs] at heq
    cases heq
    rw [if_neg (by cases f <;> decide), if_pos rfl]

/-- A value is passed over, whatever is open around it. -/
def SkipsValue (t : Bytes) : Prop :=
  ∀ (stack : List Frame) (w rest : Bytes), Blank w → Separated rest →
    skip stack .value (w ++ (t ++ rest)) = skip stack .commaOrEnd rest

def SkipsItem (f : Frame) (t : Bytes) : Prop :=
  ∀ (stack : List Frame) (w rest : Bytes), Blank w → Separated rest →
    skip stack f.item (w ++ (t ++ rest)) = skip stack .commaOrEnd rest

/-- What follows an item is passed over up to the end of its container. -/
def SkipsRest (f : Frame) (s : Bytes) : Prop :=
  ∀ (stack : List Frame) (rest : Bytes), Separated rest →
    skip (f :: stack) .commaOrEnd (s ++ rest) = skip stack .commaOrEnd rest

/-- **Every value is passed over**: by induction on the derivation, with the two other relations of
the grammar. -/
theorem skipsValue (ht : ValueText t) : SkipsValue t := by
  refine @ValueText.rec (fun t _ => SkipsValue t) (fun f t _ => SkipsItem f t)
    (fun f s _ => SkipsRest f s) ?scalar ?empty ?items ?value ?member ?close ?comma t ht
  case scalar =>
    intro t h stack w rest hw hr
    exact skip_scalar hw h hr
  case empty =>
    intro f v hv stack w rest hw hr
    rw [List.cons_append, List.append_assoc]
    exact (skip_open hw hv f.isBlankByte_closing rest).trans (if_pos rfl)
  case items =>
    intro f v t s hv ht hs iht ihs stack w rest hw hr
    have hitem := iht (f :: stack) [] (s ++ rest) blank_nil hs.separated
    obtain ⟨b, r, he, hb, hc⟩ := ht.apart.append (s ++ rest)
    rw [List.nil_append, he] at hitem
    rw [List.cons_append, List.append_assoc, List.append_assoc, he, skip_open hw hv hb,
      if_neg hc, hitem, ihs stack rest hr]
  case value =>
    intro t _ ih
    exact ih
  case member =>
    intro k u v t hk hu hv _ ih stack w rest hw hr
    rw [List.append_assoc, List.append_assoc, List.cons_append, List.append_assoc]
    show skip stack .member _ = _
    rw [skip_member hw hk hu, ih stack v rest hv hr]
  case close =>
    intro f w hw stack rest hr
    rw [List.append_assoc]
    exact skip_close hw rest
  case comma =>
    intro f w v t s hw hv ht hs iht ihs stack rest hr
    rw [List.append_assoc, List.cons_append, List.append_assoc, List.append_assoc, skip_comma hw,
      iht (f :: stack) v (s ++ rest) hv hs.separated, ihs stack rest hr]

theorem skipValue_append (hw : Blank w) (ht : ValueText t) (hr : Separated rest) :
    skipValue (w ++ (t ++ rest)) = .ok rest := by
  rw [skipValue, skipsValue ht [] w rest hw hr, skip.eq_def]

/-! ## What is passed over is a value -/

/-- What is left of the open containers, innermost first. -/
def Closed : List Frame → Bytes → Prop
  | [], s => s = []
  | f :: stack, s => ∃ r u, RestText f r ∧ Closed stack u ∧ s = r ++ u

/-- What is left when the given part is awaited. -/
def Pending (stack : List Frame) : Awaited → Bytes → Prop
  | .value, s => ∃ w t r, Blank w ∧ ValueText t ∧ Closed stack r ∧ s = w ++ (t ++ r)
  | .member, s => ∃ w t r, Blank w ∧ ItemText .object t ∧ Closed stack r ∧ s = w ++ (t ++ r)
  | .commaOrEnd, s => Closed stack s

theorem exists_of_pending_item {f : Frame} (h : Pending stack f.item s) :
    ∃ w t r, Blank w ∧ ItemText f t ∧ Closed stack r ∧ s = w ++ (t ++ r) := by
  cases f with
  | list =>
    obtain ⟨w, t, r, hw, ht, hr⟩ := h
    exact ⟨w, t, r, hw, .value ht, hr⟩
  | object => exact h

theorem exists_of_skipKey (h : skipKey s = .ok rest) : ∃ w k v, Blank w ∧ SkippedString k ∧
    Blank v ∧ s = w ++ (k ++ (v ++ 0x3A :: rest)) := by
  unfold skipKey at h
  split at h
  · cases h
  next b r heq =>
    obtain ⟨w, hw, rfl⟩ := exists_of_skipBlank heq
    split at h
    next hb =>
      split at h
      · cases h
      next hr =>
        obtain ⟨k, hk, rfl⟩ := exists_of_skipString hr
        obtain ⟨v, hv, rfl⟩ := exists_of_colon h
        exact ⟨w, _, v, hw, .mk hk, hv, by rw [hb]; simp⟩
    · cases h

/-- **What the machine reads is what its state awaits.** -/
theorem pending_of_skip {awaited : Awaited} (h : skip stack awaited s = .ok rest) :
    ∃ u, Pending stack awaited u ∧ s = u ++ rest := by
  fun_induction skip stack awaited s with
  | case1 => cases h
  | case2 => cases h
  | case3 stack s _ b r hs _ f hf _ t hr _ ih =>
    -- an empty container
    obtain ⟨u, hu, rfl⟩ := ih h
    obtain ⟨w, hw, rfl⟩ := exists_of_skipBlank hs
    obtain ⟨v, hv, rfl⟩ := exists_of_skipBlank hr
    refine ⟨w ++ (f.opening :: (v ++ [f.closing]) ++ u), ⟨w, _, u, hw, .empty hv, hu, rfl⟩, ?_⟩
    rw [eq_opening_of_opened? hf]
    simp
  | case4 stack s _ b r hs _ f hf _ c t hr _ _ ih =>
    -- a container and its first item
    obtain ⟨u, hu, hut⟩ := ih h
    obtain ⟨w, hw, rfl⟩ := exists_of_skipBlank hs
    obtain ⟨v, hv, rfl⟩ := exists_of_skipBlank hr
    obtain ⟨x, i, _, hx, hi, ⟨l, r, hl, hc, rfl⟩, rfl⟩ := exists_of_pending_item hu
    refine ⟨w ++ (f.opening :: (v ++ x ++ (i ++ l)) ++ r),
      ⟨w, _, r, hw, .items (hv.append hx) hi hl, hc, rfl⟩, ?_⟩
    rw [hut, eq_opening_of_opened? hf]
    simp
  | case5 => cases h
  | case6 stack s _ b r hs _ _ t hr _ ih =>
    obtain ⟨u, hu, rfl⟩ := ih h
    obtain ⟨w, hw, rfl⟩ := exists_of_skipBlank hs
    obtain ⟨t, ht, rfl⟩ := exists_of_skipScalar hr
    exact ⟨w ++ (b :: t ++ u), ⟨w, _, u, hw, .scalar ht, hu, rfl⟩, by simp⟩
  | case7 => cases h
  | case8 stack s _ t hs _ ih =>
    obtain ⟨_, ⟨v, i, r, hv, hi, hc, rfl⟩, rfl⟩ := ih h
    obtain ⟨w, k, x, hw, hk, hx, rfl⟩ := exists_of_skipKey hs
    exact ⟨w ++ (k ++ (x ++ 0x3A :: (v ++ i)) ++ r),
      ⟨w, _, r, hw, .member hk hx hv hi, hc, rfl⟩, by simp⟩
  | case9 s => cases h; exact ⟨[], rfl, rfl⟩
  | case10 => cases h
  | case11 s _ f stack t hs _ ih =>
    obtain ⟨u, hu, rfl⟩ := ih h
    obtain ⟨w, hw, rfl⟩ := exists_of_skipBlank hs
    obtain ⟨v, i, _, hv, hi, ⟨l, r, hl, hc, rfl⟩, rfl⟩ := exists_of_pending_item hu
    exact ⟨w ++ 0x2C :: (v ++ (i ++ l)) ++ r, ⟨_, r, .comma hw hv hi hl, hc, rfl⟩, by simp⟩
  | case12 s _ f stack t hs _ _ ih =>
    obtain ⟨u, hu, rfl⟩ := ih h
    obtain ⟨w, hw, rfl⟩ := exists_of_skipBlank hs
    exact ⟨w ++ [f.closing] ++ u, ⟨_, u, .close hw, hu, rfl⟩, by simp⟩
  | case13 => cases h

theorem exists_of_skipValue (h : skipValue s = .ok rest) :
    ∃ w t, Blank w ∧ ValueText t ∧ s = w ++ (t ++ rest) := by
  obtain ⟨_, ⟨w, t, _, hw, ht, rfl, rfl⟩, rfl⟩ := pending_of_skip h
  exact ⟨w, t, hw, ht, by simp⟩

end

end Findings.Json
