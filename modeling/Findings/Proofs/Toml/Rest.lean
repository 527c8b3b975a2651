import Findings.Toml.Statement
import Mathlib.Data.List.Infix

/-!
# What readers leave

Every reader of TOML takes characters from the front of its text, so what it leaves is an end of
what it was given (`Leaves`). This is shown of each reader from the same fact about those that it
calls, up to that of statements (`leaves_statement?`).
-/

set_option autoImplicit false

namespace Findings.Toml

/-- If there is an answer, then what it leaves is an end of the text. -/
def Leaves {α : Type} (left : α → List Char) (s : List Char) (answer : Option α) : Prop :=
  ∀ a, answer = some a → left a <:+ s

namespace Leaves

variable {α β : Type} {left : α → List Char} {left' : β → List Char} {s t : List Char}
  {r : Option α} {f : α → Option β}

theorem none : Leaves left s .none := fun _ h => by cases h

theorem some {a : α} (h : left a <:+ s) : Leaves left s (.some a) := fun _ ha => by
  cases ha
  exact h

theorem mono (h : Leaves left t r) (ht : t <:+ s) : Leaves left s r := fun a ha => (h a ha).trans ht

theorem bind (h : Leaves left s r) (hf : ∀ a, r = .some a → Leaves left' (left a) (f a)) :
    Leaves left' s (r.bind f) := fun b hb => by
  obtain ⟨a, ha, hb⟩ := Option.bind_eq_some_iff.1 hb
  exact (hf a ha b hb).trans (h a ha)

theorem map {g : α → β} (h : Leaves left s r) (hg : ∀ a, left' (g a) = left a) :
    Leaves left' s (r.map g) := fun b hb => by
  obtain ⟨a, ha, rfl⟩ := Option.map_eq_some_iff.1 hb
  exact hg a ▸ h a ha

end Leaves

variable {s : List Char}

/-! ## Single characters and blanks -/

theorem leaves_exact (c : Char) (s : List Char) : Leaves id s (exact c s) := by
  cases s with
  | nil => exact .none
  | cons d s =>
    rw [exact]
    split
    · exact .some (List.suffix_cons d s)
    · exact .none

theorem leaves_exactAll (cs s : List Char) : Leaves id s (exactAll cs s) := by
  induction cs generalizing s with
  | nil => exact .some (List.suffix_refl s)
  | cons c cs ih => exact (leaves_exact c s).bind fun t _ => ih t

theorem leaves_newline (s : List Char) : Leaves id s (newline s) := by
  unfold newline
  split
  · exact .some (List.suffix_cons _ _)
  · exact .some ((List.suffix_cons _ _).trans (List.suffix_cons _ _))
  · exact .none

theorem suffix_skipBlank (s : List Char) : skipBlank s <:+ s := List.dropWhile_suffix _

theorem suffix_skipComment (s : List Char) : skipComment s <:+ s := by
  unfold skipComment
  split
  · exact (List.dropWhile_suffix _).trans (List.suffix_cons _ _)
  · exact List.suffix_refl _

theorem suffix_skipFiller (s : List Char) : skipFiller s <:+ s := by
  fun_induction skipFiller s with
  | case1 s rest h _ _ _ ih =>
    exact ((ih.trans (leaves_newline _ rest h)).trans (suffix_skipComment _)).trans
      (suffix_skipBlank s)
  | case2 s _ => exact suffix_skipBlank s

/-! ## Strings -/

theorem leaves_hexNumber (count n : Nat) (s : List Char) :
    Leaves Prod.snd s (hexNumber count n s) := by
  fun_induction hexNumber count n s with
  | case1 => exact .some (List.suffix_refl _)
  | case2 => exact .none
  | case3 _ _ c s _ _ ih => exact ih.mono (List.suffix_cons c s)
  | case4 => exact .none

theorem leaves_codePoint (count : Nat) (s : List Char) : Leaves Prod.snd s (codePoint count s) := by
  unfold codePoint
  split
  next n rest hn =>
    split
    · exact .some (leaves_hexNumber count 0 s _ hn)
    · exact .none
  · exact .none

theorem leaves_escape (s : List Char) : Leaves Prod.snd s (escape s) := by
  unfold escape
  split
  · exact .none
  next c s =>
    refine Leaves.mono ?_ (List.suffix_cons c s)
    repeat' split
    all_goals first
      | exact .some (List.suffix_refl s)
      | exact leaves_codePoint _ s
      | exact .none

theorem leaves_basicBody (s : List Char) : Leaves Prod.snd s (basicBody s) := by
  fun_induction basicBody s with
  | case1 => exact .none
  | case2 => exact .some (List.suffix_cons _ _)
  | case3 => exact .none
  | case4 s d t he _ _ ih =>
    exact .mono (.mono (ih.map fun _ => rfl) (leaves_escape s _ he)) (List.suffix_cons _ _)
  | case5 c s _ _ _ ih => exact .mono (ih.map fun _ => rfl) (List.suffix_cons c s)
  | case6 => exact .none

theorem leaves_literalBody (s : List Char) : Leaves Prod.snd s (literalBody s) := by
  fun_induction literalBody s with
  | case1 => exact .none
  | case2 => exact .some (List.suffix_cons _ _)
  | case3 c s _ _ ih => exact .mono (ih.map fun _ => rfl) (List.suffix_cons c s)
  | case4 => exact .none

theorem leaves_closing (mark : Char) (s : List Char) : Leaves Prod.snd s (closing mark s) := by
  unfold closing
  split
  · exact .none
  next s₁ h₁ =>
    refine Leaves.mono ?_ (leaves_exactAll _ s _ h₁)
    split
    · exact .some (List.suffix_refl s₁)
    next s₂ h₂ =>
      refine Leaves.mono ?_ (leaves_exact mark s₁ _ h₂)
      split
      · exact .some (List.suffix_refl s₂)
      next h₃ => exact .some (leaves_exact mark s₂ _ h₃)

theorem suffix_skipLines (s : List Char) : skipLines s <:+ s := by
  fun_induction skipLines s with
  | case1 s ih => exact ih.trans ((List.suffix_cons _ _).trans (List.suffix_cons _ _))
  | case2 c s _ _ ih => exact ih.trans (List.suffix_cons c s)
  | case3 => exact List.suffix_refl _
  | case4 => exact List.suffix_refl _

theorem leaves_continued? (s : List Char) : Leaves id s (continued? s) :=
  fun _ h => by
    obtain ⟨t, ht, rfl⟩ := Option.map_eq_some_iff.1 h
    exact ((suffix_skipLines t).trans (leaves_newline _ t ht)).trans (suffix_skipBlank s)

theorem leaves_basicLines (s : List Char) : Leaves Prod.snd s (basicLines s) := by
  fun_induction basicLines s with
  | case1 s done h => exact fun _ hdone => leaves_closing '"' s _ (h.trans hdone)
  | case2 s _ rest h _ ih => exact .mono (ih.map fun _ => rfl) (leaves_newline s _ h)
  | case3 => exact .none
  | case4 t rest hc _ _ _ ih =>
    exact .mono (.mono ih (leaves_continued? t _ hc)) (List.suffix_cons _ _)
  | case5 => exact .none
  | case6 t _ d rest he _ _ _ ih =>
    exact .mono (.mono (ih.map fun _ => rfl) (leaves_escape t _ he)) (List.suffix_cons _ _)
  | case7 c t _ _ _ _ ih => exact .mono (ih.map fun _ => rfl) (List.suffix_cons c t)
  | case8 => exact .none

theorem leaves_literalLines (s : List Char) : Leaves Prod.snd s (literalLines s) := by
  fun_induction literalLines s with
  | case1 s done h => exact fun _ hdone => leaves_closing '\'' s _ (h.trans hdone)
  | case2 s _ rest h _ ih => exact .mono (ih.map fun _ => rfl) (leaves_newline s _ h)
  | case3 => exact .none
  | case4 c t _ _ _ ih => exact .mono (ih.map fun _ => rfl) (List.suffix_cons c t)
  | case5 => exact .none

theorem suffix_skipNewline (s : List Char) : skipNewline s <:+ s := by
  unfold skipNewline
  cases h : newline s with
  | none => exact List.suffix_refl s
  | some rest => exact leaves_newline s rest h

theorem leaves_lineString (s : List Char) : Leaves Prod.snd s (lineString s) := by
  unfold lineString
  split
  · exact .mono ((leaves_basicBody _).map fun _ => rfl) (List.suffix_cons _ _)
  · exact .mono ((leaves_literalBody _).map fun _ => rfl) (List.suffix_cons _ _)
  · exact .none

theorem leaves_string (s : List Char) : Leaves Prod.snd s (string s) := by
  unfold string
  split
  next t h =>
    refine .mono ((leaves_basicLines _).map fun _ => rfl) ?_
    exact (suffix_skipNewline t).trans (leaves_exactAll _ s t h)
  split
  next t h =>
    refine .mono ((leaves_literalLines _).map fun _ => rfl) ?_
    exact (suffix_skipNewline t).trans (leaves_exactAll _ s t h)
  · exact leaves_lineString s

/-! ## Numbers -/

theorem suffix_moreDigits (isDigit : Char → Bool) (s : List Char) :
    (moreDigits isDigit s).2 <:+ s := by
  fun_induction moreDigits isDigit s with
  | case1 => exact List.suffix_refl _
  | case2 c s _ ds rest h ih =>
    rw [h] at ih
    exact ih.trans ((List.suffix_cons c s).trans (List.suffix_cons _ _))
  | case3 => exact List.suffix_refl _
  | case4 c s _ _ ds rest h ih =>
    rw [h] at ih
    exact ih.trans (List.suffix_cons c s)
  | case5 => exact List.suffix_refl _

theorem leaves_digits (isDigit : Char → Bool) (s : List Char) :
    Leaves Prod.snd s (digits isDigit s) := by
  cases s with
  | nil => exact .none
  | cons c s =>
    rw [digits]
    split
    · exact .some ((suffix_moreDigits isDigit s).trans (List.suffix_cons c s))
    · exact .none

theorem leaves_wholeDigits (s : List Char) : Leaves Prod.snd s (wholeDigits s) := by
  unfold wholeDigits
  split
  · exact .some (List.suffix_cons _ _)
  · exact leaves_digits isDigit _

theorem suffix_sign (s : List Char) : (sign s).2 <:+ s := by
  unfold sign
  split
  · exact List.suffix_cons _ _
  · exact List.suffix_cons _ _
  · exact List.suffix_refl _

/-- A value that is worked out from what was read leaves the same. -/
theorem leaves_of_read {α β : Type} {r : Option α} {f : α → Option (β × List Char)}
    {rest : List Char} (h : rest <:+ s) (hf : ∀ a, Leaves Prod.snd rest (f a)) :
    Leaves Prod.snd s (r.bind f) :=
  have hread : Leaves (fun _ => rest) s r := fun _ _ => h
  hread.bind fun a _ => hf a

theorem leaves_basedInteger (base : Nat) (isDigit : Char → Bool) (s : List Char) :
    Leaves Prod.snd s (basedInteger base isDigit s) := by
  refine (leaves_digits isDigit s).bind fun ⟨ds, rest⟩ _ => ?_
  exact leaves_of_read (List.suffix_refl rest) fun _ => .some (List.suffix_refl rest)

theorem leaves_special (negative : Bool) (s : List Char) :
    Leaves Prod.snd s (special negative s) := by
  unfold special
  split
  next rest h => exact .some (leaves_exactAll _ s rest h)
  · exact (leaves_exactAll _ s).map fun _ => rfl

theorem leaves_fraction? (s : List Char) : Leaves Prod.snd s (fraction? s) := by
  unfold fraction?
  split
  · exact (leaves_digits isDigit _).mono (List.suffix_cons _ _)
  · exact .none

theorem leaves_exponent? (s : List Char) : Leaves Prod.snd s (exponent? s) := by
  unfold exponent?
  split
  next c s =>
    split
    · split
      next negative t hsign =>
        have ht : t <:+ s := by simpa [hsign] using suffix_sign s
        split
        next ds rest h =>
          exact .some (((leaves_digits isDigit t _ h).trans ht).trans (List.suffix_cons c s))
        · exact .none
    · exact .none
  · exact .none

theorem leaves_decimal (negative : Bool) (s : List Char) :
    Leaves Prod.snd s (decimal negative s) := by
  refine (leaves_wholeDigits s).bind fun ⟨whole, t⟩ _ => ?_
  dsimp only
  split
  next fraction u hu =>
    have hrest : ((exponent? u).getD (0, u)).2 <:+ u := by
      cases he : exponent? u with
      | none => exact List.suffix_refl u
      | some e => exact leaves_exponent? u e he
    exact leaves_of_read (hrest.trans (leaves_fraction? t _ hu)) fun _ => .some (List.suffix_refl _)
  · split
    next e rest he =>
      exact leaves_of_read (leaves_exponent? t _ he) fun _ => .some (List.suffix_refl _)
    · exact leaves_of_read (List.suffix_refl t) fun _ => .some (List.suffix_refl _)

theorem leaves_number (s : List Char) : Leaves Prod.snd s (number s) := by
  have hbased (base : Nat) (isDigit : Char → Bool) (c d : Char) (t : List Char) :
      Leaves Prod.snd (c :: d :: t) (basedInteger base isDigit t) :=
    (leaves_basedInteger base isDigit t).mono
      ((List.suffix_cons d t).trans (List.suffix_cons c _))
  unfold number
  split
  · exact hbased _ _ _ _ _
  · exact hbased _ _ _ _ _
  · exact hbased _ _ _ _ _
  · split
    next negative t hsign =>
      have ht : t <:+ s := by simpa [hsign] using suffix_sign s
      split
      next r h => exact fun _ hr => (leaves_special negative t _ (h.trans hr)).trans ht
      · exact (leaves_decimal negative t).mono ht

/-! ## Dates and times -/

theorem leaves_fixedDigits (count n : Nat) (s : List Char) :
    Leaves Prod.snd s (fixedDigits count n s) := by
  fun_induction fixedDigits count n s with
  | case1 => exact .some (List.suffix_refl _)
  | case2 => exact .none
  | case3 _ _ c s _ ih => exact ih.mono (List.suffix_cons c s)
  | case4 => exact .none

theorem leaves_field (low high : Nat) (s : List Char) : Leaves Prod.snd s (field low high s) := by
  refine (leaves_fixedDigits 2 0 s).bind fun ⟨n, rest⟩ _ => ?_
  dsimp only
  split
  · exact .some (List.suffix_refl _)
  · exact .none

theorem leaves_date (s : List Char) : Leaves id s (date s) := by
  refine (leaves_fixedDigits 4 0 s).bind fun ⟨year, s⟩ _ => ?_
  refine (leaves_exact '-' s).bind fun s _ => ?_
  refine (leaves_field 1 12 s).bind fun ⟨month, s⟩ _ => ?_
  refine (leaves_exact '-' s).bind fun s _ => ?_
  exact (leaves_field 1 _ s).bind fun ⟨_, s⟩ _ => .some (List.suffix_refl s)

theorem suffix_skipFraction (s : List Char) : skipFraction s <:+ s := by
  unfold skipFraction
  split
  next c s =>
    split
    · exact (List.dropWhile_suffix _).trans ((List.suffix_cons c s).trans (List.suffix_cons _ _))
    · exact List.suffix_refl _
  · exact List.suffix_refl _

theorem leaves_time (s : List Char) : Leaves id s (time s) := by
  refine (leaves_field 0 23 s).bind fun ⟨_, s⟩ _ => ?_
  refine (leaves_exact ':' s).bind fun s _ => ?_
  refine (leaves_field 0 59 s).bind fun ⟨_, s⟩ _ => ?_
  refine (leaves_exact ':' s).bind fun s _ => ?_
  exact (leaves_field 0 60 s).bind fun ⟨_, s⟩ _ => .some (suffix_skipFraction s)

theorem leaves_offset (s : List Char) : Leaves id s (offset s) := by
  have hsigned (s : List Char) : Leaves id s ((field 0 23 s).bind fun x =>
      (exact ':' x.2).bind fun t => (field 0 59 t).bind fun y => some y.2) := by
    refine (leaves_field 0 23 s).bind fun ⟨_, s⟩ _ => ?_
    refine (leaves_exact ':' s).bind fun s _ => ?_
    exact (leaves_field 0 59 s).bind fun ⟨_, s⟩ _ => .some (List.suffix_refl s)
  unfold offset
  split
  · exact .some (List.suffix_cons _ _)
  · exact .some (List.suffix_cons _ _)
  · exact (hsigned _).mono (List.suffix_cons _ _)
  · exact (hsigned _).mono (List.suffix_cons _ _)
  · exact .none

/-- What is skipped if it is there. -/
theorem suffix_getD {r : Option (List Char)} (h : Leaves id s r) : r.getD s <:+ s := by
  cases r with
  | none => exact List.suffix_refl s
  | some rest => exact h rest rfl

theorem leaves_timeAfterDate (s : List Char) : Leaves id s (timeAfterDate s) := by
  have htime (s : List Char) :
      Leaves id s ((time s).bind fun t => some ((offset t).getD t)) :=
    (leaves_time s).bind fun t _ => .some (suffix_getD (leaves_offset t))
  unfold timeAfterDate
  split
  · exact (htime _).mono (List.suffix_cons _ _)
  · exact (htime _).mono (List.suffix_cons _ _)
  · exact (htime _).mono (List.suffix_cons _ _)
  · exact .none

theorem leaves_datetime (s : List Char) : Leaves id s (datetime s) := by
  unfold datetime
  split
  next rest h => exact .some ((suffix_getD (leaves_timeAfterDate rest)).trans (leaves_date s _ h))
  · exact leaves_time s

/-! ## Sequences -/

/-- What is left after an item. -/
def Step.rest {α : Type} : Step α → List Char
  | more _ rest => rest
  | last _ rest => rest

theorem leaves_sequence {α : Type} {step : List Char → Option (Step α)}
    (hstep : ∀ s, Leaves Step.rest s (step s)) (s : List Char) :
    Leaves Prod.snd s (sequence step s) := by
  fun_induction sequence step s with
  | case1 => exact .none
  | case2 s a rest h => exact .some (hstep s _ h)
  | case3 s a rest h _ ih => exact .mono (ih.map fun _ => rfl) (hstep s _ h)
  | case4 => exact .none

/-! ## Keys -/

theorem leaves_simpleKey (s : List Char) : Leaves Prod.snd s (simpleKey s) := by
  unfold simpleKey
  split
  · exact leaves_lineString _
  · exact leaves_lineString _
  · split
    · exact .none
    · exact .some (List.dropWhile_suffix _)

theorem leaves_keyPart (s : List Char) : Leaves Step.rest s (keyPart s) := by
  refine .mono ((leaves_simpleKey (skipBlank s)).bind fun ⟨name, t⟩ _ => ?_) (suffix_skipBlank s)
  refine .mono ?_ (suffix_skipBlank t)
  dsimp only
  split
  next rest h => exact .some (leaves_exact '.' _ rest h)
  · exact .some (List.suffix_refl _)

theorem leaves_key (s : List Char) : Leaves (fun k => k.2.2) s (key s) := by
  refine (leaves_sequence leaves_keyPart s).bind fun ⟨parts, rest⟩ _ => ?_
  dsimp only
  split
  · have hlast : Leaves (fun _ => rest) rest parts.getLast? := fun _ _ => List.suffix_refl rest
    exact hlast.bind fun _ _ => .some (List.suffix_refl rest)
  · exact .none

/-! ## Values -/

theorem leaves_scalar (s : List Char) : Leaves Prod.snd s (scalar s) := by
  unfold scalar
  split
  · exact (leaves_string _).map fun _ => rfl
  · exact (leaves_string _).map fun _ => rfl
  · exact (leaves_exactAll _ _).map fun _ => rfl
  · exact (leaves_exactAll _ _).map fun _ => rfl
  · split
    next rest h => exact .some (leaves_datetime s rest h)
    · split
      next h => exact .some (leaves_number s _ h)
      next h => exact .some (leaves_number s _ h)
      · exact .none

section
variable {read : List Char → Option (Value × List Char)}
  (hread : ∀ s, Leaves Prod.snd s (read s))
include hread

theorem leaves_arrayItem (s : List Char) : Leaves Step.rest s (arrayItem read s) := by
  refine .mono ((hread (skipFiller s)).bind fun ⟨v, t⟩ _ => ?_) (suffix_skipFiller s)
  refine .mono ?_ (suffix_skipFiller t)
  dsimp only
  split
  · exact .some (List.suffix_refl _)
  next rest h =>
    refine .mono ?_ ((suffix_skipFiller rest).trans (leaves_exact ',' _ rest h))
    split
    · exact .some (List.suffix_refl _)
    · exact .some (List.suffix_refl _)

theorem leaves_array (s : List Char) : Leaves Prod.snd s (array read s) := by
  unfold array
  split
  next rest h => exact .some ((leaves_exact ']' _ rest h).trans (suffix_skipFiller s))
  · refine (leaves_sequence (leaves_arrayItem hread) s).bind fun ⟨items, t⟩ _ => ?_
    exact (leaves_exact ']' t).bind fun rest _ => .some (List.suffix_refl rest)

theorem leaves_pair (s : List Char) : Leaves Prod.snd s (pair read s) := by
  refine (leaves_key s).bind fun ⟨path, last, t⟩ _ => ?_
  refine (leaves_exact '=' t).bind fun t _ => ?_
  refine .mono ((hread (skipBlank t)).bind fun ⟨v, rest⟩ _ => ?_) (suffix_skipBlank t)
  exact .some (List.suffix_refl rest)

theorem leaves_inlinePair (s : List Char) : Leaves Step.rest s (inlinePair read s) := by
  refine (leaves_pair hread s).bind fun ⟨p, t⟩ _ => ?_
  refine .mono ?_ (suffix_skipBlank t)
  dsimp only
  split
  next rest h => exact .some (leaves_exact ',' _ rest h)
  · exact .some (List.suffix_refl _)

theorem leaves_inlineTable (s : List Char) : Leaves Prod.snd s (inlineTable read s) := by
  unfold inlineTable
  split
  next rest h => exact .some ((leaves_exact '\x7d' _ rest h).trans (suffix_skipBlank s))
  · refine (leaves_sequence (leaves_inlinePair hread) s).bind fun ⟨pairs, t⟩ _ => ?_
    refine (leaves_exact '\x7d' t).bind fun rest _ => ?_
    exact leaves_of_read (List.suffix_refl rest) fun _ => .some (List.suffix_refl rest)

end

theorem leaves_value (depth : Nat) (s : List Char) : Leaves Prod.snd s (value depth s) := by
  induction depth generalizing s with
  | zero =>
    rw [value]
    · exact leaves_scalar s
    · exact fun _ _ h => by cases h
    · exact fun _ _ h => by cases h
  | succ depth ih =>
    unfold value
    split
    next h => cases h; exact (leaves_array ih _).mono (List.suffix_cons _ _)
    next h => cases h; exact (leaves_inlineTable ih _).mono (List.suffix_cons _ _)
    · exact leaves_scalar _

/-! ## Statements -/

theorem leaves_header (s : List Char) : Leaves Prod.snd s (header s) := by
  unfold header
  split
  next t ht =>
    refine .mono ((leaves_key t).bind fun ⟨path, last, u⟩ _ => ?_) (leaves_exactAll _ s t ht)
    exact (leaves_exactAll _ u).bind fun rest _ => .some (List.suffix_refl rest)
  next =>
    refine (leaves_exact '[' s).bind fun t _ => ?_
    refine (leaves_key t).bind fun ⟨path, last, u⟩ _ => ?_
    exact (leaves_exact ']' u).bind fun rest _ => .some (List.suffix_refl rest)

theorem leaves_statement? (s : List Char) : Leaves Prod.snd s (statement? s) := by
  unfold statement?
  split
  case h_5 => exact (leaves_header _).map fun _ => rfl
  case h_6 => exact (leaves_pair (leaves_value _) s).map fun _ => rfl
  all_goals exact .some (List.suffix_refl _)

end Findings.Toml
