import Findings.Payload
import Mathlib.Data.List.Forall2

/-!
# What error messages quote

How a string, a finding and a whole entry stand in an error message, said of the values alone: a
string between quotation marks with a form for each of its characters (`Text.Quoted`), a finding
with its two fields, a result as `None` or as `Some` of a list, an entry as its analyzers in
ascending order between braces (`Entry.Rendered`). Each value has one such text, and the messages
have it (`Entry.rendered_iff`).
-/

set_option autoImplicit false

namespace Findings

/-! ## Strings and lists -/

namespace Text

variable {c : Char} {form : List Char}

/-- The characters with a short escape, with what follows the backslash in it. -/
def shortEscapes : List (Char × Char) :=
  [('"', '"'), ('\\', '\\'), ('\t', 't'), ('\n', 'n'), ('\r', 'r'), ('\x00', '0')]

/-- The form of a character between quotation marks: a short escape if it has one, else itself if it
has a glyph, else its code point. -/
inductive Escaped (c : Char) : List Char → Prop
  | short {e : Char} (h : (c, e) ∈ shortEscapes) : Escaped c ['\\', e]
  | plain (h : ∀ e, (c, e) ∉ shortEscapes) (hglyph : isStandalone c) : Escaped c [c]
  | code (h : ∀ e, (c, e) ∉ shortEscapes) (hglyph : ¬ isStandalone c) :
      Escaped c ('\\' :: 'u' :: '\x7b' :: (Nat.toDigits 16 c.toNat ++ ['\x7d']))

/-- The text is the string between quotation marks, with the forms of its characters. -/
inductive Quoted (s : String) : String → Prop
  | mk {forms : List (List Char)} (h : List.Forall₂ Escaped s.toList forms) :
      Quoted s ("\"" ++ String.ofList forms.flatten ++ "\"")

/-- The text has the texts of the items, with a comma and a blank between each two. -/
inductive Enumerated {α : Type} (R : α → String → Prop) (l : List α) : String → Prop
  | mk {texts : List String} (h : List.Forall₂ R l texts) :
      Enumerated R l (String.intercalate ", " texts)

theorem escapeChar_of_short {e : Char} (h : (c, e) ∈ shortEscapes) : escapeChar c = ['\\', e] := by
  have hall : ∀ p ∈ shortEscapes, escapeChar p.1 = ['\\', p.2] := by decide
  exact hall _ h

theorem escapeChar_of_not_short (h : ∀ e, (c, e) ∉ shortEscapes) :
    escapeChar c = if isStandalone c then [c]
      else '\\' :: 'u' :: '\x7b' :: (Nat.toDigits 16 c.toNat ++ ['\x7d']) := by
  have hne {d e : Char} (hd : (d, e) ∈ shortEscapes) : c ≠ d := by
    rintro rfl
    exact h e hd
  unfold escapeChar
  rw [if_neg (hne (e := '"') (by decide)), if_neg (hne (e := '\\') (by decide)),
    if_neg (hne (e := 't') (by decide)), if_neg (hne (e := 'n') (by decide)),
    if_neg (hne (e := 'r') (by decide)), if_neg (hne (e := '0') (by decide))]
  rfl

/-- Each character has one form. -/
theorem escaped_iff : Escaped c form ↔ form = escapeChar c := by
  constructor
  · intro h
    cases h with
    | short h => rw [escapeChar_of_short h]
    | plain h hglyph => rw [escapeChar_of_not_short h, if_pos hglyph]
    | code h hglyph => rw [escapeChar_of_not_short h, if_neg hglyph]
  · rintro rfl
    by_cases h : ∃ e, (c, e) ∈ shortEscapes
    · obtain ⟨e, he⟩ := h
      rw [escapeChar_of_short he]
      exact .short he
    · rw [not_exists] at h
      rw [escapeChar_of_not_short h]
      split
      next hglyph => exact .plain h hglyph
      next hglyph => exact .code h hglyph

theorem escaped_escapeChar (c : Char) : Escaped c (escapeChar c) := escaped_iff.2 rfl

theorem forall₂_iff_eq_map {α β : Type} {R : α → β → Prop} {f : α → β}
    (h : ∀ a b, R a b ↔ b = f a) {l : List α} {l' : List β} :
    List.Forall₂ R l l' ↔ l' = l.map f := by
  have hR : R = fun a b => f a = b := by
    funext a b
    exact propext ((h a b).trans eq_comm)
  rw [hR, ← List.forall₂_map_left_iff (R := (· = ·)), List.forall₂_eq_eq_eq, eq_comm]

theorem quoted_iff {s text : String} : Quoted s text ↔ text = quote s := by
  have hquote : quote s = "\"" ++ String.ofList (s.toList.map escapeChar).flatten ++ "\"" := by
    rw [← String.toList_inj]
    simp [quote, List.flatMap_def]
  rw [hquote]
  constructor
  · rintro ⟨h⟩
    rw [(forall₂_iff_eq_map @escaped_iff).1 h]
  · rintro rfl
    exact ⟨(forall₂_iff_eq_map @escaped_iff).2 rfl⟩

theorem enumerated_iff {α : Type} {R : α → String → Prop} {f : α → String}
    (h : ∀ a text, R a text ↔ text = f a) {l : List α} {text : String} :
    Enumerated R l text ↔ text = String.intercalate ", " (l.map f) := by
  constructor
  · rintro ⟨htexts⟩
    rw [(forall₂_iff_eq_map h).1 htexts]
  · rintro rfl
    exact ⟨(forall₂_iff_eq_map h).2 rfl⟩

end Text

/-! ## Entries -/

/-- The text shows the finding with its two fields. -/
inductive Finding.Rendered (d : Finding) : String → Prop
  | mk {posn message : String} (hposn : Text.Quoted d.posn posn)
      (hmessage : Text.Quoted d.message message) :
      Rendered d ("RawDiagnostic \x7b posn: " ++ posn ++ ", message: " ++ message ++ " \x7d")

theorem Finding.rendered_iff {d : Finding} {text : String} : d.Rendered text ↔ text = d.shown := by
  constructor
  · rintro ⟨hposn, hmessage⟩
    rw [Text.quoted_iff.1 hposn, Text.quoted_iff.1 hmessage]
    rfl
  · rintro rfl
    exact ⟨Text.quoted_iff.2 rfl, Text.quoted_iff.2 rfl⟩

namespace Entry

/-- The text shows one analyzer's result. -/
inductive ResultRendered : Option (List Finding) → String → Prop
  | none : ResultRendered none "None"
  | some {l : List Finding} {items : String} (h : Text.Enumerated Finding.Rendered l items) :
      ResultRendered (some l) ("Some([" ++ items ++ "])")

/-- The text shows an analyzer with its result. -/
inductive MemberRendered (p : String × Option (List Finding)) : String → Prop
  | mk {name result : String} (hname : Text.Quoted p.1 name)
      (hresult : ResultRendered p.2 result) : MemberRendered p (name ++ ": " ++ result)

/-- The text shows the whole entry, in ascending order of the analyzers' names. -/
inductive Rendered (e : Entry) : String → Prop
  | mk {items : String} (h : Text.Enumerated MemberRendered e.toList items) :
      Rendered e ("\x7b" ++ items ++ "\x7d")

theorem resultRendered_iff {r : Option (List Finding)} {text : String} :
    ResultRendered r text ↔ text = shownResult r := by
  constructor
  · intro h
    cases h with
    | none => rfl
    | some h => rw [(Text.enumerated_iff @Finding.rendered_iff).1 h, shownResult]
  · rintro rfl
    cases r with
    | none => exact .none
    | some l => exact .some ((Text.enumerated_iff @Finding.rendered_iff).2 rfl)

theorem memberRendered_iff {p : String × Option (List Finding)} {text : String} :
    MemberRendered p text ↔ text = Text.quote p.1 ++ ": " ++ shownResult p.2 := by
  constructor
  · rintro ⟨hname, hresult⟩
    rw [Text.quoted_iff.1 hname, resultRendered_iff.1 hresult]
  · rintro rfl
    exact ⟨Text.quoted_iff.2 rfl, resultRendered_iff.2 rfl⟩

/-- **An entry has one text**, the one that the messages show. -/
theorem rendered_iff {e : Entry} {text : String} : e.Rendered text ↔ text = e.shown := by
  constructor
  · rintro ⟨h⟩
    rw [(Text.enumerated_iff @memberRendered_iff).1 h, shown]
  · rintro rfl
    exact ⟨(Text.enumerated_iff @memberRendered_iff).2 rfl⟩

end Entry

end Findings
