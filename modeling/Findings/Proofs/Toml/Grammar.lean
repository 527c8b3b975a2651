import Findings.Toml.Value
import Mathlib.Algebra.Group.Nat.Defs

/-!
# The grammar of plain TOML documents

Which texts are a plain document: lines with a bare key and a string or a list of strings, among
blank lines and comments. The relations here do not mention the readers.

* `StringText s t`: `s` is a basic string that spells `t`. A character stands for itself or is
  escaped (`CharText`).
* `ListText s l`: `s` is an array of basic strings. Between them there may be blanks, line ends and
  comments (`Filler`), and a comma may follow the last.
* `DocumentText s l`: `s` is lines, of which some give a value to a name, in the order of `l`.

Every character can be escaped, so every string and every list can be written, and values for any
names that are bare (`exists_documentText`).
-/

set_option autoImplicit false

namespace Findings.Toml

/-! ## Blanks and comments -/

/-- Spaces and tabs. -/
def Blank (w : List Char) : Prop := ∀ c ∈ w, c = ' ' ∨ c = '\t'

instance (w : List Char) : Decidable (Blank w) := List.decidableBAll _ w

theorem blank_nil : Blank [] := by
  simp [Blank]

/-- Any character but the controls; the tab is allowed. -/
def TextChar (c : Char) : Prop := c = '\t' ∨ 0x20 ≤ c.toNat ∧ c.toNat ≠ 0x7F

instance (c : Char) : Decidable (TextChar c) :=
  inferInstanceAs (Decidable (c = '\t' ∨ 0x20 ≤ c.toNat ∧ c.toNat ≠ 0x7F))

/-- A comment up to the end of its line, or none. -/
inductive CommentText : List Char → Prop
  | absent : CommentText []
  | mk {s : List Char} (h : ∀ c ∈ s, TextChar c) : CommentText ('#' :: s)

inductive LineEnd : List Char → Prop
  | lf : LineEnd ['\n']
  | crlf : LineEnd ['\r', '\n']

/-- Blanks, and before them ends of lines with blanks and comments. -/
inductive Filler : List Char → Prop
  | blank {w : List Char} (hw : Blank w) : Filler w
  | line {w k e s : List Char} (hw : Blank w) (hk : CommentText k) (he : LineEnd e)
      (hs : Filler s) : Filler (w ++ (k ++ (e ++ s)))

/-! ## Strings -/

/-- A hexadecimal digit and its value; letters may have either case. -/
inductive HexDigit (c : Char) (n : Nat) : Prop
  | decimal (h : n < 10) (hc : c.toNat = 0x30 + n)
  | upper (h : 10 ≤ n ∧ n < 16) (hc : c.toNat = 0x41 + (n - 10))
  | lower (h : 10 ≤ n ∧ n < 16) (hc : c.toNat = 0x61 + (n - 10))

/-- Hexadecimal digits and their value. -/
inductive HexText : List Char → Nat → Prop
  | nil : HexText [] 0
  | cons {c : Char} {s : List Char} {d n : Nat} (hc : HexDigit c d) (hs : HexText s n) :
      HexText (c :: s) (d * 16 ^ s.length + n)

/-- The letters of the short escapes and what they stand for. -/
def shortEscapes : List (Char × Char) :=
  [('b', '\x08'), ('t', '\t'), ('n', '\n'), ('f', '\x0C'), ('r', '\r'), ('"', '"'), ('\\', '\\')]

/-- What follows the backslash of an escape: a letter, or a code point of four or eight digits. -/
inductive EscapeText : List Char → Char → Prop
  | short {b c : Char} (h : (b, c) ∈ shortEscapes) : EscapeText [b] c
  | four {s : List Char} {c : Char} (h : HexText s c.toNat) (hs : s.length = 4) :
      EscapeText ('u' :: s) c
  | eight {s : List Char} {c : Char} (h : HexText s c.toNat) (hs : s.length = 8) :
      EscapeText ('U' :: s) c

/-- The ways to write a character. -/
inductive CharText : List Char → Char → Prop
  | plain {c : Char} (h : TextChar c) (hq : c ≠ '"') (hb : c ≠ '\\') : CharText [c] c
  | escape {s : List Char} {c : Char} (h : EscapeText s c) : CharText ('\\' :: s) c

/-- Characters one after the other. -/
inductive CharsText : List Char → List Char → Prop
  | nil : CharsText [] []
  | cons {s t : List Char} {c : Char} {cs : List Char} (h : CharText s c) (hs : CharsText t cs) :
      CharsText (s ++ t) (c :: cs)

/-- A text in quotation marks. -/
inductive StringText : List Char → String → Prop
  | mk {s : List Char} {t : String} (h : CharsText s t.toList) : StringText ('"' :: (s ++ ['"'])) t

/-! ## Lists -/

/-- What follows an item of a list up to the closing bracket. -/
inductive RestText : List Char → List String → Prop
  | close {w : List Char} (hw : Filler w) : RestText w []
  | comma {w v : List Char} (hw : Filler w) (hv : Filler v) : RestText (w ++ ',' :: v) []
  | item {w v s u : List Char} {t : String} {l : List String} (hw : Filler w) (hv : Filler v)
      (hs : StringText s t) (hu : RestText u l) : RestText (w ++ ',' :: (v ++ (s ++ u))) (t :: l)

/-- Strings in square brackets. -/
inductive ListText : List Char → List String → Prop
  | empty {w : List Char} (hw : Filler w) : ListText ('[' :: (w ++ [']'])) []
  | items {w s u : List Char} {t : String} {l : List String} (hw : Filler w) (hs : StringText s t)
      (hu : RestText u l) : ListText ('[' :: (w ++ (s ++ (u ++ [']'])))) (t :: l)

/-! ## Documents -/

/-- A string or a list of strings. -/
inductive Datum where
  | text (text : String)
  | texts (texts : List String)
deriving DecidableEq, Repr

inductive DatumText : List Char → Datum → Prop
  | text {s : List Char} {t : String} (h : StringText s t) : DatumText s (.text t)
  | texts {s : List Char} {l : List String} (h : ListText s l) : DatumText s (.texts l)

/-- Letters, digits, underscores and hyphens. -/
def BareChar (c : Char) : Prop :=
  '0' ≤ c ∧ c ≤ '9' ∨ 'a' ≤ c ∧ c ≤ 'z' ∨ 'A' ≤ c ∧ c ≤ 'Z' ∨ c = '_' ∨ c = '-'

instance (c : Char) : Decidable (BareChar c) :=
  inferInstanceAs (Decidable ('0' ≤ c ∧ c ≤ '9' ∨ 'a' ≤ c ∧ c ≤ 'z' ∨ 'A' ≤ c ∧ c ≤ 'Z' ∨
    c = '_' ∨ c = '-'))

def BareName (name : String) : Prop := name ≠ "" ∧ ∀ c ∈ name.toList, BareChar c

instance (name : String) : Decidable (BareName name) :=
  have := List.decidableBAll BareChar name.toList
  inferInstanceAs (Decidable (name ≠ "" ∧ ∀ c ∈ name.toList, BareChar c))

/-- A line without its end: nothing but blanks and a comment, or a value for a name before them. -/
inductive LineText : List Char → Option (String × Datum) → Prop
  | empty {w k : List Char} (hw : Blank w) (hk : CommentText k) : LineText (w ++ k) none
  | pair {w₁ w₂ w₃ w₄ s k : List Char} {name : String} {d : Datum} (hw₁ : Blank w₁)
      (hname : BareName name) (hw₂ : Blank w₂) (hw₃ : Blank w₃) (hs : DatumText s d)
      (hw₄ : Blank w₄) (hk : CommentText k) :
      LineText (w₁ ++ (name.toList ++ (w₂ ++ '=' :: (w₃ ++ (s ++ (w₄ ++ k)))))) (some (name, d))

/-- Lines one after the other; the last need not end. -/
inductive DocumentText : List Char → List (String × Datum) → Prop
  | last {s : List Char} {p : Option (String × Datum)} (h : LineText s p) : DocumentText s p.toList
  | line {s e u : List Char} {p : Option (String × Datum)} {l : List (String × Datum)}
      (h : LineText s p) (he : LineEnd e) (hu : DocumentText u l) :
      DocumentText (s ++ (e ++ u)) (p.toList ++ l)

/-! ## Everything can be written -/

theorem exists_hexDigit {n : Nat} (h : n < 16) : ∃ c, HexDigit c n := by
  have hdigits : ∀ n < 16, ("0123456789ABCDEF".toList.getD n '0').toNat =
      if n < 10 then 0x30 + n else 0x41 + (n - 10) := by
    decide
  have hc := hdigits n h
  by_cases hn : n < 10
  · rw [if_pos hn] at hc
    exact ⟨_, .decimal hn hc⟩
  · rw [if_neg hn] at hc
    exact ⟨_, .upper (by omega) hc⟩

/-- By induction on the number of digits; the first is the quotient by the weight of its place. -/
theorem exists_hexText {k n : Nat} (h : n < 16 ^ k) : ∃ s, HexText s n ∧ s.length = k := by
  induction k generalizing n with
  | zero =>
    obtain rfl : n = 0 := by simpa using h
    exact ⟨[], .nil, rfl⟩
  | succ k ih =>
    have hpos : 0 < 16 ^ k := Nat.pow_pos (by decide)
    have hfirst : n / 16 ^ k < 16 := by
      rw [Nat.div_lt_iff_lt_mul hpos, Nat.mul_comm]
      exact h
    obtain ⟨c, hc⟩ := exists_hexDigit hfirst
    obtain ⟨s, hs, hlength⟩ := ih (Nat.mod_lt n hpos)
    refine ⟨c :: s, ?_, by rw [List.length_cons, hlength]⟩
    have htext := HexText.cons hc hs
    rwa [hlength, Nat.div_add_mod'] at htext

theorem exists_charText (c : Char) : ∃ s, CharText s c := by
  by_cases h : TextChar c ∧ c ≠ '"' ∧ c ≠ '\\'
  · exact ⟨[c], .plain h.1 h.2.1 h.2.2⟩
  · have hvalid : c.toNat < 0xD800 ∨ 0xDFFF < c.toNat ∧ c.toNat < 0x110000 := c.valid
    have hlt : c.toNat < 16 ^ 8 := by omega
    obtain ⟨s, hs, hlength⟩ := exists_hexText hlt
    exact ⟨'\\' :: 'U' :: s, .escape (.eight hs hlength)⟩

theorem exists_charsText (cs : List Char) : ∃ s, CharsText s cs := by
  induction cs with
  | nil => exact ⟨[], .nil⟩
  | cons c cs ih =>
    obtain ⟨s, hs⟩ := exists_charText c
    obtain ⟨u, hu⟩ := ih
    exact ⟨s ++ u, .cons hs hu⟩

theorem exists_stringText (t : String) : ∃ s, StringText s t := by
  obtain ⟨s, hs⟩ := exists_charsText t.toList
  exact ⟨_, .mk hs⟩

theorem exists_restText (l : List String) : ∃ s, RestText s l := by
  induction l with
  | nil => exact ⟨[], .close (.blank blank_nil)⟩
  | cons t l ih =>
    obtain ⟨s, hs⟩ := exists_stringText t
    obtain ⟨u, hu⟩ := ih
    exact ⟨_, .item (.blank blank_nil) (.blank blank_nil) hs hu⟩

theorem exists_datumText (d : Datum) : ∃ s, DatumText s d := by
  cases d with
  | text t =>
    obtain ⟨s, hs⟩ := exists_stringText t
    exact ⟨s, .text hs⟩
  | texts l =>
    cases l with
    | nil => exact ⟨_, .texts (.empty (.blank blank_nil))⟩
    | cons t l =>
      obtain ⟨s, hs⟩ := exists_stringText t
      obtain ⟨u, hu⟩ := exists_restText l
      exact ⟨_, .texts (.items (.blank blank_nil) hs hu)⟩

theorem exists_documentText {l : List (String × Datum)} (h : ∀ p ∈ l, BareName p.1) :
    ∃ s, DocumentText s l := by
  induction l with
  | nil => exact ⟨_, .last (.empty blank_nil .absent)⟩
  | cons p l ih =>
    obtain ⟨s, hs⟩ := exists_datumText p.2
    obtain ⟨u, hu⟩ := ih fun q hq => h q (List.mem_cons_of_mem p hq)
    have hline := LineText.pair blank_nil (h p List.mem_cons_self) blank_nil blank_nil hs
      blank_nil .absent
    exact ⟨_, .line hline .lf hu⟩

end Findings.Toml
