import Findings.Json.Reader

/-!
# The grammar of JSON texts

Which bytes are a JSON text, and of which value. The relations here do not mention the readers:

* `StringText s t`: `s` is a string of JSON that spells `t`, in quotation marks. A character stands
  for itself in UTF-8 or is escaped (`CharText`).
* `BodyText closing G first s l`: `s` is the items `l`, each spelled as `G` says, and the closing
  mark of a list or an object; `first` tells whether they are all of it. `ListText` and `ObjectText`
  build on it.
* `ValueText s`: `s` is a JSON value of any kind, of which nothing but the syntax counts. Its
  strings may hold ill-formed UTF-8 and unpaired surrogates.

`ValueText` is said through the items of a container (`ItemText`) and what follows one
(`RestText`), for lists and objects alike.
-/

set_option autoImplicit false

namespace Findings.Json

/-- Spaces, line feeds, tabs and carriage returns. -/
def Blank (w : Bytes) : Prop := ∀ b ∈ w, b = 0x20 ∨ b = 0x0A ∨ b = 0x09 ∨ b = 0x0D

instance (w : Bytes) : Decidable (Blank w) :=
  inferInstanceAs (Decidable (∀ b ∈ w, b = 0x20 ∨ b = 0x0A ∨ b = 0x09 ∨ b = 0x0D))

/-! ## Strings -/

/-- A hexadecimal digit and its value; letters may have either case. -/
inductive HexDigit (b : UInt8) (n : Nat) : Prop
  | decimal (h : n < 10) (hb : b.toNat = 0x30 + n)
  | upper (h : 10 ≤ n ∧ n < 16) (hb : b.toNat = 0x41 + (n - 10))
  | lower (h : 10 ≤ n ∧ n < 16) (hb : b.toNat = 0x61 + (n - 10))

/-- Four hexadecimal digits and their value. -/
inductive HexUnit : Bytes → Nat → Prop
  | mk {a b c d : UInt8} {k l m n : Nat} (ha : HexDigit a k) (hb : HexDigit b l)
      (hc : HexDigit c m) (hd : HexDigit d n) :
      HexUnit [a, b, c, d] (((k * 16 + l) * 16 + m) * 16 + n)

/-- The letters of the short escapes and what they stand for. -/
def shortEscapes : List (UInt8 × Char) :=
  [(0x22, '"'), (0x5C, '\\'), (0x2F, '/'), (0x62, '\x08'), (0x66, '\x0C'), (0x6E, '\n'),
    (0x72, '\r'), (0x74, '\t')]

/-- What follows the backslash of an escape: a letter, the digits of a code point, or those of its
two surrogates. -/
inductive EscapeText : Bytes → Char → Prop
  | short {b : UInt8} {c : Char} (h : (b, c) ∈ shortEscapes) : EscapeText [b] c
  | unicode {u : Bytes} {c : Char} (h : HexUnit u c.toNat) : EscapeText (0x75 :: u) c
  | pair {u v : Bytes} {c : Char} (h : 0x10000 ≤ c.toNat)
      (hu : HexUnit u (0xD800 + (c.toNat - 0x10000) / 0x400))
      (hv : HexUnit v (0xDC00 + (c.toNat - 0x10000) % 0x400)) :
      EscapeText (0x75 :: (u ++ 0x5C :: 0x75 :: v)) c

/-- The ways to write a character. -/
inductive CharText : Bytes → Char → Prop
  | plain {c : Char} (h : 0x20 ≤ c.toNat) (hq : c ≠ '"') (hb : c ≠ '\\') :
      CharText (String.utf8EncodeChar c) c
  | escape {s : Bytes} {c : Char} (h : EscapeText s c) : CharText (0x5C :: s) c

/-- Characters one after the other. -/
inductive CharsText : Bytes → List Char → Prop
  | nil : CharsText [] []
  | cons {s t : Bytes} {c : Char} {cs : List Char} (h : CharText s c) (hs : CharsText t cs) :
      CharsText (s ++ t) (c :: cs)

/-- A text in quotation marks. -/
inductive StringText : Bytes → String → Prop
  | mk {s : Bytes} {t : String} (h : CharsText s t.toList) : StringText (0x22 :: (s ++ [0x22])) t

/-! ## Lists and objects -/

/-- What stands before an item: blanks, and a comma unless it is the first. -/
inductive Separator : Bool → Bytes → Prop
  | first {w : Bytes} (hw : Blank w) : Separator true w
  | comma {w v : Bytes} (hw : Blank w) (hv : Blank v) : Separator false (w ++ 0x2C :: v)

section
variable {α : Type}

/-- Items up to the closing mark. -/
inductive BodyText (closing : UInt8) (G : Bytes → α → Prop) : Bool → Bytes → List α → Prop
  | close {first : Bool} {w : Bytes} (hw : Blank w) : BodyText closing G first (w ++ [closing]) []
  | item {first : Bool} {v t s : Bytes} {a : α} {l : List α} (hv : Separator first v) (ht : G t a)
      (hs : BodyText closing G false s l) : BodyText closing G first (v ++ (t ++ s)) (a :: l)

/-- Values in square brackets. -/
inductive ListText (G : Bytes → α → Prop) : Bytes → List α → Prop
  | mk {s : Bytes} {l : List α} (h : BodyText 0x5D G true s l) : ListText G (0x5B :: s) l

/-- A name and a value, with a colon between them. -/
inductive MemberText (G : Bytes → α → Prop) : Bytes → String × α → Prop
  | mk {k w v t : Bytes} {name : String} {a : α} (hk : StringText k name) (hw : Blank w)
      (hv : Blank v) (ht : G t a) : MemberText G (k ++ (w ++ 0x3A :: (v ++ t))) (name, a)

/-- Members in braces. -/
inductive ObjectText (G : Bytes → α → Prop) : Bytes → List (String × α) → Prop
  | mk {s : Bytes} {l : List (String × α)} (h : BodyText 0x7D (MemberText G) true s l) :
      ObjectText G (0x7B :: s) l

/-- The word `null`, or a value. -/
inductive OrNullText (G : Bytes → α → Prop) : Bytes → Option α → Prop
  | null : OrNullText G [0x6E, 0x75, 0x6C, 0x6C] none
  | value {t : Bytes} {a : α} (h : G t a) : OrNullText G t (some a)

end

/-! ## Values of any kind -/

/-- A byte of a string whose value does not count, or an escape in it. -/
inductive SkippedChar : Bytes → Prop
  | plain {b : UInt8} (h : 0x20 ≤ b.toNat) (hq : b ≠ 0x22) (hb : b ≠ 0x5C) : SkippedChar [b]
  | short {b : UInt8} {c : Char} (h : (b, c) ∈ shortEscapes) : SkippedChar [0x5C, b]
  | unicode {u : Bytes} {n : Nat} (h : HexUnit u n) : SkippedChar (0x5C :: 0x75 :: u)

inductive SkippedChars : Bytes → Prop
  | nil : SkippedChars []
  | cons {s t : Bytes} (h : SkippedChar s) (hs : SkippedChars t) : SkippedChars (s ++ t)

/-- A string whose value does not count. -/
inductive SkippedString : Bytes → Prop
  | mk {s : Bytes} (h : SkippedChars s) : SkippedString (0x22 :: (s ++ [0x22]))

def IsDigit (b : UInt8) : Prop := 0x30 ≤ b.toNat ∧ b.toNat ≤ 0x39

/-- Decimal digits, at least one. -/
def Digits (s : Bytes) : Prop := s ≠ [] ∧ ∀ b ∈ s, IsDigit b

/-- The digits before the point: no zero stands in front of others. -/
inductive IntegerText : Bytes → Prop
  | zero : IntegerText [0x30]
  | digits {b : UInt8} {s : Bytes} (hb : IsDigit b) (h : b ≠ 0x30) (hs : ∀ b ∈ s, IsDigit b) :
      IntegerText (b :: s)

inductive FractionText : Bytes → Prop
  | absent : FractionText []
  | digits {s : Bytes} (h : Digits s) : FractionText (0x2E :: s)

inductive ExponentText : Bytes → Prop
  | absent : ExponentText []
  | digits {e : UInt8} {sign s : Bytes} (he : e = 0x65 ∨ e = 0x45)
      (hsign : sign = [] ∨ sign = [0x2B] ∨ sign = [0x2D]) (h : Digits s) :
      ExponentText (e :: (sign ++ s))

inductive NumberText : Bytes → Prop
  | mk {i f e : Bytes} (hi : IntegerText i) (hf : FractionText f) (he : ExponentText e) :
      NumberText (i ++ (f ++ e))

/-- A value that is neither a list nor an object. -/
inductive ScalarText : Bytes → Prop
  | nullWord : ScalarText [0x6E, 0x75, 0x6C, 0x6C]
  | trueWord : ScalarText [0x74, 0x72, 0x75, 0x65]
  | falseWord : ScalarText [0x66, 0x61, 0x6C, 0x73, 0x65]
  | string {s : Bytes} (h : SkippedString s) : ScalarText s
  | number {s : Bytes} (h : NumberText s) : ScalarText s
  | negative {s : Bytes} (h : NumberText s) : ScalarText (0x2D :: s)

/-- The mark that opens a container. -/
def Frame.opening : Frame → UInt8
  | list => 0x5B
  | object => 0x7B

mutual

inductive ValueText : Bytes → Prop
  | scalar {s : Bytes} (h : ScalarText s) : ValueText s
  | empty {f : Frame} {w : Bytes} (hw : Blank w) : ValueText (f.opening :: (w ++ [f.closing]))
  | items {f : Frame} {w t s : Bytes} (hw : Blank w) (ht : ItemText f t) (hs : RestText f s) :
      ValueText (f.opening :: (w ++ (t ++ s)))

/-- An item of a container: a value, or a name and a value. -/
inductive ItemText : Frame → Bytes → Prop
  | value {t : Bytes} (h : ValueText t) : ItemText .list t
  | member {k w v t : Bytes} (hk : SkippedString k) (hw : Blank w) (hv : Blank v)
      (h : ValueText t) : ItemText .object (k ++ (w ++ 0x3A :: (v ++ t)))

/-- What follows an item of a container. -/
inductive RestText : Frame → Bytes → Prop
  | close {f : Frame} {w : Bytes} (hw : Blank w) : RestText f (w ++ [f.closing])
  | comma {f : Frame} {w v t s : Bytes} (hw : Blank w) (hv : Blank v) (ht : ItemText f t)
      (hs : RestText f s) : RestText f (w ++ 0x2C :: (v ++ (t ++ s)))

end

end Findings.Json
