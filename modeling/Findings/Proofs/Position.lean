import Findings.Position
import Findings.Proofs.Segments
import Mathlib.Data.List.Basic
import Mathlib.Data.List.Induction

/-!
# Reading positions

`Position.ofPosn` against a description of the texts it is given (`Reading`): what is read from the
form `file:line:column`, and what is wrong with every other text. The number of parts is looked at
first; then the leftmost problem of the line decides (`LineFault`).

Route. Digits that stay below the bound are taken in one after the other
(`appendDigits_append`), up to the end or to the first character that is no digit or takes the
number out of range (`digits_or_stumbles`). Every text is described in one way
(`Reading.ofPosn_eq`, `exists_reading`).
-/

set_option autoImplicit false

namespace Findings.Position

/-! ## What a text says -/

/-- The text consists of three parts with a colon between one and the next. -/
structure Parts (posn : String) (file line column : List Char) : Prop where
  text : posn.toList = file ++ ':' :: (line ++ ':' :: column)
  file : ':' ∉ file
  line : ':' ∉ line
  column : ':' ∉ column

/-- Decimal digits. -/
def Digits (ds : List Char) : Prop := ∀ d ∈ ds, d.isDigit = true

/-- The number that digits write. -/
def number (ds : List Char) : Nat := Nat.ofDigitChars 10 ds 0

/-- The text is at least one digit, after at most one plus sign, and writes the number `n`. -/
def LineNumber (text : List Char) (n : UInt32) : Prop :=
  ∃ ds, (text = ds ∨ text = '+' :: ds) ∧ ds ≠ [] ∧ Digits ds ∧ number ds = n.toNat

/-- What follows the plus sign of a text, if it starts with one. -/
def unsigned : List Char → List Char
  | '+' :: cs => cs
  | cs => cs

/-- The leftmost problem of a text that should be a line number. -/
inductive LineFault (text : List Char) : LineError → Prop
  | empty (h : text = []) : LineFault text .empty
  | sign (h : text = ['+']) : LineFault text .invalidDigit
  /-- The number is in range up to a character that is no digit. -/
  | invalidDigit {ds rest : List Char} {c : Char} (h : unsigned text = ds ++ c :: rest)
      (hds : Digits ds) (hrange : number ds < UInt32.size) (hc : ¬ c.isDigit) :
      LineFault text .invalidDigit
  /-- The number is in range up to a digit, and with it no longer. -/
  | tooLarge {ds rest : List Char} {d : Char} (h : unsigned text = ds ++ d :: rest)
      (hds : Digits ds) (hrange : number ds < UInt32.size) (hd : d.isDigit)
      (hlarge : UInt32.size ≤ number (ds ++ [d])) : LineFault text .tooLarge

/-- What is read from a text, or what is wrong with it. -/
inductive Reading (posn : String) : Except PositionError Position → Prop
  | position {file line column : List Char} {n : UInt32} (h : Parts posn file line column)
      (hline : LineNumber line n) : Reading posn (.ok ⟨String.ofList file, n⟩)
  | segmentCount (h : posn.toList.count ':' ≠ 2) :
      Reading posn (.error (.segmentCount (posn.toList.count ':' + 1)))
  | line {file line column : List Char} {cause : LineError} (h : Parts posn file line column)
      (hline : LineFault line cause) : Reading posn (.error (.line (String.ofList line) cause))

/-! ## Digits -/

section
variable {n : UInt32} {ds cs : List Char} {c : Char}

theorem digit?_of_isDigit (h : c.isDigit) : digit? c = some (c.toNat - '0'.toNat) := if_pos h

theorem digit?_of_not_isDigit (h : ¬ c.isDigit) : digit? c = none := if_neg h

theorem le_ofDigitChars (ds : List Char) (n : Nat) : n ≤ Nat.ofDigitChars 10 ds n := by
  rw [Nat.ofDigitChars_eq_ofDigitChars_zero]
  exact Nat.le_add_right_of_le (Nat.le_mul_of_pos_left n (Nat.pow_pos (by decide)))

/-- Digits are taken in as long as the number stays in range. -/
theorem appendDigits_append (hds : Digits ds)
    (hrange : Nat.ofDigitChars 10 ds n.toNat < UInt32.size) (cs : List Char) :
    appendDigits n (ds ++ cs) = appendDigits (.ofNat (Nat.ofDigitChars 10 ds n.toNat)) cs := by
  induction ds generalizing n with
  | nil => simp
  | cons d ds ih =>
    have hd := hds d List.mem_cons_self
    rw [Nat.ofDigitChars_cons, Nat.mul_comm] at hrange ⊢
    have hlt := Nat.lt_of_le_of_lt (le_ofDigitChars ds _) hrange
    have hn : (UInt32.ofNat (n.toNat * 10 + (d.toNat - '0'.toNat))).toNat =
        n.toNat * 10 + (d.toNat - '0'.toNat) := UInt32.toNat_ofNat_of_lt hlt
    rw [List.cons_append, appendDigits, digit?_of_isDigit hd]
    simp only [if_pos hlt]
    rw [← hn] at hrange
    rw [ih (fun x hx => hds x (List.mem_cons_of_mem d hx)) hrange, hn]

theorem appendDigits_zero_append (hds : Digits ds) (hrange : number ds < UInt32.size)
    (cs : List Char) : appendDigits 0 (ds ++ cs) = appendDigits (.ofNat (number ds)) cs :=
  appendDigits_append (n := 0) hds hrange cs

/-- A digit is taken in if the number stays in range. -/
theorem appendDigits_digit (h : c.isDigit) (cs : List Char) :
    appendDigits n (c :: cs) =
      if Nat.ofDigitChars 10 [c] n.toNat < UInt32.size then
        appendDigits (.ofNat (Nat.ofDigitChars 10 [c] n.toNat)) cs
      else .error .tooLarge := by
  rw [appendDigits, digit?_of_isDigit h, Nat.ofDigitChars_cons, Nat.ofDigitChars_nil, Nat.mul_comm]

/-- A text is a number in range, or there is a first character that makes it none. -/
theorem digits_or_stumbles (cs : List Char) :
    Digits cs ∧ number cs < UInt32.size ∨
      ∃ ds c rest, cs = ds ++ c :: rest ∧ Digits ds ∧ number ds < UInt32.size ∧
        (c.isDigit → UInt32.size ≤ number (ds ++ [c])) := by
  induction cs using List.reverseRecOn with
  | nil => exact .inl ⟨fun _ h => absurd h List.not_mem_nil, by decide⟩
  | append_singleton cs c ih =>
    rcases ih with ⟨hcs, hrange⟩ | ⟨ds, d, rest, rfl, h⟩
    · by_cases hc : c.isDigit ∧ number (cs ++ [c]) < UInt32.size
      · exact .inl ⟨by simpa [Digits, or_imp, forall_and] using ⟨hcs, hc.1⟩, hc.2⟩
      · exact .inr ⟨cs, c, [], rfl, hcs, hrange, fun h => Nat.le_of_not_lt fun hlt => hc ⟨h, hlt⟩⟩
    · exact .inr ⟨ds, d, rest ++ [c], by simp, h⟩

end

/-! ## Lines -/

section
variable {text ds : List Char} {n : UInt32} {cause : LineError}

theorem readLine_of_ne (h : text ≠ []) (h' : text ≠ ['+']) :
    readLine text = appendDigits 0 (unsigned text) := by
  unfold readLine unsigned
  split <;> simp_all

/-- A text that goes on after a sign, or has none, is read digit by digit. -/
theorem readLine_of_unsigned_ne (h : unsigned text ≠ []) :
    readLine text = appendDigits 0 (unsigned text) := by
  refine readLine_of_ne ?_ ?_ <;> rintro rfl <;> exact h rfl

theorem unsigned_of_digits (h : Digits ds) : unsigned ds = ds := by
  unfold unsigned
  split
  · exact absurd (h '+' List.mem_cons_self) (by decide)
  · rfl

theorem eq_or_eq_cons_unsigned (text : List Char) :
    text = unsigned text ∨ text = '+' :: unsigned text := by
  unfold unsigned
  split
  · exact .inr rfl
  · exact .inl rfl

theorem LineNumber.readLine_eq (h : LineNumber text n) : readLine text = .ok n := by
  obtain ⟨ds, htext, hne, hds, hn⟩ := h
  have hunsigned : unsigned text = ds := by
    rcases htext with rfl | rfl
    · exact unsigned_of_digits hds
    · rfl
  have hrange : number ds < UInt32.size := hn ▸ n.toNat_lt
  have hread := appendDigits_zero_append hds hrange []
  rw [List.append_nil, hn, UInt32.ofNat_toNat] at hread
  rw [readLine_of_unsigned_ne (hunsigned ▸ hne), hunsigned, hread]
  rfl

theorem LineFault.readLine_eq (h : LineFault text cause) : readLine text = .error cause := by
  cases h with
  | empty h => rw [h]; rfl
  | sign h => rw [h]; rfl
  | invalidDigit h hds hrange hc =>
    rw [readLine_of_unsigned_ne (by simp [h]), h, appendDigits_zero_append hds hrange, appendDigits,
      digit?_of_not_isDigit hc]
  | tooLarge h hds hrange hd hlarge =>
    have hn : (UInt32.ofNat _).toNat = _ := UInt32.toNat_ofNat_of_lt hrange
    rw [number, Nat.ofDigitChars_append, ← number, ← hn] at hlarge
    rw [readLine_of_unsigned_ne (by simp [h]), h, appendDigits_zero_append hds hrange,
      appendDigits_digit hd, if_neg (Nat.not_lt.2 hlarge)]

/-- A text is a line number, or something is wrong with it. -/
theorem lineNumber_or_lineFault (text : List Char) :
    (∃ n, LineNumber text n) ∨ ∃ cause, LineFault text cause := by
  by_cases hempty : text = []
  · exact .inr ⟨_, .empty hempty⟩
  by_cases hsign : text = ['+']
  · exact .inr ⟨_, .sign hsign⟩
  rcases digits_or_stumbles (unsigned text) with ⟨hds, hrange⟩ | ⟨ds, c, rest, h, hds, hrange, hc⟩
  · refine .inl ⟨_, _, eq_or_eq_cons_unsigned text, fun h => ?_, hds,
      (UInt32.toNat_ofNat_of_lt hrange).symm⟩
    rcases eq_or_eq_cons_unsigned text with htext | htext <;> rw [h] at htext
    · exact hempty htext
    · exact hsign htext
  · by_cases hdigit : c.isDigit
    · exact .inr ⟨_, .tooLarge h hds hrange hdigit (hc hdigit)⟩
    · exact .inr ⟨_, .invalidDigit h hds hrange hdigit⟩

end

/-! ## Positions -/

section
variable {posn : String} {file line column : List Char}

theorem Parts.segments_eq (h : Parts posn file line column) :
    segments ':' posn.toList = [file, line, column] := by
  refine segments_eq_iff.2 ⟨by simp, ?_, ?_⟩
  · simpa using ⟨h.file, h.line, h.column⟩
  · simp [h.text, List.intercalate, List.intersperse]

theorem exists_parts (h : posn.toList.count ':' = 2) :
    ∃ file line column, Parts posn file line column := by
  have hlength := length_segments ':' posn.toList
  rw [h] at hlength
  obtain ⟨file, line, column, hsegments⟩ := List.length_eq_three.1 hlength
  obtain ⟨-, hcolon, htext⟩ := segments_eq_iff.1 hsegments
  refine ⟨file, line, column, ?_, hcolon _ (by simp), hcolon _ (by simp), hcolon _ (by simp)⟩
  simpa [List.intercalate, List.intersperse] using htext

theorem Reading.ofPosn_eq {r : Except PositionError Position} (h : Reading posn r) :
    ofPosn posn = r := by
  cases h with
  | position h hline => rw [ofPosn, h.segments_eq]; simp only [hline.readLine_eq]
  | line h hline => rw [ofPosn, h.segments_eq]; simp only [hline.readLine_eq]
  | segmentCount h =>
    have hlength := length_segments ':' posn.toList
    unfold ofPosn
    split
    next hs => rw [hs] at hlength; simp at hlength; omega
    next => rw [hlength]

theorem exists_reading (posn : String) : ∃ r, Reading posn r := by
  by_cases hcount : posn.toList.count ':' = 2
  · obtain ⟨file, line, column, h⟩ := exists_parts hcount
    rcases lineNumber_or_lineFault line with ⟨n, hline⟩ | ⟨cause, hline⟩
    · exact ⟨_, .position h hline⟩
    · exact ⟨_, .line h hline⟩
  · exact ⟨_, .segmentCount hcount⟩

end

/-- **What is read from a text is what it says.** A text of three parts whose line is a number gives
a position; any other is refused for the number of its parts or else for the leftmost problem of its
line. -/
theorem ofPosn_eq_iff (posn : String) (r : Except PositionError Position) :
    ofPosn posn = r ↔ Reading posn r := by
  refine ⟨?_, Reading.ofPosn_eq⟩
  rintro rfl
  obtain ⟨r, h⟩ := exists_reading posn
  rw [h.ofPosn_eq]
  exact h

/-- A number that is already too large is never read to the end. -/
example : ofPosn "a.go:4294967296x:1" = .error (.line "4294967296x" .tooLarge) := rfl

end Findings.Position
