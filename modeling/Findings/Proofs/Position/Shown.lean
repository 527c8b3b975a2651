import Findings.Proofs.Position
import Findings.Proofs.SelfDelimiting

/-!
# Positions in print

A position is printed as `file:line`. With a column behind it, it is read as the position again, if
no colon is in the file name; and none is in a name that was read (`Position.shown_read_again`). No
two positions are printed alike, whatever their names: the last colon ends the name, as none stands
among the digits of the line. Where more text follows, the name has to be free of colons and the
text must not go on with a digit (`Position.eq_of_shown_append`).
-/

set_option autoImplicit false

namespace Findings.Position

/-! ## Lines -/

theorem toList_toString (n : Nat) : (toString n).toList = Nat.toDigits 10 n := by
  rw [Nat.toString_eq_ofList_toDigits, String.toList_ofList]

theorem digits_toString (n : Nat) : Digits (toString n).toList := by
  rw [toList_toString]
  exact fun d hd => Nat.isDigit_of_mem_toDigits (by decide) (by decide) hd

/-- A printed number has no line feed in it. -/
theorem newline_not_mem_toString (n : Nat) : '\n' ∉ (toString n).toList :=
  fun h => absurd (digits_toString n _ h) (by decide)

theorem colon_not_mem_toString (n : Nat) : ':' ∉ (toString n).toList :=
  fun h => absurd (digits_toString n _ h) (by decide)

theorem number_toString (n : Nat) : number (toString n).toList = n := by
  rw [toList_toString]
  exact Nat.ofDigitChars_toDigits (by decide) (by decide)

theorem lineNumber_toString (n : UInt32) : LineNumber (toString n.toNat).toList n := by
  refine ⟨_, .inl rfl, ?_, digits_toString n.toNat, number_toString n.toNat⟩
  rw [toList_toString]
  exact Nat.toDigits_ne_nil

/-- Lines with the same digits are the same. -/
theorem line_inj {m n : UInt32} (h : (toString m.toNat).toList = (toString n.toNat).toList) :
    m = n := by
  rw [← UInt32.toNat_inj, ← number_toString m.toNat, h, number_toString]

/-! ## Reading what is printed -/

/-- **A position is read as it is written**, with any column. -/
theorem ofPosn_shown {p : Position} {column : String} (hfile : ':' ∉ p.filename.toList)
    (hcolumn : ':' ∉ column.toList) : ofPosn (p.shown ++ ":" ++ column) = .ok p := by
  obtain ⟨filename, n⟩ := p
  have hparts : Parts (shown ⟨filename, n⟩ ++ ":" ++ column) filename.toList
      (toString n.toNat).toList column.toList :=
    ⟨by simp [shown], hfile, colon_not_mem_toString _, hcolumn⟩
  have hread := (Reading.position hparts (lineNumber_toString n)).ofPosn_eq
  rw [String.ofList_toList] at hread
  exact hread

theorem colon_not_mem_of_ofPosn {posn : String} {p : Position} (h : ofPosn posn = .ok p) :
    ':' ∉ p.filename.toList := by
  obtain ⟨r, hr⟩ := exists_reading posn
  rw [hr.ofPosn_eq] at h
  subst h
  cases hr with
  | position hparts => simpa using hparts.file

/-! ## Telling positions apart -/

theorem toList_shown (p : Position) :
    p.shown.toList = p.filename.toList ++ ':' :: (toString p.line.toNat).toList := by
  simp [shown]

/-- The last colon of a printed position is the one in front of its line. -/
theorem shown_injective : Function.Injective shown := by
  rintro ⟨file, m⟩ ⟨file', n⟩ h
  have hreverse := congrArg List.reverse (congrArg String.toList h)
  simp only [toList_shown, List.reverse_append, List.reverse_cons, List.append_assoc,
    List.cons_append, List.nil_append] at hreverse
  obtain ⟨hline, hfile⟩ := eq_of_append_cons (p := (· = ':'))
    (fun x hx hcolon => colon_not_mem_toString m.toNat (hcolon ▸ List.mem_reverse.1 hx))
    (fun x hx hcolon => colon_not_mem_toString n.toNat (hcolon ▸ List.mem_reverse.1 hx))
    rfl rfl hreverse
  have hfile := List.reverse_inj.1 (List.cons.inj hfile).2
  rw [mk.injEq]
  exact ⟨String.toList_inj.1 hfile, line_inj (List.reverse_inj.1 hline)⟩

/-- A position tells where it ends if its name has no colon and what follows goes on with no
digit. -/
theorem eq_of_shown_append {p q : Position} {separator : String} {c : Char} {cs : List Char}
    (hseparator : separator.toList = c :: cs) (hc : ¬ c.isDigit) (hp : ':' ∉ p.filename.toList)
    (hq : ':' ∉ q.filename.toList) {s t : String}
    (h : p.shown ++ (separator ++ s) = q.shown ++ (separator ++ t)) : p = q ∧ s = t := by
  obtain ⟨file, m⟩ := p
  obtain ⟨file', n⟩ := q
  have hlist := congrArg String.toList h
  simp only [String.toList_append, toList_shown, hseparator, List.append_assoc,
    List.cons_append] at hlist
  obtain ⟨hfile, hafter⟩ := eq_of_append_cons (p := (· = ':'))
    (fun x hx hcolon => hp (hcolon ▸ hx)) (fun x hx hcolon => hq (hcolon ▸ hx)) rfl rfl hlist
  obtain ⟨hline, hrest⟩ := eq_of_append_cons (p := fun x => ¬ x.isDigit)
    (fun x hx => not_not.2 (digits_toString _ x hx))
    (fun x hx => not_not.2 (digits_toString _ x hx)) hc hc (List.cons.inj hafter).2
  have hst := List.append_cancel_left (List.cons.inj hrest).2
  rw [mk.injEq]
  exact ⟨⟨String.toList_inj.1 hfile, line_inj hline⟩, String.toList_inj.1 hst⟩

/-- **Printing and reading agree.** A position without a colon in its name is read from its print
with any column behind it; so is every position that was read from any text; and positions that are
printed alike are the same, with colons in their names too. -/
theorem shown_read_again :
    (∀ (p : Position) (column : String), ':' ∉ p.filename.toList → ':' ∉ column.toList →
      ofPosn (p.shown ++ ":" ++ column) = .ok p) ∧
    (∀ (posn : String) (p : Position), ofPosn posn = .ok p →
      ':' ∉ p.filename.toList ∧
        ∀ column : String, ':' ∉ column.toList → ofPosn (p.shown ++ ":" ++ column) = .ok p) ∧
    ∀ p q : Position, p.shown = q.shown → p = q := by
  refine ⟨fun p column hfile hcolumn => ofPosn_shown hfile hcolumn, fun posn p h => ?_, ?_⟩
  · have hfile := colon_not_mem_of_ofPosn h
    exact ⟨hfile, fun column hcolumn => ofPosn_shown hfile hcolumn⟩
  · intro p q h
    exact shown_injective h

theorem shown_read_again_lastLine :
    ofPosn ((⟨"a b", 4294967295⟩ : Position).shown ++ ":" ++ "é") = .ok ⟨"a b", 4294967295⟩ ∧
      ofPosn "ü.go:+010:" = .ok ⟨"ü.go", 10⟩ ∧
      ofPosn ((⟨"ü.go", 10⟩ : Position).shown ++ ":" ++ "") = .ok ⟨"ü.go", 10⟩ ∧
      (⟨"a:1", 2⟩ : Position).shown ≠ (⟨"a", 12⟩ : Position).shown := by
  obtain ⟨hread, hagain, hapart⟩ := shown_read_again
  have hposn : ofPosn "ü.go:+010:" = .ok ⟨"ü.go", 10⟩ := rfl
  refine ⟨hread ⟨"a b", 4294967295⟩ "é" (by decide) (by decide), hposn, ?_, fun h => ?_⟩
  · exact (hagain _ _ hposn).2 "" (by decide)
  · exact absurd (hapart _ _ h) (by decide)

end Findings.Position
