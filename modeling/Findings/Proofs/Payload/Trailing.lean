import Findings.Proofs.Payload.Document
import Findings.Proofs.Stages

/-!
# What follows a payload

An accepted raw output stays accepted, as the same payload, when blanks follow it, and is refused
when anything else does: for trailing characters, at the first byte that is not blank
(`Payload.decode_append_blank`, `Payload.decode_append_mark`). A payload is an object and so ends by
itself: the readers give back what follows it untouched (`Json.Reader.Reads.complete`), and only
`Json.Reader.readAll` looks at it.

What a run reads is standard output followed by standard error, so a word on standard error spoils
the run.
-/

set_option autoImplicit false

namespace Findings

namespace Json

variable {raw s w r : Bytes} {b : UInt8}

/-- The byte that comes after `before` is on line `l.line`, where it is byte number `l.column`:
`row` is what stands before it on its line, and `above` are the lines before. -/
inductive Location.Follows (before : Bytes) (l : Location) : Prop
  | mk {above row : Bytes} (hsplit : before = above ++ row)
      (habove : above = [] ∨ above.getLast? = some 0x0A) (hrow : 0x0A ∉ row)
      (hline : l.line = above.count 0x0A + 1) (hcolumn : l.column = row.length + 1)

/-- The first byte of `s` that is not blank stands at the place `l` of `raw ++ s`. -/
def FirstMark (raw s : Bytes) (l : Location) : Prop :=
  ∃ w b r, s = w ++ b :: r ∧ Blank w ∧ ¬ Blank [b] ∧ l.Follows (raw ++ w)

theorem exists_mark (hs : ¬ Blank s) : ∃ w b r, s = w ++ b :: r ∧ Blank w ∧ ¬ Blank [b] := by
  obtain ⟨hw, hsplit⟩ := span_spec isBlankByte s
  cases hd : s.dropWhile isBlankByte with
  | nil =>
    rw [hd, List.append_nil] at hsplit
    refine absurd (fun b hb => isBlankByte_iff.1 (hw b ?_)) hs
    rw [← hsplit]
    exact hb
  | cons b r =>
    rw [hd] at hsplit
    refine ⟨_, b, r, hsplit, fun x hx => isBlankByte_iff.1 (hw x hx), fun hb => ?_⟩
    have := isBlankByte_iff.2 (hb b List.mem_cons_self)
    rw [eq_false_of_dropWhile hd] at this
    cases this

/-- The place just after a byte that is no line feed is that of the byte. -/
theorem follows_after (before : Bytes) (hb : b ≠ 0x0A) :
    (Location.after (before ++ [b])).Follows before := by
  obtain ⟨hrow, hsplit⟩ := span_spec (fun x : UInt8 => x != 0x0A) before.reverse
  have habove (x : UInt8) (r : Bytes) (h : before.reverse.dropWhile (· != 0x0A) = x :: r) :
      x = 0x0A := by
    simpa using eq_false_of_dropWhile h
  have hcolumn : (Location.after (before ++ [b])).column =
      (before.reverse.takeWhile (· != 0x0A)).length + 1 := by
    simp [Location.after, hb]
  have hline : (Location.after (before ++ [b])).line = before.reverse.count 0x0A + 1 := by
    simp [Location.after, hb, Nat.add_comm]
  revert hrow hsplit habove hcolumn
  generalize before.reverse.takeWhile (· != 0x0A) = row
  generalize before.reverse.dropWhile (· != 0x0A) = above
  intro hrow hsplit habove hcolumn
  have hno : 0x0A ∉ row.reverse := fun h => by simpa using hrow _ (List.mem_reverse.1 h)
  have hbefore : before = above.reverse ++ row.reverse := by
    rw [← List.reverse_append, ← hsplit, List.reverse_reverse]
  refine .mk hbefore ?_ hno ?_ ?_
  · cases above with
    | nil => exact .inl rfl
    | cons x r => exact .inr (by simp [habove x r rfl])
  · rw [hline, List.count_reverse, hbefore, List.count_append, List.count_eq_zero.2 hno,
      Nat.add_zero]
  · rw [hcolumn, List.length_reverse]

/-! ## The readers -/

variable {α : Type} {value : Reader α} {G : Bytes → α → Prop} {a : α}

theorem Reader.Reads.readAll_append_blank (hr : value.Reads G) (h : value.readAll raw = .ok a)
    (hs : Blank s) : value.readAll (raw ++ s) = .ok a := by
  obtain ⟨w, t, v, hw, ht, hv, rfl⟩ := hr.readAll_eq_ok_iff.1 h
  exact hr.readAll_eq_ok_iff.2 ⟨w, t, v ++ s, hw, ht, hv.append hs, by simp⟩

/-- What follows an accepted text is refused from its first byte on that is not blank. -/
theorem Reader.Reads.readAll_append_mark (hr : value.Reads G) (h : value.readAll raw = .ok a)
    (hw : Blank w) (hb : ¬ Blank [b]) :
    value.readAll (raw ++ (w ++ b :: r)) = .error ⟨.trailingCharacters, r.length⟩ := by
  obtain ⟨u, t, v, hu, ht, hv, rfl⟩ := hr.readAll_eq_ok_iff.1 h
  have hread := hr.complete (v ++ (w ++ b :: r)) hu ht
  have hblank := skipBlank_append (hv.append hw) (b := b)
    (Bool.eq_false_iff.2 fun h => hb (by simpa [Blank] using isBlankByte_iff.1 h)) r
  rw [List.append_assoc] at hblank
  rw [List.append_assoc, List.append_assoc, Reader.readAll, hread]
  simp only [hblank]
  rfl

theorem locate_mark (cause : Cause) (raw w : Bytes) (b : UInt8) (r : Bytes) :
    Fault.locate ⟨cause, r.length⟩ (raw ++ (w ++ b :: r)) =
      ⟨cause, Location.after (raw ++ w ++ [b])⟩ := by
  have htake : (raw ++ (w ++ b :: r)).take ((raw ++ (w ++ b :: r)).length - r.length) =
      raw ++ w ++ [b] := by
    rw [show raw ++ (w ++ b :: r) = raw ++ w ++ [b] ++ r by simp, List.length_append,
      Nat.add_sub_cancel, List.take_left]
  rw [Fault.locate, htake]

end Json

namespace Payload

open Json

variable {raw s : Bytes} {p : Payload}

theorem decode_append_blank (h : decode raw = .ok p) (hs : Blank s) :
    decode (raw ++ s) = .ok p := by
  rw [decode_eq_ok_iff_readAll] at h ⊢
  exact reads_reader.readAll_append_blank h hs

theorem decode_append_mark (h : decode raw = .ok p) (hs : ¬ Blank s) :
    ∃ l, FirstMark raw s l ∧ decode (raw ++ s) = .error ⟨.trailingCharacters, l⟩ := by
  obtain ⟨w, b, r, rfl, hw, hb⟩ := exists_mark hs
  have hfeed : b ≠ 0x0A := by
    rintro rfl
    exact hb (by simp [Blank])
  refine ⟨_, ⟨w, b, r, rfl, hw, hb, follows_after (raw ++ w) hfeed⟩, ?_⟩
  rw [decode_eq_ok_iff_readAll] at h
  rw [decode, reads_reader.readAll_append_mark h hw hb]
  exact congrArg _ (locate_mark _ raw w b r)

/-- **Only blanks may follow a payload.** An accepted output is accepted with blanks after it, as
the same payload, and with anything else refused, at the first byte that is not blank. So a run
fails if the analyzer, whose standard output is accepted, writes more than blanks to standard error,
and an accepted output from whose end more than blanks are cut off is not accepted. -/
theorem followed_by_blanks_only (h : decode raw = .ok p) :
    (∀ s, Blank s → decode (raw ++ s) = .ok p) ∧
    (∀ s, ¬ Blank s → ∃ l, FirstMark raw s l ∧
      decode (raw ++ s) = .error ⟨.trailingCharacters, l⟩) ∧
    Cause.trailingCharacters.category = .malformed ∧
    Cause.trailingCharacters.text = "trailing characters" ∧
    (∀ (σ : Type) (host : Host σ) (st : Settings) (directory : String) (start : σ) (e : Ended),
      Run.Completes host st directory start e → e.stdout = raw → ¬ Blank e.stderr →
      ∃ l, FirstMark raw e.stderr l ∧ ((Run.collectLive st directory).run host start).value =
        .error (.decode ⟨.trailingCharacters, l⟩ (Utf8.lossy (raw ++ e.stderr)))) ∧
    ∀ before after, raw = before ++ after → ¬ Blank after →
      ∃ cause, decode before = .error cause := by
  refine ⟨fun s => decode_append_blank h, fun s => decode_append_mark h, rfl, rfl, ?_, ?_⟩
  · intro σ host st directory start e he hout herr
    obtain ⟨l, hl, hd⟩ := decode_append_mark h herr
    refine ⟨l, hl, ?_⟩
    rw [he.value_collectLive, hout, Diagnostics.ofBytes_of_refused hd]
  · rintro before after rfl hafter
    cases hd : decode before with
    | error cause => exact ⟨cause, rfl⟩
    | ok q =>
      -- `before` is accepted, so `after` is refused behind it
      obtain ⟨l, -, hl⟩ := decode_append_mark hd hafter
      rw [hl] at h
      cases h

/-- A text with an empty list. -/
def nullText : Bytes := Utf8.encode "\x7b\"p\":\x7b\"n\":null\x7d\x7d"

/-- Surroundings in which every process ends well with the same output, and no file is found. -/
def printing (stdout stderr : Bytes) : Host Unit where
  answer
    | .process _, s => (.ok ⟨.exited 0, stdout, stderr⟩, s)
    | .file _, s => (.error .noSuchFile, s)
    | .executable _, s => (false, s)
    | .environment _, s => (none, s)
    | .currentDirectory, s => (none, s)

theorem followed_by_blanks_only_nullText :
    ∃ p, decode nullText = .ok p ∧ decode (nullText ++ [0x0A, 0x20]) = .ok p ∧
      (∃ l, FirstMark nullText [0x0A, 0x21] l ∧
        decode (nullText ++ [0x0A, 0x21]) = .error ⟨.trailingCharacters, l⟩) ∧
      (∃ l, FirstMark nullText [0x21] l ∧
        ((Run.collectLive {} "d").run (printing nullText [0x21]) ()).value =
          .error (.decode ⟨.trailingCharacters, l⟩ (Utf8.lossy (nullText ++ [0x21])))) ∧
      ∃ cause, decode (nullText.take 15) = .error cause := by
  have hd : decode nullText = .ok (Document.payload [("p", [("n", none)])]) :=
    decode_eq_ok_iff.2 ⟨_, by decide +kernel, rfl⟩
  obtain ⟨hblank, hmark, -, -, hrun, hcut⟩ := followed_by_blanks_only hd
  obtain ⟨tool, ready, htool⟩ :=
    Run.exists_analyzes (printing nullText [0x21]) {} "d" ()
  have he : Run.Completes (printing nullText [0x21]) {} "d" () ⟨.exited 0, nullText, [0x21]⟩ :=
    ⟨⟨"make", ["build"], none⟩, _, _, tool, ready, _, ⟨rfl, rfl⟩, ⟨rfl, rfl⟩, htool, ⟨rfl, rfl⟩⟩
  refine ⟨_, hd, hblank _ (by simp [Blank]), hmark _ (by simp [Blank]), ?_, ?_⟩
  · exact hrun Unit _ {} "d" () _ he rfl (by simp [Blank])
  · exact hcut _ (nullText.drop 15) (by decide +kernel) (by decide +kernel)

end Payload

end Findings
