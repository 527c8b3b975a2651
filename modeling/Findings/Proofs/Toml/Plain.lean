import Findings.Proofs.Toml.Grammar
import Findings.Proofs.Toml.Table
import Mathlib.Data.List.Forall2
import Mathlib.Data.Option.Basic

/-!
# Reading plain TOML documents

Every plain document is read as what it says (`parse_of_documentText`). Each reader is shown to give
back, untouched, what stands behind the text that it reads.
-/

set_option autoImplicit false

namespace Findings.Toml

variable {s t u v w k e rest : List Char} {b c d : Char} {m n : Nat}

/-! ## Runs of characters -/

/-- The text does not start with a character of the kind `p`. -/
def StopsAt (p : Char → Bool) (s : List Char) : Prop := ∀ c ∈ s.head?, p c = false

section
variable {p : Char → Bool}

theorem stopsAt_nil : StopsAt p [] := by
  simp [StopsAt]

theorem stopsAt_cons : StopsAt p (c :: s) ↔ p c = false := by
  simp [StopsAt]

theorem StopsAt.dropWhile_eq (h : StopsAt p s) : s.dropWhile p = s := by
  cases s with
  | nil => rfl
  | cons c s => exact List.dropWhile_cons_of_neg (by simp [stopsAt_cons.1 h])

theorem dropWhile_append (hw : ∀ c ∈ w, p c = true) (h : StopsAt p rest) :
    (w ++ rest).dropWhile p = rest := by
  rw [List.dropWhile_append_of_pos hw, h.dropWhile_eq]

theorem StopsAt.append (hw : StopsAt p w) (h : StopsAt p rest) : StopsAt p (w ++ rest) := by
  cases w with
  | nil => exact h
  | cons c w => exact stopsAt_cons.2 (stopsAt_cons.1 hw)

theorem takeWhile_append (hw : ∀ c ∈ w, p c = true) (h : StopsAt p rest) :
    (w ++ rest).takeWhile p = w := by
  rw [List.takeWhile_append_of_pos hw]
  cases rest with
  | nil => exact List.append_nil w
  | cons c rest =>
    rw [List.takeWhile_cons_of_neg (by simp [stopsAt_cons.1 h]), List.append_nil]

end

/-! ## Blanks and comments -/

theorem isBlankChar_iff : isBlankChar c = true ↔ c = ' ' ∨ c = '\t' := by
  simp [isBlankChar]

theorem isTextChar_iff : isTextChar c = true ↔ TextChar c := by
  have hdel : c = '\x7f' ↔ c.toNat = 0x7F := (Char.toNat_inj (d := '\x7f')).symm
  simp [isTextChar, TextChar, hdel]

/-- Whether a character may start what lies between two items: blanks, ends of lines, comments. -/
def isFillerChar (c : Char) : Bool := isBlankChar c || c = '\n' || c = '\r' || c = '#'

theorem skipBlank_append (hw : Blank w) (hrest : StopsAt isBlankChar rest) :
    skipBlank (w ++ rest) = rest :=
  dropWhile_append (fun c hc => isBlankChar_iff.2 (hw c hc)) hrest

theorem newline_append (he : LineEnd e) (rest : List Char) : newline (e ++ rest) = some rest := by
  cases he <;> rfl

/-- Nothing is left, or the end of a line. -/
def AtLineEnd (s : List Char) : Prop := s = [] ∨ ∃ t, s = '\n' :: t ∨ s = '\r' :: '\n' :: t

theorem LineEnd.atLineEnd_append (he : LineEnd e) (rest : List Char) : AtLineEnd (e ++ rest) := by
  cases he with
  | lf => exact .inr ⟨rest, .inl rfl⟩
  | crlf => exact .inr ⟨rest, .inr rfl⟩

theorem AtLineEnd.stopsAt {p : Char → Bool} (h : AtLineEnd s) (hn : p '\n' = false)
    (hr : p '\r' = false) : StopsAt p s := by
  obtain rfl | ⟨t, rfl | rfl⟩ := h
  · exact stopsAt_nil
  · exact stopsAt_cons.2 hn
  · exact stopsAt_cons.2 hr

theorem skipComment_append (hk : CommentText k) (hrest : AtLineEnd rest) :
    skipComment (k ++ rest) = rest := by
  cases hk with
  | absent => obtain rfl | ⟨t, rfl | rfl⟩ := hrest <;> rfl
  | mk h =>
    exact dropWhile_append (fun c hc => isTextChar_iff.2 (h c hc))
      (hrest.stopsAt (by decide) (by decide))

theorem CommentText.stopsAt_append {p : Char → Bool} (hk : CommentText k) (hp : p '#' = false)
    (hrest : StopsAt p rest) : StopsAt p (k ++ rest) := by
  cases hk with
  | absent => exact hrest
  | mk => exact stopsAt_cons.2 hp

theorem skipBlank_to_comment (hw : Blank w) (hk : CommentText k) (hrest : AtLineEnd rest) :
    skipBlank (w ++ (k ++ rest)) = k ++ rest :=
  skipBlank_append hw (hk.stopsAt_append (by decide) (hrest.stopsAt (by decide) (by decide)))

/-- Behind the blanks and the comment at its end a line is over. -/
theorem skip_to_end (hw : Blank w) (hk : CommentText k) (hrest : AtLineEnd rest) :
    skipComment (skipBlank (w ++ (k ++ rest))) = rest := by
  rw [skipBlank_to_comment hw hk hrest, skipComment_append hk hrest]

theorem skipFiller_of_newline (h : newline (skipComment (skipBlank s)) = some rest) :
    skipFiller s = skipFiller rest := by
  rw [skipFiller]
  split
  next h' => cases h.symm.trans h'; rfl
  next h' => cases h.symm.trans h'

theorem skipFiller_of_none (h : newline (skipComment (skipBlank s)) = none) :
    skipFiller s = skipBlank s := by
  rw [skipFiller]
  split
  next h' => cases h.symm.trans h'
  next => rfl

theorem newline_skipComment (hrest : StopsAt isFillerChar rest) :
    newline (skipComment rest) = none := by
  cases rest with
  | nil => rfl
  | cons c rest =>
    have hc := stopsAt_cons.1 hrest
    simp only [isFillerChar, Bool.or_eq_false_iff, decide_eq_false_iff_not] at hc
    simp [skipComment, newline, hc]

theorem skipFiller_append (hw : Filler w) (hrest : StopsAt isFillerChar rest) :
    skipFiller (w ++ rest) = rest := by
  induction hw with
  | blank hw =>
    have hblank : StopsAt isBlankChar rest := fun c hc => by
      have := hrest c hc
      simp_all [isFillerChar]
    rw [skipFiller_of_none, skipBlank_append hw hblank]
    rw [skipBlank_append hw hblank, newline_skipComment hrest]
  | @line w k e s hw hk he hs ih =>
    have hend : newline (skipComment (skipBlank (w ++ (k ++ (e ++ (s ++ rest)))))) =
        some (s ++ rest) := by
      rw [skip_to_end hw hk (he.atLineEnd_append _), newline_append he]
    rw [List.append_assoc, List.append_assoc, List.append_assoc, skipFiller_of_newline hend, ih]

/-! ## Strings -/

theorem hexDigit?_eq_some (h : HexDigit c n) : hexDigit? c = some n := by
  have hle (a : Char) : a ≤ c ↔ a.toNat ≤ c.toNat := Iff.rfl
  have hle' (a : Char) : c ≤ a ↔ c.toNat ≤ a.toNat := Iff.rfl
  simp only [hexDigit?, hle, hle', Bool.and_eq_true, decide_eq_true_eq, Char.reduceToNat]
  cases h with
  | decimal h hc => rw [if_pos (by omega), hc]; simp
  | upper h hc => rw [if_neg (by omega), if_neg (by omega), if_pos (by omega), hc]; simp; omega
  | lower h hc => rw [if_neg (by omega), if_pos (by omega), hc]; simp; omega

theorem hexNumber_append (h : HexText s n) (m : Nat) (rest : List Char) :
    hexNumber s.length m (s ++ rest) = some (m * 16 ^ s.length + n, rest) := by
  induction h generalizing m with
  | nil => simp [hexNumber]
  | @cons c s d n hc hs ih =>
    rw [List.length_cons, List.cons_append, hexNumber, hexDigit?_eq_some hc]
    refine (ih _).trans ?_
    rw [Nat.pow_succ, Nat.add_mul, Nat.add_assoc, Nat.mul_assoc, Nat.mul_comm 16]

theorem codePoint_append (h : HexText s c.toNat) (rest : List Char) :
    codePoint s.length (s ++ rest) = some (c, rest) := by
  have hvalid : c.toNat.isValidChar := c.valid
  rw [codePoint, hexNumber_append h]
  simp [hvalid]

theorem escape_append (h : EscapeText s c) (rest : List Char) :
    escape (s ++ rest) = some (c, rest) := by
  cases h with
  | short h =>
    simp only [shortEscapes, List.mem_cons, Prod.mk.injEq, List.not_mem_nil, or_false] at h
    rcases h with ⟨rfl, rfl⟩ | ⟨rfl, rfl⟩ | ⟨rfl, rfl⟩ | ⟨rfl, rfl⟩ | ⟨rfl, rfl⟩ | ⟨rfl, rfl⟩ |
      ⟨rfl, rfl⟩ <;> rfl
  | four h hs => simp [escape, ← hs, codePoint_append h]
  | eight h hs => simp [escape, ← hs, codePoint_append h]

theorem basicBody_char (h : CharText s c) (rest : List Char) :
    basicBody (s ++ rest) = (basicBody rest).map fun (text, r) => (c :: text, r) := by
  cases h with
  | plain h hq hb =>
    rw [List.singleton_append, basicBody, if_neg hq, if_neg hb, if_pos (isTextChar_iff.2 h)]
  | escape h =>
    rw [List.cons_append, basicBody, if_neg (by decide), if_pos rfl]
    split
    next hnone => cases (escape_append h rest).symm.trans hnone
    next hsome => cases (escape_append h rest).symm.trans hsome; rfl

theorem basicBody_append {cs : List Char} (h : CharsText s cs) (rest : List Char) :
    basicBody (s ++ '"' :: rest) = some (cs, rest) := by
  induction h with
  | nil => rw [List.nil_append, basicBody, if_pos rfl]
  | cons h hs ih => rw [List.append_assoc, basicBody_char h, ih]; rfl

/-- Whether a character is the mark that opens and closes a string. -/
def isQuote (c : Char) : Bool := c = '"'

theorem CharText.exists_cons (h : CharText s c) : ∃ d t, s = d :: t ∧ d ≠ '"' := by
  cases h with
  | plain h hq => exact ⟨c, [], rfl, hq⟩
  | escape h => exact ⟨_, _, rfl, by decide⟩

/-- The marks of a string on one line are not those of a string on several. -/
theorem CharsText.exactAll_quotes {cs : List Char} (h : CharsText s cs)
    (hrest : StopsAt isQuote rest) :
    exactAll ['"', '"', '"'] ('"' :: (s ++ '"' :: rest)) = none := by
  cases h with
  | nil =>
    -- the marks of an empty string would open one on several lines if a third one followed
    cases rest with
    | nil => rfl
    | cons c rest =>
      have hc : c ≠ '"' := by simpa [isQuote] using stopsAt_cons.1 hrest
      simp [exactAll, exact, hc]
  | cons h hs =>
    obtain ⟨d, t, rfl, hd⟩ := h.exists_cons
    simp [exactAll, exact, hd]

theorem string_append {t : String} (h : StringText s t) (hrest : StopsAt isQuote rest) :
    string (s ++ rest) = some (t, rest) := by
  obtain ⟨h⟩ := h
  rw [List.cons_append, List.append_assoc, List.singleton_append, string, h.exactAll_quotes hrest]
  have hliteral (s : List Char) : exactAll ['\'', '\'', '\''] ('"' :: s) = none := by
    simp [exactAll, exact]
  simp [hliteral, lineString, basicBody_append h]

/-! ## Values -/

/-- The value is the datum. -/
def Datum.Is : Datum → Value → Prop
  | .text t, v => v = .string t
  | .texts l, v => ∃ items, v = .array items ∧ items.map (·.2) = l.map .string

section
variable {t : String} {l : List String} (depth : Nat)

theorem StringText.exists_cons (h : StringText s t) : ∃ u, s = '"' :: u := by
  obtain ⟨h⟩ := h
  exact ⟨_, rfl⟩

theorem value_string (h : StringText s t) (hrest : StopsAt isQuote rest) :
    value depth (s ++ rest) = some (.string t, rest) := by
  have hstring := string_append h hrest
  obtain ⟨u, rfl⟩ := h.exists_cons
  rw [List.cons_append] at hstring ⊢
  cases depth <;> simp [value, scalar, hstring]

/-- What stands between two items starts with a character of its own, unless it is empty. -/
theorem Filler.stopsAt {p : Char → Bool} (hw : Filler w)
    (hp : ∀ c, isFillerChar c = true → p c = false) : StopsAt p w := by
  have hblank {w : List Char} (hw : Blank w) : StopsAt p w := fun c hc => by
    have hc := isBlankChar_iff.2 (hw c (List.mem_of_mem_head? hc))
    exact hp c (by simp [isFillerChar, hc])
  cases hw with
  | blank hw => exact hblank hw
  | line hw hk he hs =>
    refine (hblank hw).append (hk.stopsAt_append (hp '#' (by decide)) ?_)
    exact (he.atLineEnd_append _).stopsAt (hp '\n' (by decide)) (hp '\r' (by decide))

theorem Filler.stopsAt_quote (hw : Filler w) (hrest : StopsAt isQuote rest) :
    StopsAt isQuote (w ++ rest) := by
  refine (hw.stopsAt fun c hc => ?_).append hrest
  rw [isQuote, decide_eq_false_iff_not]
  intro h
  cases h
  exact absurd hc (by decide)

theorem StringText.stopsAt_append {p : Char → Bool} (hs : StringText s t) (hp : p '"' = false)
    (rest : List Char) : StopsAt p (s ++ rest) := by
  obtain ⟨u, rfl⟩ := hs.exists_cons
  exact stopsAt_cons.2 hp

/-- An item that is a string. What follows it decides whether there are more. -/
theorem arrayItem_string (hw : Filler w) (hs : StringText s t) (hrest : StopsAt isQuote rest) :
    arrayItem (value depth) (w ++ (s ++ rest)) =
      match exact ',' (skipFiller rest) with
      | none => some (.last (.between (s ++ rest) rest, .string t) (skipFiller rest))
      | some u =>
        some (if (skipFiller u).head? = some ']' then
          .last (.between (s ++ rest) rest, .string t) (skipFiller u)
        else .more (.between (s ++ rest) rest, .string t) (skipFiller u)) := by
  simp only [arrayItem, skipFiller_append hw (hs.stopsAt_append (by decide) rest),
    value_string depth hs hrest]
  rfl

theorem arrayItem_close (hw : Filler w) (hs : StringText s t) (hu : Filler u)
    (rest : List Char) :
    ∃ span, arrayItem (value depth) (w ++ (s ++ (u ++ ']' :: rest))) =
      some (.last (span, .string t) (']' :: rest)) := by
  have hclose : StopsAt isFillerChar (']' :: rest) := stopsAt_cons.2 (by decide)
  rw [arrayItem_string depth hw hs (hu.stopsAt_quote (stopsAt_cons.2 (by decide))),
    skipFiller_append hu hclose]
  exact ⟨_, rfl⟩

/-- Behind a comma there is another item, unless the array ends. -/
theorem arrayItem_comma (hw : Filler w) (hs : StringText s t) (hu : Filler u) (hv : Filler v)
    (hrest : StopsAt isFillerChar rest) :
    ∃ span, arrayItem (value depth) (w ++ (s ++ (u ++ ',' :: (v ++ rest)))) =
      some (if rest.head? = some ']' then .last (span, .string t) rest
        else .more (span, .string t) rest) := by
  have hcomma : StopsAt isFillerChar (',' :: (v ++ rest)) := stopsAt_cons.2 (by decide)
  rw [arrayItem_string depth hw hs (hu.stopsAt_quote (stopsAt_cons.2 (by decide))),
    skipFiller_append hu hcomma]
  simp only [exact, if_true, skipFiller_append hv hrest]
  exact ⟨_, rfl⟩

theorem sequence_last {α : Type} {step : List Char → Option (Step α)} {a : α}
    (h : step s = some (.last a rest)) : sequence step s = some ([a], rest) := by
  rw [sequence, h]

theorem sequence_more {α : Type} {step : List Char → Option (Step α)} {a : α}
    (h : step s = some (.more a rest)) (hlength : rest.length < s.length) :
    sequence step s = (sequence step rest).map fun (l, r) => (a :: l, r) := by
  rw [sequence, h]
  exact if_pos hlength

/-- By induction on the items. The blanks before an item have been skipped with the comma before it,
except those before the first. -/
theorem sequence_arrayItem (hw : Filler w) (hs : StringText s t) (hu : RestText u l)
    (rest : List Char) :
    ∃ items, sequence (arrayItem (value depth)) (w ++ (s ++ (u ++ ']' :: rest))) =
        some (items, ']' :: rest) ∧ items.map (·.2) = (t :: l).map .string := by
  induction hu generalizing w s t with
  | close hu =>
    obtain ⟨span, hstep⟩ := arrayItem_close depth hw hs hu rest
    exact ⟨[(span, .string t)], sequence_last hstep, rfl⟩
  | comma hu hv =>
    have hclose : StopsAt isFillerChar (']' :: rest) := stopsAt_cons.2 (by decide)
    obtain ⟨span, hstep⟩ := arrayItem_comma depth hw hs hu hv hclose
    simp only [List.append_assoc, List.cons_append]
    exact ⟨[(span, .string t)], sequence_last hstep, rfl⟩
  | @item u v s' u' t' l hu hv hs' hu' ih =>
    obtain ⟨span, hstep⟩ := arrayItem_comma depth hw hs hu hv
      (hs'.stopsAt_append (by decide) (u' ++ ']' :: rest))
    have hhead : (s' ++ (u' ++ ']' :: rest)).head? ≠ some ']' := by
      obtain ⟨x, rfl⟩ := hs'.exists_cons
      simp
    rw [if_neg hhead] at hstep
    obtain ⟨items, hitems, htexts⟩ := ih (.blank blank_nil) hs'
    simp only [List.append_assoc, List.cons_append]
    refine ⟨(span, .string t) :: items, ?_, ?_⟩
    · rw [List.nil_append] at hitems
      rw [sequence_more hstep (by simp; omega), hitems]
      rfl
    · simp [htexts]

theorem value_list (h : ListText s l) (rest : List Char) :
    ∃ v, value (depth + 1) (s ++ rest) = some (v, rest) ∧ Datum.Is (.texts l) v := by
  cases h with
  | @empty w hw =>
    refine ⟨.array [], ?_, [], rfl, rfl⟩
    rw [List.cons_append, List.append_assoc, List.singleton_append, value, array,
      skipFiller_append hw (stopsAt_cons.2 (by decide))]
    rfl
  | @items w s u t l hw hs hu =>
    obtain ⟨items, hitems, htexts⟩ := sequence_arrayItem depth hw hs hu rest
    refine ⟨.array items, ?_, items, rfl, htexts⟩
    have hfirst : exact ']' (skipFiller (w ++ (s ++ (u ++ ']' :: rest)))) = none := by
      rw [skipFiller_append hw (hs.stopsAt_append (by decide) _)]
      obtain ⟨x, rfl⟩ := hs.exists_cons
      rfl
    simp only [List.cons_append, List.append_assoc, List.nil_append, value, array, hfirst, hitems]
    rfl

theorem DatumText.stopsAt_append {p : Char → Bool} {d : Datum} (h : DatumText s d)
    (hquote : p '"' = false) (hbracket : p '[' = false) (rest : List Char) :
    StopsAt p (s ++ rest) := by
  cases h with
  | text h => exact h.stopsAt_append hquote rest
  | texts h => cases h <;> exact stopsAt_cons.2 hbracket

theorem value_append {d : Datum} (h : DatumText s d) (hrest : StopsAt isQuote rest) :
    ∃ v, value (depth + 1) (s ++ rest) = some (v, rest) ∧ d.Is v := by
  cases h with
  | text h => exact ⟨_, value_string (depth + 1) h hrest, rfl⟩
  | texts h => exact value_list depth h rest

end

/-! ## Lines -/

theorem isBareChar_iff : isBareChar c = true ↔ BareChar c := by
  simp [isBareChar, isDigit, BareChar, or_assoc]

/-- A pair with a key of one part. -/
structure Pair.Spells (p : Pair) (x : String × Datum) : Prop where
  path : p.path = []
  name : p.key.name = x.1
  value : x.2.Is p.value

def Statement.Spells (statement : Statement) (x : String × Datum) : Prop :=
  ∃ p, statement = .pair p ∧ p.Spells x

section
variable {name : String} {x : Datum}

theorem BareName.exists_cons (h : BareName name) :
    ∃ c cs, name.toList = c :: cs ∧ isBareChar c = true := by
  cases hname : name.toList with
  | nil => exact absurd (String.toList_eq_nil_iff.1 hname) h.1
  | cons c cs => exact ⟨c, cs, rfl, isBareChar_iff.2 (h.2 c (hname ▸ List.mem_cons_self))⟩

/-- A key that starts with a bare character has no marks around it. -/
theorem simpleKey_of_bare (hc : isBareChar c = true) (s : List Char) :
    simpleKey (c :: s) =
      some (String.ofList ((c :: s).takeWhile isBareChar), (c :: s).dropWhile isBareChar) := by
  have hdouble : c ≠ '"' := by rintro rfl; exact absurd hc (by decide)
  have hsingle : c ≠ '\'' := by rintro rfl; exact absurd hc (by decide)
  simp [simpleKey, hdouble, hsingle, hc]

theorem simpleKey_append (h : BareName name) (hrest : StopsAt isBareChar rest) :
    simpleKey (name.toList ++ rest) = some (name, rest) := by
  have hall : ∀ c ∈ name.toList, isBareChar c = true := fun c hc => isBareChar_iff.2 (h.2 c hc)
  have htake := takeWhile_append hall hrest
  have hdrop := dropWhile_append hall hrest
  obtain ⟨c, cs, hname, hc⟩ := h.exists_cons
  rw [hname, List.cons_append] at htake hdrop ⊢
  rw [simpleKey_of_bare hc, htake, hdrop, ← hname, String.ofList_toList]

theorem BareName.stopsAt_append {p : Char → Bool} (h : BareName name)
    (hp : ∀ c, isBareChar c = true → p c = false) (rest : List Char) :
    StopsAt p (name.toList ++ rest) := by
  obtain ⟨c, cs, hname, hc⟩ := h.exists_cons
  rw [hname]
  exact stopsAt_cons.2 (hp c hc)

theorem isBlankChar_of_isBareChar (hc : isBareChar c = true) : isBlankChar c = false := by
  rw [← Bool.not_eq_true, isBlankChar_iff]
  rintro (rfl | rfl) <;> exact absurd hc (by decide)

theorem key_append (h : BareName name) (hw : Blank w) (rest : List Char) :
    ∃ span, key (name.toList ++ (w ++ '=' :: rest)) = some ([], ⟨name, span⟩, '=' :: rest) := by
  have hbare : StopsAt isBareChar (w ++ '=' :: rest) := by
    refine StopsAt.append (fun c hc => ?_) (stopsAt_cons.2 (by decide))
    rcases hw c (List.mem_of_mem_head? hc) with rfl | rfl <;> decide
  have hstart : skipBlank (name.toList ++ (w ++ '=' :: rest)) = name.toList ++ (w ++ '=' :: rest) :=
    (h.stopsAt_append (fun _ => isBlankChar_of_isBareChar) _).dropWhile_eq
  have hend : skipBlank (w ++ '=' :: rest) = '=' :: rest :=
    skipBlank_append hw (stopsAt_cons.2 (by decide))
  have hpart : ∃ span, keyPart (name.toList ++ (w ++ '=' :: rest)) =
      some (.last ⟨name, span⟩ ('=' :: rest)) := by
    simp only [keyPart, hstart, simpleKey_append h hbare, Option.bind_eq_bind, Option.bind_some,
      hend]
    exact ⟨_, rfl⟩
  obtain ⟨span, hpart⟩ := hpart
  exact ⟨span, by rw [key, sequence_last hpart]; rfl⟩

theorem pair_append (depth : Nat) {d : Datum} (h : BareName name) (hw : Blank w) (hv : Blank v)
    (hs : DatumText s d) (hrest : StopsAt isQuote rest) :
    ∃ p, pair (value (depth + 1)) (name.toList ++ (w ++ '=' :: (v ++ (s ++ rest)))) =
      some (p, rest) ∧ p.Spells (name, d) := by
  have hvalue : StopsAt isBlankChar (s ++ rest) := hs.stopsAt_append (by decide) (by decide) rest
  obtain ⟨span, hkey⟩ := key_append h hw (v ++ (s ++ rest))
  obtain ⟨x, hx, hd⟩ := value_append depth hs hrest
  refine ⟨⟨[], ⟨name, span⟩, .between (s ++ rest) rest, x⟩, ?_, rfl, rfl, hd⟩
  simp only [pair, hkey, exact, if_true, Option.bind_eq_bind, Option.bind_some,
    skipBlank_append hv hvalue, hx]
  rfl

/-- A line that starts with a bare character is a pair. -/
theorem statement?_of_bare (hc : isBareChar c = true) (s : List Char) :
    statement? (c :: s) =
      (pair (value (limit - 1)) (c :: s)).map fun (p, rest) => (some (.pair p), rest) := by
  have hne {d : Char} (hd : isBareChar d = false) : c ≠ d := by
    rintro rfl
    rw [hc] at hd
    cases hd
  have h₁ : c ≠ '#' := hne (by decide)
  have h₂ : c ≠ '\n' := hne (by decide)
  have h₃ : c ≠ '\r' := hne (by decide)
  have h₄ : c ≠ '[' := hne (by decide)
  simp [statement?, h₁, h₂, h₃, h₄]

theorem statement?_of_comment (hk : CommentText k) (hrest : AtLineEnd rest) :
    statement? (k ++ rest) = some (none, k ++ rest) := by
  cases hk with
  | absent => obtain rfl | ⟨t, rfl | rfl⟩ := hrest <;> rfl
  | mk => rfl

end

variable {entry : Option (String × Datum)}

/-- What a line says is read, with nothing left of the line but blanks and a comment. -/
theorem statement?_append (h : LineText s entry) (hrest : AtLineEnd rest) :
    ∃ statement t, statement? (skipBlank (s ++ rest)) = some (statement, t) ∧
      skipComment (skipBlank t) = rest ∧ Option.Rel Statement.Spells statement entry := by
  cases h with
  | @empty w k hw hk =>
    refine ⟨none, k ++ rest, ?_, skip_to_end blank_nil hk hrest, .none⟩
    rw [List.append_assoc, skipBlank_to_comment hw hk hrest, statement?_of_comment hk hrest]
  | @pair w₁ w₂ w₃ w₄ s k name d hw₁ hname hw₂ hw₃ hs hw₄ hk =>
    have hquote : StopsAt isQuote (w₄ ++ (k ++ rest)) :=
      (Filler.blank hw₄).stopsAt_quote
        (hk.stopsAt_append (by decide) (hrest.stopsAt (by decide) (by decide)))
    obtain ⟨p, hp, hspells⟩ := pair_append (limit - 2) hname hw₂ hw₃ hs hquote
    refine ⟨some (.pair p), w₄ ++ (k ++ rest), ?_, skip_to_end hw₄ hk hrest,
      .some ⟨p, rfl, hspells⟩⟩
    simp only [List.append_assoc, List.cons_append]
    rw [skipBlank_append hw₁ (hname.stopsAt_append (fun _ => isBlankChar_of_isBareChar) _)]
    -- what kind of statement it is depends on its first character only
    obtain ⟨c, cs, hcs, hc⟩ := hname.exists_cons
    rw [hcs, List.cons_append] at hp ⊢
    have hdepth : limit - 1 = limit - 2 + 1 := rfl
    rw [statement?_of_bare hc, hdepth, hp]
    rfl

theorem line_more (h : LineText s entry) (he : LineEnd e) (rest : List Char) :
    ∃ statement, line (s ++ (e ++ rest)) = some (.more statement rest) ∧
      Option.Rel Statement.Spells statement entry := by
  obtain ⟨statement, t, hstatement, ht, hspells⟩ := statement?_append h (he.atLineEnd_append rest)
  refine ⟨statement, ?_, hspells⟩
  simp only [line, hstatement, Option.bind_eq_bind, Option.bind_some, ht, newline_append he]
  rfl

theorem line_last (h : LineText s entry) :
    ∃ statement, line s = some (.last statement []) ∧
      Option.Rel Statement.Spells statement entry := by
  have hend : AtLineEnd [] := .inl rfl
  obtain ⟨statement, t, hstatement, ht, hspells⟩ := statement?_append h hend
  refine ⟨statement, ?_, hspells⟩
  rw [List.append_nil] at hstatement
  simp only [line, hstatement, Option.bind_eq_bind, Option.bind_some, ht, newline]
  rfl

/-! ## Documents -/

variable {data : List (String × Datum)}

theorem sequence_line (h : DocumentText s data) :
    ∃ lines, sequence line s = some (lines, []) ∧
      List.Forall₂ Statement.Spells (lines.filterMap id) data := by
  induction h with
  | last h =>
    obtain ⟨statement, hline, hspells⟩ := line_last h
    refine ⟨[statement], sequence_last hline, ?_⟩
    cases hspells with
    | none => exact .nil
    | some hspells => exact .cons hspells .nil
  | @line s e u entry data h he hu ih =>
    obtain ⟨statement, hline, hspells⟩ := line_more h he u
    obtain ⟨lines, hlines, hrest⟩ := ih
    have hlength : u.length < (s ++ (e ++ u)).length := by
      have := length_of_newline (newline_append he u)
      rw [List.length_append]
      omega
    refine ⟨statement :: lines, ?_, ?_⟩
    · rw [sequence_more hline hlength, hlines]
      rfl
    · cases hspells with
      | none => exact hrest
      | some hspells => exact .cons hspells hrest

/-- Whether a character is the byte order mark. -/
def isByteOrderMark (c : Char) : Bool := c = '\uFEFF'

theorem LineText.stopsAt_append {p : Char → Bool} (h : LineText s entry) (hrest : StopsAt p rest)
    (hp : ∀ c, isFillerChar c = true ∨ isBareChar c = true → p c = false) :
    StopsAt p (s ++ rest) := by
  cases h with
  | empty hw hk =>
    rw [List.append_assoc]
    exact ((Filler.blank hw).stopsAt fun c hc => hp c (.inl hc)).append
      (hk.stopsAt_append (hp '#' (.inl (by decide))) hrest)
  | pair hw₁ hname =>
    simp only [List.append_assoc, List.cons_append]
    exact ((Filler.blank hw₁).stopsAt fun c hc => hp c (.inl hc)).append
      (hname.stopsAt_append (fun c hc => hp c (.inr hc)) _)

theorem DocumentText.stopsAt {p : Char → Bool} (h : DocumentText s data)
    (hp : ∀ c, isFillerChar c = true ∨ isBareChar c = true → p c = false) : StopsAt p s := by
  cases h with
  | last h =>
    have := h.stopsAt_append stopsAt_nil hp
    rwa [List.append_nil] at this
  | line h he hu =>
    refine h.stopsAt_append ((he.atLineEnd_append _).stopsAt ?_ ?_) hp
    · exact hp _ (.inl (by decide))
    · exact hp _ (.inl (by decide))

theorem DocumentText.no_mark (h : DocumentText s data) : s.head? ≠ some '\uFEFF' := by
  intro hhead
  have hstops : StopsAt isByteOrderMark s := h.stopsAt fun c hc => by
    rw [isByteOrderMark, decide_eq_false_iff_not]
    rintro rfl
    revert hc
    decide
  exact absurd (hstops _ hhead) (by decide)

theorem statements_of_documentText (h : DocumentText s data) :
    ∃ l, statements s = some l ∧ List.Forall₂ Statement.Spells l data := by
  obtain ⟨lines, hlines, hspells⟩ := sequence_line h
  refine ⟨lines.filterMap id, ?_, hspells⟩
  rw [statements]
  simp only [if_neg h.no_mark, hlines]
  rfl

theorem sections_of_spells {l : List Statement} (h : List.Forall₂ Statement.Spells l data) :
    ∃ pairs, sections l = (pairs, []) ∧ List.Forall₂ Pair.Spells pairs data := by
  induction h with
  | nil => exact ⟨[], rfl, .nil⟩
  | cons h _ ih =>
    obtain ⟨p, rfl, hp⟩ := h
    obtain ⟨pairs, hsections, hpairs⟩ := ih
    exact ⟨p :: pairs, by rw [sections, hsections], .cons hp hpairs⟩

theorem Entries.add_of_spells {table : Entries} {p : Pair} {x : String × Datum} (h : p.Spells x)
    (hnew : x.1 ∉ table.names) : table.add p = some (table ++ [(p.key, some p.span, p.value)]) := by
  rw [Entries.add, h.path, Entries.change, h.name, Entries.value?_eq_none_iff.2 hnew]
  rfl

theorem Entries.addAll_of_spells {table : Entries} {pairs : List Pair}
    (h : List.Forall₂ Pair.Spells pairs data) (hnew : (table.names ++ data.map (·.1)).Nodup) :
    table.addAll pairs = some (table ++ pairs.map fun p => (p.key, some p.span, p.value)) := by
  induction h generalizing table with
  | nil => rw [List.map_nil, List.append_nil]; rfl
  | @cons p x pairs data hp _ ih =>
    have hx : x.1 ∉ table.names := fun hmem =>
      (List.nodup_append.1 hnew).2.2 _ hmem _ List.mem_cons_self rfl
    rw [Entries.addAll, List.foldlM_cons, Entries.add_of_spells hp hx]
    refine (ih ?_).trans ?_
    · rw [Entries.names_append]
      simpa [Entries.names, hp.name] using hnew
    · simp

/-- **Plain documents are read as what they say.** Their lines become the entries of the root table,
in the order of the text, if no name is used twice. -/
theorem parse_of_documentText (h : DocumentText s data) (hnames : (data.map (·.1)).Nodup) :
    ∃ table, parse s = some table ∧
      List.Forall₂ (fun e x => e.1.name = x.1 ∧ x.2.Is e.2.2) table data := by
  obtain ⟨l, hl, hspells⟩ := statements_of_documentText h
  obtain ⟨pairs, hsections, hpairs⟩ := sections_of_spells hspells
  have hadd : Entries.addAll [] pairs = some (pairs.map fun p => (p.key, some p.span, p.value)) :=
    Entries.addAll_of_spells hpairs hnames
  refine ⟨pairs.map fun p => (p.key, some p.span, p.value), ?_, ?_⟩
  · simp only [parse, hl, Option.bind_eq_bind, Option.bind_some, hsections, Entries.ofSections,
      hadd]
    rfl
  · rw [List.forall₂_map_left_iff]
    exact hpairs.imp fun p x h => ⟨h.name, h.value⟩

end Findings.Toml
