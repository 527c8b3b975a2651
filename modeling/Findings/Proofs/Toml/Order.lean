import Findings.Proofs.Toml.Rest
import Findings.Proofs.Toml.RootKeys
import Findings.Toml.Excerpt

/-!
# The order of the root table

The keys of a root table stand in it in the order in which they stand in the text
(`inFileOrder_of_parse`). A statement puts at most one key into the root table, always behind the
others (`foldl_placeKey_sublist`), and statements are read from the front of the text to its end
(`inOrder_of_sequence`).
-/

set_option autoImplicit false

namespace Findings.Toml

/-! ## Places -/

/-- The key stands in the text, and what is left after it is no longer than `rest`. -/
structure Key.Between (k : Key) (s rest : List Char) : Prop where
  starts : k.span.fromStart ≤ s.length
  ends : rest.length < k.span.fromStart

theorem Key.Between.mono {k : Key} {s s' rest rest' : List Char} (h : k.Between s rest)
    (hs : s <:+ s') (hrest : rest' <:+ rest) : k.Between s' rest' :=
  ⟨h.starts.trans hs.length_le, hrest.length_le.trans_lt h.ends⟩

theorem length_of_lineString {s rest : List Char} {name : String}
    (h : lineString s = some (name, rest)) : rest.length < s.length := by
  unfold lineString at h
  split at h
  next s =>
    obtain ⟨⟨text, r⟩, hr, heq⟩ := Option.map_eq_some_iff.1 h
    cases heq
    exact Nat.lt_succ_of_le (leaves_basicBody s _ hr).length_le
  next s =>
    obtain ⟨⟨text, r⟩, hr, heq⟩ := Option.map_eq_some_iff.1 h
    cases heq
    exact Nat.lt_succ_of_le (leaves_literalBody s _ hr).length_le
  · cases h

theorem length_of_simpleKey {s rest : List Char} {name : String}
    (h : simpleKey s = some (name, rest)) : rest.length < s.length := by
  unfold simpleKey at h
  split at h
  · exact length_of_lineString h
  · exact length_of_lineString h
  · split at h
    next => cases h
    next hne =>
      cases h
      have hlength :=
        congrArg List.length (List.takeWhile_append_dropWhile (p := isBareChar) (l := s))
      rw [List.length_append] at hlength
      have hpos := List.length_pos_iff.2 hne
      omega

/-- The item that was read. -/
def Step.item {α : Type} : Step α → α
  | more a _ => a
  | last a _ => a

theorem between_of_keyPart {s : List Char} {step : Step Key} (h : keyPart s = some step) :
    step.item.Between s step.rest := by
  obtain ⟨⟨name, t⟩, hname, h⟩ := Option.bind_eq_some_iff.1 h
  have hbetween : Key.Between ⟨name, .between (skipBlank s) t⟩ s t :=
    ⟨(suffix_skipBlank s).length_le, length_of_simpleKey hname⟩
  dsimp only at h
  split at h
  next rest hrest =>
    cases h
    exact hbetween.mono (List.suffix_refl s)
      ((leaves_exact '.' _ rest hrest).trans (suffix_skipBlank t))
  next =>
    cases h
    exact hbetween.mono (List.suffix_refl s) (suffix_skipBlank t)

/-- The first item of a sequence, and what is left after it. -/
theorem exists_of_sequence {α : Type} {step : List Char → Option (Step α)}
    (hstep : ∀ s, Leaves Step.rest s (step s)) {s rest : List Char} {items : List α}
    (h : sequence step s = some (items, rest)) :
    ∃ a l, items = a.item :: l ∧ step s = some a ∧ rest <:+ a.rest := by
  rw [sequence] at h
  split at h
  next => cases h
  next a t ha =>
    cases h
    exact ⟨_, [], rfl, ha, List.suffix_refl rest⟩
  next a t ha =>
    split at h
    · obtain ⟨⟨l, r⟩, hl, heq⟩ := Option.map_eq_some_iff.1 h
      cases heq
      exact ⟨_, l, rfl, ha, leaves_sequence hstep t _ hl⟩
    · cases h

theorem between_of_key {s rest : List Char} {path : List Key} {last : Key}
    (h : key s = some (path, last, rest)) : (path.headD last).Between s rest := by
  obtain ⟨⟨parts, t⟩, hparts, h⟩ := Option.bind_eq_some_iff.1 h
  obtain ⟨a, l, rfl, ha, ht⟩ := exists_of_sequence leaves_keyPart hparts
  dsimp only at h
  split at h
  next =>
    obtain ⟨b, hb, hkey⟩ := Option.bind_eq_some_iff.1 h
    cases hkey
    have hfirst : (List.dropLast (a.item :: l)).headD last = a.item := by
      cases l with
      | nil => exact (Option.some.inj hb).symm
      | cons => rfl
    rw [hfirst]
    exact (between_of_keyPart ha).mono (List.suffix_refl s) ht
  next => cases h

theorem between_of_pair {read : List Char → Option (Value × List Char)}
    (hread : ∀ s, Leaves Prod.snd s (read s)) {s rest : List Char} {p : Pair}
    (h : pair read s = some (p, rest)) : p.rootKey.Between s rest := by
  obtain ⟨⟨path, last, t⟩, hkey, h⟩ := Option.bind_eq_some_iff.1 h
  obtain ⟨u, hu, h⟩ := Option.bind_eq_some_iff.1 h
  obtain ⟨⟨v, r⟩, hv, hpair⟩ := Option.bind_eq_some_iff.1 h
  cases hpair
  refine (between_of_key hkey).mono (List.suffix_refl s) ?_
  exact ((hread _ _ hv).trans (suffix_skipBlank u)).trans (leaves_exact '=' t u hu)

theorem between_of_header {s rest : List Char} {h' : Header} (h : header s = some (h', rest)) :
    h'.rootKey.Between s rest := by
  unfold header at h
  split at h
  next t ht =>
    obtain ⟨⟨path, last, u⟩, hkey, h⟩ := Option.bind_eq_some_iff.1 h
    obtain ⟨r, hr, hheader⟩ := Option.bind_eq_some_iff.1 h
    cases hheader
    exact (between_of_key hkey).mono (leaves_exactAll _ s t ht) (leaves_exactAll _ u _ hr)
  next =>
    obtain ⟨t, ht, h⟩ := Option.bind_eq_some_iff.1 h
    obtain ⟨⟨path, last, u⟩, hkey, h⟩ := Option.bind_eq_some_iff.1 h
    obtain ⟨r, hr, hheader⟩ := Option.bind_eq_some_iff.1 h
    cases hheader
    exact (between_of_key hkey).mono (leaves_exact '[' s t ht) (leaves_exact ']' u _ hr)

theorem between_of_statement {s rest : List Char} {st : Statement}
    (h : statement? s = some (some st, rest)) : st.rootKey.Between s rest := by
  unfold statement? at h
  split at h
  case h_5 =>
    obtain ⟨⟨header, r⟩, hr, heq⟩ := Option.map_eq_some_iff.1 h
    cases heq
    exact between_of_header hr
  case h_6 =>
    obtain ⟨⟨p, r⟩, hr, heq⟩ := Option.map_eq_some_iff.1 h
    cases heq
    exact between_of_pair (leaves_value _) hr
  all_goals cases h

/-- What a line holds and what it leaves. -/
theorem exists_of_line {s : List Char} {step : Step (Option Statement)} (h : line s = some step) :
    ∃ t, statement? (skipBlank s) = some (step.item, t) ∧ step.rest <:+ t := by
  obtain ⟨⟨statement, t⟩, hstatement, h⟩ := Option.bind_eq_some_iff.1 h
  have ht : skipComment (skipBlank t) <:+ t := (suffix_skipComment _).trans (suffix_skipBlank t)
  dsimp only at h
  split at h
  next rest hrest =>
    cases h
    exact ⟨t, hstatement, (leaves_newline _ rest hrest).trans ht⟩
  next =>
    split at h
    · cases h
      exact ⟨t, hstatement, List.nil_suffix⟩
    · cases h

theorem between_of_line {s : List Char} {step : Step (Option Statement)} {st : Statement}
    (h : line s = some step) (hst : step.item = some st) : st.rootKey.Between s step.rest := by
  obtain ⟨t, hstatement, hrest⟩ := exists_of_line h
  rw [hst] at hstatement
  exact (between_of_statement hstatement).mono (suffix_skipBlank s) hrest

/-- The keys stand in the text, each behind the ones before it. -/
structure InOrder (s : List Char) (keys : List Key) : Prop where
  inside : ∀ k ∈ keys, k.span.fromStart ≤ s.length
  ordered : keys.Pairwise fun k k' => k'.span.fromStart < k.span.fromStart

theorem InOrder.nil (s : List Char) : InOrder s [] := ⟨by simp, .nil⟩

theorem InOrder.sublist {s : List Char} {l l' : List Key} (h : InOrder s l)
    (hl : l'.Sublist l) : InOrder s l' :=
  ⟨fun k hk => h.inside k (hl.subset hk), h.ordered.sublist hl⟩

theorem InOrder.cons {s rest : List Char} {k : Key} {l : List Key} (hk : k.Between s rest)
    (h : InOrder rest l) (hrest : rest <:+ s) : InOrder s (k :: l) where
  inside k' hk' := by
    rcases List.mem_cons.1 hk' with rfl | hk'
    · exact hk.starts
    · exact (h.inside k' hk').trans hrest.length_le
  ordered := .cons (fun k' hk' => (h.inside k' hk').trans_lt hk.ends) h.ordered

theorem InOrder.mono {s s' : List Char} {l : List Key} (h : InOrder s l) (hs : s <:+ s') :
    InOrder s' l :=
  ⟨fun k hk => (h.inside k hk).trans hs.length_le, h.ordered⟩

/-- One line and those after it. -/
theorem inOrder_of_line {s : List Char} {step : Step (Option Statement)}
    {lines : List (Option Statement)} (h : line s = some step)
    (hlines : InOrder step.rest ((lines.filterMap id).map Statement.rootKey)) :
    InOrder s (((step.item :: lines).filterMap id).map Statement.rootKey) := by
  have hrest : step.rest <:+ s := by
    obtain ⟨t, hstatement, hrest⟩ := exists_of_line h
    exact (hrest.trans (leaves_statement? _ _ hstatement)).trans (suffix_skipBlank s)
  cases hst : step.item with
  | none => exact hlines.mono hrest
  | some st => exact hlines.cons (between_of_line h hst) hrest

/-- **Statements are read from the front of the text to its end.** -/
theorem inOrder_of_sequence {s rest : List Char} {lines : List (Option Statement)}
    (h : sequence line s = some (lines, rest)) :
    InOrder s ((lines.filterMap id).map Statement.rootKey) := by
  fun_induction sequence line s generalizing lines with
  | case1 => cases h
  | case2 s a rest hline =>
    cases h
    exact @inOrder_of_line s _ [] hline (.nil _)
  | case3 s a rest hline _ ih =>
    obtain ⟨⟨l, r⟩, hl, heq⟩ := Option.map_eq_some_iff.1 h
    cases heq
    exact inOrder_of_line hline (ih hl)
  | case4 => cases h

theorem inOrder_of_statements {text : List Char} {l : List Statement}
    (h : statements text = some l) : InOrder text (l.map Statement.rootKey) := by
  obtain ⟨⟨lines, rest⟩, hlines, heq⟩ := Option.bind_eq_some_iff.1 h
  cases heq
  refine (inOrder_of_sequence hlines).mono ?_
  split
  · exact List.drop_suffix 1 text
  · exact List.suffix_refl text

/-! ## The root table -/

/-- The keys of the table stand in its order in the text. -/
def Entries.InFileOrder (entries : Entries) (text : List Char) : Prop :=
  entries.Pairwise fun e e' => (e.1.span.before text).length < (e'.1.span.before text).length

theorem length_before (span : Span) (text : List Char) :
    (span.before text).length = text.length - span.fromStart := by
  rw [Span.before, List.length_take]
  omega

/-- The keys of the table are those that the statements of the text place there, in the order of the
text. -/
structure Entries.AtPlaces (entries : Entries) (text : List Char) : Prop where
  placed : ∃ l, statements text = some l ∧
    ∀ k, k ∈ entries.keys ↔ place? (ofRoot l) k.name = some k
  ordered : entries.InFileOrder text

theorem inFileOrder_of_parse {text : List Char} {entries : Entries}
    (h : parse text = some entries) : entries.InFileOrder text := by
  obtain ⟨l, hl, hsections⟩ := Option.bind_eq_some_iff.1 h
  have hkeys : entries.keys.Sublist (l.map Statement.rootKey) := by
    rw [Entries.keys_ofSections hsections]
    exact (foldl_placeKey_sublist _).trans ((ofRoot_sublist l).map _)
  have hordered := (inOrder_of_statements hl).sublist hkeys
  have hpairs := List.pairwise_map.1 hordered.ordered
  refine hpairs.imp_of_mem fun {e e'} he he' hlt => ?_
  have hinside := hordered.inside e.1 (List.mem_map_of_mem he)
  rw [length_before, length_before]
  omega

/-- **The keys of the root table stand at their places.** -/
theorem atPlaces_of_parse {text : List Char} {entries : Entries} (h : parse text = some entries) :
    entries.AtPlaces text := by
  obtain ⟨l, hl, -⟩ := Option.bind_eq_some_iff.1 h
  exact ⟨⟨l, hl, fun k => mem_keys_iff hl h⟩, inFileOrder_of_parse h⟩

end Findings.Toml
