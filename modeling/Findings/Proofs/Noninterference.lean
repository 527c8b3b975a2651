import Findings.Proofs.Collect
import Findings.Proofs.Position
import Mathlib.Data.List.Forall2

/-!
# What a result does not depend on

Only the lists of the analyzer count, and in them only lines and messages. Two payloads with the
same packages may have any other analyzers in them, and any columns in the positions of this one:
what is collected is the same map, or the same failure but for what it quotes
(`Diagnostics.insensitive_to_surroundings`).

Route. A position is read without its column (`Position.SameLine.ofPosn_eq`), so one finding adds
the same from both payloads (`Diagnostics.alike_add`). Outcomes that agree go on alike
(`Diagnostics.Alike.bind`), from finding to finding and from package to package.
-/

set_option autoImplicit false

namespace Findings

/-! ## Payloads that agree on an analyzer -/

/-- The texts are the same, or have three parts each of which only the third differs. -/
inductive Position.SameLine : String → String → Prop
  | refl (posn : String) : SameLine posn posn
  | column {posn posn' : String} {file line column column' : List Char}
      (h : Parts posn file line column) (h' : Parts posn' file line column') : SameLine posn posn'

/-- The findings say the same, except perhaps in which column. -/
structure Finding.Alike (d d' : Finding) : Prop where
  posn : Position.SameLine d.posn d'.posn
  message : d.message = d'.message

/-- The analyzer is in neither entry, or in both with findings that agree one by one. That it wrote
no list is the same as an empty list. -/
inductive Entry.Alike (analyzer : String) (e e' : Entry) : Prop
  | absent (h : e.get? analyzer = none) (h' : e'.get? analyzer = none)
  | present {r r' : Option (List Finding)} (h : e.get? analyzer = some r)
      (h' : e'.get? analyzer = some r')
      (hl : List.Forall₂ Finding.Alike (r.getD []) (r'.getD []))

/-- The payloads have the same packages, and in each the same of the analyzer. Other analyzers are
left open. -/
structure Payload.Alike (analyzer : String) (p p' : Payload) : Prop where
  packages : p.toList.map (·.1) = p'.toList.map (·.1)
  entries : ∀ package e e', p.get? package = some e → p'.get? package = some e' →
    Entry.Alike analyzer e e'

/-! ## Outcomes that agree -/

/-- The failures are of one kind and say the same, but for the entry that lacks the analyzer and the
position that cannot be read. -/
inductive Failure.Alike : Failure → Failure → Prop
  | schema (analyzer package entry entry' : String) :
      Alike (.schema analyzer package entry) (.schema analyzer package entry')
  | malformedPosition {d d' : Finding} (h : d.message = d'.message) (cause : PositionError) :
      Alike (.malformedPosition d cause) (.malformedPosition d' cause)
  | duplicatePosition (position : Position) (existing incoming : String) :
      Alike (.duplicatePosition position existing incoming)
        (.duplicatePosition position existing incoming)

namespace Diagnostics

/-- The same map, or failures that say the same. -/
inductive Alike : Except Failure Diagnostics → Except Failure Diagnostics → Prop
  | ok (m : Diagnostics) : Alike (.ok m) (.ok m)
  | error {e e' : Failure} (h : e.Alike e') : Alike (.error e) (.error e')

end Diagnostics

/-! ## One step -/

theorem Position.SameLine.ofPosn_eq {posn posn' : String} (h : SameLine posn posn') :
    ofPosn posn = ofPosn posn' := by
  cases h with
  | refl => rfl
  | column h h' => rw [ofPosn, ofPosn, h.segments_eq, h'.segments_eq]

/-- The packages are met in the same order, with entries that agree. -/
theorem Payload.Alike.forall₂ {analyzer : String} {p p' : Payload} (h : p.Alike analyzer p') :
    List.Forall₂ (fun e e' => e.1 = e'.1 ∧ e.2.Alike analyzer e'.2) p.toList p'.toList := by
  have hkeys : List.Forall₂ (fun e e' : String × Entry => e.1 = e'.1) p.toList p'.toList := by
    have hnames := h.packages
    rwa [← List.forall₂_eq_eq_eq, List.forall₂_map_left_iff, List.forall₂_map_right_iff] at hnames
  rw [List.forall₂_iff_zip] at hkeys ⊢
  obtain ⟨hlength, hkeys⟩ := hkeys
  refine ⟨hlength, ?_⟩
  rintro ⟨package, e⟩ ⟨package', e'⟩ hmem
  obtain ⟨he, he'⟩ := List.of_mem_zip hmem
  obtain rfl : package = package' := hkeys hmem
  exact ⟨rfl, h.entries package e e' (SortedMap.get?_eq_some_iff.2 he)
    (SortedMap.get?_eq_some_iff.2 he')⟩

namespace Diagnostics

theorem alike_add (m : Diagnostics) (d d' : Finding) (h : d.Alike d') :
    Alike (add m d) (add m d') := by
  unfold add
  rw [← h.posn.ofPosn_eq, ← h.message]
  cases Position.ofPosn d.posn with
  | error cause => exact .error (.malformedPosition h.message cause)
  | ok p =>
    simp only
    cases m.get? p with
    | some existing => exact .error (.duplicatePosition p existing d.message)
    | none => exact .ok _

/-- **Outcomes that agree go on alike.** -/
theorem Alike.bind {r r' : Except Failure Diagnostics}
    {f f' : Diagnostics → Except Failure Diagnostics} (h : Alike r r')
    (hf : ∀ m, Alike (f m) (f' m)) : Alike (r >>= f) (r' >>= f') := by
  cases h with
  | ok m => exact hf m
  | error h => exact .error h

theorem alike_foldlM_add {l l' : List Finding} (h : List.Forall₂ Finding.Alike l l') :
    ∀ m, Alike (l.foldlM add m) (l'.foldlM add m) := by
  induction h with
  | nil => exact .ok
  | cons hd _ ih =>
    intro m
    rw [List.foldlM_cons, List.foldlM_cons]
    exact (alike_add m _ _ hd).bind ih

theorem alike_addEntry (analyzer : String) (m : Diagnostics) {e e' : String × Entry}
    (hpackage : e.1 = e'.1) (h : e.2.Alike analyzer e'.2) :
    Alike (addEntry analyzer m e).result (addEntry analyzer m e').result := by
  unfold addEntry
  cases h with
  | absent h h' =>
    rw [h, h', hpackage]
    exact .error (.schema analyzer e'.1 e.2.shown e'.2.shown)
  | present h h' hl =>
    rw [h, h']
    exact alike_foldlM_add hl m

theorem alike_addEntries {analyzer : String} {es es' : List (String × Entry)}
    (h : List.Forall₂ (fun e e' => e.1 = e'.1 ∧ e.2.Alike analyzer e'.2) es es') :
    ∀ m, Alike (addEntries analyzer m es).result (addEntries analyzer m es').result := by
  induction h with
  | nil => exact .ok
  | cons he _ ih =>
    intro m
    rw [addEntries, addEntries, Collected.result_andThen, Collected.result_andThen]
    exact (alike_addEntry analyzer m he.1 he.2).bind ih

/-- **Only the analyzer and the lines count.** Payloads with the same packages that agree on the
analyzer up to columns have the same result, or failures that say the same. -/
theorem insensitive_to_surroundings {analyzer : String} {p p' : Payload}
    (h : p.Alike analyzer p') : Alike (ofPayload analyzer p) (ofPayload analyzer p') :=
  alike_addEntries h.forall₂ ∅

/-- Two packages. In the second, the line of a finding is no number. -/
def quiet : Payload :=
  SortedMap.ofList
    [("a", SortedMap.ofList [("n", none)]),
      ("b", SortedMap.ofList [("n", some [⟨"x.go:7:1", "first"⟩, ⟨"x.go:1O:2", "second"⟩])])]

/-- The same of the analyzer, but for columns. Another analyzer has a position of no form at all and
two findings on one line. -/
def noisy : Payload :=
  SortedMap.ofList
    [("a", SortedMap.ofList [("k", some [⟨"nowhere", ""⟩]), ("n", some [])]),
      ("b", SortedMap.ofList
        [("k", some [⟨"x.go:7:1", "p"⟩, ⟨"x.go:7:1", "q"⟩]),
          ("n", some [⟨"x.go:7:99", "first"⟩, ⟨"x.go:1O:", "second"⟩])])]

theorem insensitive_to_surroundings_noisy :
    quiet.Alike "n" noisy ∧ Alike (ofPayload "n" quiet) (ofPayload "n" noisy) := by
  have hlist : List.Forall₂ Finding.Alike [⟨"x.go:7:1", "first"⟩, ⟨"x.go:1O:2", "second"⟩]
      [⟨"x.go:7:99", "first"⟩, ⟨"x.go:1O:", "second"⟩] := by
    have hposn (line column column' : String)
        (h : ':' ∉ line.toList ∧ ':' ∉ column.toList ∧ ':' ∉ column'.toList) :
        Position.SameLine ("x.go:" ++ line ++ ":" ++ column)
          ("x.go:" ++ line ++ ":" ++ column') := by
      have hfile : ':' ∉ "x.go".toList := by decide
      exact .column ⟨by simp, hfile, h.1, h.2.1⟩ ⟨by simp, hfile, h.1, h.2.2⟩
    refine .cons ⟨hposn "7" "1" "99" (by decide), rfl⟩ (.cons ⟨?_, rfl⟩ .nil)
    exact hposn "1O" "2" "" (by decide)
  have h : quiet.Alike "n" noisy := by
    refine ⟨by decide, fun package e e' he he' => ?_⟩
    have hk := SortedMap.get?_eq_some_iff.1 he
    have hmem : package ∈ ["a", "b"] := List.mem_map_of_mem (f := Prod.fst) hk
    simp only [List.mem_cons, List.not_mem_nil, or_false] at hmem
    rcases hmem with rfl | rfl
    · cases he
      cases he'
      exact .present rfl rfl .nil
    · cases he
      cases he'
      exact .present rfl rfl hlist
  exact ⟨h, insensitive_to_surroundings h⟩

end Diagnostics

end Findings
