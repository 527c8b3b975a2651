import Findings.Path
import Findings.Proofs.Segments

/-!
# Laws of paths

`inner` lists the components of a path below the place it starts at. A path below a base has the
components of both (`inner_join`), and starts as the base does (`isAbsolute_join`,
`hasTwoSlashes_join`). A path made absolute (`absolute`) is put together again from its components:
`absolute_eq` is its text, in which each of them follows one slash. Its laws come from those of
`join`, by induction on the components (`joinAll`).
-/

set_option autoImplicit false

namespace Findings.Path

variable {base path current : String} {c : Component} {cs : List Component}

theorem isAbsolute_of_no_slash (h : '/' ∉ path.toList) : isAbsolute path = false := by
  have : path.toList.head? ≠ some '/' := fun hc => h (List.mem_of_mem_head? hc)
  simpa [isAbsolute] using this

/-! ## Components -/

/-- The components of a path below the root, or below where a relative path starts. -/
def inner (path : String) : List Component := (segments '/' path.toList).filterMap inner?

/-- A component that a path may have below its start: its text has one component, itself. -/
structure Component.Plain (c : Component) : Prop where
  no_slash : '/' ∉ c.text.toList
  reads : inner? c.text.toList = some c

theorem plain_of_inner? {s : List Char} (hs : '/' ∉ s) (h : inner? s = some c) : c.Plain := by
  have htext : c.text.toList = s := by
    unfold inner? at h
    split at h
    · cases h
    split at h
    next hdots =>
      obtain rfl : Component.parent = c := by simpa using h
      rw [hdots]
      rfl
    · obtain rfl : Component.name (String.ofList s) = c := by simpa using h
      exact String.toList_ofList
  exact ⟨htext ▸ hs, htext ▸ h⟩

theorem plain_of_mem_inner (h : c ∈ inner path) : c.Plain := by
  obtain ⟨s, hs, hc⟩ := List.mem_filterMap.1 h
  exact plain_of_inner? (not_mem_of_mem_segments hs) hc

namespace Component.Plain

theorem ne_root (h : c.Plain) : c ≠ .root := by
  rintro rfl
  exact h.no_slash (by simp [Component.text])

theorem ne_current (h : c.Plain) : c ≠ .current := by
  rintro rfl
  have := h.reads
  simp [Component.text, inner?] at this

theorem text_ne_empty (h : c.Plain) : c.text ≠ "" := by
  intro hempty
  have := h.reads
  simp [hempty, inner?] at this

theorem isAbsolute_text (h : c.Plain) : isAbsolute c.text = false :=
  isAbsolute_of_no_slash h.no_slash

theorem endsWithSlash_text (h : c.Plain) : endsWithSlash c.text = false := by
  have : c.text.toList.getLast? ≠ some '/' := fun hc => h.no_slash (List.mem_of_getLast? hc)
  simpa [endsWithSlash] using this

theorem inner_text (h : c.Plain) : inner c.text = [c] := by
  rw [inner, segments_of_not_mem h.no_slash]
  simp [h.reads]

end Component.Plain

/-- What stands before the components below the start. -/
theorem components_cases (path : String) :
    isAbsolute path = true ∧ components path = .root :: inner path ∨
      isAbsolute path = false ∧ components path = .current :: inner path ∨
      isAbsolute path = false ∧ components path = inner path := by
  unfold components inner
  cases isAbsolute path with
  | true => exact .inl ⟨rfl, rfl⟩
  | false =>
    by_cases hdot : (segments '/' path.toList).head? = some ['.']
    · exact .inr (.inl ⟨rfl, by simp [hdot]⟩)
    · exact .inr (.inr ⟨rfl, by simp [hdot]⟩)

theorem components_of_isAbsolute (h : isAbsolute path = true) :
    components path = .root :: inner path := by
  rcases components_cases path with ⟨-, hc⟩ | ⟨hrel, -⟩ | ⟨hrel, -⟩
  · exact hc
  · simp [h] at hrel
  · simp [h] at hrel

theorem filter_inner (p : Component → Bool) (hp : ∀ c, c.Plain → p c = true) :
    (inner path).filter p = inner path :=
  List.filter_eq_self.2 fun c hc => hp c (plain_of_mem_inner hc)

theorem steps_eq (path : String) :
    steps path = (if isAbsolute path = true then [.root] else []) ++ inner path := by
  have hinner : (inner path).filter (· ≠ .current) = inner path :=
    filter_inner _ fun c hc => by simpa using hc.ne_current
  rcases components_cases path with ⟨h, hc⟩ | ⟨h, hc⟩ | ⟨h, hc⟩ <;>
    simpa [steps, h, hc] using hinner

theorem inner_ne_nil_of_length (hrel : isAbsolute path = false)
    (h : 1 < (components path).length) : inner path ≠ [] := by
  intro hnil
  rcases components_cases path with ⟨habs, -⟩ | ⟨-, hc⟩ | ⟨-, hc⟩
  · simp [hrel] at habs
  · simp [hc, hnil] at h
  · simp [hc, hnil] at h

theorem plain_of_mem_tail (h : c ∈ (components path).tail) : c.Plain := by
  rcases components_cases path with ⟨-, hc⟩ | ⟨-, hc⟩ | ⟨-, hc⟩
  · exact plain_of_mem_inner (by simpa [hc] using h)
  · exact plain_of_mem_inner (by simpa [hc] using h)
  · exact plain_of_mem_inner (List.mem_of_mem_tail (hc ▸ h))

/-- A text without slashes is one component, if any. -/
theorem length_components_le (h : '/' ∉ path.toList) : (components path).length ≤ 1 := by
  simp only [components, isAbsolute_of_no_slash h, segments_of_not_mem h]
  by_cases hdot : path.toList = ['.']
  · simp [hdot, inner?]
  · simpa [hdot] using List.length_filterMap_le inner? [path.toList]

/-! ## Joining -/

theorem exists_of_endsWithSlash (h : endsWithSlash path = true) : ∃ p, path = p ++ "/" := by
  have hlast : path.toList.getLast? = some '/' := by simpa [endsWithSlash] using h
  obtain ⟨s, hs⟩ := List.getLast?_eq_some_iff.1 hlast
  exact ⟨String.ofList s, String.toList_inj.1 (by simp [hs])⟩

theorem inner_append_slash (p q : String) : inner (p ++ "/" ++ q) = inner p ++ inner q := by
  have : (p ++ "/" ++ q).toList = p.toList ++ '/' :: q.toList := by simp
  rw [inner, this, segments_append_cons, List.filterMap_append]
  rfl

theorem inner_empty : inner "" = [] := rfl

theorem inner_append_slash_end (p : String) : inner (p ++ "/") = inner p := by
  simpa [inner_empty] using inner_append_slash p ""

/-- The ways in which a relative path is put below a base. -/
theorem join_cases (base : String) (hrel : isAbsolute path = false) :
    base = "" ∧ join base path = path ∨
      (∃ p, base = p ++ "/") ∧ join base path = base ++ path ∨
      base ≠ "" ∧ endsWithSlash base = false ∧ join base path = base ++ "/" ++ path := by
  unfold join
  by_cases hempty : base = ""
  · exact .inl ⟨hempty, by simp [hrel, hempty]⟩
  · cases hslash : endsWithSlash base with
    | true => exact .inr (.inl ⟨exists_of_endsWithSlash hslash, by simp [hrel]⟩)
    | false => exact .inr (.inr ⟨hempty, rfl, by simp [hrel, hempty]⟩)

theorem inner_join (hrel : isAbsolute path = false) :
    inner (join base path) = inner base ++ inner path := by
  rcases join_cases base hrel with ⟨rfl, h⟩ | ⟨⟨p, rfl⟩, h⟩ | ⟨-, -, h⟩
  · rw [h, inner_empty, List.nil_append]
  · rw [h, inner_append_slash, inner_append_slash_end]
  · rw [h, inner_append_slash]

theorem isAbsolute_append (p q : String) (hp : p ≠ "") : isAbsolute (p ++ q) = isAbsolute p := by
  have : p.toList ≠ [] := by simpa using hp
  obtain ⟨x, xs, hx⟩ := List.exists_cons_of_ne_nil this
  simp [isAbsolute, hx]

theorem isAbsolute_join (hrel : isAbsolute path = false) :
    isAbsolute (join base path) = isAbsolute base := by
  rcases join_cases base hrel with ⟨rfl, h⟩ | ⟨⟨p, rfl⟩, h⟩ | ⟨hne, -, h⟩
  · rw [h, hrel]
    rfl
  · rw [h, isAbsolute_append _ _ (by simp)]
  · rw [h, isAbsolute_append _ _ (by simp), isAbsolute_append _ _ hne]

theorem hasTwoSlashes_iff : hasTwoSlashes path = true ↔
    path.toList[0]? = some '/' ∧ path.toList[1]? = some '/' ∧ path.toList[2]? ≠ some '/' := by
  unfold hasTwoSlashes
  split
  next s h => simp [h]
  next s hne h => simpa [h, ← List.head?_eq_getElem?, List.head?_eq_some_iff] using hne
  next _ hne =>
    match hs : path.toList with
    | [] => simp
    | [a] => simp
    | a :: b :: s =>
      have hab : a = '/' → b ≠ '/' := by
        rintro rfl rfl
        exact hne s hs
      simpa using fun ha hb => absurd hb (hab ha)

theorem hasTwoSlashes_eq_false (hrel : isAbsolute path = false) : hasTwoSlashes path = false := by
  refine Bool.eq_false_iff.2 fun h => ?_
  have hfirst := (hasTwoSlashes_iff.1 h).1
  rw [← List.head?_eq_getElem?] at hfirst
  simp [isAbsolute, hfirst] at hrel

/-- Nothing put behind the start of a path makes two slashes of it, or takes them away. -/
theorem hasTwoSlashes_append {p q : String} (hp : p ≠ "")
    (h : endsWithSlash p = true → isAbsolute q = false) :
    hasTwoSlashes (p ++ q) = hasTwoSlashes p := by
  have hp : p.toList ≠ [] := by simpa using hp
  simp only [endsWithSlash, isAbsolute] at h
  rw [Bool.eq_iff_iff, hasTwoSlashes_iff, hasTwoSlashes_iff, String.toList_append]
  generalize p.toList = s at hp h
  generalize q.toList = t at h
  -- Only the first three characters count, so the shorter texts are the ones to look at.
  match s with
  | [] => exact absurd rfl hp
  | [a] =>
    by_cases ha : a = '/'
    · have ht : t[0]? ≠ some '/' := by simpa [ha, List.head?_eq_getElem?] using h
      simp [ha, ht]
    · simp [ha]
  | [a, b] =>
    by_cases hb : b = '/'
    · have ht : t[0]? ≠ some '/' := by simpa [hb, List.head?_eq_getElem?] using h
      simp [hb, ht]
    · simp [hb]
  | a :: b :: c :: s => simp

theorem hasTwoSlashes_join (hrel : isAbsolute path = false) :
    hasTwoSlashes (join base path) = hasTwoSlashes base := by
  rcases join_cases base hrel with ⟨rfl, h⟩ | ⟨⟨p, rfl⟩, h⟩ | ⟨hne, hslash, h⟩
  · rw [h, hasTwoSlashes_eq_false hrel]
    rfl
  · rw [h, hasTwoSlashes_append (by simp) fun _ => hrel]
  · rw [h, String.append_assoc, hasTwoSlashes_append hne (by simp [hslash])]

theorem endsWithSlash_append (p : String) {q : String} (hq : q ≠ "") :
    endsWithSlash (p ++ q) = endsWithSlash q := by
  simp [endsWithSlash, hq]

theorem endsWithSlash_join (hrel : isAbsolute path = false) (hne : path ≠ "") :
    endsWithSlash (join base path) = endsWithSlash path := by
  rcases join_cases base hrel with ⟨rfl, h⟩ | ⟨⟨p, rfl⟩, h⟩ | ⟨-, -, h⟩
  · rw [h]
  · rw [h, endsWithSlash_append _ hne]
  · rw [h, endsWithSlash_append _ hne]

theorem Component.Plain.endsWithSlash_join (h : c.Plain) (base : String) :
    endsWithSlash (join base c.text) = false := by
  rw [Path.endsWithSlash_join h.isAbsolute_text h.text_ne_empty, h.endsWithSlash_text]

/-- A text without the slash at its end, if there is one. -/
def trimSlash (path : String) : String :=
  if endsWithSlash path then String.ofList path.toList.dropLast else path

theorem trimSlash_append_slash (p : String) : trimSlash (p ++ "/") = p := by
  simp [trimSlash, endsWithSlash]

theorem trimSlash_eq_self (h : endsWithSlash path = false) : trimSlash path = path := by
  simp [trimSlash, h]

/-- One slash stands between a base and what is put below it. -/
theorem join_eq (hbase : base ≠ "") (hrel : isAbsolute path = false) :
    join base path = trimSlash base ++ "/" ++ path := by
  rcases join_cases base hrel with ⟨rfl, -⟩ | ⟨⟨p, rfl⟩, h⟩ | ⟨-, hslash, h⟩
  · exact absurd rfl hbase
  · rw [h, trimSlash_append_slash]
  · rw [h, trimSlash_eq_self hslash]

/-! ## Joining component by component -/

/-- The path that is reached from `base` by the components. -/
def joinAll (base : String) (cs : List Component) : String :=
  cs.foldl (fun p c => join p c.text) base

/-- What joining a relative path leaves as it is, joining its components leaves as it is. -/
theorem joinAll_of_join {α : Type} (f : String → α)
    (hf : ∀ base path, isAbsolute path = false → f (join base path) = f base)
    (hcs : ∀ c ∈ cs, c.Plain) : f (joinAll base cs) = f base := by
  induction cs generalizing base with
  | nil => rfl
  | cons c cs ih =>
    obtain ⟨hc, hcs⟩ := List.forall_mem_cons.1 hcs
    calc f (joinAll (join base c.text) cs)
      _ = f (join base c.text) := ih hcs
      _ = f base := hf base c.text hc.isAbsolute_text

theorem inner_joinAll (hcs : ∀ c ∈ cs, c.Plain) : inner (joinAll base cs) = inner base ++ cs := by
  induction cs generalizing base with
  | nil => simp [joinAll]
  | cons c cs ih =>
    obtain ⟨hc, hcs⟩ := List.forall_mem_cons.1 hcs
    calc inner (joinAll (join base c.text) cs)
      _ = inner (join base c.text) ++ cs := ih hcs
      _ = inner base ++ c :: cs := by simp [inner_join hc.isAbsolute_text, hc.inner_text]

/-- The components with one slash before each. -/
def slashed (cs : List Component) : String := String.join (cs.map fun c => "/" ++ c.text)

theorem slashed_cons (c : Component) (cs : List Component) :
    slashed (c :: cs) = "/" ++ c.text ++ slashed cs := by
  simp [slashed]

/-- The text of a path that is put together from its components. -/
theorem joinAll_eq (hcs : ∀ c ∈ cs, c.Plain) (hne : cs ≠ []) (hbase : base ≠ "") :
    joinAll base cs = trimSlash base ++ slashed cs := by
  induction cs generalizing base with
  | nil => exact absurd rfl hne
  | cons c cs ih =>
    obtain ⟨hc, hcs⟩ := List.forall_mem_cons.1 hcs
    have hjoin : join base c.text = trimSlash base ++ "/" ++ c.text :=
      join_eq hbase hc.isAbsolute_text
    have hall : joinAll (join base c.text) cs = join base c.text ++ slashed cs := by
      by_cases hnil : cs = []
      · simp [hnil, joinAll, slashed]
      · rw [ih hcs hnil (by simp [hjoin]), trimSlash_eq_self (hc.endsWithSlash_join base)]
    calc joinAll (join base c.text) cs
      _ = trimSlash base ++ "/" ++ c.text ++ slashed cs := by rw [hall, hjoin]
      _ = trimSlash base ++ slashed (c :: cs) := by simp [slashed_cons, String.append_assoc]

theorem joinAll_ne_empty (hcs : ∀ c ∈ cs, c.Plain) (hne : cs ≠ []) : joinAll base cs ≠ "" := by
  intro h
  have hinner : [] = inner base ++ cs := by rw [← inner_joinAll hcs, h, inner_empty]
  exact hne (List.append_eq_nil_iff.1 hinner.symm).2

theorem endsWithSlash_joinAll (hcs : ∀ c ∈ cs, c.Plain) (hne : cs ≠ []) :
    endsWithSlash (joinAll base cs) = false := by
  induction cs generalizing base with
  | nil => exact absurd rfl hne
  | cons c cs ih =>
    obtain ⟨hc, hcs⟩ := List.forall_mem_cons.1 hcs
    by_cases hnil : cs = []
    · rw [hnil]
      exact hc.endsWithSlash_join base
    · exact ih hcs hnil

/-! ## Paths made absolute -/

/-- Where a path made absolute starts: at the root, which keeps its two slashes if it has just two,
or in the current directory. -/
def start (current path : String) : String :=
  if hasTwoSlashes path then "//" else if isAbsolute path then "/" else current

theorem absolute_eq_joinAll (current path : String) :
    absolute current path =
      if endsWithSlash path then join (joinAll (start current path) (inner path)) ""
      else joinAll (start current path) (inner path) := by
  have hroot : (steps path).filter (· ≠ .root) = inner path := by
    rw [steps_eq, List.filter_append, filter_inner _ fun c hc => by simpa using hc.ne_root]
    split <;> simp
  rw [← hroot]
  rfl

/-- An absolute path does not start in the current directory. -/
theorem absolute_of_isAbsolute (h : isAbsolute path = true) (current current' : String) :
    absolute current path = absolute current' path := by
  have hstart : start current path = start current' path := by simp [start, h]
  rw [absolute_eq_joinAll, absolute_eq_joinAll, hstart]

/-- What joining a relative path leaves as it is, a path made absolute has from its start. -/
theorem absolute_of_join {α : Type} (f : String → α)
    (hf : ∀ base path, isAbsolute path = false → f (join base path) = f base)
    (current path : String) : f (absolute current path) = f (start current path) := by
  have hjoin : f (joinAll (start current path) (inner path)) = f (start current path) :=
    joinAll_of_join f hf fun _ => plain_of_mem_inner
  rw [absolute_eq_joinAll]
  split
  · rw [hf _ _ rfl, hjoin]
  · exact hjoin

theorem isAbsolute_absolute (h : isAbsolute path = true ∨ isAbsolute current = true) :
    isAbsolute (absolute current path) = true := by
  rw [absolute_of_join isAbsolute fun _ _ => isAbsolute_join, start]
  split
  · rfl
  split
  · rfl
  · simp_all

theorem hasTwoSlashes_absolute (habs : isAbsolute path = true) :
    hasTwoSlashes (absolute current path) = hasTwoSlashes path := by
  rw [absolute_of_join hasTwoSlashes fun _ _ => hasTwoSlashes_join, start, habs]
  split <;> simp_all [hasTwoSlashes]

theorem inner_absolute (current path : String) :
    inner (absolute current path) =
      (if isAbsolute path then [] else inner current) ++ inner path := by
  have hstart : inner (start current path) = if isAbsolute path then [] else inner current := by
    unfold start
    cases habs : isAbsolute path with
    | true =>
      simp only [if_true]
      split <;> rfl
    | false => simp [hasTwoSlashes_eq_false habs]
  have hjoin : inner (joinAll (start current path) (inner path)) =
      inner (start current path) ++ inner path := inner_joinAll fun _ => plain_of_mem_inner
  rw [absolute_eq_joinAll, ← hstart, ← hjoin]
  split
  · rw [inner_join rfl, inner_empty, List.append_nil]
  · rfl

/-- The text of a path made absolute. -/
theorem absolute_eq (hne : inner path ≠ []) (hcurrent : current ≠ "") :
    absolute current path = trimSlash (start current path) ++ slashed (inner path) ++
      if endsWithSlash path then "/" else "" := by
  have hstart : start current path ≠ "" := by
    unfold start
    split
    · simp
    split
    · simp
    · exact hcurrent
  have hplain : ∀ c ∈ inner path, c.Plain := fun _ => plain_of_mem_inner
  have hslash : endsWithSlash (joinAll (start current path) (inner path)) = false :=
    endsWithSlash_joinAll hplain hne
  rw [absolute_eq_joinAll, ← joinAll_eq hplain hne hstart]
  split
  · rw [join_eq (joinAll_ne_empty hplain hne) rfl, trimSlash_eq_self hslash]
    simp
  · simp

theorem endsWithSlash_absolute (hne : inner path ≠ []) :
    endsWithSlash (absolute current path) = endsWithSlash path := by
  have hplain : ∀ c ∈ inner path, c.Plain := fun _ => plain_of_mem_inner
  rw [absolute_eq_joinAll]
  cases hslash : endsWithSlash path with
  | false => exact endsWithSlash_joinAll hplain hne
  | true =>
    rw [if_pos rfl, join_eq (joinAll_ne_empty hplain hne) rfl]
    simp [endsWithSlash]

end Findings.Path
