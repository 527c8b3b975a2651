import Findings.Diagnostics
import Findings.Proofs.Rendering
import Findings.Proofs.SortedMap
import Findings.Proofs.Utf8

/-!
# Collecting findings

`Diagnostics.collect` walks through two nested loops with three early exits. Here it is one run over
the sequence of its checks (`Payload.checks`): for every package whether the analyzer is there,
for every finding whether its position can be read, then whether its line is still free.

* A check that fails names its failure (`Check.FailsWith`), by the places given out before it.
* The map that is being collected holds just the places given out so far (`run_eq_ok`), so the run
  ends with the failure of the first check that fails (`run_eq_error_iff`).
* `ofPayload_eq_ok_iff`: a map is the result iff the analyzer is in every package, every position
  can be read and the entries of the map are the findings, in another order.
-/

set_option autoImplicit false

namespace Findings

/-- What an analyzer found in a package; a missing list and a missing analyzer count as nothing. -/
def Entry.findings (analyzer : String) (e : Entry) : List Finding :=
  match e.get? analyzer with
  | some (some l) => l
  | _ => []

theorem Entry.findings_of_get? {analyzer : String} {e : Entry} {r : Option (List Finding)}
    (h : e.get? analyzer = some r) : e.findings analyzer = r.getD [] := by
  rw [findings, h]
  cases r <;> rfl

/-- What an analyzer found in all packages. -/
def Payload.findings (analyzer : String) (payload : Payload) : List Finding :=
  payload.toList.flatMap fun e => e.2.findings analyzer

/-- The place of a finding and its message, if the place can be read. -/
def Finding.placed? (d : Finding) : Option (Position × String) :=
  match Position.ofPosn d.posn with
  | .error _ => none
  | .ok p => some (p, d.message)

theorem Finding.placed?_eq_some_iff {d : Finding} {p : Position} {message : String} :
    d.placed? = some (p, message) ↔ Position.ofPosn d.posn = .ok p ∧ d.message = message := by
  unfold placed?
  cases Position.ofPosn d.posn <;> simp

namespace Diagnostics

/-! ## Checks -/

/-- What collecting looks at, in this order. -/
inductive Check where
  /-- Whether a package has the analyzer; if not, `lacking` is its entry. -/
  | key (package : String) (lacking : Option Entry)
  /-- Whether the position of a finding can be read. -/
  | posn (finding : Finding)
  /-- Whether a position has no message yet, which then gets one. -/
  | place (position : Position) (message : String)
deriving DecidableEq

/-- The checks on one finding. -/
def findingChecks (d : Finding) : List Check :=
  .posn d :: d.placed?.toList.map fun e => .place e.1 e.2

/-- The checks on one package. -/
def entryChecks (analyzer : String) (e : String × Entry) : List Check :=
  match e.2.get? analyzer with
  | none => [.key e.1 (some e.2)]
  | some _ => .key e.1 none :: (e.2.findings analyzer).flatMap findingChecks

end Diagnostics

/-- The checks on all packages in the order of their names. -/
def Payload.checks (analyzer : String) (payload : Payload) : List Diagnostics.Check :=
  payload.toList.flatMap (Diagnostics.entryChecks analyzer)

namespace Diagnostics

/-- The places that checks have given out. -/
def placed (cs : List Check) : List (Position × String) :=
  cs.filterMap fun
    | .place p message => some (p, message)
    | _ => none

@[simp] theorem placed_append (cs cs' : List Check) :
    placed (cs ++ cs') = placed cs ++ placed cs' := List.filterMap_append

/-- `c.FailsWith analyzer earlier e`: after the checks `earlier`, the check `c` fails with `e`. If a
package lacks the analyzer, the failure shows its whole entry. A place is taken if one of the places
given out earlier is the same; the failure tells its message. -/
inductive Check.FailsWith (analyzer : String) (earlier : List Check) : Check → Failure → Prop
  | lacking {package text : String} {entry : Entry} (h : entry.Rendered text) :
      FailsWith analyzer earlier (.key package (some entry)) (.schema analyzer package text)
  | unreadable {d : Finding} {cause : PositionError} (h : Position.ofPosn d.posn = .error cause) :
      FailsWith analyzer earlier (.posn d) (.malformedPosition d cause)
  | taken {p : Position} {existing message : String}
      (h : (placed earlier).filter (·.1 = p) = [(p, existing)]) :
      FailsWith analyzer earlier (.place p message) (.duplicatePosition p existing message)

/-- None of the checks fails. -/
def Passed (analyzer : String) (cs : List Check) : Prop :=
  ∀ earlier c later, cs = earlier ++ c :: later → ∀ e, ¬ c.FailsWith analyzer earlier e

/-- The first check that fails does so with `e`. -/
def FirstFailure (analyzer : String) (cs : List Check) (e : Failure) : Prop :=
  ∃ earlier c later, cs = earlier ++ c :: later ∧ Passed analyzer earlier ∧
    c.FailsWith analyzer earlier e

/-- Makes one check on what has been collected. -/
def perform (analyzer : String) (m : Diagnostics) : Check → Except Failure Diagnostics
  | .key _ none => .ok m
  | .key package (some entry) => .error (.schema analyzer package entry.shown)
  | .posn d =>
    match Position.ofPosn d.posn with
    | .error cause => .error (.malformedPosition d cause)
    | .ok _ => .ok m
  | .place p message =>
    match m.get? p with
    | some existing => .error (.duplicatePosition p existing message)
    | none => .ok (m.insert p message)

/-- Makes checks one after the other, up to the first that fails. -/
def run (analyzer : String) (m : Diagnostics) (cs : List Check) : Except Failure Diagnostics :=
  cs.foldlM (perform analyzer) m

/-! ## Collecting is a run -/

section
variable (analyzer : String)

theorem run_cons (m : Diagnostics) (c : Check) (cs : List Check) :
    run analyzer m (c :: cs) = perform analyzer m c >>= fun m' => run analyzer m' cs := rfl

theorem run_append (m : Diagnostics) (cs cs' : List Check) :
    run analyzer m (cs ++ cs') = run analyzer m cs >>= fun m' => run analyzer m' cs' :=
  List.foldlM_append

theorem run_findingChecks (m : Diagnostics) (d : Finding) :
    run analyzer m (findingChecks d) = add m d := by
  unfold add
  rw [findingChecks, run_cons, perform]
  cases hp : Position.ofPosn d.posn with
  | error cause => rfl
  | ok p =>
    simp only [Finding.placed?, hp, Option.toList_some, List.map_cons, List.map_nil]
    show perform analyzer m (.place p d.message) >>= pure = _
    rw [bind_pure]
    rfl

theorem run_flatMap_findingChecks (ds : List Finding) :
    ∀ m, run analyzer m (ds.flatMap findingChecks) = ds.foldlM add m := by
  induction ds with
  | nil => exact fun _ => rfl
  | cons d ds ih =>
    intro m
    rw [List.flatMap_cons, run_append, run_findingChecks, List.foldlM_cons]
    exact congrArg _ (funext ih)

theorem run_entryChecks (m : Diagnostics) (e : String × Entry) :
    run analyzer m (entryChecks analyzer e) = (addEntry analyzer m e).result := by
  unfold entryChecks addEntry
  cases hg : e.2.get? analyzer with
  | none => rfl
  | some r =>
    rw [Entry.findings_of_get? hg]
    exact run_flatMap_findingChecks analyzer (r.getD []) m

theorem run_flatMap_entryChecks (es : List (String × Entry)) :
    ∀ m, run analyzer m (es.flatMap (entryChecks analyzer)) =
      (addEntries analyzer m es).result := by
  induction es with
  | nil => exact fun _ => rfl
  | cons e es ih =>
    intro m
    rw [List.flatMap_cons, run_append, run_entryChecks, addEntries,
      Collected.result_andThen]
    exact congrArg _ (funext ih)

theorem ofPayload_eq_run (payload : Payload) :
    ofPayload analyzer payload = run analyzer ∅ (payload.checks analyzer) :=
  (run_flatMap_entryChecks analyzer payload.toList ∅).symm

end

/-! ## One check -/

theorem nodup_keys_of_perm {m : Diagnostics} {l : List (Position × String)}
    (h : m.toList.Perm l) : (l.map (·.1)).Nodup :=
  (h.map (·.1)).nodup_iff.1 m.nodup_keys

section
variable {analyzer : String} {m m' : Diagnostics} {cs : List Check} {c : Check}

/-- **A check fails as specified**, on a map that holds the places given out before. -/
theorem perform_eq_error_iff (hm : m.toList.Perm (placed cs)) {e : Failure} :
    perform analyzer m c = .error e ↔ c.FailsWith analyzer cs e := by
  cases c with
  | key package lacking =>
    cases lacking with
    | none =>
      constructor <;> intro h <;> cases h
    | some entry =>
      constructor <;> intro h
      · cases h
        exact .lacking (Entry.rendered_iff.2 rfl)
      · cases h with
        | lacking h => rw [perform, Entry.rendered_iff.1 h]
  | posn d =>
    rw [perform]
    cases hp : Position.ofPosn d.posn with
    | error cause =>
      constructor <;> intro h
      · cases h
        exact .unreadable hp
      · cases h with
        | unreadable h =>
          rw [hp] at h
          cases h
          rfl
    | ok p =>
      constructor <;> intro h
      · cases h
      · cases h with
        | unreadable h =>
          rw [hp] at h
          cases h
  | place p message =>
    have hfilter : ∀ existing, (placed cs).filter (·.1 = p) = [(p, existing)] ↔
        m.get? p = some existing := fun existing => by
      rw [SortedMap.filter_key_eq_singleton_iff (nodup_keys_of_perm hm),
        SortedMap.get?_eq_some_iff, hm.mem_iff]
    rw [perform]
    constructor <;> intro h
    · split at h
      · rename_i existing hg
        cases h
        exact .taken ((hfilter existing).2 hg)
      · cases h
    · cases h with
      | taken h => rw [(hfilter _).1 h]

theorem perm_of_perform_eq_ok (hm : m.toList.Perm (placed cs))
    (h : perform analyzer m c = .ok m') : m'.toList.Perm (placed (cs ++ [c])) := by
  rw [placed_append]
  cases c with
  | key package lacking =>
    cases lacking with
    | none => cases h; simpa [placed] using hm
    | some entry => cases h
  | posn d =>
    rw [perform] at h
    split at h
    · cases h
    · cases h; simpa [placed] using hm
  | place p message =>
    rw [perform] at h
    split at h
    · cases h
    · rename_i hg
      cases h
      exact (SortedMap.toList_insert_perm message hg).trans
        ((hm.cons _).trans (List.perm_append_singleton _ _).symm)

/-! ## A run of checks -/

theorem passed_nil : Passed analyzer [] := by
  intro earlier c later h
  simp at h

theorem passed_append_singleton :
    Passed analyzer (cs ++ [c]) ↔ Passed analyzer cs ∧ ∀ e, ¬ c.FailsWith analyzer cs e := by
  constructor
  · intro h
    refine ⟨fun earlier c' later hcs => h earlier c' (later ++ [c]) (by simp [hcs]), ?_⟩
    exact h cs c [] rfl
  · rintro ⟨h, hc⟩ earlier c' later hcs
    rcases List.eq_nil_or_concat later with rfl | ⟨later, x, rfl⟩
    · obtain ⟨rfl, hx⟩ := List.append_inj' hcs rfl
      cases hx
      exact hc
    · rw [List.concat_eq_append, ← List.cons_append, ← List.append_assoc] at hcs
      exact h earlier c' later (List.append_inj' hcs rfl).1

theorem run_eq_ok (h : run analyzer ∅ cs = .ok m) :
    Passed analyzer cs ∧ m.toList.Perm (placed cs) := by
  induction cs using List.reverseRecOn generalizing m with
  | nil => cases h; exact ⟨passed_nil, .nil⟩
  | append_singleton cs c ih =>
    rw [run_append] at h
    cases hr : run analyzer ∅ cs with
    | error e => rw [hr] at h; cases h
    | ok m₁ =>
      rw [hr] at h
      obtain ⟨hpassed, hm⟩ := ih hr
      have hc : perform analyzer m₁ c = .ok m := by rw [← bind_pure (perform _ _ _)]; exact h
      refine ⟨passed_append_singleton.2 ⟨hpassed, fun e he => ?_⟩, perm_of_perform_eq_ok hm hc⟩
      rw [(perform_eq_error_iff hm).2 he] at hc
      cases hc

theorem run_eq_error {e : Failure} (h : run analyzer ∅ cs = .error e) :
    FirstFailure analyzer cs e := by
  induction cs using List.reverseRecOn with
  | nil => cases h
  | append_singleton cs c ih =>
    rw [run_append] at h
    cases hr : run analyzer ∅ cs with
    | error e' =>
      rw [hr] at h
      cases h
      obtain ⟨earlier, c', later, rfl, hpassed, hc⟩ := ih hr
      exact ⟨earlier, c', later ++ [c], by simp, hpassed, hc⟩
    | ok m₁ =>
      rw [hr] at h
      obtain ⟨hpassed, hm⟩ := run_eq_ok hr
      have hc : perform analyzer m₁ c = .error e := by rw [← bind_pure (perform _ _ _)]; exact h
      exact ⟨cs, c, [], rfl, hpassed, (perform_eq_error_iff hm).1 hc⟩

theorem exists_run_of_passed (h : Passed analyzer cs) : ∃ m, run analyzer ∅ cs = .ok m := by
  cases hr : run analyzer ∅ cs with
  | ok m => exact ⟨m, rfl⟩
  | error e =>
    obtain ⟨earlier, c, later, hcs, -, hc⟩ := run_eq_error hr
    exact absurd hc (h earlier c later hcs e)

/-- **A run ends well** iff no check fails, with the places given out. -/
theorem run_eq_ok_iff :
    run analyzer ∅ cs = .ok m ↔ Passed analyzer cs ∧ m.toList.Perm (placed cs) := by
  refine ⟨run_eq_ok, fun ⟨hpassed, hm⟩ => ?_⟩
  obtain ⟨m₁, hr⟩ := exists_run_of_passed hpassed
  rw [hr, SortedMap.eq_of_perm ((run_eq_ok hr).2.trans hm.symm)]

/-- **A run ends with a failure** iff it is the failure of the first check that fails. -/
theorem run_eq_error_iff {e : Failure} :
    run analyzer ∅ cs = .error e ↔ FirstFailure analyzer cs e := by
  refine ⟨run_eq_error, ?_⟩
  rintro ⟨earlier, c, later, rfl, hpassed, hc⟩
  obtain ⟨m₁, hr⟩ := exists_run_of_passed hpassed
  rw [run_append, hr]
  show run analyzer m₁ (c :: later) = _
  rw [run_cons, (perform_eq_error_iff (run_eq_ok hr).2).2 hc]
  rfl

end

/-! ## The checks of a payload -/

theorem placed_flatMap_findingChecks (ds : List Finding) :
    placed (ds.flatMap findingChecks) = ds.filterMap Finding.placed? := by
  induction ds with
  | nil => rfl
  | cons d ds ih =>
    rw [List.flatMap_cons, placed_append, ih, List.filterMap_cons, findingChecks]
    cases d.placed? <;> rfl

section
variable {analyzer : String} {payload : Payload}

theorem placed_entryChecks (e : String × Entry) :
    placed (entryChecks analyzer e) = (e.2.findings analyzer).filterMap Finding.placed? := by
  unfold entryChecks
  split
  · rename_i hg
    rw [Entry.findings, hg]
    rfl
  · exact placed_flatMap_findingChecks _

/-- The places given out by all checks are those of the findings. -/
theorem placed_checks :
    placed (payload.checks analyzer) =
      (payload.findings analyzer).filterMap Finding.placed? := by
  unfold Payload.checks Payload.findings
  induction payload.toList with
  | nil => rfl
  | cons e es ih =>
    rw [List.flatMap_cons, List.flatMap_cons, placed_append, List.filterMap_append, ih,
      placed_entryChecks]

theorem key_mem_entryChecks {e : String × Entry} {package : String} {entry : Entry} :
    .key package (some entry) ∈ entryChecks analyzer e ↔
      e = (package, entry) ∧ entry.get? analyzer = none := by
  unfold entryChecks
  split
  · rename_i hg
    simp only [List.mem_singleton, Check.key.injEq, Option.some.injEq]
    constructor
    · rintro ⟨rfl, rfl⟩
      exact ⟨rfl, hg⟩
    · rintro ⟨rfl, -⟩
      exact ⟨rfl, rfl⟩
  · rename_i hg
    simp only [List.mem_cons, Check.key.injEq, reduceCtorEq, and_false,
      List.mem_flatMap, findingChecks, List.mem_map, exists_false, or_self, false_iff, not_and]
    rintro rfl hn
    rw [hn] at hg
    cases hg

theorem posn_mem_entryChecks {e : String × Entry} {d : Finding} :
    .posn d ∈ entryChecks analyzer e ↔ d ∈ e.2.findings analyzer := by
  unfold entryChecks
  split
  · rename_i hg
    simp [Entry.findings, hg]
  · simp [findingChecks]

theorem key_mem_checks {package : String} {entry : Entry} :
    .key package (some entry) ∈ payload.checks analyzer ↔
      (package, entry) ∈ payload.toList ∧ entry.get? analyzer = none := by
  simp only [Payload.checks, List.mem_flatMap, key_mem_entryChecks]
  constructor
  · rintro ⟨e, he, rfl, hn⟩
    exact ⟨he, hn⟩
  · rintro ⟨he, hn⟩
    exact ⟨_, he, rfl, hn⟩

theorem posn_mem_checks {d : Finding} :
    .posn d ∈ payload.checks analyzer ↔ d ∈ payload.findings analyzer := by
  simp only [Payload.checks, Payload.findings, List.mem_flatMap, posn_mem_entryChecks]

end

/-- Checks pass iff no analyzer is missing, all positions can be read and no place is given out
twice. -/
theorem passed_iff {analyzer : String} {cs : List Check} :
    Passed analyzer cs ↔
      (∀ package entry, .key package (some entry) ∉ cs) ∧
      (∀ d, .posn d ∈ cs → ∃ p, Position.ofPosn d.posn = .ok p) ∧
      ((placed cs).map (·.1)).Nodup := by
  constructor
  · intro h
    refine ⟨fun package entry hm => ?_, fun d hm => ?_, ?_⟩
    · obtain ⟨earlier, later, hcs⟩ := List.append_of_mem hm
      exact h earlier _ later hcs _ (.lacking (Entry.rendered_iff.2 rfl))
    · obtain ⟨earlier, later, hcs⟩ := List.append_of_mem hm
      cases hp : Position.ofPosn d.posn with
      | error cause => exact absurd (.unreadable hp) (h earlier _ later hcs _)
      | ok p => exact ⟨p, rfl⟩
    · obtain ⟨m, hr⟩ := exists_run_of_passed h
      exact nodup_keys_of_perm (run_eq_ok hr).2
  · rintro ⟨hkeys, hposns, hplaces⟩ earlier c later rfl e he
    cases he with
    | @lacking package text entry => exact hkeys package entry (by simp)
    | @unreadable d cause h =>
      obtain ⟨p, hp⟩ := hposns d (by simp)
      rw [hp] at h
      cases h
    | @taken p existing message h =>
      have hearlier : (p, existing) ∈ placed earlier :=
        List.mem_of_mem_filter (h ▸ List.mem_singleton_self (p, existing))
      rw [placed_append, List.map_append] at hplaces
      refine (List.nodup_append.1 hplaces).2.2 p (List.mem_map_of_mem hearlier) p ?_ rfl
      simp [placed]

/-! ## What is collected -/

section
variable {ds : List Finding}

theorem mem_filterMap_placed {p : Position} {message : String} :
    (p, message) ∈ ds.filterMap Finding.placed? ↔
      ∃ d ∈ ds, Position.ofPosn d.posn = .ok p ∧ d.message = message := by
  rw [List.mem_filterMap]
  exact exists_congr fun d => and_congr_right fun _ => Finding.placed?_eq_some_iff

/-- Readable positions are given out once each iff they are pairwise different. -/
theorem nodup_places_iff (h : ∀ d ∈ ds, ∃ p, Position.ofPosn d.posn = .ok p) :
    ((ds.filterMap Finding.placed?).map (·.1)).Nodup ↔
      ds.Pairwise fun d d' => Position.ofPosn d.posn ≠ Position.ofPosn d'.posn := by
  rw [List.Nodup, List.pairwise_map, List.pairwise_filterMap]
  refine List.Pairwise.iff_of_mem fun {d d'} hd hd' => ?_
  obtain ⟨p, hp⟩ := h d hd
  obtain ⟨p', hp'⟩ := h d' hd'
  simp [Finding.placed?, hp, hp']

theorem length_filterMap_placed (h : ∀ d ∈ ds, ∃ p, Position.ofPosn d.posn = .ok p) :
    (ds.filterMap Finding.placed?).length = ds.length := by
  refine List.filterMap_length_eq_length.2 fun d hd => ?_
  obtain ⟨p, hp⟩ := h d hd
  simp [Finding.placed?, hp]

end

/-- **When a map is the result**: the analyzer is in every package, its positions can be read, and
the map holds its findings. -/
theorem ofPayload_eq_ok_iff {analyzer : String} {payload : Payload} {m : Diagnostics} :
    ofPayload analyzer payload = .ok m ↔
      (∀ e ∈ payload.toList, ∃ r, e.2.get? analyzer = some r) ∧
      (∀ d ∈ payload.findings analyzer, ∃ p, Position.ofPosn d.posn = .ok p) ∧
      m.toList.Perm ((payload.findings analyzer).filterMap Finding.placed?) := by
  have hkeys : (∀ package entry, .key package (some entry) ∉ payload.checks analyzer) ↔
      ∀ e ∈ payload.toList, ∃ r, e.2.get? analyzer = some r := by
    simp only [key_mem_checks, not_and, ← ne_eq, Option.ne_none_iff_exists']
    exact ⟨fun h e he => h e.1 e.2 he, fun h package entry he => h _ he⟩
  rw [ofPayload_eq_run, run_eq_ok_iff, passed_iff, hkeys, placed_checks]
  simp only [posn_mem_checks]
  constructor
  · rintro ⟨⟨hk, hp, -⟩, hm⟩
    exact ⟨hk, hp, hm⟩
  · rintro ⟨hk, hp, hm⟩
    exact ⟨⟨hk, hp, nodup_keys_of_perm hm⟩, hm⟩

/-- The messages of a result are those of the findings, at their positions. -/
theorem get?_of_ofPayload {analyzer : String} {payload : Payload} {m : Diagnostics}
    (h : ofPayload analyzer payload = .ok m) {p : Position} {message : String} :
    m.get? p = some message ↔
      ∃ d ∈ payload.findings analyzer, Position.ofPosn d.posn = .ok p ∧ d.message = message := by
  obtain ⟨-, -, hm⟩ := ofPayload_eq_ok_iff.1 h
  rw [SortedMap.get?_eq_some_iff, hm.mem_iff, mem_filterMap_placed]

/-- **Collecting loses nothing**: it succeeds iff the analyzer is in every package, all positions
can be read and no two findings of whatever packages are on one line; the result then has each
finding's message at its position, nothing else, and as many entries as there are findings. -/
theorem collects_exactly (analyzer : String) (payload : Payload) :
    ((∃ m, ofPayload analyzer payload = .ok m) ↔
      (∀ e ∈ payload.toList, ∃ r, e.2.get? analyzer = some r) ∧
      (∀ d ∈ payload.findings analyzer, ∃ p, Position.ofPosn d.posn = .ok p) ∧
      (payload.findings analyzer).Pairwise fun d d' =>
        Position.ofPosn d.posn ≠ Position.ofPosn d'.posn) ∧
    ∀ m, ofPayload analyzer payload = .ok m →
      (∀ p message, m.get? p = some message ↔
        ∃ d ∈ payload.findings analyzer, Position.ofPosn d.posn = .ok p ∧ d.message = message) ∧
      m.size = (payload.findings analyzer).length := by
  refine ⟨?_, fun m h => ?_⟩
  · constructor
    · rintro ⟨m, h⟩
      obtain ⟨hk, hp, hm⟩ := ofPayload_eq_ok_iff.1 h
      exact ⟨hk, hp, (nodup_places_iff hp).1 (nodup_keys_of_perm hm)⟩
    · rintro ⟨hk, hp, hd⟩
      have hnodup := (nodup_places_iff hp).2 hd
      exact ⟨_, ofPayload_eq_ok_iff.2 ⟨hk, hp, SortedMap.toList_ofList_perm hnodup⟩⟩
  · refine ⟨fun p message => get?_of_ofPayload h, ?_⟩
    obtain ⟨-, hp, hm⟩ := ofPayload_eq_ok_iff.1 h
    rw [SortedMap.size, hm.length_eq, length_filterMap_placed hp]

/-! ## The first failure -/

theorem ofPayload_eq_error_iff {analyzer : String} {payload : Payload} {e : Failure} :
    ofPayload analyzer payload = .error e ↔
      FirstFailure analyzer (payload.checks analyzer) e := by
  rw [ofPayload_eq_run, run_eq_error_iff]

/-- Checks that do not all pass decide the failure, whatever comes after them. -/
theorem FirstFailure.append {analyzer : String} {cs : List Check} {e : Failure}
    (h : FirstFailure analyzer cs e) (later : List Check) :
    FirstFailure analyzer (cs ++ later) e := by
  obtain ⟨earlier, c, rest, rfl, hpassed, hc⟩ := h
  exact ⟨earlier, c, rest ++ later, by simp, hpassed, hc⟩

theorem exists_firstFailure {analyzer : String} {cs : List Check} (h : ¬ Passed analyzer cs) :
    ∃ e, FirstFailure analyzer cs e := by
  cases hr : run analyzer ∅ cs with
  | ok m => exact absurd (run_eq_ok hr).1 h
  | error e => exact ⟨e, run_eq_error hr⟩

/-- **The failure is that of the first failing check.** Packages come in ascending order of the
bytes of their names, and checks after the first failing one have no influence. -/
theorem fails_as_first_failing_check (analyzer : String) (payload : Payload) :
    (payload.toList.map fun e => Utf8.encode e.1).Pairwise (· < ·) ∧
    (∀ e, ofPayload analyzer payload = .error e ↔
      FirstFailure analyzer (payload.checks analyzer) e) ∧
    ∀ (payload' : Payload) (shared later later' : List Check),
      payload.checks analyzer = shared ++ later → payload'.checks analyzer = shared ++ later' →
      ¬ Passed analyzer shared →
      ∃ e, ofPayload analyzer payload = .error e ∧ ofPayload analyzer payload' = .error e := by
  refine ⟨?_, fun e => ofPayload_eq_error_iff, ?_⟩
  · exact List.pairwise_map.2 (payload.ordered.imp Utf8.compare_eq_lt_iff.1)
  · intro payload' shared later later' h h' hshared
    obtain ⟨e, he⟩ := exists_firstFailure hshared
    refine ⟨e, ofPayload_eq_error_iff.2 ?_, ofPayload_eq_error_iff.2 ?_⟩
    · rw [h]
      exact he.append later
    · rw [h']
      exact he.append later'

/-- What other analyzers found in a package. -/
def lacking : Entry :=
  SortedMap.ofList [("m", some [⟨"a.go:1:1", "say \"hi\"\n"⟩, ⟨"", "é"⟩]), ("k", none)]

/-- Three packages. The second lacks an analyzer that the others have; in the third it has a
position that cannot be read. -/
def lackingSecond : Payload :=
  SortedMap.ofList
    [("c", SortedMap.ofList [("n", some [⟨"nowhere", ""⟩])]), ("b", lacking),
      ("a", SortedMap.ofList [("n", some [⟨"x.go:7:1", "m"⟩])])]

theorem fails_as_first_failing_check_lacking :
    let text := "\x7b\"k\": None, \"m\": Some([" ++
      "RawDiagnostic \x7b posn: \"a.go:1:1\", message: \"say \\\"hi\\\"\\n\" \x7d, " ++
      "RawDiagnostic \x7b posn: \"\", message: \"é\" \x7d])\x7d"
    ofPayload "n" lackingSecond = .error (.schema "n" "b" text) ∧
      FirstFailure "n" (lackingSecond.checks "n") (.schema "n" "b" text) ∧
      lacking.Rendered text := by
  intro text
  have hshown : text = lacking.shown := by decide +kernel
  have h : ofPayload "n" lackingSecond = .error (.schema "n" "b" text) := by
    rw [hshown]
    rfl
  exact ⟨h, ((fails_as_first_failing_check "n" lackingSecond).2.1 _).1 h,
    Entry.rendered_iff.2 hshown⟩

end Findings.Diagnostics
