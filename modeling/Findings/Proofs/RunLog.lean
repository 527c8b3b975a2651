import Findings.Proofs.Payload.Document
import Findings.Proofs.Stages
import Mathlib.Algebra.GroupWithZero.Nat

/-!
# The log of a run

What a run logs tells what it did: `Run.Mirrors` says which entries stand there for each outcome of
an invocation and each way in which collecting can end. A run that fails has logged the packages up
to the one in which it failed, that one too unless it lacks the analyzer; a run that succeeds has
logged all of them, then twice how many diagnostics there are, which is the sum of the counts and
the size of the result. Of several runs each logs what its own invocation comes to and nothing else
(`Run.log_mirrors_work`).

Route. A package whose checks pass is logged with its count and leaves the next map
(`Diagnostics.addEntries_cons`), so the packages in front of any place are logged one by one
(`Diagnostics.addEntries_append`). What follows depends on the package at that place.
-/

set_option autoImplicit false

namespace Findings

open Json

/-! ## Entries of the log -/

namespace Diagnostics

/-- How many packages there are. -/
def packagesEntry (n : Nat) : LogEntry :=
  ⟨.debug, "normalizing " ++ toString n ++ " package entries"⟩

/-- How many findings of the analyzer a package has. -/
def countEntry (analyzer : String) (e : String × Entry) : LogEntry :=
  ⟨.trace, e.1 ++ ": " ++ toString (e.2.findings analyzer).length ++ " diagnostics"⟩

/-- How many diagnostics were collected. -/
def collectedEntry (n : Nat) : LogEntry :=
  ⟨.debug, "collected " ++ toString n ++ " diagnostics"⟩

/-- The same, with the directory of the run. -/
def resultEntry (n : Nat) (directory : String) : LogEntry :=
  ⟨.info, toString n ++ " diagnostics collected from " ++ directory⟩

end Diagnostics

/-- The packages that a raw output writes, as they are gone through: in ascending order of the bytes
of their names, of which `n` are different. -/
structure Document.Listed (raw : Bytes) (n : Nat) (es : List (String × Entry)) : Prop where
  written : ∃ doc : Document,
    doc.WrittenIn raw ∧ n = (doc.map (·.1)).dedup.length ∧ doc.payload.toList = es
  ascending : (es.map fun e => Utf8.encode e.1).Pairwise (· < ·)

namespace Run

open Diagnostics

/-- `Mirrors analyzer directory outcome result log`: from what an invocation comes to, a run in the
directory makes the result, and logs these entries on the way. -/
inductive Mirrors (analyzer directory : String) :
    Except Failure Bytes → Except Failure Diagnostics → List LogEntry → Prop
  | noOutput (f : Failure) : Mirrors analyzer directory (.error f) (.error f) []
  | noPayload {raw : Bytes} {cause : ReadError} (h : Payload.decode raw = .error cause) :
      Mirrors analyzer directory (.ok raw) (.error (.decode cause (Utf8.lossy raw))) []
  /-- The checks on the packages in front pass, but the next one lacks the analyzer. -/
  | lacking {raw : Bytes} {n : Nat} {before after : List (String × Entry)} {x : String × Entry}
      {text : String} (h : Document.Listed raw n (before ++ x :: after))
      (hbefore : Passed analyzer (before.flatMap (entryChecks analyzer)))
      (hx : x.2.get? analyzer = none) (htext : x.2.Rendered text) :
      Mirrors analyzer directory (.ok raw) (.error (.schema analyzer x.1 text))
        (packagesEntry n :: before.map (countEntry analyzer))
  /-- The checks on the packages in front pass, but one on a finding of the next does not. -/
  | failing {raw : Bytes} {n : Nat} {before after : List (String × Entry)} {x : String × Entry}
      {f : Failure} (h : Document.Listed raw n (before ++ x :: after))
      (hbefore : Passed analyzer (before.flatMap (entryChecks analyzer)))
      (hx : x.2.get? analyzer ≠ none)
      (hf : FirstFailure analyzer ((before ++ [x]).flatMap (entryChecks analyzer)) f) :
      Mirrors analyzer directory (.ok raw) (.error f)
        (packagesEntry n :: (before ++ [x]).map (countEntry analyzer))
  | collected {raw : Bytes} {n total : Nat} {es : List (String × Entry)} {m : Diagnostics}
      (h : Document.Listed raw n es) (hm : ofBytes analyzer raw = .ok m)
      (hsum : total = (es.map fun e => (e.2.findings analyzer).length).sum)
      (hsize : total = m.size) :
      Mirrors analyzer directory (.ok raw) (.ok m)
        (packagesEntry n :: es.map (countEntry analyzer) ++
          [collectedEntry total, resultEntry total directory])

/-- The run `c` continues its invocation `i`: it leaves the same state, and makes its result and its
own entries of the log from what the invocation comes to. -/
structure Continues {σ : Type} (analyzer : String) (i : String × Completed σ (Except Failure Bytes))
    (c : String × Completed σ (Except Failure Diagnostics)) : Prop where
  directory : c.1 = i.1
  state : c.2.state = i.2.state
  logged : ∃ log, c.2.logged = i.2.logged ++ log ∧
    Mirrors analyzer i.1 i.2.value c.2.value log

end Run

/-! ## Packages -/

theorem Document.size_payload (doc : Document) :
    doc.payload.size = (doc.map (·.1)).dedup.length := by
  rw [payload, SortedMap.size_ofList, List.map_map]
  rfl

theorem Document.WrittenIn.listed {doc : Document} {raw : Bytes} (h : doc.WrittenIn raw) :
    Listed raw doc.payload.size doc.payload.toList :=
  ⟨⟨doc, h, doc.size_payload, rfl⟩,
    List.pairwise_map.2 (doc.payload.ordered.imp Utf8.compare_eq_lt_iff.1)⟩

namespace Diagnostics

variable {analyzer : String} {m m' : Diagnostics} {e x : String × Entry}
  {before after rest : List (String × Entry)} {payload : Payload} {f : Failure}

/-- A package that has the analyzer is logged with the number of its findings. -/
theorem addEntry_of_get? (h : e.2.get? analyzer ≠ none) :
    addEntry analyzer m e =
      ⟨(e.2.findings analyzer).foldlM add m, [countEntry analyzer e]⟩ := by
  obtain ⟨r, hr⟩ := Option.ne_none_iff_exists'.1 h
  rw [addEntry, hr, countEntry, Entry.findings_of_get? hr]

theorem addEntry_of_lacking (h : e.2.get? analyzer = none) :
    addEntry analyzer m e = ⟨.error (.schema analyzer e.1 e.2.shown), []⟩ := by
  rw [addEntry, h]

theorem get?_ne_none_of_addEntry (h : (addEntry analyzer m e).result = .ok m') :
    e.2.get? analyzer ≠ none := by
  intro hnone
  rw [addEntry_of_lacking hnone] at h
  cases h

theorem addEntries_cons (h : (addEntry analyzer m e).result = .ok m') :
    addEntries analyzer m (e :: rest) =
      ⟨(addEntries analyzer m' rest).result,
        countEntry analyzer e :: (addEntries analyzer m' rest).logged⟩ := by
  have he := addEntry_of_get? (m := m) (get?_ne_none_of_addEntry h)
  rw [he] at h
  rw [addEntries, he, Collected.andThen, h]
  rfl

/-- A package that cannot be added is the last. -/
theorem addEntries_of_failing (h : (addEntry analyzer m x).result = .error f) :
    addEntries analyzer m (x :: after) = addEntry analyzer m x := by
  rw [addEntries, Collected.andThen, h]

theorem addEntries_append (h : (addEntries analyzer m before).result = .ok m') :
    addEntries analyzer m (before ++ rest) =
      ⟨(addEntries analyzer m' rest).result,
        before.map (countEntry analyzer) ++ (addEntries analyzer m' rest).logged⟩ := by
  induction before generalizing m with
  | nil => cases h; rfl
  | cons e es ih =>
    cases he : (addEntry analyzer m e).result with
    | error f =>
      rw [addEntries_of_failing he, he] at h
      cases h
    | ok m₁ =>
      rw [addEntries_cons he] at h
      rw [List.cons_append, addEntries_cons he, ih h, List.map_cons, List.cons_append]

/-! ## The package at which collecting fails -/

theorem passed_iff_addEntries : Passed analyzer (before.flatMap (entryChecks analyzer)) ↔
    ∃ m, (addEntries analyzer ∅ before).result = .ok m := by
  simp only [← run_flatMap_entryChecks]
  exact ⟨exists_run_of_passed, fun ⟨_, hm⟩ => (run_eq_ok hm).1⟩

/-- The first failing check is one of the next package just if that package cannot be added. -/
theorem firstFailure_iff_addEntry (h : (addEntries analyzer ∅ before).result = .ok m) :
    FirstFailure analyzer ((before ++ [x]).flatMap (entryChecks analyzer)) f ↔
      (addEntry analyzer m x).result = .error f := by
  rw [← run_flatMap_entryChecks] at h
  rw [← run_eq_error_iff, List.flatMap_append, run_append, h, List.flatMap_singleton]
  show run analyzer m (entryChecks analyzer x) = _ ↔ _
  rw [run_entryChecks]

/-- Where packages cannot all be added, there is a first that cannot. -/
theorem exists_failing_package {es : List (String × Entry)}
    (h : (addEntries analyzer m es).result = .error f) :
    ∃ before x after m', es = before ++ x :: after ∧
      (addEntries analyzer m before).result = .ok m' ∧
      (addEntry analyzer m' x).result = .error f := by
  induction es generalizing m with
  | nil => cases h
  | cons e es ih =>
    cases he : (addEntry analyzer m e).result with
    | error f' =>
      rw [addEntries_of_failing he, he] at h
      cases h
      exact ⟨[], e, es, m, rfl, rfl, he⟩
    | ok m₁ =>
      rw [addEntries_cons he] at h
      obtain ⟨before, x, after, m', rfl, hbefore, hx⟩ := ih h
      refine ⟨e :: before, x, after, m', rfl, ?_, hx⟩
      rw [addEntries_cons he]
      exact hbefore

theorem collect_of_failing (hes : payload.toList = before ++ x :: after)
    (hbefore : (addEntries analyzer ∅ before).result = .ok m)
    (hx : (addEntry analyzer m x).result = .error f) :
    collect analyzer payload =
      ⟨.error f, packagesEntry payload.size ::
        (before.map (countEntry analyzer) ++ (addEntry analyzer m x).logged)⟩ := by
  unfold collect
  rw [hes, addEntries_append hbefore, addEntries_of_failing hx, hx]
  rfl

theorem collect_of_ok (h : ofPayload analyzer payload = .ok m) :
    collect analyzer payload =
      ⟨.ok m, packagesEntry payload.size ::
        (payload.toList.map (countEntry analyzer) ++ [collectedEntry m.size])⟩ := by
  have hall : addEntries analyzer ∅ (payload.toList ++ []) = _ := addEntries_append h
  rw [List.append_nil] at hall
  unfold collect
  rw [hall]
  rfl

/-- The counts of the packages add up to the size of the result. -/
theorem sum_counts (h : ofPayload analyzer payload = .ok m) :
    (payload.toList.map fun e => (e.2.findings analyzer).length).sum = m.size := by
  obtain ⟨-, hposn, hm⟩ := ofPayload_eq_ok_iff.1 h
  rw [SortedMap.size, hm.length_eq, length_filterMap_placed hposn, Payload.findings,
    List.length_flatMap]

end Diagnostics

/-! ## Runs -/

namespace Run

open Diagnostics

variable {analyzer directory : String} {outcome : Except Failure Bytes}
  {result : Except Failure Diagnostics} {log : List LogEntry}

/-- What a run logs once its invocation has come to something. -/
def workLog (analyzer directory : String) : Except Failure Bytes → List LogEntry
  | .error _ => []
  | .ok raw =>
    (collectBytes analyzer raw).logged ++
      match (collectBytes analyzer raw).result with
      | .error _ => []
      | .ok m => [resultEntry m.size directory]

theorem workLog_of_error {raw : Bytes} {f : Failure}
    (h : collectBytes analyzer raw = ⟨.error f, log⟩) :
    workLog analyzer directory (.ok raw) = log := by
  rw [workLog, h, List.append_nil]

theorem workLog_of_ok {raw : Bytes} {m : Diagnostics}
    (h : collectBytes analyzer raw = ⟨.ok m, log⟩) :
    workLog analyzer directory (.ok raw) = log ++ [resultEntry m.size directory] := by
  rw [workLog, h]

theorem logged_collect {σ : Type} (host : Host σ) (s : σ)
    (source : Session (Except Failure Bytes)) (analyzer directory : String) :
    ((collect source analyzer directory).run host s).logged =
      (source.run host s).logged ++ workLog analyzer directory (source.run host s).value := by
  unfold collect
  rw [Session.logged_bind]
  cases (source.run host s).value with
  | error f => rfl
  | ok raw =>
    simp only [Session.logged_bind, Session.run_logAll, workLog]
    cases (collectBytes analyzer raw).result with
    | error f => rfl
    | ok m => rfl

theorem state_collect {σ : Type} (host : Host σ) (s : σ)
    (source : Session (Except Failure Bytes)) (analyzer directory : String) :
    ((collect source analyzer directory).run host s).state = (source.run host s).state := by
  unfold collect
  rw [Session.state_bind]
  cases (source.run host s).value with
  | error f => rfl
  | ok raw =>
    simp only [Session.state_bind, Session.run_logAll]
    cases (collectBytes analyzer raw).result <;> rfl

/-- A run makes the result and logs the entries that are described. -/
theorem Mirrors.eq (h : Mirrors analyzer directory outcome result log) :
    result = outcome.bind (ofBytes analyzer) ∧ log = workLog analyzer directory outcome := by
  cases h with
  | noOutput f => exact ⟨rfl, rfl⟩
  | @noPayload raw cause h =>
    have hc : collectBytes analyzer raw = ⟨.error (.decode cause (Utf8.lossy raw)), []⟩ := by
      rw [collectBytes, h]
    rw [workLog_of_error hc]
    exact ⟨(congrArg Collected.result hc).symm, rfl⟩
  | lacking h hbefore hx htext =>
    obtain ⟨doc, hdoc, rfl, hes⟩ := h.written
    obtain ⟨m, hm⟩ := passed_iff_addEntries.1 hbefore
    obtain rfl := Entry.rendered_iff.1 htext
    have hadd := addEntry_of_lacking (m := m) hx
    have hc := (collectBytes_of_written hdoc).trans (collect_of_failing hes hm (by rw [hadd]))
    rw [workLog_of_error hc, hadd, List.append_nil, doc.size_payload]
    exact ⟨(congrArg Collected.result hc).symm, rfl⟩
  | failing h hbefore hx hf =>
    obtain ⟨doc, hdoc, rfl, hes⟩ := h.written
    obtain ⟨m, hm⟩ := passed_iff_addEntries.1 hbefore
    have hc := (collectBytes_of_written hdoc).trans
      (collect_of_failing hes hm ((firstFailure_iff_addEntry hm).1 hf))
    rw [workLog_of_error hc, addEntry_of_get? hx, List.map_append, doc.size_payload]
    exact ⟨(congrArg Collected.result hc).symm, rfl⟩
  | collected h hm hsum hsize =>
    obtain ⟨doc, hdoc, rfl, rfl⟩ := h.written
    have hc := (collectBytes_of_written hdoc).trans
      (collect_of_ok ((ofBytes_of_written hdoc).symm.trans hm))
    rw [workLog_of_ok hc, doc.size_payload, hsize]
    exact ⟨hm.symm, by simp⟩

theorem exists_mirrors (analyzer directory : String) (outcome : Except Failure Bytes) :
    ∃ result log, Mirrors analyzer directory outcome result log := by
  cases outcome with
  | error f => exact ⟨_, _, .noOutput f⟩
  | ok raw =>
    cases hdecode : Payload.decode raw with
    | error cause => exact ⟨_, _, .noPayload hdecode⟩
    | ok payload =>
      obtain ⟨doc, hdoc, rfl⟩ := Payload.decode_eq_ok_iff.1 hdecode
      cases hresult : ofPayload analyzer doc.payload with
      | ok m =>
        exact ⟨_, _, .collected hdoc.listed ((ofBytes_of_written hdoc).trans hresult) rfl
          (sum_counts hresult)⟩
      | error f =>
        obtain ⟨before, x, after, m, hes, hbefore, hx⟩ := exists_failing_package hresult
        have hlisted := hdoc.listed
        rw [hes] at hlisted
        have hpassed := passed_iff_addEntries.2 ⟨m, hbefore⟩
        by_cases hkey : x.2.get? analyzer = none
        · exact ⟨_, _, .lacking hlisted hpassed hkey (Entry.rendered_iff.2 rfl)⟩
        · exact ⟨_, _, .failing hlisted hpassed hkey ((firstFailure_iff_addEntry hbefore).2 hx)⟩

theorem continues_collect {σ : Type} (host : Host σ) (s : σ)
    (invoke : String → Session (Except Failure Bytes)) (analyzer directory : String) :
    Continues analyzer (directory, (invoke directory).run host s)
      (directory, (collect (invoke directory) analyzer directory).run host s) := by
  obtain ⟨result, log, h⟩ := exists_mirrors analyzer directory ((invoke directory).run host s).value
  obtain ⟨rfl, rfl⟩ := h.eq
  refine ⟨rfl, state_collect .., _, logged_collect .., ?_⟩
  rw [value_collect]
  exact h

/-- Runs in a row leave the states that their invocations alone would leave, so each continues the
invocation that it would continue. -/
theorem continues_runEach {σ : Type} (host : Host σ) (start : σ)
    (invoke : String → Session (Except Failure Bytes)) (analyzer : String)
    (directories : List String) :
    List.Forall₂ (Continues analyzer) (Session.runEach host invoke directories start)
      (Session.runEach host (fun d => collect (invoke d) analyzer d) directories start) := by
  induction directories generalizing start with
  | nil => exact .nil
  | cons directory directories ih =>
    refine .cons (continues_collect host start invoke analyzer directory) ?_
    rw [state_collect]
    exact ih _

/-- **The log of a run mirrors its work.** What an invocation comes to has one result and one log,
as described by `Mirrors`. Of runs one after the other, in any surroundings and with whatever
invocations, each has the result and the log of what its own invocation comes to; the runs before it
count for nothing else. -/
theorem log_mirrors_work (analyzer : String) :
    (∀ directory outcome, ∃! r : Except Failure Diagnostics × List LogEntry,
      Mirrors analyzer directory outcome r.1 r.2) ∧
    ∀ (σ : Type) (host : Host σ) (invoke : String → Session (Except Failure Bytes))
      (directories : List String) (start : σ),
      List.Forall₂ (Continues analyzer) (Session.runEach host invoke directories start)
        (Session.runEach host (fun d => collect (invoke d) analyzer d) directories start) := by
  refine ⟨fun directory outcome => ?_, fun σ host invoke directories start => ?_⟩
  · obtain ⟨result, log, h⟩ := exists_mirrors analyzer directory outcome
    refine ⟨(result, log), h, fun r hr => ?_⟩
    rw [Prod.ext_iff, hr.eq.1, hr.eq.2, h.eq.1, h.eq.2]
    exact ⟨rfl, rfl⟩
  · exact continues_runEach host start invoke analyzer directories

/-- A package is counted before its second finding is refused, and those behind it are not. -/
example :
    (Diagnostics.collect "n" (SortedMap.ofList
      [("c", SortedMap.ofList [("n", some [])]), ("a", SortedMap.ofList [("n", none)]),
        ("b", SortedMap.ofList
          [("n", some [⟨"x.go:7:1", "first"⟩, ⟨"x.go:7:2", "second"⟩])])])).logged =
      [⟨.debug, "normalizing 3 package entries"⟩, ⟨.trace, "a: 0 diagnostics"⟩,
        ⟨.trace, "b: 2 diagnostics"⟩] := rfl

end Run

end Findings
