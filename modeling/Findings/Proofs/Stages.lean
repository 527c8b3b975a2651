import Findings.Proofs.Session
import Findings.Run

/-!
# The stages of a run

What `Run.collectLive` does in any surroundings, whatever their state and their answers: `Course`
says which processes are started, in which state, and what the result is. The build comes first. If
it does not end well it is the only process (`Course.buildBreaks`), so an analyzer that is out of
date never runs. Otherwise the analyzer is looked up in the state that the build left, and started
once. Every run takes such a course and no other, after any earlier session too (`exists_course`,
`Course.run_eq`).
-/

set_option autoImplicit false

namespace Findings

/-- No process is started to find out which program to start. -/
theorem Analyzer.started_resolve {σ : Type} (host : Host σ) (tool directory : String) (s : σ) :
    (Analyzer.resolve tool directory).started host s = [] := by
  have hfirst (l : List String) (s : σ) : (firstExecutable l).started host s = [] := by
    induction l generalizing s with
    | nil => rfl
    | cons path rest ih =>
      rw [firstExecutable, Session.started_bind]
      split
      · rfl
      · exact ih _
  unfold resolve
  split
  · rfl
  split
  · unfold makeAbsolute
    split
    · rfl
    rw [Session.started_bind]
    split <;> rfl
  · unfold search
    rw [Session.started_bind]
    split
    · rfl
    · rw [Session.started_bind, Session.started_bind, hfirst]
      rfl

namespace Run

variable {σ : Type} {host : Host σ}

/-! ## How a process ends -/

/-- The process does not end well: it does not start, or its exit is no success. The failure is told
with all that it wrote. -/
inductive Breaks (c : Command) : Except SystemError Ended → ProcessError → List UInt8 → Prop
  | notStarted {cause : SystemError} :
      Breaks c (.error cause) (.notStarted (shownWord c.program) cause) []
  | failed {e : Ended} (h : e.status ≠ .exited 0) :
      Breaks c (.ok e) (.failed (shownWord c.program) e.status) (e.stdout ++ e.stderr)

/-- The process, started in the state `s`, ends well and leaves the state `s'`. -/
structure Succeeds (host : Host σ) (c : Command) (s : σ) (e : Ended) (s' : σ) : Prop where
  answer : host.answer (.process c) s = (.ok e, s')
  status : e.status = .exited 0

section
variable {c : Command} {s s' : σ} {e : Ended} {cause : ProcessError} {output : List UInt8}

theorem asked_capture : (capture c).asked host s = [(s, .process c)] := rfl

theorem value_capture : ((capture c).run host s).value =
    captured (shownWord c.program) (host.answer (.process c) s).1 := rfl

theorem state_capture : ((capture c).run host s).state = (host.answer (.process c) s).2 := rfl

theorem Breaks.value_capture (h : Breaks c (host.answer (.process c) s).1 cause output) :
    ((capture c).run host s).value = .error ⟨cause, output⟩ := by
  rw [Run.value_capture]
  generalize (host.answer (.process c) s).1 = answer at h
  cases h with
  | notStarted => rfl
  | failed h => simp [captured, ExitStatus.isSuccess, h]

theorem Succeeds.value_capture (h : Succeeds host c s e s') :
    ((capture c).run host s).value = .ok (e.stdout ++ e.stderr) := by
  rw [Run.value_capture, h.answer]
  simp [captured, ExitStatus.isSuccess, h.status]

theorem Succeeds.state_capture (h : Succeeds host c s e s') :
    ((capture c).run host s).state = s' := by
  rw [Run.state_capture, h.answer]

/-- There is no third way to end. -/
theorem breaks_or_succeeds (host : Host σ) (c : Command) (s : σ) :
    (∃ cause output, Breaks c (host.answer (.process c) s).1 cause output) ∨
      ∃ e s', Succeeds host c s e s' := by
  cases ha : (host.answer (.process c) s).1 with
  | error cause => exact .inl ⟨_, _, .notStarted⟩
  | ok e =>
    by_cases he : e.status = .exited 0
    · exact .inr ⟨e, _, Prod.ext ha rfl, he⟩
    · exact .inl ⟨_, _, .failed he⟩

end

/-! ## The commands -/

/-- The command rebuilds the analyzer: it has the words of the settings, in the directory of the
build. -/
structure Builds (s : Settings) (c : Command) : Prop where
  words : s.buildCommand = c.program :: c.arguments
  directory : c.directory = s.buildDirectory

/-- The command runs the analyzer: its program is what the tool of the settings is in the state
`built`, and looking it up leaves the state `ready`. -/
structure Analyzes (host : Host σ) (s : Settings) (directory : String) (built : σ) (c : Command)
    (ready : σ) : Prop where
  program : ((Analyzer.resolve s.tool directory).run host built).value = c.program
  state : ((Analyzer.resolve s.tool directory).run host built).state = ready
  arguments : c.arguments =
    ["-json", "-pretty-print=false", "-group-error-messages=false"] ++ s.extraArguments ++ ["./..."]
  directory : c.directory = some directory

theorem exists_analyzes (host : Host σ) (s : Settings) (directory : String) (built : σ) :
    ∃ c ready, Analyzes host s directory built c ready :=
  ⟨⟨_, _, _⟩, _, rfl, rfl, rfl, rfl⟩

/-- The processes of a run that begins in the state `start`, and its result. -/
inductive Course (host : Host σ) (s : Settings) (directory : String) (start : σ) :
    List (σ × Command) → Except Failure Diagnostics → Prop
  | nothingToBuild (h : s.buildCommand = []) :
      Course host s directory start []
        (.error (.build (.notStarted "" (.other "empty build command")) ""))
  | buildBreaks {build : Command} {cause : ProcessError} {output : List UInt8}
      (hbuild : Builds s build)
      (h : Breaks build (host.answer (.process build) start).1 cause output) :
      Course host s directory start [(start, build)] (.error (.build cause (Utf8.lossy output)))
  | toolBreaks {build tool : Command} {e : Ended} {built ready : σ} {cause : ProcessError}
      {output : List UInt8} (hbuild : Builds s build) (hbuilt : Succeeds host build start e built)
      (htool : Analyzes host s directory built tool ready)
      (h : Breaks tool (host.answer (.process tool) ready).1 cause output) :
      Course host s directory start [(start, build), (ready, tool)]
        (.error (.invocation cause (Utf8.lossy output)))
  | collects {build tool : Command} {e e' : Ended} {built ready last : σ}
      (hbuild : Builds s build) (hbuilt : Succeeds host build start e built)
      (htool : Analyzes host s directory built tool ready)
      (h : Succeeds host tool ready e' last) :
      Course host s directory start [(start, build), (ready, tool)]
        (Diagnostics.ofBytes s.analyzer (e'.stdout ++ e'.stderr))

/-! ## The build -/

section
variable {st : Settings} {directory : String} {start built ready last s : σ} {build tool : Command}
  {e : Ended} {cause : ProcessError} {output : List UInt8}

theorem asked_debug (text : String) : (debug text).asked host s = [] := rfl

theorem state_debug (text : String) : ((debug text).run host s).state = s := rfl

/-- The build says what it is going to start, starts it, and looks at how it ended. -/
theorem build_eq (h : Builds st build) :
    Run.build st = (do
      debug ("building analyzer: " ++ build.shown)
      match ← capture build with
      | .ok _ => return .ok ()
      | .error e => return .error (.build e.error (Utf8.lossy e.output))) := by
  obtain ⟨program, arguments, dir⟩ := build
  obtain ⟨hwords, rfl⟩ := h
  obtain ⟨words, _, _, _, _⟩ := st
  obtain rfl : words = program :: arguments := hwords
  rfl

theorem asked_build (h : Builds st build) :
    (Run.build st).asked host start = [(start, .process build)] := by
  rw [build_eq h]
  simp only [Session.asked_bind, asked_debug, state_debug, asked_capture, List.nil_append]
  split <;> rfl

theorem value_build_of_breaks (h : Builds st build)
    (hb : Breaks build (host.answer (.process build) start).1 cause output) :
    ((Run.build st).run host start).value = .error (.build cause (Utf8.lossy output)) := by
  rw [build_eq h, Session.value_bind, Session.value_bind, state_debug, hb.value_capture]
  rfl

theorem value_build_of_succeeds (h : Builds st build) (hs : Succeeds host build start e built) :
    ((Run.build st).run host start).value = .ok () := by
  rw [build_eq h, Session.value_bind, Session.value_bind, state_debug, hs.value_capture]
  rfl

theorem state_build_of_succeeds (h : Builds st build) (hs : Succeeds host build start e built) :
    ((Run.build st).run host start).state = built := by
  rw [build_eq h, Session.state_bind, Session.state_bind, state_debug, hs.value_capture,
    hs.state_capture]
  rfl

/-! ## The analyzer -/

theorem standalone_command (extra : List String) (program directory : String) :
    (Analyzer.Arguments.standalone.addExtra extra).command program directory =
      ⟨program,
        ["-json", "-pretty-print=false", "-group-error-messages=false"] ++ extra ++ ["./..."],
        some directory⟩ := rfl

/-- The analyzer is looked up, then started. -/
theorem asked_invoke (h : Analyzes host st directory built tool ready) :
    (invoke st directory).asked host built =
      (Analyzer.resolve st.tool directory).asked host built ++ [(ready, .process tool)] := by
  obtain ⟨program, arguments, dir⟩ := tool
  obtain ⟨rfl, rfl, rfl, rfl⟩ := h
  simp only [invoke, Session.asked_bind, asked_debug, state_debug, asked_capture, List.nil_append]
  split <;> rfl

/-- What the analyzer wrote, or how it broke. -/
theorem value_invoke (h : Analyzes host st directory built tool ready) :
    ((invoke st directory).run host built).value =
      ((capture tool).run host ready).value.mapError
        fun e => .invocation e.error (Utf8.lossy e.output) := by
  obtain ⟨program, arguments, dir⟩ := tool
  obtain ⟨rfl, rfl, rfl, rfl⟩ := h
  simp only [invoke, Session.value_bind, state_debug, standalone_command]
  split
  next h => rw [h]; rfl
  next h => rw [h]; rfl

/-! ## Collecting -/

/-- Collecting asks nothing of its own. -/
theorem asked_collect (source : Session (Except Failure (List UInt8)))
    (analyzer directory : String) :
    (collect source analyzer directory).asked host s = source.asked host s := by
  unfold collect
  rw [Session.asked_bind]
  cases (source.run host s).value with
  | error e => exact List.append_nil _
  | ok raw =>
    simp only [Session.asked_bind, Session.asked_logAll, List.nil_append]
    cases (Diagnostics.collectBytes analyzer raw).result with
    | error e => exact List.append_nil _
    | ok m => exact List.append_nil _

/-- What is collected is what the output holds. -/
theorem value_collect (source : Session (Except Failure (List UInt8)))
    (analyzer directory : String) :
    ((collect source analyzer directory).run host s).value =
      (source.run host s).value.bind (Diagnostics.ofBytes analyzer) := by
  unfold collect
  rw [Session.value_bind]
  cases (source.run host s).value with
  | error e => rfl
  | ok raw =>
    simp only [Session.value_bind, Except.bind, Diagnostics.ofBytes]
    cases (Diagnostics.collectBytes analyzer raw).result with
    | error e => rfl
    | ok m => rfl

/-! ## Whole runs -/

/-- The requests of a run that starts these processes: the analyzer is looked up in the state that
the build leaves. -/
def requests (host : Host σ) (st : Settings) (directory : String) :
    List (σ × Command) → List (σ × Request)
  | [] => []
  | [(start, build)] => [(start, .process build)]
  | (start, build) :: (ready, tool) :: _ =>
    (start, .process build) ::
      ((Analyzer.resolve st.tool directory).asked host (host.answer (.process build) start).2 ++
        [(ready, .process tool)])

/-- A run whose build does not end well ends there. -/
theorem collectLive_of_build_error {f : Failure}
    (h : ((Run.build st).run host start).value = .error f) :
    (collectLive st directory).asked host start = (Run.build st).asked host start ∧
      ((collectLive st directory).run host start).value = .error f := by
  rw [collectLive, asked_collect, value_collect, live, Session.asked_bind, Session.value_bind, h]
  exact ⟨List.append_nil _, rfl⟩

/-- After a build that ended well, what the analyzer does is the result. -/
theorem collectLive_of_built (hbuild : Builds st build) (hs : Succeeds host build start e built)
    (htool : Analyzes host st directory built tool ready) :
    (collectLive st directory).asked host start =
        requests host st directory [(start, build), (ready, tool)] ∧
      ((collectLive st directory).run host start).value =
        (((capture tool).run host ready).value.mapError fun e =>
          .invocation e.error (Utf8.lossy e.output)).bind (Diagnostics.ofBytes st.analyzer) := by
  rw [collectLive, asked_collect, value_collect, live, Session.asked_bind, Session.value_bind,
    asked_build hbuild, value_build_of_succeeds hbuild hs, state_build_of_succeeds hbuild hs,
    ← value_invoke htool, requests, hs.answer]
  exact ⟨congrArg _ (asked_invoke htool), rfl⟩

/-- A run with a build command starts it first. -/
theorem exists_started_collectLive (h : Builds st build) :
    ∃ rest, (collectLive st directory).started host start = (start, build) :: rest := by
  rw [Session.started, collectLive, asked_collect, live, Session.asked_bind, asked_build h]
  exact ⟨_, rfl⟩

section
variable {l : List (σ × Command)} {r : Except Failure Diagnostics}

/-- A run takes the course that is described, with the requests that belong to it. -/
theorem Course.asked_eq (h : Course host st directory start l r) :
    (collectLive st directory).asked host start = requests host st directory l ∧
      ((collectLive st directory).run host start).value = r := by
  cases h with
  | nothingToBuild h =>
    have hbuild : Run.build st =
        pure (.error (.build (.notStarted "" (.other "empty build command")) "")) := by
      rw [Run.build, h]
    have hasked : (Run.build st).asked host start = requests host st directory [] := by
      rw [hbuild]
      rfl
    rw [← hasked]
    apply collectLive_of_build_error
    rw [hbuild]
    rfl
  | buildBreaks hbuild hb =>
    rw [requests, ← asked_build hbuild]
    exact collectLive_of_build_error (value_build_of_breaks hbuild hb)
  | toolBreaks hbuild hs htool hb =>
    obtain ⟨hasked, hvalue⟩ := collectLive_of_built hbuild hs htool
    rw [hb.value_capture] at hvalue
    exact ⟨hasked, hvalue⟩
  | collects hbuild hs htool hs' =>
    obtain ⟨hasked, hvalue⟩ := collectLive_of_built hbuild hs htool
    rw [hs'.value_capture] at hvalue
    exact ⟨hasked, hvalue⟩

/-- Among these requests only the processes start anything. -/
theorem started_of_asked_eq_requests {α : Type} {x : Session α} (hl : l.length ≤ 2)
    (h : x.asked host start = requests host st directory l) : x.started host start = l := by
  rw [Session.started, h]
  rcases l with _ | ⟨⟨start, build⟩, _ | ⟨⟨ready, tool⟩, _ | ⟨_, rest⟩⟩⟩
  · rfl
  · rfl
  · have hlookup := Analyzer.started_resolve host st.tool directory
      (host.answer (.process build) start).2
    rw [Session.started] at hlookup
    simp only [requests, List.filterMap_cons, List.filterMap_append, hlookup]
    rfl
  · simp at hl

theorem Course.length_le (h : Course host st directory start l r) : l.length ≤ 2 := by
  cases h <;> simp

theorem Course.run_eq (h : Course host st directory start l r) :
    (collectLive st directory).started host start = l ∧
      ((collectLive st directory).run host start).value = r := by
  obtain ⟨hasked, hvalue⟩ := h.asked_eq
  exact ⟨started_of_asked_eq_requests h.length_le hasked, hvalue⟩

end

theorem exists_course (host : Host σ) (st : Settings) (directory : String) (start : σ) :
    ∃ l r, Course host st directory start l r := by
  cases hwords : st.buildCommand with
  | nil => exact ⟨_, _, .nothingToBuild hwords⟩
  | cons program arguments =>
    have hbuild : Builds st ⟨program, arguments, st.buildDirectory⟩ := ⟨hwords, rfl⟩
    rcases breaks_or_succeeds host ⟨program, arguments, st.buildDirectory⟩ start with
      ⟨cause, output, hb⟩ | ⟨e, built, hs⟩
    · exact ⟨_, _, .buildBreaks hbuild hb⟩
    · obtain ⟨tool, ready, htool⟩ := exists_analyzes host st directory built
      rcases breaks_or_succeeds host tool ready with ⟨cause, output, hb⟩ | ⟨e', last, hs'⟩
      · exact ⟨_, _, .toolBreaks hbuild hs htool hb⟩
      · exact ⟨_, _, .collects hbuild hs htool hs'⟩

/-- Both processes of a run end well, and `e` is how the analyzer's does. -/
def Completes (host : Host σ) (st : Settings) (directory : String) (start : σ) (e : Ended) : Prop :=
  ∃ build wrote built tool ready last, Builds st build ∧ Succeeds host build start wrote built ∧
    Analyzes host st directory built tool ready ∧ Succeeds host tool ready e last

theorem Completes.value_collectLive (h : Completes host st directory start e) :
    ((collectLive st directory).run host start).value =
      Diagnostics.ofBytes st.analyzer (e.stdout ++ e.stderr) := by
  obtain ⟨build, wrote, built, tool, ready, last, hbuild, hs, htool, hs'⟩ := h
  exact (Course.collects hbuild hs htool hs').run_eq.2

end

/-- **A run takes one course**: in whatever state any earlier session left the surroundings, it
starts the build, the analyzer only after a build that ended well, and nothing else; its result is
what the first of them that breaks leaves, or what the output of the analyzer holds. -/
theorem runs_in_stages {β : Type} (earlier : Session β) (host : Host σ) (st : Settings)
    (directory : String) (start : σ) :
    ∃ started, started.length ≤ 2 ∧
      (earlier >>= fun _ => collectLive st directory).started host start =
        earlier.started host start ++ started ∧
      ∀ l r, Course host st directory (earlier.run host start).state l r ↔
        l = started ∧
          r = ((earlier >>= fun _ => collectLive st directory).run host start).value := by
  obtain ⟨l, r, h⟩ := exists_course host st directory (earlier.run host start).state
  obtain ⟨hl, hr⟩ := h.run_eq
  refine ⟨l, h.length_le, ?_, fun l' r' => ⟨fun h' => ?_, ?_⟩⟩
  · rw [Session.started_bind, hl]
  · obtain ⟨hl', hr'⟩ := h'.run_eq
    rw [Session.value_bind]
    exact ⟨hl'.symm.trans hl, hr'.symm⟩
  · rintro ⟨rfl, rfl⟩
    rw [Session.value_bind, hr]
    exact h

end Run

end Findings
