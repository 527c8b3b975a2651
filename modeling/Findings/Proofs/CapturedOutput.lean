import Findings.Proofs.FailureText
import Findings.Proofs.Replay
import Findings.Proofs.Utf8.Lossy

/-!
# What failures tell of the captured output

A run that fails over what a process wrote tells it in the failure: the output of a build or an
analyzer that broke, or the analyzer's output that is no payload (`Run.Captures`). The text renders
just the bytes that were captured (`Run.output_survives`), so every text in them is in it, between
the renderings of what stands before and after. That standard error follows standard output at once
makes no difference: a character of either is read as it is, whatever the other ends or begins with.

Route. What the readers make of bytes is in `Utf8.renders_iff` and
`Utf8.lossy_append_encode_append`; which bytes a failure is about is read off the courses of a run
(`Run.Course`).
-/

set_option autoImplicit false

namespace Findings

/-- The text in which a failure tells what a process wrote. -/
def Failure.output? : Failure → Option String
  | build _ output => some output
  | invocation _ output => some output
  | decode _ raw => some raw
  | _ => none

namespace Run

variable {σ : Type} {host : Host σ} {st : Settings} {directory : String} {start : σ}
  {bytes : List UInt8} {fail : String → Failure} {f : Failure} {text : String}

/-- The run fails over the bytes that it has captured, with the failure `fail text` for a text that
tells them. A run without a build command has captured nothing. -/
inductive Captures (host : Host σ) (st : Settings) (directory : String) (start : σ) :
    List UInt8 → (String → Failure) → Prop
  | nothingToBuild (h : st.buildCommand = []) :
      Captures host st directory start [] (.build (.notStarted "" (.other "empty build command")))
  | buildBreaks {build : Command} {cause : ProcessError} {output : List UInt8}
      (hbuild : Builds st build)
      (h : Breaks build (host.answer (.process build) start).1 cause output) :
      Captures host st directory start output (.build cause)
  | toolBreaks {build tool : Command} {e : Ended} {built ready : σ} {cause : ProcessError}
      {output : List UInt8} (hbuild : Builds st build) (hbuilt : Succeeds host build start e built)
      (htool : Analyzes host st directory built tool ready)
      (h : Breaks tool (host.answer (.process tool) ready).1 cause output) :
      Captures host st directory start output (.invocation cause)
  | noPayload {e : Ended} {cause : Json.ReadError} (he : Completes host st directory start e)
      (h : Payload.decode (e.stdout ++ e.stderr) = .error cause) :
      Captures host st directory start (e.stdout ++ e.stderr) (.decode cause)

theorem Captures.value_collectLive (h : Captures host st directory start bytes fail) :
    ((collectLive st directory).run host start).value = .error (fail (Utf8.lossy bytes)) := by
  cases h with
  | nothingToBuild h =>
    rw [(Course.nothingToBuild h).run_eq.2, Utf8.lossy_nil]
  | buildBreaks hbuild h => exact (Course.buildBreaks hbuild h).run_eq.2
  | toolBreaks hbuild hbuilt htool h => exact (Course.toolBreaks hbuild hbuilt htool h).run_eq.2
  | noPayload he h => rw [he.value_collectLive, Diagnostics.ofBytes_of_refused h]

/-- What is found wrong in a payload is told without the output. -/
theorem output?_of_ofPayload {analyzer : String} {payload : Payload}
    (h : Diagnostics.ofPayload analyzer payload = .error f) : f.output? = none := by
  cases Diagnostics.collecting_of_ofPayload h <;> rfl

/-- Every failure that tells an output tells what the run has captured. -/
theorem exists_captures (h : ((collectLive st directory).run host start).value = .error f)
    (htext : f.output? = some text) :
    ∃ bytes fail, Captures host st directory start bytes fail ∧ Utf8.Tells bytes text ∧
      f = fail text := by
  obtain ⟨started, result, hcourse⟩ := exists_course host st directory start
  rw [hcourse.run_eq.2] at h
  cases hcourse with
  | nothingToBuild hnothing =>
    cases h
    cases htext
    exact ⟨_, _, .nothingToBuild hnothing, Utf8.lossy_nil ▸ Utf8.tells_lossy [], rfl⟩
  | buildBreaks hbuild hb =>
    cases h
    cases htext
    exact ⟨_, _, .buildBreaks hbuild hb, Utf8.tells_lossy _, rfl⟩
  | toolBreaks hbuild hbuilt htool hb =>
    cases h
    cases htext
    exact ⟨_, _, .toolBreaks hbuild hbuilt htool hb, Utf8.tells_lossy _, rfl⟩
  | @collects build tool e e' built ready last hbuild hbuilt htool hended =>
    cases hdecode : Payload.decode (e'.stdout ++ e'.stderr) with
    | error cause =>
      rw [Diagnostics.ofBytes_of_refused hdecode] at h
      cases h
      cases htext
      have he : Completes host st directory start e' :=
        ⟨build, e, built, tool, ready, last, hbuild, hbuilt, htool, hended⟩
      exact ⟨_, _, .noPayload he hdecode, Utf8.tells_lossy _, rfl⟩
    | ok payload =>
      rw [Diagnostics.ofBytes_of_decoded hdecode] at h
      rw [output?_of_ofPayload h] at htext
      cases htext

/-- **Captured output survives in failures.** For all bytes there is one text that tells what they
hold (`Utf8.Tells`). A build that breaks after it wrote them, an analyzer that does, their decoding
where they are no payload, and a whole run that fails over them fail with just this text. No failure
of a run tells any other output than what the run has captured. -/
theorem output_survives (host : Host σ) (st : Settings) (directory : String) (start : σ) :
    (∀ bytes, ∃ text, Utf8.Tells bytes text ∧
      (∀ build cause, Builds st build →
        Breaks build (host.answer (.process build) start).1 cause bytes →
        ((Run.build st).run host start).value = .error (.build cause text)) ∧
      (∀ tool ready cause, Analyzes host st directory start tool ready →
        Breaks tool (host.answer (.process tool) ready).1 cause bytes →
        ((invoke st directory).run host start).value = .error (.invocation cause text)) ∧
      (∀ analyzer cause, Payload.decode bytes = .error cause →
        Diagnostics.ofBytes analyzer bytes = .error (.decode cause text)) ∧
      ∀ fail, Captures host st directory start bytes fail →
        ((collectLive st directory).run host start).value = .error (fail text)) ∧
    ∀ f text, ((collectLive st directory).run host start).value = .error f →
      f.output? = some text →
      ∃ bytes fail, Captures host st directory start bytes fail ∧ Utf8.Tells bytes text ∧
        f = fail text := by
  refine ⟨fun bytes => ⟨Utf8.lossy bytes, Utf8.tells_lossy bytes, ?_, ?_, ?_, ?_⟩, ?_⟩
  · intro build cause hbuild h
    exact value_build_of_breaks hbuild h
  · intro tool ready cause htool h
    rw [value_invoke htool, h.value_capture]
    rfl
  · intro analyzer cause h
    exact Diagnostics.ofBytes_of_refused h analyzer
  · intro fail h
    exact h.value_collectLive
  · intro f text h htext
    exact exists_captures h htext

/-- An analyzer that is killed while it writes. Its standard output breaks off in a character, and
its standard error begins with a byte that goes on with none. -/
def killed : Ended where
  status := .signaled 9 false
  stdout := Utf8.encode "a.go:1: é" ++ [0xE2, 0x82]
  stderr := [0xC0] ++ Utf8.encode "€"

theorem output_survives_killed :
    let host := still (fun _ => .error .noSuchFile) fun c =>
      if c.program = "/n" then .ok killed else .ok ⟨.exited 0, [], []⟩
    ((collectLive { tool := "/n" } "d").run host ()).value =
      .error (.invocation (.failed "/n" (.signaled 9 false)) "a.go:1: é\uFFFD\uFFFD€") := by
  intro host
  have hbuild : Builds { tool := "/n" } ⟨"make", ["build"], none⟩ := ⟨rfl, rfl⟩
  obtain ⟨built, hbuilt⟩ : ∃ s, Succeeds host ⟨"make", ["build"], none⟩ () ⟨.exited 0, [], []⟩ s :=
    ⟨_, rfl, rfl⟩
  obtain ⟨arguments, htool⟩ :
      ∃ arguments, Analyzes host { tool := "/n" } "d" built ⟨"/n", arguments, some "d"⟩ built :=
    ⟨_, rfl, rfl, rfl, rfl⟩
  have hstatus : killed.status ≠ .exited 0 := by decide
  have hbreaks : Breaks ⟨"/n", arguments, some "d"⟩ (.ok killed) (.failed "/n" (.signaled 9 false))
      (killed.stdout ++ killed.stderr) := by
    have hshown : shownWord "/n" = "/n" := by decide
    have h := Breaks.failed (c := ⟨"/n", arguments, some "d"⟩) hstatus
    rwa [hshown] at h
  obtain ⟨text, htells, -, -, -, hrun⟩ :=
    (output_survives host { tool := "/n" } "d" ()).1 (killed.stdout ++ killed.stderr)
  have htext : "a.go:1: é\uFFFD\uFFFD€" = text :=
    (htells.rendered _).1 (Utf8.renders_iff.2 (by decide +kernel))
  rw [htext]
  exact hrun _ (.toolBreaks hbuild hbuilt htool hbreaks)

end Run

end Findings
