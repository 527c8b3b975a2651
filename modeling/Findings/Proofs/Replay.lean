import Findings.Proofs.Payload.Trailing

/-!
# Output captured earlier

A replay asks for one file and starts nothing (`Run.asked_collect_replay`); its result is what the
bytes of the file hold (`Run.value_collect_replay`). So is that of a run whose build and analyzer
end well, for the bytes that the analyzer wrote, and whoever keeps them in a file gets the result of
the run again (`Run.replay_reproduces`).
-/

set_option autoImplicit false

namespace Findings.Run

section
variable {σ : Type} (host : Host σ) (s : σ) (path analyzer directory : String)

theorem value_replay : ((replay path).run host s).value =
    (host.answer (.file path) s).1.mapError (.replay path) := by
  unfold replay
  rw [Session.value_bind, state_debug, Session.value_bind, Session.value_request]
  cases (host.answer (.file path) s).1 <;> rfl

theorem asked_replay : (replay path).asked host s = [(s, .file path)] := by
  unfold replay
  rw [Session.asked_bind, state_debug, Session.asked_bind, Session.asked_request,
    Session.value_request]
  cases (host.answer (.file path) s).1 <;> rfl

theorem asked_collect_replay :
    (collect (replay path) analyzer directory).asked host s = [(s, .file path)] := by
  rw [asked_collect, asked_replay]

theorem value_collect_replay :
    ((collect (replay path) analyzer directory).run host s).value =
      ((host.answer (.file path) s).1.mapError (.replay path)).bind
        (Diagnostics.ofBytes analyzer) := by
  rw [value_collect, value_replay]

end

variable {σ τ : Type} {host : Host σ} {st : Settings} {directory : String} {start : σ} {e : Ended}
  {host' : Host τ} {s : τ} {path : String}

/-- **A replay has the result of the run.** Where build and analyzer end well, the run collects what
the analyzer wrote; a replay of a file that holds just this, wherever and whenever it is read and
whatever directory is named, comes to the same diagnostics or to the same failure, and asks for
nothing but the file. -/
theorem replay_reproduces (h : Completes host st directory start e)
    (hfile : (host'.answer (.file path) s).1 = .ok (e.stdout ++ e.stderr)) (directory' : String) :
    ((collect (replay path) st.analyzer directory').run host' s).value =
        ((collectLive st directory).run host start).value ∧
      ((collectLive st directory).run host start).value =
        Diagnostics.ofBytes st.analyzer (e.stdout ++ e.stderr) ∧
      (collect (replay path) st.analyzer directory').asked host' s = [(s, .file path)] := by
  refine ⟨?_, h.value_collectLive, asked_collect_replay host' s path st.analyzer directory'⟩
  rw [value_collect_replay, hfile, h.value_collectLive]
  rfl

/-- Surroundings that stay as they are: what every file holds, and how every process ends. -/
def still (files : String → Except SystemError (List UInt8))
    (processes : Command → Except SystemError Ended) : Host Unit where
  answer
    | .file path, s => (files path, s)
    | .process c, s => (processes c, s)
    | .executable _, s => (false, s)
    | .environment _, s => (none, s)
    | .currentDirectory, s => (none, s)

/-- Standard output is a payload, but standard error is not even a text. -/
def spoiled : Ended where
  status := .exited 0
  stdout := Utf8.encode "\x7b\"p\":\x7b\"nilaway\":[[\"a.go:1:1\",\"m\"]]\x7d\x7d"
  stderr := [0xFF]

theorem replay_reproduces_spoiled :
    let live := still (fun _ => .error .noSuchFile) fun _ => .ok spoiled
    let later := still (fun _ => .ok (spoiled.stdout ++ spoiled.stderr)) fun _ =>
      .error .noSuchFile
    ((collect (replay "out.json") "nilaway" "elsewhere").run later ()).value =
        ((collectLive {} "d").run live ()).value ∧
      (∃ l, ((collectLive {} "d").run live ()).value =
        .error (.decode ⟨.trailingCharacters, l⟩ (Utf8.lossy (spoiled.stdout ++ [0xFF])))) ∧
      (collect (replay "out.json") "nilaway" "elsewhere").asked later () =
        [((), .file "out.json")] := by
  intro live later
  obtain ⟨tool, ready, htool⟩ := exists_analyzes live {} "d" ()
  have h : Completes live {} "d" () spoiled :=
    ⟨⟨"make", ["build"], none⟩, spoiled, (), tool, ready, (), ⟨rfl, rfl⟩, ⟨rfl, rfl⟩, htool,
      ⟨rfl, rfl⟩⟩
  have hfile : (later.answer (.file "out.json") ()).1 = .ok (spoiled.stdout ++ spoiled.stderr) :=
    rfl
  obtain ⟨heq, hlive, hasked⟩ := replay_reproduces h hfile "elsewhere"
  have hpayload : Payload.decode spoiled.stdout =
      .ok (Document.payload [("p", [("nilaway", some [⟨"a.go:1:1", "m"⟩])])]) :=
    Payload.decode_eq_ok_iff.2 ⟨_, by decide +kernel, rfl⟩
  obtain ⟨l, -, hrefused⟩ :=
    Payload.decode_append_mark hpayload (s := [0xFF]) (by simp [Json.Blank])
  refine ⟨heq, ⟨l, hlive.trans ?_⟩, hasked⟩
  exact Diagnostics.ofBytes_of_refused hrefused _

end Findings.Run
