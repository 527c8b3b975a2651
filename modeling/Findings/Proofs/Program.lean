import Findings.Program
import Findings.Proofs.Replay
import Findings.Proofs.Settings

/-!
# Runs of the program

What `Program.run` does in any surroundings. `Settles` says which settings are in effect, or why
there are none: the command line's layer lies over that of the settings file, and both the file
alone and the two together must name a program to build with. `Drives` says what is done with
settings, a replay or the course of a live run, and `Ends` puts the stages together: how the program
ends, what it asks for until then, and what it prints.

* Every run ends in one of these ways and no other (`ends_in_one_way`).
* The settings in effect are those of the layers, field by field, and the build command of a run
  always names a program (`settings_layered`).
-/

set_option autoImplicit false

namespace Findings

open Settings (Layer Holds Unusable)

/-- What the command line gives. A build command counts as given if it has a word. -/
def CommandLine.Options.layer (o : CommandLine.Options) : Layer
  | .buildCommand => if o.buildCommand = [] then none else some o.buildCommand
  | .buildDirectory => o.buildDirectory
  | .tool => o.tool
  | .analyzer => o.analyzer
  | .extraArguments => none

theorem CommandLine.Options.override_settings (o : CommandLine.Options) (l : Layer) :
    o.override l.settings = (o.layer.above l).settings := by
  simp only [override, Layer.settings, Layer.above, layer, Settings.mk.injEq, true_and]
  refine ⟨?_, ?_, ?_, rfl⟩
  · split <;> rfl
  · cases o.tool <;> rfl
  · cases o.analyzer <;> rfl

namespace Program

variable {σ : Type} {host : Host σ} {start st : σ} {o : CommandLine.Options} {s : Settings}
  {e : SettingsError}

/-! ## Settings -/

/-- What is asked for to read the settings file, if one is named. -/
def readings (start : σ) : Option String → List (σ × Request)
  | none => []
  | some path => [(start, .file path)]

/-- The state that is left after that. -/
def afterReadings (host : Host σ) (start : σ) : Option String → σ
  | none => start
  | some path => (host.answer (.file path) start).2

/-- What the settings file gives, or nothing if none is named. -/
inductive FileLayer (host : Host σ) (start : σ) : Option String → Layer → Prop
  | unnamed : FileLayer host start none .silent
  | named {path : String} {l : Layer} (h : Holds (host.answer (.file path) start).1 l) :
      FileLayer host start (some path) l

/-- The settings in effect, or why there are none. -/
inductive Settles (host : Host σ) (start : σ) (o : CommandLine.Options) :
    Except SettingsError Settings → Prop
  | unusable {path : String} {e : SettingsError} (hpath : o.config = some path)
      (h : Unusable path (host.answer (.file path) start).1 e) : Settles host start o (.error e)
  | unbuildable {l : Layer} (h : FileLayer host start o.config l) (hfile : l.settings.Buildable)
      (hbuild : ¬ (o.layer.above l).settings.Buildable) :
      Settles host start o (.error .emptyBuildCommand)
  | accepted {l : Layer} (h : FileLayer host start o.config l) (hfile : l.settings.Buildable)
      (hbuild : (o.layer.above l).settings.Buildable) :
      Settles host start o (.ok (o.layer.above l).settings)

theorem asked_baseSettings (o : CommandLine.Options) (host : Host σ) (start : σ) :
    (baseSettings o).asked host start = readings start o.config := by
  unfold baseSettings
  cases o.config <;> rfl

theorem state_baseSettings (o : CommandLine.Options) (host : Host σ) (start : σ) :
    ((baseSettings o).run host start).state = afterReadings host start o.config := by
  unfold baseSettings
  cases o.config <;> rfl

theorem value_baseSettings_of_unusable {path : String} (hpath : o.config = some path)
    (h : Unusable path (host.answer (.file path) start).1 e) :
    ((baseSettings o).run host start).value = .error e := by
  rw [← h.ofFile_eq, baseSettings, hpath]
  rfl

theorem FileLayer.value_baseSettings {l : Layer} (h : FileLayer host start o.config l)
    (hfile : l.settings.Buildable) : ((baseSettings o).run host start).value = .ok l.settings := by
  generalize hconfig : o.config = config at h
  cases h with
  | unnamed =>
    rw [baseSettings, hconfig]
    rfl
  | named h =>
    rw [← h.ofFile_eq_ok hfile, baseSettings, hconfig]
    rfl

theorem settings_eq (o : CommandLine.Options) :
    settings o = baseSettings o >>= fun r => pure (r.bind fun base =>
      (o.override base).validate.map fun _ => o.override base) := by
  unfold settings
  refine congrArg _ (funext fun r => ?_)
  cases r <;> rfl

theorem asked_settings (o : CommandLine.Options) (host : Host σ) (start : σ) :
    (settings o).asked host start = readings start o.config := by
  rw [settings_eq, Session.asked_bind, asked_baseSettings]
  exact List.append_nil _

theorem state_settings (o : CommandLine.Options) (host : Host σ) (start : σ) :
    ((settings o).run host start).state = afterReadings host start o.config := by
  rw [settings_eq, Session.state_bind, ← state_baseSettings]
  rfl

theorem Settles.value_settings {r : Except SettingsError Settings} (h : Settles host start o r) :
    ((settings o).run host start).value = r := by
  rw [settings_eq, Session.value_bind]
  cases h with
  | unusable hpath h =>
    rw [value_baseSettings_of_unusable hpath h]
    rfl
  | unbuildable h hfile hbuild =>
    rw [h.value_baseSettings hfile, Except.bind, o.override_settings,
      Settings.validate_of_not_buildable hbuild]
    rfl
  | accepted h hfile hbuild =>
    rw [h.value_baseSettings hfile, Except.bind, o.override_settings,
      Settings.validate_of_buildable hbuild]
    rfl

theorem exists_settles (host : Host σ) (start : σ) (o : CommandLine.Options) :
    ∃ r, Settles host start o r := by
  have hlayer {l : Layer} (h : FileLayer host start o.config l) (hfile : l.settings.Buildable) :
      ∃ r, Settles host start o r := by
    by_cases hbuild : (o.layer.above l).settings.Buildable
    · exact ⟨_, .accepted h hfile hbuild⟩
    · exact ⟨_, .unbuildable h hfile hbuild⟩
  cases hconfig : o.config with
  | none => exact hlayer (hconfig ▸ .unnamed) Settings.buildable_silent
  | some path =>
    rcases Settings.holds_or_unusable path (host.answer (.file path) start).1 with
      ⟨l, h, hfile⟩ | ⟨e, h⟩
    · exact hlayer (hconfig ▸ .named h) hfile
    · exact ⟨_, .unusable hconfig h⟩

theorem value_settings_eq_iff {r : Except SettingsError Settings} :
    ((settings o).run host start).value = r ↔ Settles host start o r := by
  refine ⟨?_, Settles.value_settings⟩
  rintro rfl
  obtain ⟨r, h⟩ := exists_settles host start o
  rw [h.value_settings]
  exact h

/-! ## The run that the options ask for -/

/-- What is asked for with settings, from a state on, and what comes of it: a replay reads its file,
any other run builds the analyzer and runs it, as far as it comes. -/
inductive Drives (host : Host σ) (o : CommandLine.Options) (s : Settings) (st : σ) :
    List (σ × Request) → Except Failure Diagnostics → Prop
  | unreadable {path : String} {cause : SystemError} (hpath : o.replay = some path)
      (h : (host.answer (.file path) st).1 = .error cause) :
      Drives host o s st [(st, .file path)] (.error (.replay path cause))
  | replays {path : String} {raw : List UInt8} (hpath : o.replay = some path)
      (h : (host.answer (.file path) st).1 = .ok raw) :
      Drives host o s st [(st, .file path)] (Diagnostics.ofBytes s.analyzer raw)
  | runs {processes : List (σ × Command)} {r : Except Failure Diagnostics}
      (hpath : o.replay = none) (h : Run.Course host s o.directory st processes r) :
      Drives host o s st (Run.requests host s o.directory processes) r

section
variable {l : List (σ × Request)} {r : Except Failure Diagnostics} {path : String}

theorem diagnostics_of_replay (h : o.replay = some path) :
    diagnostics o s = Run.collect (Run.replay path) s.analyzer o.directory := by
  rw [diagnostics, h]

theorem diagnostics_of_no_replay (h : o.replay = none) :
    diagnostics o s = Run.collectLive s o.directory := by
  rw [diagnostics, h]

theorem Drives.asked_diagnostics (h : Drives host o s st l r) :
    (diagnostics o s).asked host st = l := by
  cases h with
  | unreadable hpath h => rw [diagnostics_of_replay hpath, Run.asked_collect_replay]
  | replays hpath h => rw [diagnostics_of_replay hpath, Run.asked_collect_replay]
  | runs hpath h => rw [diagnostics_of_no_replay hpath, h.asked_eq.1]

theorem Drives.value_diagnostics (h : Drives host o s st l r) :
    ((diagnostics o s).run host st).value = r := by
  cases h with
  | unreadable hpath h =>
    rw [diagnostics_of_replay hpath, Run.value_collect_replay, h]
    rfl
  | replays hpath h =>
    rw [diagnostics_of_replay hpath, Run.value_collect_replay, h]
    rfl
  | runs hpath h => rw [diagnostics_of_no_replay hpath, h.asked_eq.2]

theorem exists_drives (host : Host σ) (o : CommandLine.Options) (s : Settings) (st : σ) :
    ∃ l r, Drives host o s st l r := by
  cases hpath : o.replay with
  | none =>
    obtain ⟨processes, r, h⟩ := Run.exists_course host s o.directory st
    exact ⟨_, _, .runs hpath h⟩
  | some path =>
    cases h : (host.answer (.file path) st).1 with
    | error cause => exact ⟨_, _, .unreadable hpath h⟩
    | ok raw => exact ⟨_, _, .replays hpath h⟩

end

/-! ## Endings -/

/-- How the program ends. -/
inductive Ending where
  /-- It tells what it was asked to tell about itself. -/
  | information
  /-- The command line is refused. -/
  | usage
  /-- There are no settings in effect. -/
  | settings
  | failure
  | success
deriving DecidableEq, Repr

/-- How the program ends, what it has asked for by then, and what it prints and returns. -/
inductive Ends (host : Host σ) (arguments : List String) (start : σ) :
    Ending → List (σ × Request) → Outcome → Prop
  | help (h : CommandLine.parse arguments = .error .help) :
      Ends host arguments start .information [] ⟨CommandLine.helpText, "", 0⟩
  | version (h : CommandLine.parse arguments = .error .version) :
      Ends host arguments start .information [] ⟨CommandLine.versionText, "", 0⟩
  | usage {e : CommandLine.UsageError} (h : CommandLine.parse arguments = .error (.refused e)) :
      Ends host arguments start .usage [] ⟨"", e.message, 2⟩
  | settings {o : CommandLine.Options} {e : SettingsError}
      (h : CommandLine.parse arguments = .ok o) (hsettings : Settles host start o (.error e)) :
      Ends host arguments start .settings (readings start o.config)
        ⟨"", errorText e.message e.causes, 1⟩
  | failure {o : CommandLine.Options} {s : Settings} {l : List (σ × Request)} {f : Failure}
      (h : CommandLine.parse arguments = .ok o) (hsettings : Settles host start o (.ok s))
      (hrun : Drives host o s (afterReadings host start o.config) l (.error f)) :
      Ends host arguments start .failure (readings start o.config ++ l)
        ⟨"", errorText ("collect diagnostics for " ++ o.directory) (f.message :: f.causes), 1⟩
  | success {o : CommandLine.Options} {s : Settings} {l : List (σ × Request)} {m : Diagnostics}
      (h : CommandLine.parse arguments = .ok o) (hsettings : Settles host start o (.ok s))
      (hrun : Drives host o s (afterReadings host start o.config) l (.ok m)) :
      Ends host arguments start .success (readings start o.config ++ l)
        ⟨if o.json then Report.json m ++ "\n" else Report.text m, "", 0⟩

section
variable {arguments : List String} {ending ending' : Ending} {l l' : List (σ × Request)}
  {out out' : Outcome}

theorem run_of_stop {stop : CommandLine.Stop} (h : CommandLine.parse arguments = .error stop) :
    run arguments = pure (stopped stop) := by
  rw [run, h]

theorem run_of_options (h : CommandLine.parse arguments = .ok o) :
    run arguments = runOptions o := by
  rw [run, h]

theorem run_of_refused_settings (h : CommandLine.parse arguments = .ok o)
    (hsettings : Settles host start o (.error e)) :
    (run arguments).asked host start = readings start o.config ∧
      ((run arguments).run host start).value = failed e.message e.causes := by
  rw [run_of_options h, runOptions, Session.asked_bind, Session.value_bind,
    hsettings.value_settings, asked_settings]
  exact ⟨List.append_nil _, rfl⟩

theorem run_of_settings (h : CommandLine.parse arguments = .ok o)
    (hsettings : Settles host start o (.ok s)) :
    (run arguments).asked host start = readings start o.config ++
        (diagnostics o s).asked host (afterReadings host start o.config) ∧
      ((run arguments).run host start).value =
        reported o ((diagnostics o s).run host (afterReadings host start o.config)).value := by
  rw [run_of_options h, runOptions, Session.asked_bind, Session.value_bind,
    hsettings.value_settings, asked_settings, state_settings]
  dsimp only
  rw [Session.asked_bind, Session.value_bind, Session.asked_bind, Session.asked_logAll,
    Session.value_bind]
  exact ⟨congrArg _ (List.append_nil _), rfl⟩

theorem logged_settings (o : CommandLine.Options) (host : Host σ) (start : σ) :
    ((settings o).run host start).logged = [] := by
  have hbase : ((baseSettings o).run host start).logged = [] := by
    unfold baseSettings
    cases o.config <;> rfl
  rw [settings_eq, Session.logged_bind, hbase]
  rfl

/-- Once there are settings, the log is that of the run, and behind it the failure if it fails. -/
theorem logged_run_of_settings (h : CommandLine.parse arguments = .ok o)
    (hsettings : Settles host start o (.ok s)) :
    ((run arguments).run host start).logged =
      ((diagnostics o s).run host (afterReadings host start o.config)).logged ++
        resultLog ((diagnostics o s).run host (afterReadings host start o.config)).value := by
  rw [run_of_options h, runOptions, Session.logged_bind, hsettings.value_settings,
    logged_settings, state_settings]
  dsimp only
  rw [Session.logged_bind, Session.logged_bind, Session.run_logAll]
  -- Nothing is logged behind the failure.
  change _ ++ (_ ++ []) = _
  rw [List.append_nil]

theorem Ends.run_eq (h : Ends host arguments start ending l out) :
    (run arguments).asked host start = l ∧ ((run arguments).run host start).value = out := by
  cases h with
  | help h | version h | usage h =>
    rw [run_of_stop h]
    exact ⟨rfl, rfl⟩
  | settings h hsettings => exact run_of_refused_settings h hsettings
  | failure h hsettings hrun | success h hsettings hrun =>
    obtain ⟨hasked, hvalue⟩ := run_of_settings h hsettings
    rw [hrun.asked_diagnostics] at hasked
    rw [hrun.value_diagnostics] at hvalue
    exact ⟨hasked, hvalue⟩

theorem exists_ends (host : Host σ) (arguments : List String) (start : σ) :
    ∃ ending l out, Ends host arguments start ending l out := by
  cases h : CommandLine.parse arguments with
  | error stop =>
    cases stop with
    | help => exact ⟨_, _, _, .help h⟩
    | version => exact ⟨_, _, _, .version h⟩
    | refused e => exact ⟨_, _, _, .usage h⟩
  | ok o =>
    obtain ⟨r, hsettings⟩ := exists_settles host start o
    cases r with
    | error e => exact ⟨_, _, _, .settings h hsettings⟩
    | ok s =>
      obtain ⟨l, r, hrun⟩ := exists_drives host o s (afterReadings host start o.config)
      cases r with
      | error f => exact ⟨_, _, _, .failure h hsettings hrun⟩
      | ok m => exact ⟨_, _, _, .success h hsettings hrun⟩

/-- The ending that the results of the stages come to. -/
def endingOf (parsed : Except CommandLine.Stop CommandLine.Options)
    (settled : CommandLine.Options → Except SettingsError Settings)
    (driven : CommandLine.Options → Settings → Except Failure Diagnostics) : Ending :=
  match parsed with
  | .error (.refused _) => .usage
  | .error _ => .information
  | .ok o =>
    match settled o with
    | .error _ => .settings
    | .ok s =>
      match driven o s with
      | .error _ => .failure
      | .ok _ => .success

theorem Ends.ending_eq (h : Ends host arguments start ending l out) :
    ending = endingOf (CommandLine.parse arguments)
      (fun o => ((Program.settings o).run host start).value)
      fun o s => ((diagnostics o s).run host (afterReadings host start o.config)).value := by
  cases h with
  | help h | version h | usage h => rw [h]; rfl
  | settings h hsettings => simp only [endingOf, h, hsettings.value_settings]
  | failure h hsettings hrun =>
    simp only [endingOf, h, hsettings.value_settings, hrun.value_diagnostics]
  | success h hsettings hrun =>
    simp only [endingOf, h, hsettings.value_settings, hrun.value_diagnostics]

theorem Ends.iff (h : Ends host arguments start ending l out) :
    Ends host arguments start ending' l' out' ↔ ending' = ending ∧ l' = l ∧ out' = out := by
  constructor
  · intro h'
    obtain ⟨hasked, hvalue⟩ := h.run_eq
    obtain ⟨hasked', hvalue'⟩ := h'.run_eq
    exact ⟨h'.ending_eq.trans h.ending_eq.symm, hasked'.symm.trans hasked,
      hvalue'.symm.trans hvalue⟩
  · rintro ⟨rfl, rfl, rfl⟩
    exact h

/-! ## Processes -/

theorem started_eq_nil_of_asked {α : Type} {x : Session α} {config : Option String}
    (h : x.asked host start = readings start config) : x.started host start = [] := by
  rw [Session.started, h]
  cases config <;> rfl

/-- Reading the settings starts nothing, so what is started is what the run starts. -/
theorem started_run (h : CommandLine.parse arguments = .ok o)
    (hsettings : Settles host start o (.ok s)) :
    (run arguments).started host start =
      (diagnostics o s).started host (afterReadings host start o.config) := by
  rw [Session.started, (run_of_settings h hsettings).1, List.filterMap_append, Session.started]
  cases o.config <;> rfl

theorem started_diagnostics_of_replay {path : String} (h : o.replay = some path) :
    (diagnostics o s).started host st = [] := by
  rw [diagnostics_of_replay h, Session.started, Run.asked_collect_replay]
  rfl

/-- Only a run that is no replay starts processes. -/
theorem Ends.of_started (h : Ends host arguments start ending l out)
    (hstarted : (run arguments).started host start ≠ []) :
    (ending = .failure ∨ ending = .success) ∧
      ∃ o, CommandLine.parse arguments = .ok o ∧ o.replay = none := by
  have hreplay {o : CommandLine.Options} {s : Settings} (h : CommandLine.parse arguments = .ok o)
      (hsettings : Settles host start o (.ok s)) : o.replay = none := by
    cases hpath : o.replay with
    | none => rfl
    | some path =>
      rw [started_run h hsettings, started_diagnostics_of_replay hpath] at hstarted
      exact absurd rfl hstarted
  have hrun := h.run_eq.1
  cases h with
  | help | version | usage =>
    have hnone : (run arguments).asked host start = readings start none := hrun
    exact absurd (started_eq_nil_of_asked hnone) hstarted
  | settings => exact absurd (started_eq_nil_of_asked hrun) hstarted
  | failure h hsettings => exact ⟨.inl rfl, _, h, hreplay h hsettings⟩
  | success h hsettings => exact ⟨.inr rfl, _, h, hreplay h hsettings⟩

theorem Ends.code_or_stdout (h : Ends host arguments start ending l out) :
    out.code = 0 ∨ out.stdout = "" := by
  cases h with
  | help | version | success => exact .inl rfl
  | usage | settings | failure => exact .inr rfl

end

/-- **The program ends in one way.** Its ending, what it asks for and what it prints are those of
just one of the ways of `Ends`. Processes are started only for a run that is no replay, after the
settings were found valid, and nothing is printed to standard output unless the exit code is
zero. -/
theorem ends_in_one_way (host : Host σ) (arguments : List String) (start : σ) :
    ∃ ending,
      (∀ ending' l out, Ends host arguments start ending' l out ↔
        ending' = ending ∧ l = (run arguments).asked host start ∧
          out = ((run arguments).run host start).value) ∧
      ((run arguments).started host start ≠ [] →
        (ending = .failure ∨ ending = .success) ∧
          ∃ o, CommandLine.parse arguments = .ok o ∧ o.replay = none) ∧
      (((run arguments).run host start).value.code = 0 ∨
        ((run arguments).run host start).value.stdout = "") := by
  obtain ⟨ending, l, out, h⟩ := exists_ends host arguments start
  obtain ⟨rfl, rfl⟩ := h.run_eq
  exact ⟨ending, fun _ _ _ => h.iff, h.of_started, h.code_or_stdout⟩

/-! ## The build command -/

theorem shownWord_ne_empty {word : String} (h : word ≠ "") : shownWord word ≠ "" := by
  unfold shownWord
  split
  · decide
  · exact h

/-- Settings in effect name a program to build with. -/
theorem Settles.buildable (h : Settles host start o (.ok s)) : s.Buildable := by
  cases h with
  | accepted h hfile hbuild => exact hbuild

/-- The build fails for want of a command only where there is none. -/
theorem value_build_ne_empty {c : Command} (hc : Run.Builds s c) (hne : c.program ≠ "") :
    ((Run.build s).run host st).value ≠
      .error (.build (.notStarted "" (.other "empty build command")) "") := by
  rcases Run.breaks_or_succeeds host c st with ⟨cause, output, hb⟩ | ⟨e, built, hs⟩
  · rw [Run.value_build_of_breaks hc hb]
    intro h
    generalize (host.answer (.process c) st).1 = answer at hb
    cases hb with
    | notStarted =>
      injection h with h
      injection h with h
      injection h with h
      exact shownWord_ne_empty hne h
    | failed => cases h
  · rw [Run.value_build_of_succeeds hc hs]
    intro h
    cases h

/-- **Settings come in layers.** Those in effect are what the command line gives for a field, else
what the settings file gives for it, else the default. They are in effect only if the file's own and
they themselves name a program to build with, and there is no run without them. So a run, whose
settings they are, always has a command to build with: a live one starts with it. -/
theorem settings_layered (host : Host σ) (start : σ) {arguments : List String}
    (h : CommandLine.parse arguments = .ok o) :
    (∀ s, ((settings o).run host start).value = .ok s ↔
      ∃ l, FileLayer host start o.config l ∧ l.settings.Buildable ∧
        (o.layer.above l).settings.Buildable ∧ s = (o.layer.above l).settings) ∧
    ((run arguments).asked host start ≠ readings start o.config →
      ∃ s, ((settings o).run host start).value = .ok s) ∧
    ∀ s, ((settings o).run host start).value = .ok s →
      (run arguments).asked host start = readings start o.config ++
        (diagnostics o s).asked host (afterReadings host start o.config) ∧
      ((run arguments).run host start).value =
        reported o ((diagnostics o s).run host (afterReadings host start o.config)).value ∧
      ∃ c, Run.Builds s c ∧ (∃ x ∈ c.program.toList, ¬ Text.isBlankChar x) ∧
        (o.replay = none → ∃ rest, (run arguments).started host start =
          (afterReadings host start o.config, c) :: rest) ∧
        ∀ st, ((Run.build s).run host st).value ≠
          .error (.build (.notStarted "" (.other "empty build command")) "") := by
  refine ⟨fun s => ?_, fun hasked => ?_, fun s hs => ?_⟩
  · rw [value_settings_eq_iff]
    constructor
    · intro h
      cases h with
      | accepted h hfile hbuild => exact ⟨_, h, hfile, hbuild, rfl⟩
    · rintro ⟨l, hl, hfile, hbuild, rfl⟩
      exact .accepted hl hfile hbuild
  · obtain ⟨r, hr⟩ := exists_settles host start o
    cases r with
    | error e => exact absurd (run_of_refused_settings h hr).1 hasked
    | ok s => exact ⟨s, hr.value_settings⟩
  · rw [value_settings_eq_iff] at hs
    obtain ⟨hasked, hvalue⟩ := run_of_settings h hs
    obtain ⟨program, words, hwords, x, hx, hblank⟩ := hs.buildable
    have hbuilds : Run.Builds s ⟨program, words, s.buildDirectory⟩ := ⟨hwords, rfl⟩
    have hne : program ≠ "" := by
      rintro rfl
      exact absurd hx List.not_mem_nil
    refine ⟨hasked, hvalue, _, hbuilds, ⟨x, hx, hblank⟩, fun hreplay => ?_, fun st =>
      value_build_ne_empty hbuilds hne⟩
    rw [started_run h hs, diagnostics_of_no_replay hreplay]
    exact Run.exists_started_collectLive hbuilds

/-- Both layers give a build command, and the file gives an analyzer. -/
theorem settings_layered_twoCommands :
    let host := Run.still
      (fun _ => .ok (Utf8.encode "build_command = [\"make\"]\nanalyzer = \"n\"\n"))
      fun _ => .error .noSuchFile
    let o : CommandLine.Options :=
      { directory := "d", config := some "f.toml", buildCommand := ["go", "build"] }
    let s : Settings := { buildCommand := ["go", "build"], analyzer := "n" }
    (∃ l, FileLayer host () o.config l ∧ s = (o.layer.above l).settings) ∧
      ∃ rest, (run ["--build-command", "go", "--build-command", "build", "-c", "f.toml",
        "d"]).started host () = ((), ⟨"go", ["build"], none⟩) :: rest := by
  intro host o s
  have hsettings : ((settings o).run host ()).value = .ok s := by
    have h : ((settings o).run host ()).value.toOption = some s := by decide +kernel
    cases hvalue : ((settings o).run host ()).value with
    | error e => rw [hvalue] at h; cases h
    | ok s' => rw [hvalue] at h; rw [Option.some.inj h]
  have hparse : CommandLine.parse
      ["--build-command", "go", "--build-command", "build", "-c", "f.toml", "d"] = .ok o := rfl
  obtain ⟨hlayers, -, hrun⟩ := settings_layered host () hparse
  obtain ⟨l, hl, -, -, hs⟩ := (hlayers s).1 hsettings
  obtain ⟨-, -, ⟨program, arguments, directory⟩, ⟨hwords, hdirectory⟩, -, hstarted, -⟩ :=
    hrun s hsettings
  cases hwords
  cases hdirectory
  exact ⟨⟨l, hl, hs⟩, hstarted rfl⟩

end Program

end Findings
