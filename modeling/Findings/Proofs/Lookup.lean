import Findings.Analyzer.Lookup
import Findings.Proofs.Path
import Findings.Proofs.Session
import Findings.Sandbox.Machine

/-!
# Which program is started

`Analyzer.resolve` is asked in one directory and the process starts in another, so a program is safe
from the change of directory if it is `Settled`: looked up again it stays as it is, and wherever the
process starts it is the same file. An absolute path is settled (`settled_of_isAbsolute`).

* A path of several components becomes absolute (`LeadsTo`), whatever is on the search path or among
  the files (`path_names_one_program`).
* A name becomes the first executable candidate on the search path (`run_search`), which is absolute
  just if the directory is, with which the search path names it (`name_found_first`). One that is
  relative may lead to another file (`found_file_is_not_started`).
-/

set_option autoImplicit false

namespace Findings

/-- Where a path starts from matters to relative paths only. -/
theorem Sandbox.FileTree.find_of_isAbsolute (t : FileTree) {path : String}
    (h : Path.isAbsolute path = true) (here here' : Place) :
    t.find here path = t.find here' path := by
  have hlocate : t.locate here path = t.locate here' path := by
    unfold locate
    rw [if_pos h, if_pos h]
  unfold find
  rw [hlocate]

namespace Analyzer

open Findings.Path Sandbox

/-- The program is the same one wherever it is looked up again and wherever it is started. -/
structure Settled (program : String) : Prop where
  resolve : ∀ directory, resolve program directory = pure program
  /-- No process looks for it on the search path. -/
  searchPaths : ∀ searchPath, Shell.searchPaths searchPath program = [program]
  find : ∀ (t : FileTree) (here here' : Place), t.find here program = t.find here' program

theorem settled_of_isAbsolute {program : String} (h : isAbsolute program = true) :
    Settled program where
  resolve directory := by
    unfold Analyzer.resolve
    exact if_pos h
  searchPaths searchPath := by
    have hfirst : program.toList.head? = some '/' := by simpa [isAbsolute] using h
    have hslash : '/' ∈ program.toList := List.mem_of_mem_head? hfirst
    unfold Shell.searchPaths
    exact if_pos (by simpa using hslash)
  find t here here' := t.find_of_isAbsolute h here here'

/-! ## Paths of several components -/

section
variable {current directory tool : String}

/-- `program` is where `tool` leads from `directory`, and `directory` from `current`. All components
are kept but for a `.`, and each follows one slash. -/
structure LeadsTo (current directory tool program : String) : Prop where
  isAbsolute : isAbsolute program = true
  components : components program =
    (if Path.isAbsolute directory = true then [] else Path.components current) ++
      steps directory ++ steps tool
  text : program = trimSlash (start current directory) ++ slashed (inner directory ++ inner tool) ++
    if endsWithSlash tool = true then "/" else ""
  hasTwoSlashes : Path.isAbsolute directory = true →
    hasTwoSlashes program = hasTwoSlashes directory
  endsWithSlash : endsWithSlash program = endsWithSlash tool

theorem start_join (hrel : isAbsolute tool = false) :
    start current (join directory tool) = start current directory := by
  unfold start
  rw [hasTwoSlashes_join hrel, isAbsolute_join hrel]

theorem leadsTo_absolute (hcurrent : isAbsolute current = true) (hrel : isAbsolute tool = false)
    (hne : inner tool ≠ []) :
    LeadsTo current directory tool (absolute current (join directory tool)) := by
  have hinner : inner (join directory tool) = inner directory ++ inner tool := inner_join hrel
  have hjoin : inner (join directory tool) ≠ [] := by simp [hinner, hne]
  have htool : tool ≠ "" := by
    rintro rfl
    exact hne rfl
  have hslash : Path.endsWithSlash (join directory tool) = Path.endsWithSlash tool :=
    endsWithSlash_join hrel htool
  have habs : isAbsolute (absolute current (join directory tool)) = true :=
    isAbsolute_absolute (.inr hcurrent)
  refine ⟨habs, ?_, ?_, fun hdirectory => ?_, ?_⟩
  · rw [components_of_isAbsolute habs, inner_absolute, isAbsolute_join hrel, hinner,
      components_of_isAbsolute hcurrent, steps_eq, steps_eq, hrel]
    cases isAbsolute directory <;> simp
  · have hempty : current ≠ "" := by
      rintro rfl
      cases hcurrent
    rw [absolute_eq hjoin hempty, start_join hrel, hinner, hslash]
  · rw [hasTwoSlashes_absolute (by rw [isAbsolute_join hrel, hdirectory]), hasTwoSlashes_join hrel]
  · rw [endsWithSlash_absolute hjoin, hslash]

end

section
variable {σ : Type} {host : Host σ} {s : σ} {current : String}

/-- The current directory is asked for if the path needs it, and nothing else is. -/
theorem run_makeAbsolute (hcurrent : (host.answer .currentDirectory s).1 = some current)
    (path : String) :
    ((makeAbsolute path).run host s).value = absolute current path ∧
      (makeAbsolute path).asked host s =
        if isAbsolute path = true then [] else [(s, .currentDirectory)] := by
  unfold makeAbsolute
  split
  next h => exact ⟨absolute_of_isAbsolute h "" current, rfl⟩
  next h =>
    rw [Session.value_bind, Session.asked_bind, Session.value_request, hcurrent]
    exact ⟨rfl, rfl⟩

/-- **A path names one program.** An absolute path is itself the program, whatever the directory. A
relative one of several components leads there from the directory, and from the current directory if
the other is relative too; nothing is asked but this one, neither the search path nor a file. The
program is settled, so it is the same for a process that changes the directory first. -/
theorem path_names_one_program (hcurrent : (host.answer .currentDirectory s).1 = some current)
    (habs : isAbsolute current = true) (tool directory : String) :
    (isAbsolute tool = true → resolve tool directory = pure tool ∧ Settled tool) ∧
      (isAbsolute tool = false → 1 < (components tool).length →
        ∃ program, ((resolve tool directory).run host s).value = program ∧
          LeadsTo current directory tool program ∧ Settled program ∧
          (resolve tool directory).asked host s =
            if isAbsolute directory = true then [] else [(s, .currentDirectory)]) := by
  refine ⟨fun h => ⟨(settled_of_isAbsolute h).resolve directory, settled_of_isAbsolute h⟩,
    fun hrel hlength => ?_⟩
  have hresolve : resolve tool directory = makeAbsolute (join directory tool) := by
    unfold resolve
    rw [if_neg (by simp [hrel]), if_pos hlength]
  have hleads : LeadsTo current directory tool (absolute current (join directory tool)) :=
    leadsTo_absolute habs hrel (inner_ne_nil_of_length hrel hlength)
  obtain ⟨hvalue, hasked⟩ := run_makeAbsolute hcurrent (join directory tool)
  rw [isAbsolute_join hrel] at hasked
  rw [hresolve]
  exact ⟨_, hvalue, hleads, settled_of_isAbsolute hleads.isAbsolute, hasked⟩

theorem path_names_one_program_dots :
    let m : Machine := ⟨⟨[]⟩, ["w"], []⟩
    (Machine.host.answer .currentDirectory m).1 = some "/w" ∧ isAbsolute "/w" = true ∧
      isAbsolute "./../bin//tool/" = false ∧ 1 < (components "./../bin//tool/").length ∧
      ((resolve "./../bin//tool/" "d/.").run Machine.host m).value = "/w/d/../bin/tool/" ∧
      Settled "/w/d/../bin/tool/" := by
  intro m
  have hcurrent : (Machine.host.answer .currentDirectory m).1 = some "/w" := rfl
  have hlength : 1 < (components "./../bin//tool/").length := by decide +kernel
  obtain ⟨program, hvalue, hleads, hsettled, -⟩ :=
    (path_names_one_program hcurrent rfl "./../bin//tool/" "d/.").2 rfl hlength
  have htext : program = "/w/d/../bin/tool/" := hleads.text.trans (by decide +kernel)
  rw [htext] at hvalue hsettled
  exact ⟨hcurrent, rfl, rfl, hlength, hvalue, hsettled⟩

end

/-! ## Names -/

/-- The directories that a search path names. -/
def entries (searchPath : String) : List String :=
  (segments ':' searchPath.toList).map String.ofList

/-- A directory of the search path stays where it is, unless it is in the home directory. -/
theorem isAbsolute_expandHome (home entry : String) :
    isAbsolute (expandHome home entry) =
      isAbsolute (if (components entry).head? = some (.name "~") then home else entry) := by
  unfold expandHome
  split
  next rest h =>
    have htail : (components entry).tail = rest := by rw [h, List.tail_cons]
    have hplain : ∀ c ∈ rest, c.Plain := fun c hc => plain_of_mem_tail (htail ▸ hc)
    rw [h, List.head?_cons, if_pos rfl]
    exact joinAll_of_join isAbsolute (fun _ _ => isAbsolute_join) hplain
  next h =>
    rw [if_neg]
    intro hhead
    obtain ⟨rest, hrest⟩ := List.head?_eq_some_iff.1 hhead
    exact h rest hrest

theorem resolve_of_no_slash {tool : String} (htool : '/' ∉ tool.toList) (directory : String) :
    resolve tool directory = search tool := by
  have hlength : ¬ 1 < (components tool).length := Nat.not_lt.2 (length_components_le htool)
  unfold resolve
  rw [if_neg (by simp [isAbsolute_of_no_slash htool]), if_neg hlength]

section
variable {σ : Type} (host : Host σ) (s : σ)

/-- Looking at files and variables leaves the surroundings as they are. -/
def Steady : Prop := ∀ r : Request, r.command? = none → (host.answer r s).2 = s

/-- The home directory, which is the empty path if there is none. -/
def home : String := (host.answer (.environment "HOME") s).1.getD ""

def isExecutable (path : String) : Bool := (host.answer (.executable path) s).1

/-- Where a name is looked for in a directory of the search path. -/
def candidate (entry tool : String) : String := join (expandHome (home host s) entry) tool

variable {host : Host σ} {s : σ} {tool searchPath : String}

theorem candidates_eq (host : Host σ) (s : σ) (searchPath tool : String) :
    candidates (home host s) searchPath tool =
      (entries searchPath).map (candidate host s · tool) := by
  simp [candidates, entries, candidate]

/-- The search ends at the first path that is executable. -/
theorem run_firstExecutable (hsteady : Steady host s) (l : List String) :
    (firstExecutable l).run host s = ⟨l.find? (isExecutable host s), [], s⟩ := by
  induction l with
  | nil => rfl
  | cons path rest ih =>
    rw [firstExecutable, Session.run_request_bind, hsteady _ rfl, List.find?_cons]
    change (if isExecutable host s path = true then pure (some path)
      else firstExecutable rest).run host s = _
    cases isExecutable host s path with
    | true => rfl
    | false => exact ih

/-- A name is the first executable candidate, or itself if there is none. -/
theorem run_search (hsteady : Steady host s)
    (hpath : (host.answer (.environment "PATH") s).1 = some searchPath) :
    (search tool).run host s =
      ⟨(((entries searchPath).map (candidate host s · tool)).find? (isExecutable host s)).getD tool,
        [], s⟩ := by
  unfold search
  rw [← candidates_eq, Session.run_request_bind, hpath, hsteady _ rfl]
  change (Session.request (.environment "HOME") >>= fun directory =>
    firstExecutable (candidates (directory.getD "") searchPath tool) >>= fun found =>
      pure (found.getD tool)).run host s = _
  rw [Session.run_request_bind, hsteady _ rfl, Session.run_bind, run_firstExecutable hsteady]
  rfl

/-- **A name is the file that is found first.** If the search path has an executable file of the
name, the program is the first one. Its path is absolute just if the search path names the directory
by an absolute path, or by one in a home directory that is; then it is settled, so the file that is
started is the one that was found. -/
theorem name_found_first (hsteady : Steady host s) (htool : '/' ∉ tool.toList)
    (hpath : (host.answer (.environment "PATH") s).1 = some searchPath)
    (h : ∃ entry ∈ entries searchPath, isExecutable host s (candidate host s entry tool) = true)
    (directory : String) :
    ∃ before entry after, entries searchPath = before ++ entry :: after ∧
      (∀ e ∈ before, isExecutable host s (candidate host s e tool) = false) ∧
      isExecutable host s (candidate host s entry tool) = true ∧
      (resolve tool directory).run host s = ⟨candidate host s entry tool, [], s⟩ ∧
      isAbsolute (candidate host s entry tool) =
        isAbsolute (if (components entry).head? = some (.name "~") then home host s else entry) ∧
      (isAbsolute (candidate host s entry tool) = true →
        Settled (candidate host s entry tool)) := by
  obtain ⟨entry, hentry⟩ : ∃ entry, (entries searchPath).find?
      (fun e => isExecutable host s (candidate host s e tool)) = some entry :=
    Option.isSome_iff_exists.1 (List.find?_isSome.2 h)
  obtain ⟨hexec, before, after, hsplit, hbefore⟩ := List.find?_eq_some_iff_append.1 hentry
  refine ⟨before, entry, after, hsplit, fun e he => by simpa using hbefore e he, hexec, ?_, ?_,
    settled_of_isAbsolute⟩
  · have hfound : ((entries searchPath).map (candidate host s · tool)).find? (isExecutable host s) =
        some (candidate host s entry tool) := by
      rw [List.find?_map]
      exact congrArg _ hentry
    rw [resolve_of_no_slash htool, run_search hsteady hpath, hfound]
    rfl
  · rw [candidate, isAbsolute_join (isAbsolute_of_no_slash htool), isAbsolute_expandHome]

end

theorem steady_machine (m : Machine) : Steady Machine.host m := by
  intro r hr
  cases r with
  | process c => cases hr
  | file path => rfl
  | executable path => rfl
  | environment name => rfl
  | currentDirectory => rfl

/-- Two files of one name, one in the directory `two` and the other in `d/two`. -/
def twoFiles (searchPath : String) : Machine where
  tree := ⟨[(["w"], .directory), (["w", "two"], .directory), (["w", "two", "both"], .file [] true),
    (["w", "d"], .directory), (["w", "d", "two"], .directory),
    (["w", "d", "two", "both"], .file [] true)]⟩
  here := ["w"]
  environment := [("PATH", searchPath)]

theorem name_found_first_twoFiles :
    let m := twoFiles "none:/w/two:two"
    Steady Machine.host m ∧ '/' ∉ "both".toList ∧
      (Machine.host.answer (.environment "PATH") m).1 = some "none:/w/two:two" ∧
      (∃ entry ∈ entries "none:/w/two:two",
        isExecutable Machine.host m (candidate Machine.host m entry "both") = true) ∧
      (resolve "both" "d").run Machine.host m = ⟨"/w/two/both", [], m⟩ ∧
      Settled "/w/two/both" := by
  intro m
  have hsteady : Steady Machine.host m := steady_machine m
  have hname : '/' ∉ "both".toList := by decide
  have hpath : (Machine.host.answer (.environment "PATH") m).1 = some "none:/w/two:two" := rfl
  have hfound : ∃ entry ∈ entries "none:/w/two:two",
      isExecutable Machine.host m (candidate Machine.host m entry "both") = true :=
    ⟨"/w/two", by decide +kernel⟩
  obtain ⟨_, entry, _, -, -, -, hrun, -, hsettled⟩ :=
    name_found_first hsteady hname hpath hfound "d"
  have hvalue : ((resolve "both" "d").run Machine.host m).value = "/w/two/both" := by
    decide +kernel
  rw [hrun] at hvalue
  have hcandidate : candidate Machine.host m entry "both" = "/w/two/both" := hvalue
  rw [hcandidate] at hrun hsettled
  exact ⟨hsteady, hname, hpath, hfound, hrun, hsettled rfl⟩

/-- The program is the relative path of the file that was found. Where the process starts, another
file has this path. -/
theorem found_file_is_not_started :
    let m := twoFiles "two"
    (Machine.host.answer (.environment "PATH") m).1 = some "two" ∧
      (∃ entry ∈ entries "two",
        isExecutable Machine.host m (candidate Machine.host m entry "both") = true) ∧
      ((resolve "both" "d").run Machine.host m).value = "two/both" ∧
      isAbsolute "two/both" = false ∧ m.startPlace (some "d") = .ok ["w", "d"] ∧
      (m.tree.find m.here "two/both").map (·.1) = .ok ["w", "two", "both"] ∧
      (m.tree.find ["w", "d"] "two/both").map (·.1) = .ok ["w", "d", "two", "both"] := by
  intro m
  refine ⟨rfl, ⟨"two", ?_, ?_⟩, ?_, rfl, rfl, rfl, rfl⟩
  · decide +kernel
  · decide +kernel
  · decide +kernel

end Analyzer

end Findings
