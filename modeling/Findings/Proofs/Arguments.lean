import Findings.Analyzer.Arguments

/-!
# Putting arguments together

`Arguments.after` takes steps one after the other. Flags and further words are appended, each to
their own, while a pattern takes the place of an earlier one (`flags_perform`, `extra_perform`,
`pattern_perform`). What a whole sequence of steps makes of the arguments therefore depends on the
flags it asks for, on its words and on its last pattern, each by itself, and not on how they are
interleaved (`built_from_steps`).
-/

set_option autoImplicit false

namespace Findings.Analyzer.Arguments

/-- What can be done to arguments. -/
inductive Step where
  | json (enabled : Bool)
  | prettyPrint (enabled : Bool)
  | groupMessages (enabled : Bool)
  | withPattern (pattern : String)
  | addExtra (words : List String)
deriving DecidableEq, Repr

def perform (a : Arguments) : Step → Arguments
  | .json enabled => a.json enabled
  | .prettyPrint enabled => a.prettyPrint enabled
  | .groupMessages enabled => a.groupMessages enabled
  | .withPattern pattern => a.withPattern pattern
  | .addExtra words => a.addExtra words

/-- The arguments after some steps. -/
def after (a : Arguments) (steps : List Step) : Arguments := steps.foldl perform a

/-- The arguments that there are to start from. -/
inductive Start where
  | empty
  | default
  | standalone
deriving DecidableEq, Repr

namespace Start

def arguments : Start → Arguments
  | empty => .empty
  | default => Inhabited.default
  | standalone => .standalone

def flags : Start → List String
  | empty | default => []
  | standalone => ["-json", "-pretty-print=false", "-group-error-messages=false"]

def pattern : Start → Option String
  | empty | default => none
  | standalone => some "./..."

end Start

/-! ## What steps ask for -/

/-- The flag that a step asks for. -/
def Step.flag : Step → Option String
  | json true => some "-json"
  | prettyPrint true => some "-pretty-print=true"
  | prettyPrint false => some "-pretty-print=false"
  | groupMessages true => some "-group-error-messages=true"
  | groupMessages false => some "-group-error-messages=false"
  | json false | withPattern _ | addExtra _ => none

/-- The words that a step adds behind the flags. -/
def Step.words : Step → List String
  | addExtra words => words
  | json _ | prettyPrint _ | groupMessages _ | withPattern _ => []

/-- The pattern that a step sets. -/
def Step.pattern : Step → Option String
  | withPattern pattern => some pattern
  | json _ | prettyPrint _ | groupMessages _ | addExtra _ => none

/-- The pattern that steps leave, if they set one. -/
def lastPattern (steps : List Step) : Option String := (steps.filterMap Step.pattern).getLast?

/-- Two sequences of steps ask for the same flags, add the same words, and set the same pattern
last. -/
structure Agree (steps steps' : List Step) : Prop where
  flags : steps.filterMap Step.flag = steps'.filterMap Step.flag
  words : steps.flatMap Step.words = steps'.flatMap Step.words
  pattern : lastPattern steps = lastPattern steps'

/-! ## One step -/

section
variable (a : Arguments) (step : Step)

theorem flags_perform : (a.perform step).flags = a.flags ++ step.flag.toList := by
  cases step with
  | json enabled =>
    cases enabled with
    | false => exact (List.append_nil _).symm
    | true => rfl
  | prettyPrint enabled => cases enabled <;> rfl
  | groupMessages enabled => cases enabled <;> rfl
  | withPattern | addExtra => exact (List.append_nil _).symm

theorem extra_perform : (a.perform step).extra = a.extra ++ step.words := by
  cases step with
  | json enabled => cases enabled <;> exact (List.append_nil _).symm
  | prettyPrint | groupMessages | withPattern => exact (List.append_nil _).symm
  | addExtra words => rfl

theorem pattern_perform : (a.perform step).pattern = step.pattern.or a.pattern := by
  cases step with
  | json enabled => cases enabled <;> rfl
  | prettyPrint | groupMessages | withPattern | addExtra => rfl

end

/-! ## All steps -/

section
variable (a : Arguments) (steps : List Step)

theorem flags_after : (a.after steps).flags = a.flags ++ steps.filterMap Step.flag := by
  induction steps generalizing a with
  | nil => exact (List.append_nil _).symm
  | cons step steps ih =>
    rw [after, List.foldl_cons, ← after, ih, flags_perform, List.append_assoc, List.filterMap_cons]
    cases step.flag <;> rfl

theorem extra_after : (a.after steps).extra = a.extra ++ steps.flatMap Step.words := by
  induction steps generalizing a with
  | nil => exact (List.append_nil _).symm
  | cons step steps ih =>
    rw [after, List.foldl_cons, ← after, ih, extra_perform, List.append_assoc, List.flatMap_cons]

theorem lastPattern_cons (step : Step) :
    lastPattern (step :: steps) = (lastPattern steps).or step.pattern := by
  unfold lastPattern
  cases hstep : step.pattern with
  | none => simp [hstep]
  | some pattern =>
    rw [List.filterMap_cons_some hstep, List.getLast?_cons]
    cases (steps.filterMap Step.pattern).getLast? <;> rfl

theorem pattern_after : (a.after steps).pattern = (lastPattern steps).or a.pattern := by
  induction steps generalizing a with
  | nil => rfl
  | cons step steps ih =>
    rw [after, List.foldl_cons, ← after, ih, pattern_perform, lastPattern_cons, Option.or_assoc]

theorem toList_after : (a.after steps).toList =
    a.flags ++ steps.filterMap Step.flag ++ (a.extra ++ steps.flatMap Step.words) ++
      ((lastPattern steps).or a.pattern).toList := by
  rw [toList, flags_after, extra_after, pattern_after]

end

theorem toList_after_start (start : Start) (steps : List Step) :
    (start.arguments.after steps).toList =
      start.flags ++ steps.filterMap Step.flag ++ steps.flatMap Step.words ++
        ((lastPattern steps).or start.pattern).toList := by
  rw [toList_after]
  cases start <;> rfl

/-- **Arguments are built from what the steps ask for.** They are the flags that are there from the
start, one for each step that asks for one, all further words, and the last pattern, in this order
and within it in the order of the steps. So steps that agree build the same arguments, and what is
built from the standalone arguments always ends with the pattern, right behind the further words. -/
theorem built_from_steps (steps : List Step) :
    (∀ start : Start, (start.arguments.after steps).toList =
      start.flags ++ steps.filterMap Step.flag ++ steps.flatMap Step.words ++
        ((lastPattern steps).or start.pattern).toList) ∧
    (∀ (start : Start) (steps' : List Step), Agree steps steps' →
      (start.arguments.after steps).toList = (start.arguments.after steps').toList) ∧
    ∃ front, (standalone.after steps).toList =
      front ++ steps.flatMap Step.words ++ [(lastPattern steps).getD allPackages] := by
  refine ⟨fun start => toList_after_start start steps, fun start steps' h => ?_, ?_⟩
  · rw [toList_after_start, toList_after_start, h.flags, h.words, h.pattern]
  · refine ⟨Start.standalone.flags ++ steps.filterMap Step.flag, ?_⟩
    have hbuilt := toList_after_start .standalone steps
    cases hlast : lastPattern steps <;> rw [hlast] at hbuilt <;> exact hbuilt

/-- The same flags, words and last pattern, in another arrangement and with an earlier pattern. -/
theorem built_from_steps_rearranged :
    Agree [.json true, .addExtra ["-a", "-b"], .withPattern "./x", .prettyPrint true]
        [.withPattern "./y", .addExtra ["-a"], .json true, .addExtra [], .prettyPrint true,
          .withPattern "./x", .json false, .addExtra ["-b"]] ∧
      (Start.standalone.arguments.after
          [.withPattern "./y", .addExtra ["-a"], .json true, .addExtra [], .prettyPrint true,
            .withPattern "./x", .json false, .addExtra ["-b"]]).toList =
        ["-json", "-pretty-print=false", "-group-error-messages=false", "-json",
          "-pretty-print=true", "-a", "-b", "./x"] := by
  have hagree : Agree [.json true, .addExtra ["-a", "-b"], .withPattern "./x", .prettyPrint true]
      [.withPattern "./y", .addExtra ["-a"], .json true, .addExtra [], .prettyPrint true,
        .withPattern "./x", .json false, .addExtra ["-b"]] := ⟨rfl, rfl, rfl⟩
  obtain ⟨hbuilt, hsame, -⟩ := built_from_steps
    [.json true, .addExtra ["-a", "-b"], .withPattern "./x", .prettyPrint true]
  refine ⟨hagree, ?_⟩
  rw [← hsame .standalone _ hagree, hbuilt .standalone]
  rfl

end Findings.Analyzer.Arguments
