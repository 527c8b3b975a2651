import Findings.CommandLine.Parse
import Mathlib.Data.List.Forall2

/-!
# What a command line says

`Spelled o args`: the arguments `args` say the options `o`. They are parts in any order, each an
option with its value, the flag or the directory (`Part`), each written in one of its ways
(`Part.Spells`); the directory may also stand behind `--` at the end.

While arguments are taken, a value that was written apart from its option has not been looked at
yet. What has been said is therefore read off the state by `Partial.settle`: a part adds to it just
what it says (`arguments_part`), and all parts together say the options (`parse_spelled`).
-/

set_option autoImplicit false

namespace Findings.CommandLine

/-! ## Spellings -/

/-- One part of what a command line says. -/
inductive Part where
  | value (target : Target) (text : String)
  | json
deriving DecidableEq, Repr

/-- The value that a part gives to the target. -/
def Part.valueFor (target : Target) : Part → Option String
  | value t text => if t = target then some text else none
  | json => none

/-- The values that options give to a target. -/
def Options.values (o : Options) : Target → List String
  | .directory => [o.directory]
  | .choice .config => o.config.toList
  | .choice .tool => o.tool.toList
  | .choice .analyzer => o.analyzer.toList
  | .choice .buildDirectory => o.buildDirectory.toList
  | .choice .buildCommand => o.buildCommand
  | .choice .replay => o.replay.toList

/-- No path among the options is empty. -/
def Options.PathsNamed (o : Options) : Prop := ∀ t : Target, t.isPath = true → "" ∉ o.values t

/-- The parts say the options: each value once, the values for one target in their order. How the
values for one target stand among those for others does not count. -/
structure Options.ComposedOf (o : Options) (parts : List Part) : Prop where
  values : ∀ t, parts.filterMap (Part.valueFor t) = o.values t
  json : parts.count .json = o.json.toNat

def HyphenFirst (text : String) : Prop := text.toList.head? = some '-'

instance (text : String) : Decidable (HyphenFirst text) :=
  inferInstanceAs (Decidable (_ = _))

/-- The arguments that a part is written as. A value that stands apart from its option must not
start with a hyphen, unless it is a word of the build command. -/
inductive Part.Spells : Part → List String → Prop
  | attached (c : Choice) (text : String) :
      Spells (.value (.choice c) text) ["--" ++ c.name ++ "=" ++ text]
  | apart {c : Choice} {text : String} (h : c = .buildCommand ∨ ¬ HyphenFirst text) :
      Spells (.value (.choice c) text) ["--" ++ c.name, text]
  | letter {text : String} (h : ¬ HyphenFirst text) :
      Spells (.value (.choice .config) text) ["-c", text]
  | bare {text : String} (h : ¬ HyphenFirst text) : Spells (.value .directory text) [text]
  | json : Spells .json ["--json"]

/-- The arguments say the options. -/
inductive Spelled (o : Options) : List String → Prop
  | among {parts : List Part} {groups : List (List String)} (h : o.ComposedOf parts)
      (hspells : List.Forall₂ Part.Spells parts groups) : Spelled o groups.flatten
  | last {parts : List Part} {groups : List (List String)}
      (h : o.ComposedOf (parts ++ [.value .directory o.directory]))
      (hspells : List.Forall₂ Part.Spells parts groups) :
      Spelled o (groups.flatten ++ ["--", o.directory])

/-! ## What has been said -/

namespace Partial

/-- The values for a target so far. -/
def values (p : Partial) : Target → List String
  | .directory => p.directory.toList
  | .choice .config => p.config.toList
  | .choice .tool => p.tool.toList
  | .choice .analyzer => p.analyzer.toList
  | .choice .buildDirectory => p.buildDirectory.toList
  | .choice .buildCommand => p.buildCommand
  | .choice .replay => p.replay.toList

/-- What has been said after a further part. -/
def join (p : Partial) : Part → Partial
  | .value t text => p.put text t
  | .json => { p with json := true }

/-- The part may be said now. -/
def Admits (p : Partial) : Part → Prop
  | .value t text => p.has t = false ∧ (t.isPath = true → text ≠ "")
  | .json => p.json = false

variable {p q : Partial} {pending : Pending} {part : Part} {parts : List Part} {t t' : Target}
  {text : String}

theorem has_eq_false_iff : p.has t = false ↔ t = .choice .buildCommand ∨ p.values t = [] := by
  obtain _ | c := t
  · simp [has, values]
  · cases c <;> simp [has, values]

theorem values_put_self (h : p.has t = false) : (p.put text t).values t = p.values t ++ [text] := by
  rcases has_eq_false_iff.1 h with rfl | hnone
  · rfl
  · rw [hnone]
    obtain _ | c := t
    · rfl
    · cases c with
      | buildCommand => exact congrArg (· ++ [text]) hnone
      | config | tool | analyzer | buildDirectory | replay => rfl

theorem values_put_of_ne (h : t ≠ t') : (p.put text t).values t' = p.values t' := by
  obtain _ | c := t <;> obtain _ | c' := t'
  · exact absurd rfl h
  · cases c' <;> rfl
  · cases c <;> rfl
  · cases c <;> cases c' <;> first | rfl | exact absurd rfl h

theorem json_put : (p.put text t).json = p.json := by
  obtain _ | c := t
  · rfl
  · cases c <;> rfl

theorem set_of_admits (h : p.Admits (.value t text)) : p.set t text = .ok (p.put text t) := by
  have hnamed : ¬ (t.isPath && text = "") = true := by simpa using h.2
  rw [set, h.1, if_neg Bool.false_ne_true, if_neg hnamed]

theorem values_join (h : p.Admits part) (t : Target) :
    (p.join part).values t = p.values t ++ (part.valueFor t).toList := by
  cases part with
  | json =>
    rw [Part.valueFor, Option.toList_none, List.append_nil]
    obtain _ | c := t
    · rfl
    · cases c <;> rfl
  | value t' text =>
    by_cases ht : t' = t
    · subst ht
      rw [Part.valueFor, if_pos rfl]
      exact values_put_self h.1
    · rw [Part.valueFor, if_neg ht, Option.toList_none, List.append_nil]
      exact values_put_of_ne ht

/-- The parts may be said one after the other. -/
structure AdmitsAll (p : Partial) (parts : List Part) : Prop where
  once : ∀ t, t ≠ .choice .buildCommand →
    (p.values t ++ parts.filterMap (Part.valueFor t)).length ≤ 1
  named : ∀ t : Target, t.isPath = true → "" ∉ parts.filterMap (Part.valueFor t)
  flag : p.json.toNat + parts.count .json ≤ 1

theorem AdmitsAll.head (h : p.AdmitsAll (part :: parts)) : p.Admits part := by
  cases part with
  | json =>
    have hflag := h.flag
    rw [List.count_cons_self] at hflag
    exact Bool.eq_false_iff.2 fun hjson => by rw [hjson, Bool.toNat_true] at hflag; omega
  | value t text =>
    have hvalue : Part.valueFor t (.value t text) = some text := if_pos rfl
    refine ⟨has_eq_false_iff.2 (or_iff_not_imp_left.2 fun ht => ?_), fun hpath htext => ?_⟩
    · have honce := h.once t ht
      rw [List.filterMap_cons_some hvalue, List.length_append, List.length_cons] at honce
      exact List.length_eq_zero_iff.1 (by omega)
    · refine h.named t hpath ?_
      rw [List.filterMap_cons_some hvalue, htext]
      exact List.mem_cons_self

theorem json_join (h : p.Admits part) :
    (p.join part).json.toNat = p.json.toNat + [part].count .json := by
  cases part with
  | json =>
    have hjson : p.json = false := h
    rw [hjson]
    rfl
  | value t text =>
    rw [join, json_put]
    rfl

theorem AdmitsAll.tail (h : p.AdmitsAll (part :: parts)) : (p.join part).AdmitsAll parts where
  once t ht := by
    have honce := h.once t ht
    rw [← List.singleton_append, List.filterMap_append, ← List.append_assoc] at honce
    rw [values_join h.head]
    cases hvalue : part.valueFor t <;> simpa [hvalue] using honce
  named t ht hempty := h.named t ht <| by
    rw [← List.singleton_append, List.filterMap_append]
    exact List.mem_append_right _ hempty
  flag := by
    have hflag := h.flag
    rw [← List.singleton_append, List.count_append] at hflag
    rw [json_join h.head]
    omega

/-- What has been said after all parts. -/
def joinAll (p : Partial) (parts : List Part) : Partial := parts.foldl join p

theorem joinAll_append_singleton (p : Partial) (parts : List Part) (part : Part) :
    p.joinAll (parts ++ [part]) = (p.joinAll parts).join part :=
  List.foldl_append

theorem values_joinAll (h : p.AdmitsAll parts) (t : Target) :
    (p.joinAll parts).values t = p.values t ++ parts.filterMap (Part.valueFor t) := by
  induction parts generalizing p with
  | nil => exact (List.append_nil _).symm
  | cons part parts ih =>
    rw [joinAll, List.foldl_cons, ← joinAll, ih h.tail, values_join h.head, List.append_assoc]
    cases hvalue : part.valueFor t <;> simp [hvalue]

theorem json_joinAll (h : p.AdmitsAll parts) :
    (p.joinAll parts).json.toNat = p.json.toNat + parts.count .json := by
  induction parts generalizing p with
  | nil => rfl
  | cons part parts ih =>
    rw [joinAll, List.foldl_cons, ← joinAll, ih h.tail, json_join h.head, Nat.add_assoc,
      ← List.count_append, List.singleton_append]

end Partial

/-! ## Taking arguments -/

section
variable {p p' q : Partial} {pending pending' : Pending} {part : Part} {c : Choice}
  {text a : String} {rest : List String}

open Partial

/-- A pending value for the directory counts as given. -/
theorem isDirectoryGiven_of_settle (h : p.settle pending = .ok q) :
    isDirectoryGiven p pending = q.directory.isSome := by
  cases pending with
  | nothing => cases h; rfl
  | awaited c => cases h
  | held t text =>
    rw [settle, Partial.set] at h
    split at h
    · cases h
    split at h
    · cases h
    cases h
    obtain _ | c := t
    · rfl
    · cases c <;> rfl

theorem arguments_of_argument (h : p.settle pending = .ok q) (ha : a ≠ "--")
    (hargument : argument p pending a = .ok (p', pending')) :
    arguments p pending (a :: rest) = arguments p' pending' rest := by
  rw [arguments, if_neg ha, hargument]
  rintro rfl
  cases h

/-- What does not start with a hyphen is a value. -/
theorem argument_bare (p : Partial) (pending : Pending) (h : ¬ HyphenFirst text) :
    argument p pending text =
      match pending with
      | .awaited c => .ok (p, .held (.choice c) text)
      | _ => positional p pending (isDirectoryGiven p pending) text := by
  unfold argument
  split
  next heq => exact absurd (congrArg List.head? heq) h
  next heq => exact absurd (congrArg List.head? heq) h
  next => rfl

/-- The value that an option waits for is taken. -/
theorem arguments_awaited (h : c = .buildCommand ∨ ¬ HyphenFirst text) :
    arguments p (.awaited c) (text :: rest) = arguments p (.held (.choice c) text) rest := by
  by_cases hc : c = .buildCommand
  · subst hc
    rw [arguments]
  · have hbare : ¬ HyphenFirst text := h.resolve_left hc
    have hapart : text ≠ "--" := fun heq => hbare (heq ▸ rfl)
    rw [arguments, if_neg hapart, argument_bare p _ hbare]
    rintro ⟨⟩
    exact hc rfl

theorem argument_long (body : String) :
    argument p pending ("--" ++ body) = long p pending body.toList := by
  have htext : ("--" ++ body).toList = '-' :: '-' :: body.toList := String.toList_append
  unfold argument
  rw [htext]
  rfl

theorem long_attached (c : Choice) (text : String) :
    long p pending (c.name ++ "=" ++ text).toList = p.choose pending c (some text) := by
  have htext : (c.name ++ "=" ++ text).toList = c.name.toList ++ '=' :: text.toList := by
    rw [String.toList_append, String.toList_append, List.append_assoc]
    rfl
  have hname : ∀ x ∈ c.name.toList, decide (x ≠ '=') = true :=
    List.all_eq_true.1 (by cases c <;> decide)
  unfold long
  rw [htext, List.takeWhile_append_of_pos hname, List.dropWhile_append_of_pos hname]
  cases c <;> simp [Choice.all, Choice.name]

theorem long_apart (c : Choice) : long p pending c.name.toList = p.choose pending c none := by
  cases c <;> rfl

theorem choose_attached (h : p.settle pending = .ok q)
    (hadmits : q.Admits (.value (.choice c) text)) :
    p.choose pending c (some text) = .ok (q.put text (.choice c), .nothing) := by
  rw [choose, h]
  simp only [set_of_admits hadmits]
  rfl

theorem choose_apart (h : p.settle pending = .ok q) :
    p.choose pending c none = .ok (q, .awaited c) := by
  rw [choose, h]
  rfl

theorem raise_json (h : p.settle pending = .ok q) (hadmits : q.Admits .json) :
    p.raise pending .json = .ok (q.join .json) := by
  have hjson : q.json = false := hadmits
  rw [raise, h]
  simp only [hjson]
  rfl

theorem positional_of_settle (h : p.settle pending = .ok q)
    (hadmits : q.Admits (.value .directory text)) :
    positional p pending (isDirectoryGiven p pending) text =
      .ok (q, .held .directory text) := by
  have hnone : q.directory.isSome = false := hadmits.1
  rw [isDirectoryGiven_of_settle h, hnone, positional, if_neg Bool.false_ne_true, h]
  rfl

theorem hyphens_append_ne {body : String} (h : body ≠ "") : "--" ++ body ≠ "--" := by
  intro heq
  have hlength := congrArg String.length heq
  rw [String.length_append] at hlength
  exact h (String.length_eq_zero_iff.1 (Nat.add_eq_left.1 hlength))

/-- **A part adds what it says.** Its value may still be pending afterwards. -/
theorem arguments_part {group : List String} (h : p.settle pending = .ok q)
    (hadmits : q.Admits part) (hspells : part.Spells group) (rest : List String) :
    ∃ p' pending', p'.settle pending' = .ok (q.join part) ∧
      arguments p pending (group ++ rest) = arguments p' pending' rest := by
  -- an option whose value stands apart: it waits, then the value is held
  have happart {c : Choice} {text name : String} (hadmits : q.Admits (.value (.choice c) text))
      (hname : name ≠ "--") (hargument : argument p pending name = p.choose pending c none)
      (htext : c = .buildCommand ∨ ¬ HyphenFirst text) :
      ∃ p' pending', p'.settle pending' = .ok (q.join (.value (.choice c) text)) ∧
        arguments p pending (name :: text :: rest) = arguments p' pending' rest := by
    refine ⟨q, .held (.choice c) text, set_of_admits hadmits, ?_⟩
    rw [arguments_of_argument h hname (hargument.trans (choose_apart h)), arguments_awaited htext]
  cases hspells with
  | attached c text =>
    refine ⟨_, .nothing, rfl, ?_⟩
    have hbody : "--" ++ c.name ++ "=" ++ text = "--" ++ (c.name ++ "=" ++ text) := by
      rw [String.append_assoc, String.append_assoc, String.append_assoc]
    rw [hbody]
    refine arguments_of_argument h (hyphens_append_ne ?_) ?_
    · cases c <;> simp [Choice.name]
    · rw [argument_long, long_attached, choose_attached h hadmits]
      rfl
  | @apart c text htext =>
    refine happart hadmits (by cases c <;> decide) ?_ htext
    rw [argument_long, long_apart]
  | letter htext => exact happart hadmits (by decide) rfl (.inr htext)
  | @bare text htext =>
    refine ⟨q, .held .directory text, set_of_admits hadmits, arguments_of_argument h ?_ ?_⟩
    · rintro rfl
      exact htext rfl
    · rw [argument_bare p pending htext]
      split
      · cases h
      · exact positional_of_settle h hadmits
  | json =>
    refine ⟨_, .nothing, rfl, arguments_of_argument h (by decide) ?_⟩
    have hlong : argument p pending "--json" = (p.raise pending .json).map fun p => (p, .nothing) :=
      rfl
    rw [hlong, raise_json h hadmits]
    rfl

/-- Parts one after the other add up; what may follow them still may. -/
theorem arguments_parts {parts more : List Part} {groups : List (List String)}
    (h : p.settle pending = .ok q) (hadmits : q.AdmitsAll (parts ++ more))
    (hspells : List.Forall₂ Part.Spells parts groups) (rest : List String) :
    ∃ p' pending', p'.settle pending' = .ok (q.joinAll parts) ∧
      (q.joinAll parts).AdmitsAll more ∧
      arguments p pending (groups.flatten ++ rest) = arguments p' pending' rest := by
  induction hspells generalizing p pending q with
  | nil => exact ⟨p, pending, h, hadmits, rfl⟩
  | @cons part group parts groups hpart _ ih =>
    obtain ⟨p₁, pending₁, h₁, hgroup⟩ :=
      arguments_part h hadmits.head hpart (groups.flatten ++ rest)
    obtain ⟨p₂, pending₂, h₂, hmore, hgroups⟩ := ih h₁ hadmits.tail
    exact ⟨p₂, pending₂, h₂, hmore,
      by rw [List.flatten_cons, List.append_assoc, hgroup, hgroups]⟩

/-- Behind two hyphens the directory is taken whatever it looks like. -/
theorem arguments_last (h : p.settle pending = .ok q)
    (hadmits : q.Admits (.value .directory text)) :
    arguments p pending ["--", text] = .ok (q, .held .directory text) := by
  rw [arguments, if_pos rfl, positionals, positional_of_settle h hadmits]
  · rfl
  · rintro rfl
    cases h

end

/-! ## All arguments -/

section
variable {o : Options} {parts : List Part} {args : List String}

theorem Options.ComposedOf.admitsAll (h : o.ComposedOf parts) (ho : o.PathsNamed) :
    Partial.AdmitsAll {} parts where
  once t ht := by
    have hnone : Partial.values {} t = [] := by
      obtain _ | c := t
      · rfl
      · cases c <;> rfl
    rw [hnone, List.nil_append, h.values]
    obtain _ | c := t
    · exact Nat.le_refl 1
    · cases c with
      | buildCommand => exact absurd rfl ht
      | config | tool | analyzer | buildDirectory | replay => exact Option.length_toList_le
  named t ht := by
    rw [h.values]
    exact ho t ht
  flag := by
    rw [h.json]
    cases o.json <;> decide

/-- What has been said in the end is the options. -/
theorem Options.ComposedOf.joinAll_eq (h : o.ComposedOf parts) (ho : o.PathsNamed) :
    Partial.joinAll {} parts =
      { directory := some o.directory, config := o.config, tool := o.tool, analyzer := o.analyzer
        buildDirectory := o.buildDirectory, buildCommand := o.buildCommand, replay := o.replay
        json := o.json } := by
  have hadmits := h.admitsAll ho
  have hvalues (t : Target) :
      (Partial.joinAll {} parts).values t = Partial.values {} t ++ o.values t := by
    rw [Partial.values_joinAll hadmits, h.values]
  have hjson : (Partial.joinAll {} parts).json.toNat = o.json.toNat := by
    rw [Partial.json_joinAll hadmits, h.json]
    exact Nat.zero_add _
  have hoption {x y : Option String} (hxy : x.toList = y.toList) : x = y := by
    rw [← Option.head?_toList (o := x), hxy, Option.head?_toList]
  have hflag {x y : Bool} (hxy : x.toNat = y.toNat) : x = y := by
    cases x <;> cases y <;> first | rfl | cases hxy
  generalize Partial.joinAll {} parts = q at hvalues hjson
  cases q with
  | mk directory config tool analyzer buildDirectory buildCommand replay json =>
    simp only [Partial.mk.injEq]
    exact ⟨hoption (hvalues .directory), hoption (hvalues (.choice .config)),
      hoption (hvalues (.choice .tool)), hoption (hvalues (.choice .analyzer)),
      hoption (hvalues (.choice .buildDirectory)), hvalues (.choice .buildCommand),
      hoption (hvalues (.choice .replay)), hflag hjson⟩

theorem parse_of_arguments {p : Partial} {pending : Pending}
    (harguments : arguments {} .nothing args = .ok (p, pending))
    (h : p.settle pending = .ok (Partial.joinAll {} parts)) (hparts : o.ComposedOf parts)
    (ho : o.PathsNamed) : parse args = .ok o := by
  rw [parse, harguments]
  show (p.settle pending >>= _) = _
  rw [h, hparts.joinAll_eq ho]
  rfl

theorem Spelled.parse_eq (h : Spelled o args) (ho : o.PathsNamed) : parse args = .ok o := by
  have hnothing : Partial.settle {} .nothing = .ok {} := rfl
  cases h with
  | @among parts groups h hspells =>
    have hadmits : Partial.AdmitsAll {} (parts ++ []) := by
      rw [List.append_nil]
      exact h.admitsAll ho
    obtain ⟨p, pending, hp, -, harguments⟩ :=
      arguments_parts hnothing hadmits hspells []
    rw [List.append_nil] at harguments
    exact parse_of_arguments harguments hp h ho
  | @last parts groups h hspells =>
    obtain ⟨p, pending, hp, hmore, harguments⟩ :=
      arguments_parts hnothing (h.admitsAll ho) hspells ["--", o.directory]
    refine parse_of_arguments (harguments.trans (arguments_last hp hmore.head)) ?_ h ho
    rw [Partial.joinAll_append_singleton]
    exact Partial.set_of_admits hmore.head

/-- The arguments of a part, a value attached to its option. -/
def Part.arguments : Part → List String
  | .value .directory text => [text]
  | .value (.choice c) text => ["--" ++ c.name ++ "=" ++ text]
  | .json => ["--json"]

/-- What the options say besides the directory. -/
def Options.otherParts (o : Options) : List Part :=
  (Choice.all.flatMap fun c => (o.values (.choice c)).map (.value (.choice c))) ++
    List.replicate o.json.toNat .json

/-- Arguments that say the options. -/
def Options.arguments (o : Options) : List String :=
  (o.otherParts.map Part.arguments).flatten ++ ["--", o.directory]

theorem filterMap_valueFor (t t' : Target) (texts : List String) :
    (texts.map (Part.value t')).filterMap (Part.valueFor t) = if t' = t then texts else [] := by
  rw [List.filterMap_map]
  split <;> simp_all [Part.valueFor]

theorem Options.composedOf_otherParts (o : Options) :
    o.ComposedOf (o.otherParts ++ [.value .directory o.directory]) where
  values t := by
    have hjson : (List.replicate o.json.toNat Part.json).filterMap (Part.valueFor t) = [] := by
      cases o.json <;> rfl
    rw [otherParts, List.filterMap_append, List.filterMap_append, hjson, List.filterMap_flatMap]
    simp only [filterMap_valueFor]
    obtain _ | c := t
    · rfl
    · cases c <;> simp [Choice.all, Part.valueFor]
  json := by
    have hvalues : (Choice.all.flatMap fun c =>
        (o.values (.choice c)).map (Part.value (.choice c))).count .json = 0 :=
      List.count_eq_zero.2 fun hmem => by simp at hmem
    rw [otherParts, List.count_append, List.count_append, hvalues, List.count_replicate_self]
    exact Nat.zero_add _

theorem Options.spelled_arguments (o : Options) : Spelled o o.arguments := by
  refine .last o.composedOf_otherParts ?_
  rw [List.forall₂_map_right_iff, List.forall₂_same]
  intro part hpart
  cases part with
  | json => exact .json
  | value t text =>
    obtain _ | c := t
    · simp [otherParts] at hpart
    · exact .attached c text

/-- **A command line is read as it is meant.** Options without empty paths can be said, and however
they are, parsing gives just them. -/
theorem parse_spelled {o : Options} (h : o.PathsNamed) :
    Spelled o o.arguments ∧ ∀ args, Spelled o args → parse args = .ok o :=
  ⟨o.spelled_arguments, fun _ hargs => hargs.parse_eq h⟩

/-- Words of the build command that look like options, in between others. -/
theorem parse_spelled_hyphens :
    let o : Options :=
      { directory := "--json", config := some "c.toml", analyzer := some ""
        buildCommand := ["--", "--json", "-c", "", "--help"], json := true }
    let args :=
      ["--build-command", "--", "-c", "c.toml", "--build-command", "--json", "--build-command=-c",
        "--json", "--build-command", "", "--analyzer", "", "--build-command", "--help", "--",
        "--json"]
    o.PathsNamed ∧ Spelled o args ∧ parse args = .ok o := by
  intro o args
  have hpaths : o.PathsNamed := by
    intro t
    obtain _ | c := t
    · decide
    · cases c <;> decide
  have hspelled : Spelled o args := by
    have hparts : o.ComposedOf
        ([.value (.choice .buildCommand) "--", .value (.choice .config) "c.toml",
          .value (.choice .buildCommand) "--json", .value (.choice .buildCommand) "-c", .json,
          .value (.choice .buildCommand) "", .value (.choice .analyzer) "",
          .value (.choice .buildCommand) "--help"] ++ [.value .directory o.directory]) := by
      refine ⟨fun t => ?_, rfl⟩
      obtain _ | c := t
      · rfl
      · cases c <;> rfl
    exact .last hparts (.cons (.apart (.inl rfl)) <| .cons (.letter (by decide)) <|
      .cons (.apart (.inl rfl)) <| .cons (.attached .buildCommand "-c") <| .cons .json <|
      .cons (.apart (.inl rfl)) <| .cons (.apart (.inr (by decide))) <|
      .cons (.apart (.inl rfl)) .nil)
  exact ⟨hpaths, hspelled, (parse_spelled hpaths).2 args hspelled⟩

end

end Findings.CommandLine
