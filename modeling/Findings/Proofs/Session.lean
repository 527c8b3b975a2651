import Findings.Session

/-!
# Runs of sessions

What a session does in given surroundings, by what its parts do. `Session.asked` lists its requests,
each with the state in which it is made, and `Session.started` the processes among them. A session
that goes on with another (`>>=`) makes the requests of the first and then, from the state that is
left, those of the second (`asked_bind`).
-/

set_option autoImplicit false

namespace Findings

/-- The process that a request starts. -/
def Request.command? : Request → Option Command
  | process command => some command
  | _ => none

namespace Session

variable {σ α β : Type}

/-- The requests of a session in their order, each with the state in which it is made. -/
def asked (host : Host σ) : Session α → σ → List (σ × Request)
  | done _, _ => []
  | log _ next, s => asked host next s
  | ask r next, s => (s, r) :: asked host (next (host.answer r s).1) (host.answer r s).2

/-- The processes that a session starts, each with the state in which it is started. -/
def started (host : Host σ) (x : Session α) (s : σ) : List (σ × Command) :=
  (x.asked host s).filterMap fun e => e.2.command?.map (e.1, ·)

/-- Runs a session for each of the values, one after the other, each in the state that the one
before it left. -/
def runEach (host : Host σ) (f : β → Session α) : List β → σ → List (β × Completed σ α)
  | [], _ => []
  | b :: bs, s => (b, (f b).run host s) :: runEach host f bs ((f b).run host s).state

section
variable (host : Host σ) (s : σ)

theorem run_bind (x : Session α) (f : α → Session β) :
    (x >>= f).run host s =
      { (f (x.run host s).value).run host (x.run host s).state with
        logged := (x.run host s).logged ++
          ((f (x.run host s).value).run host (x.run host s).state).logged } := by
  induction x generalizing s with
  | done a => rfl
  | log e x ih =>
    show (log e (x >>= f)).run host s = _
    rw [run, ih]
    rfl
  | ask r next ih => exact ih (host.answer r s).1 (host.answer r s).2

@[simp] theorem value_bind (x : Session α) (f : α → Session β) :
    ((x >>= f).run host s).value =
      ((f (x.run host s).value).run host (x.run host s).state).value := by
  rw [run_bind]

@[simp] theorem state_bind (x : Session α) (f : α → Session β) :
    ((x >>= f).run host s).state =
      ((f (x.run host s).value).run host (x.run host s).state).state := by
  rw [run_bind]

@[simp] theorem logged_bind (x : Session α) (f : α → Session β) :
    ((x >>= f).run host s).logged =
      (x.run host s).logged ++
        ((f (x.run host s).value).run host (x.run host s).state).logged := by
  rw [run_bind]

@[simp] theorem asked_bind (x : Session α) (f : α → Session β) :
    (x >>= f).asked host s =
      x.asked host s ++ (f (x.run host s).value).asked host (x.run host s).state := by
  induction x generalizing s with
  | done a => rfl
  | log e x ih => exact ih s
  | ask r next ih => exact congrArg _ (ih (host.answer r s).1 (host.answer r s).2)

theorem run_request_bind (r : Request) (f : r.Answer → Session β) :
    (request r >>= f).run host s = (f (host.answer r s).1).run host (host.answer r s).2 := rfl

@[simp] theorem value_request (r : Request) :
    ((request r).run host s).value = (host.answer r s).1 := rfl

@[simp] theorem state_request (r : Request) :
    ((request r).run host s).state = (host.answer r s).2 := rfl

@[simp] theorem asked_request (r : Request) : (request r).asked host s = [(s, r)] := rfl

@[simp] theorem run_logAll (es : List LogEntry) : (logAll es).run host s = ⟨(), es, s⟩ := by
  induction es with
  | nil => rfl
  | cons e es ih => rw [logAll, run, ih]

@[simp] theorem asked_logAll (es : List LogEntry) : (logAll es).asked host s = [] := by
  induction es with
  | nil => rfl
  | cons e es ih => exact ih

@[simp] theorem started_bind (x : Session α) (f : α → Session β) :
    (x >>= f).started host s =
      x.started host s ++ (f (x.run host s).value).started host (x.run host s).state := by
  rw [started, asked_bind, List.filterMap_append]
  rfl

@[simp] theorem started_logAll (es : List LogEntry) : (logAll es).started host s = [] := by
  rw [started, asked_logAll]
  rfl

end

end Session

end Findings
