import Findings.Log
import Findings.Process

/-!
# Sessions

A `Session α` is a computation that asks its surroundings: it reads files, looks at the
environment and starts processes. It is a tree of requests, each with a branch for every answer, so
what a run may do is visible without running it. A `Host` answers the requests from a state of its
own.
-/

set_option autoImplicit false

namespace Findings

inductive Request where
  /-- The bytes of a file. -/
  | file (path : String)
  /-- Whether a path leads to a regular file that may be executed. -/
  | executable (path : String)
  /-- The value of an environment variable. -/
  | environment (name : String)
  | currentDirectory
  /-- Runs a process to its end. -/
  | process (command : Command)
deriving DecidableEq, Repr

/-- What a request is answered with. -/
@[reducible] def Request.Answer : Request → Type
  | file _ => Except SystemError (List UInt8)
  | executable _ => Bool
  | environment _ => Option String
  | currentDirectory => Option String
  | process _ => Except SystemError Ended

inductive Session (α : Type) where
  | done (value : α)
  | log (entry : LogEntry) (next : Session α)
  | ask (request : Request) (next : request.Answer → Session α)

namespace Session

variable {α β γ : Type}

def bind (f : α → Session β) : Session α → Session β
  | done a => f a
  | log e s => log e (s.bind f)
  | ask r k => ask r fun answer => (k answer).bind f

instance : Monad Session where
  pure := done
  bind s f := s.bind f

theorem bind_done (s : Session α) : s.bind done = s := by
  induction s with
  | done a => rfl
  | log e s ih => simp [bind, ih]
  | ask r k ih => simp [bind, ih]

theorem bind_assoc (s : Session α) (f : α → Session β) (g : β → Session γ) :
    (s.bind f).bind g = s.bind fun a => (f a).bind g := by
  induction s with
  | done a => rfl
  | log e s ih => simp [bind, ih]
  | ask r k ih => simp [bind, ih]

instance : LawfulMonad Session := by
  refine LawfulMonad.mk' Session (fun s => ?_) (fun _ _ => rfl) (fun s f g => ?_)
  · exact bind_done s
  · exact bind_assoc s f g

/-- Asks one request. -/
def request (r : Request) : Session r.Answer := ask r done

/-- Logs entries. -/
def logAll : List LogEntry → Session Unit
  | [] => done ()
  | e :: es => log e (logAll es)

end Session

/-- Surroundings with a state: every request has an answer and leaves a state. -/
structure Host (σ : Type) where
  answer : (r : Request) → σ → r.Answer × σ

/-- A session that came to its end. -/
structure Completed (σ α : Type) where
  value : α
  logged : List LogEntry
  state : σ

namespace Session

variable {σ α : Type}

/-- Runs a session in the given surroundings. -/
def run (host : Host σ) : Session α → σ → Completed σ α
  | done a, s => ⟨a, [], s⟩
  | log e next, s =>
    let c := run host next s
    { c with logged := e :: c.logged }
  | ask r next, s => run host (next (host.answer r s).1) (host.answer r s).2

/-- Runs a session with the answers of a monad; the log goes to `write`. -/
def runM {m : Type → Type} [Monad m] (answer : (r : Request) → m r.Answer)
    (write : LogEntry → m Unit) : Session α → m α
  | done a => Pure.pure a
  | log e next => do write e; runM answer write next
  | ask r next => do runM answer write (next (← answer r))

end Session

end Findings
