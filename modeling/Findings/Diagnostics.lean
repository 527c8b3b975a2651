import Findings.Failure
import Findings.Log
import Findings.Payload.Reader

/-!
# Diagnostics

The result of a run: at most one message per line of a file. `Diagnostics.collect` goes through the
findings of one analyzer in all packages, in ascending order of their names, and fails rather than
lose a finding. It logs what it does on the way.
-/

set_option autoImplicit false

namespace Findings

/-- Messages by position. -/
abbrev Diagnostics := SortedMap Position String

/-- What collecting comes to, and what is logged until then. -/
structure Collected where
  result : Except Failure Diagnostics
  logged : List LogEntry

/-- Goes on with what has been collected. A failure ends it. -/
def Collected.andThen (c : Collected) (f : Diagnostics → Collected) : Collected :=
  match c.result with
  | .error _ => c
  | .ok m => ⟨(f m).result, c.logged ++ (f m).logged⟩

theorem Collected.result_andThen (c : Collected) (f : Diagnostics → Collected) :
    (c.andThen f).result = c.result >>= fun m => (f m).result := by
  unfold andThen
  cases h : c.result with
  | error e => exact h
  | ok m => rfl

namespace Diagnostics

/-- Adds a finding whose line has none yet. -/
def add (m : Diagnostics) (d : Finding) : Except Failure Diagnostics :=
  match Position.ofPosn d.posn with
  | .error cause => .error (.malformedPosition d cause)
  | .ok p =>
    match m.get? p with
    | some existing => .error (.duplicatePosition p existing d.message)
    | none => .ok (m.insert p d.message)

/-- Adds the findings of `analyzer` in one package; if it wrote no list, it found nothing. The
findings are counted before they are looked at. -/
def addEntry (analyzer : String) (m : Diagnostics) (e : String × Entry) : Collected :=
  match e.2.get? analyzer with
  | none => ⟨.error (.schema analyzer e.1 e.2.shown), []⟩
  | some r =>
    let findings := r.getD []
    ⟨findings.foldlM add m, [⟨.trace, e.1 ++ ": " ++ toString findings.length ++ " diagnostics"⟩]⟩

/-- Adds the findings of `analyzer` in one package after the other. -/
def addEntries (analyzer : String) (m : Diagnostics) : List (String × Entry) → Collected
  | [] => ⟨.ok m, [⟨.debug, "collected " ++ toString m.size ++ " diagnostics"⟩]⟩
  | e :: rest => (addEntry analyzer m e).andThen fun m => addEntries analyzer m rest

/-- Collects the findings of `analyzer`. -/
def collect (analyzer : String) (payload : Payload) : Collected :=
  let c := addEntries analyzer ∅ payload.toList
  { c with
    logged := ⟨.debug, "normalizing " ++ toString payload.size ++ " package entries"⟩ :: c.logged }

/-- Collects the findings of `analyzer` from its raw output. Nothing is logged if the output is no
payload. -/
def collectBytes (analyzer : String) (raw : List UInt8) : Collected :=
  match Payload.decode raw with
  | .error cause => ⟨.error (.decode cause (Utf8.lossy raw)), []⟩
  | .ok payload => collect analyzer payload

/-- What the findings of `analyzer` in a payload come to. -/
def ofPayload (analyzer : String) (payload : Payload) : Except Failure Diagnostics :=
  (collect analyzer payload).result

/-- What the findings of `analyzer` in its raw output come to. -/
def ofBytes (analyzer : String) (raw : List UInt8) : Except Failure Diagnostics :=
  (collectBytes analyzer raw).result

section
variable {raw : List UInt8}

theorem collectBytes_of_decoded {payload : Payload} (h : Payload.decode raw = .ok payload)
    (analyzer : String) : collectBytes analyzer raw = collect analyzer payload := by
  rw [collectBytes, h]

theorem ofBytes_of_decoded {payload : Payload} (h : Payload.decode raw = .ok payload)
    (analyzer : String) : ofBytes analyzer raw = ofPayload analyzer payload := by
  rw [ofBytes, collectBytes_of_decoded h, ofPayload]

theorem ofBytes_of_refused {cause : Json.ReadError} (h : Payload.decode raw = .error cause)
    (analyzer : String) : ofBytes analyzer raw = .error (.decode cause (Utf8.lossy raw)) := by
  rw [ofBytes, collectBytes, h]

end

end Diagnostics

end Findings
