import Findings.Json.Reader
import Findings.Payload

/-!
# Reading a payload

A payload is a JSON object of objects whose values are `null` or lists of findings. A finding is an
object with the members `posn` and `message` once each, among others that are skipped, or a list of
just these two strings.
-/

set_option autoImplicit false

namespace Findings.Json

def Member.ofName? (name : String) : Option Member :=
  if name = "posn" then some .posn else if name = "message" then some .message else none

/-- The members of a finding that have been read so far. -/
structure Members where
  posn : Option String := none
  message : Option String := none
deriving DecidableEq, Repr

namespace Members

def get? (m : Members) : Member → Option String
  | .posn => m.posn
  | .message => m.message

def set (m : Members) (text : String) : Member → Members
  | .posn => { m with posn := some text }
  | .message => { m with message := some text }

/-- The finding made of the members; `rest` follows the end of the object. -/
def finish (m : Members) (rest : Bytes) : Except Fault Finding :=
  match m.posn, m.message with
  | some posn, some message => .ok ⟨posn, message⟩
  | none, _ => stop (.missingField .posn) rest
  | some _, none => stop (.missingField .message) rest

end Members

/-- The place where a repeated name is reported: past an end of the object that follows it at
once. -/
def afterRepeated (s : Bytes) : Bytes :=
  match skipBlank s with
  | [] => []
  | b :: r => if b = 0x7D then r else b :: r

/-- Reads the members of a finding up to the end of its object. -/
def findingMembers (first : Bool) (m : Members) (s : Bytes) : Except Fault (Finding × Bytes) :=
  match h : nextMember first s with
  | .error e => .error e
  | .ok (.done rest) => (m.finish rest).map fun d => (d, rest)
  | .ok (.item r) =>
    match hn : string r with
    | .error e => .error e
    | .ok (name, t) =>
      match Member.ofName? name with
      | some member =>
        if (m.get? member).isSome then stop (.duplicateField member) (afterRepeated t)
        else
          match hc : colon t with
          | .error e => .error e
          | .ok u =>
            match hv : stringValue.read u with
            | .error e => .error e
            | .ok (text, rest) =>
              have := length_of_nextMember h
              have := length_of_string hn
              have := length_of_colon hc
              have := stringValue.shrinks hv
              findingMembers false (m.set text member) rest
      | none =>
        match hc : colon t with
        | .error e => .error e
        | .ok u =>
          match hv : skipValue u with
          | .error e => .error e
          | .ok rest =>
            have := length_of_nextMember h
            have := length_of_string hn
            have := length_of_colon hc
            have := length_of_skipValue hv
            findingMembers false m rest
termination_by s.length

/-- Reads one string of a finding written as a list; `index` of them have been read. -/
def findingItem (index : Nat) (s : Bytes) : Except Fault (String × Bytes) :=
  match nextItem (index = 0) s with
  | .error e => .error e
  | .ok (.done rest) => stop (.invalidLength index) rest
  | .ok (.item r) => stringValue.read r

/-- Reads the end of a finding written as a list. -/
def findingEnd (s : Bytes) : Except Fault Bytes :=
  match skipBlank s with
  | [] => stop .eofInList []
  | b :: r =>
    if b = 0x5D then .ok r
    else if b = 0x2C then
      match skipBlank r with
      | [] => stopAtNext .trailingCharacters []
      | c :: t =>
        if c = 0x5D then stopAtNext .trailingComma (c :: t)
        else stopAtNext .trailingCharacters (c :: t)
    else stopAtNext .trailingCharacters (b :: r)

/-- Reads the two strings of a finding written as a list, up to its end. -/
def findingItems (s : Bytes) : Except Fault (Finding × Bytes) :=
  match findingItem 0 s with
  | .error e => .error e
  | .ok (posn, t) =>
    match findingItem 1 t with
    | .error e => .error e
    | .ok (message, u) => (findingEnd u).map fun rest => (⟨posn, message⟩, rest)

theorem length_of_findingMembers {first : Bool} {m : Members} {s rest : Bytes} {d : Finding}
    (h : findingMembers first m s = .ok (d, rest)) : rest.length < s.length := by
  fun_induction findingMembers first m s with
  | case2 first m s r hn =>
    have := length_of_nextMember_done hn
    cases hf : m.finish r with
    | error e => rw [hf] at h; cases h
    | ok p => rw [hf] at h; cases h; exact this
  | case7 | case10 => rename_i ih; have := ih h; omega
  | _ => simp [stop] at h

theorem length_of_findingItem {index : Nat} {s rest : Bytes} {t : String}
    (h : findingItem index s = .ok (t, rest)) : rest.length < s.length := by
  unfold findingItem at h
  split at h
  · cases h
  · cases h
  next hn => have := length_of_nextItem hn; have := stringValue.shrinks h; omega

theorem length_of_findingEnd {s rest : Bytes} (h : findingEnd s = .ok rest) :
    rest.length < s.length := by
  have hs := length_skipBlank_le s
  unfold findingEnd at h
  split at h
  · cases h
  next heq =>
    rw [heq, List.length_cons] at hs
    repeat' (split at h)
    all_goals cases h
    omega

theorem length_of_findingItems {s rest : Bytes} {d : Finding}
    (h : findingItems s = .ok (d, rest)) : rest.length < s.length := by
  unfold findingItems at h
  split at h
  · cases h
  next h₀ =>
    have := length_of_findingItem h₀
    split at h
    · cases h
    next t _ u h₁ =>
      have := length_of_findingItem h₁
      cases he : findingEnd u with
      | error e => rw [he] at h; cases h
      | ok r => rw [he] at h; cases h; have := length_of_findingEnd he; omega

/-- Reads one finding, in either of its forms. -/
def finding : Reader Finding where
  read s :=
    match skipBlank s with
    | [] => stop .eofInValue []
    | b :: r =>
      if b = 0x7B then findingMembers true {} r
      else if b = 0x5B then findingItems r
      else refuse .finding b r
  shrinks {s rest d} h := by
    have hs := length_skipBlank_le s
    split at h
    · cases h
    next heq =>
      rw [heq, List.length_cons] at hs
      split at h
      · have := length_of_findingMembers h; omega
      · split at h
        · have := length_of_findingItems h; omega
        · unfold refuse at h; split at h <;> cases h

end Findings.Json

namespace Findings.Payload

/-- Reads a payload. Of a repeated key the last value counts, as a whole. -/
def reader : Json.Reader Payload :=
  (Json.objectOf
    ((Json.objectOf (Json.orNull (Json.listOf Json.finding))).map SortedMap.ofList)).map
    SortedMap.ofList

/-- The payload that the bytes spell. -/
def decode (raw : Json.Bytes) : Except Json.ReadError Payload :=
  match reader.readAll raw with
  | .ok payload => .ok payload
  | .error fault => .error (fault.locate raw)

end Findings.Payload
