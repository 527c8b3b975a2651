import Findings.Json.Skip

/-!
# Readers of JSON values

A `Reader α` reads a value of one kind from the front of a byte sequence and uses up at least one
byte, which is what lets lists and objects of any length be read by well-founded recursion.
-/

set_option autoImplicit false

namespace Findings.Json

/-- Reads a value of one kind; what is left is shorter. -/
structure Reader (α : Type) where
  read : Bytes → Except Fault (α × Bytes)
  shrinks : ∀ {s rest : Bytes} {a : α}, read s = .ok (a, rest) → rest.length < s.length

/-! ### Values of another kind -/

/-- What the value that starts with `b` is, as far as a message says it. Lists and objects are not
entered. -/
def found (b : UInt8) (s : Bytes) : Except Fault (Found × Bytes) :=
  if b = 0x6E then (literal ullBytes s).map fun r => (.null, r)
  else if b = 0x74 then (literal rueBytes s).map fun r => (.boolean true, r)
  else if b = 0x66 then (literal alseBytes s).map fun r => (.boolean false, r)
  else if b = 0x2D then number true s
  else if isDigit b then number false (b :: s)
  else if b = 0x22 then (string s).map fun (t, r) => (.string t, r)
  else if b = 0x5B then .ok (.sequence, b :: s)
  else if b = 0x7B then .ok (.map, b :: s)
  else stopAtNext .expectedValue (b :: s)

/-- Refuses the value that starts with `b`, unless it is malformed, which is then said instead. -/
def refuse {α : Type} (wanted : Wanted) (b : UInt8) (s : Bytes) : Except Fault α :=
  match found b s with
  | .error e => .error e
  | .ok (f, rest) => stop (.invalidType f wanted) rest

/-! ### Items and members -/

/-- What comes next in a list or an object: its end, or an item that starts the remaining bytes. -/
inductive Step where
  | done (rest : Bytes)
  | item (rest : Bytes)
deriving DecidableEq, Repr

/-- Moves to the next item of a list, past the comma before it unless it is the first. -/
def nextItem (first : Bool) (s : Bytes) : Except Fault Step :=
  match skipBlank s with
  | [] => stop .eofInList []
  | b :: r =>
    if b = 0x5D then .ok (.done r)
    else if first then .ok (.item (b :: r))
    else if b = 0x2C then
      match skipBlank r with
      | [] => stop .eofInValue []
      | c :: t => if c = 0x5D then stopAtNext .trailingComma (c :: t) else .ok (.item (c :: t))
    else stopAtNext .expectedListCommaOrEnd (b :: r)

/-- Moves to the next key of an object, past its opening mark. -/
def nextMember (first : Bool) (s : Bytes) : Except Fault Step :=
  match skipBlank s with
  | [] => stop .eofInObject []
  | b :: r =>
    if b = 0x7D then .ok (.done r)
    else if first then
      if b = 0x22 then .ok (.item r) else stopAtNext .keyMustBeString (b :: r)
    else if b = 0x2C then
      match skipBlank r with
      | [] => stop .eofInValue []
      | c :: t =>
        if c = 0x22 then .ok (.item t)
        else if c = 0x7D then stopAtNext .trailingComma (c :: t)
        else stopAtNext .keyMustBeString (c :: t)
    else stopAtNext .expectedObjectCommaOrEnd (b :: r)

theorem length_of_nextItem {first : Bool} {s rest : Bytes}
    (h : nextItem first s = .ok (.item rest)) : rest.length ≤ s.length := by
  have hs := length_skipBlank_le s
  unfold nextItem at h
  split at h
  · cases h
  next b r heq =>
    have hr := length_skipBlank_le r
    rw [heq] at hs
    repeat' (split at h)
    all_goals cases h
    · exact hs
    next ht _ => rw [ht] at hr; simp only [List.length_cons] at *; omega

theorem length_of_nextItem_done {first : Bool} {s rest : Bytes}
    (h : nextItem first s = .ok (.done rest)) : rest.length < s.length := by
  have hs := length_skipBlank_le s
  unfold nextItem at h
  split at h
  · cases h
  next b r heq =>
    rw [heq, List.length_cons] at hs
    repeat' (split at h)
    all_goals cases h
    omega

theorem length_of_nextMember {first : Bool} {s rest : Bytes}
    (h : nextMember first s = .ok (.item rest)) : rest.length < s.length := by
  have hs := length_skipBlank_le s
  unfold nextMember at h
  split at h
  · cases h
  next b r heq =>
    have hr := length_skipBlank_le r
    rw [heq, List.length_cons] at hs
    repeat' (split at h)
    all_goals cases h
    · omega
    next _ ht => rw [ht, List.length_cons] at hr; omega

theorem length_of_nextMember_done {first : Bool} {s rest : Bytes}
    (h : nextMember first s = .ok (.done rest)) : rest.length < s.length := by
  have hs := length_skipBlank_le s
  unfold nextMember at h
  split at h
  · cases h
  next b r heq =>
    rw [heq, List.length_cons] at hs
    repeat' (split at h)
    all_goals cases h
    omega

/-- Reads a key, whose opening mark has been read, and the colon after it. -/
def key (s : Bytes) : Except Fault (String × Bytes) :=
  match string s with
  | .error e => .error e
  | .ok (name, r) =>
    match colon r with
    | .error e => .error e
    | .ok rest => .ok (name, rest)

theorem length_of_key {s rest : Bytes} {name : String} (h : key s = .ok (name, rest)) :
    rest.length < s.length := by
  unfold key at h
  split at h
  · cases h
  next hs =>
    have := length_of_string hs
    split at h
    · cases h
    next hc => have := length_of_colon hc; cases h; omega

/-! ### Strings, lists and objects -/

/-- Reads a string value. -/
def readString (s : Bytes) : Except Fault (String × Bytes) :=
  match skipBlank s with
  | [] => stop .eofInValue []
  | b :: r => if b = 0x22 then string r else refuse .string b r

theorem length_of_readString {s rest : Bytes} {t : String} (h : readString s = .ok (t, rest)) :
    rest.length < s.length := by
  have hs := length_skipBlank_le s
  unfold readString at h
  split at h
  · cases h
  next heq =>
    rw [heq, List.length_cons] at hs
    split at h
    · have := length_of_string h; omega
    · unfold refuse at h; split at h <;> cases h

def stringValue : Reader String where
  read := readString
  shrinks := length_of_readString

section
variable {α : Type} (value : Reader α)

/-- The items of a list up to its end, in reverse. -/
def items (first : Bool) (acc : List α) (s : Bytes) : Except Fault (List α × Bytes) :=
  match h : nextItem first s with
  | .error e => .error e
  | .ok (.done rest) => .ok (acc, rest)
  | .ok (.item r) =>
    match hr : value.read r with
    | .error e => .error e
    | .ok (a, rest) =>
      have := length_of_nextItem h
      have := value.shrinks hr
      items false (a :: acc) rest
termination_by s.length

/-- The members of an object up to its end, in reverse. -/
def members (first : Bool) (acc : List (String × α)) (s : Bytes) :
    Except Fault (List (String × α) × Bytes) :=
  match h : nextMember first s with
  | .error e => .error e
  | .ok (.done rest) => .ok (acc, rest)
  | .ok (.item r) =>
    match hk : key r with
    | .error e => .error e
    | .ok (name, t) =>
      match hv : value.read t with
      | .error e => .error e
      | .ok (a, rest) =>
        have := length_of_nextMember h
        have := length_of_key hk
        have := value.shrinks hv
        members false ((name, a) :: acc) rest
termination_by s.length

variable {value}

theorem length_of_items {first : Bool} {acc l : List α} {s rest : Bytes}
    (h : items value first acc s = .ok (l, rest)) : rest.length < s.length := by
  fun_induction items value first acc s with
  | case1 => cases h
  | case2 _ _ _ _ hn => cases h; exact length_of_nextItem_done hn
  | case3 => cases h
  | case4 _ _ _ _ _ _ _ _ h₁ h₂ ih => have := ih h; omega

theorem length_of_members {first : Bool} {acc l : List (String × α)} {s rest : Bytes}
    (h : members value first acc s = .ok (l, rest)) : rest.length < s.length := by
  fun_induction members value first acc s with
  | case1 => cases h
  | case2 _ _ _ _ hn => cases h; exact length_of_nextMember_done hn
  | case3 => cases h
  | case4 => cases h
  | case5 _ _ _ _ _ _ _ _ _ _ _ h₁ h₂ h₃ ih => have := ih h; omega

variable (value)

/-- Reads a list of values. -/
def listOf : Reader (List α) where
  read s :=
    match skipBlank s with
    | [] => stop .eofInValue []
    | b :: r =>
      if b = 0x5B then
        match items value true [] r with
        | .error e => .error e
        | .ok (l, rest) => .ok (l.reverse, rest)
      else refuse .sequence b r
  shrinks {s rest l} h := by
    have hs := length_skipBlank_le s
    split at h
    · cases h
    next heq =>
      rw [heq, List.length_cons] at hs
      split at h
      · split at h
        · cases h
        next hi => have := length_of_items hi; cases h; omega
      · unfold refuse at h; split at h <;> cases h

/-- Reads an object; its members are in the order of the text. -/
def objectOf : Reader (List (String × α)) where
  read s :=
    match skipBlank s with
    | [] => stop .eofInValue []
    | b :: r =>
      if b = 0x7B then
        match members value true [] r with
        | .error e => .error e
        | .ok (l, rest) => .ok (l.reverse, rest)
      else refuse .map b r
  shrinks {s rest l} h := by
    have hs := length_skipBlank_le s
    split at h
    · cases h
    next heq =>
      rw [heq, List.length_cons] at hs
      split at h
      · split at h
        · cases h
        next hm => have := length_of_members hm; cases h; omega
      · unfold refuse at h; split at h <;> cases h

/-- Reads `null` or a value. -/
def orNull : Reader (Option α) where
  read s :=
    match skipBlank s with
    | [] => (value.read []).map fun (a, rest) => (some a, rest)
    | b :: r =>
      if b = 0x6E then (literal ullBytes r).map fun rest => (none, rest)
      else (value.read (b :: r)).map fun (a, rest) => (some a, rest)
  shrinks {s rest l} h := by
    have hs := length_skipBlank_le s
    split at h
    next heq =>
      rw [heq] at hs
      cases hv : value.read [] with
      | error e => rw [hv] at h; cases h
      | ok p => have := value.shrinks hv; simp at this
    next heq =>
      rw [heq, List.length_cons] at hs
      split at h
      · cases hl : literal ullBytes _ with
        | error e => rw [hl] at h; cases h
        | ok p => rw [hl] at h; cases h; have := length_of_literal hl; omega
      · cases hv : value.read _ with
        | error e => rw [hv] at h; cases h
        | ok p =>
          rw [hv] at h; cases h
          have := value.shrinks hv
          simp only [List.length_cons] at this; omega

/-- Reads a value with the given function applied to it. -/
def Reader.map {β : Type} (f : α → β) : Reader β where
  read s := (value.read s).map fun (a, rest) => (f a, rest)
  shrinks {s rest b} h := by
    cases hv : value.read s with
    | error e => rw [hv] at h; cases h
    | ok p => rw [hv] at h; cases h; exact value.shrinks hv

/-- Reads one value that makes up the whole text, blanks apart. -/
def Reader.readAll (text : Bytes) : Except Fault α :=
  match value.read text with
  | .error e => .error e
  | .ok (a, rest) =>
    match skipBlank rest with
    | [] => .ok a
    | b :: r => stopAtNext .trailingCharacters (b :: r)

end

end Findings.Json
