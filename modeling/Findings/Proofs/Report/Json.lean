import Findings.Proofs.Json.Numbers
import Findings.Proofs.Restatement

/-!
# Reading a JSON report

`Report.json` prints a list with one object for each entry. Read by the readers of JSON that
payloads are read with, it gives back the entries, in their order and nothing else
(`Report.json_reads_back`), so the report determines what it reports. Its line feeds are those of
the layout only, since a string has none (`Report.count_json`).

Route. An object is read member by member (`Report.members_of_printed`), a list object by object
(`Report.items_of_printed`); that strings and numbers are read as they are printed is in
`Json.read_anyValue_string` and `Json.read_anyValue_digitBytes`.
-/

set_option autoImplicit false

namespace Findings.Report

open Json

/-- The members of the object for an entry. -/
def row (e : Position × String) : List (String × Found) :=
  [("filename", .string e.1.filename), ("line", .integer e.1.line.toNat), ("message", .string e.2)]

/-- Reads a list of objects, and of the members of these what they are. -/
def rows : Reader (List (List (String × Found))) := listOf (objectOf anyValue)

variable {first : Bool} {v t rest : Bytes} {e : Position × String}

/-! ## What is printed, as bytes -/

/-- A line feed and four spaces. -/
def indent : Bytes := [0x0A, 0x20, 0x20, 0x20, 0x20]

theorem blank_indent : Blank indent := blank_of_all rfl

/-- A member with a blank in front of its value, and what follows it. -/
def memberBytes (name : String) (value rest : Bytes) : Bytes :=
  printString name ++ 0x3A :: ([0x20] ++ (value ++ rest))

/-- The object for an entry, and what follows it. -/
def objectBytes (e : Position × String) (rest : Bytes) : Bytes :=
  0x7B :: (indent ++ memberBytes "filename" (printString e.1.filename)
    (0x2C :: indent ++ memberBytes "line" (digitBytes e.1.line.toNat)
      (0x2C :: indent ++ memberBytes "message" (printString e.2)
        ([0x0A, 0x20, 0x20] ++ 0x7D :: rest))))

/-- The objects behind the first, up to the end of the list. -/
def laterBytes : List (Position × String) → Bytes
  | [] => [0x0A, 0x5D]
  | e :: l => 0x2C :: [0x0A, 0x20, 0x20] ++ objectBytes e (laterBytes l)

/-- The list of the entries. -/
def listBytes : List (Position × String) → Bytes
  | [] => [0x5B, 0x5D]
  | e :: l => 0x5B :: ([0x0A, 0x20, 0x20] ++ objectBytes e (laterBytes l))

theorem encode_append {s t : String} {u v : Bytes} (hs : Utf8.encode s = u)
    (ht : Utf8.encode t = v) : Utf8.encode (s ++ t) = u ++ v := by
  rw [← hs, ← ht]
  simp [Utf8.encode]

theorem encode_toString (n : Nat) : Utf8.encode (toString n) = digitBytes n := by
  rw [Utf8.encode, Position.toList_toString, digitBytes]

theorem encode_jsonObject (e : Position × String) (rest : Bytes) :
    Utf8.encode (jsonObject e) ++ rest = [0x20, 0x20] ++ objectBytes e rest := by
  have hopen : Utf8.encode "  \x7b\n    \"filename\": " =
      0x20 :: 0x20 :: 0x7B :: (indent ++ (printString "filename" ++ [0x3A, 0x20])) := by
    decide +kernel
  have hline : Utf8.encode ",\n    \"line\": " =
      0x2C :: indent ++ (printString "line" ++ [0x3A, 0x20]) := by decide +kernel
  have hmessage : Utf8.encode ",\n    \"message\": " =
      0x2C :: indent ++ (printString "message" ++ [0x3A, 0x20]) := by decide +kernel
  have hclose : Utf8.encode "\n  \x7d" = [0x0A, 0x20, 0x20, 0x7D] := by decide +kernel
  have hstring (s : String) : Utf8.encode (jsonString s) = printString s := rfl
  have hobject := encode_append (encode_append (encode_append (encode_append (encode_append
    (encode_append hopen (hstring e.1.filename)) hline) (encode_toString e.1.line.toNat)) hmessage)
    (hstring e.2)) hclose
  unfold jsonObject objectBytes memberBytes
  rw [hobject]
  simp only [List.append_assoc, List.cons_append, List.nil_append]

/-- The objects of a list, with commas between them. -/
theorem encode_objects (e : Position × String) (l : List (Position × String)) :
    Utf8.encode (String.intercalate ",\n" ((e :: l).map jsonObject)) ++ [0x0A, 0x5D] =
      [0x20, 0x20] ++ objectBytes e (laterBytes l) := by
  induction l generalizing e with
  | nil =>
    rw [List.map_singleton, String.intercalate_singleton, encode_jsonObject]
    rfl
  | cons d l ih =>
    have hcomma : Utf8.encode ",\n" = [0x2C, 0x0A] := by decide +kernel
    have hlater : laterBytes (d :: l) = [0x2C, 0x0A] ++ ([0x20, 0x20] ++
      objectBytes d (laterBytes l)) := rfl
    rw [List.map_cons, List.map_cons, String.intercalate_cons_cons,
      encode_append (encode_append rfl hcomma) rfl, ← List.map_cons, List.append_assoc, ih,
      List.append_assoc, ← hlater, encode_jsonObject]

theorem encode_json (m : Diagnostics) : Utf8.encode (json m) = listBytes m.toList := by
  have hopen : Utf8.encode "[\n" = [0x5B, 0x0A] := by decide +kernel
  have hclose : Utf8.encode "\n]" = [0x0A, 0x5D] := by decide +kernel
  unfold json
  split
  next h =>
    rw [h]
    rfl
  next h =>
    cases hl : m.toList with
    | nil => exact absurd hl h
    | cons e l =>
      rw [encode_append (encode_append hopen rfl) hclose, List.append_assoc, encode_objects]
      rfl

/-! ## Reading it -/

theorem separated_comma (s : Bytes) : Separated (0x2C :: indent ++ s) :=
  separated_blank_append blank_nil ⟨by simp [IsDigit], by decide, by decide⟩ (indent ++ s)

/-- A member is read, whatever comes next, if its value is. -/
theorem members_of_printed {value : Reader Found} {f : Found} (hv : Separator first v)
    (name : String) (macc : List (String × Found))
    (hread : value.read ([0x20] ++ (t ++ rest)) = .ok (f, rest)) :
    members value first macc (v ++ memberBytes name t rest) =
      members value false ((name, f) :: macc) rest := by
  have hname := stringText_printString name
  unfold memberBytes
  generalize printString name = k at hname
  obtain ⟨hk⟩ := hname
  have hkey := key_append hk blank_nil ([0x20] ++ (t ++ rest))
  rw [List.cons_append, List.append_assoc, List.singleton_append]
  exact members_of_item (nextMember_item hv _) hkey hread

/-- The object for an entry is read as its members. -/
theorem read_object (e : Position × String) (rest : Bytes) :
    (objectOf anyValue).read (objectBytes e rest) = .ok (row e, rest) := by
  have hblank : Blank [0x20] := blank_of_all rfl
  have hend : Blank [0x0A, 0x20, 0x20] := blank_of_all rfl
  have hclose : Separated ([0x0A, 0x20, 0x20] ++ 0x7D :: rest) :=
    separated_blank_append hend ⟨by simp [IsDigit], by decide, by decide⟩ rest
  have hcomma : Separator false (0x2C :: indent) := .comma blank_nil blank_indent
  have hline : e.1.line.toNat ≤ maxSignificand := Nat.le_of_lt_succ (Nat.lt_of_lt_of_le
    e.1.line.toNat_lt (by decide))
  unfold objectBytes
  -- what stands behind the members, and behind the last two and the last of them
  generalize hlast : [0x0A, 0x20, 0x20] ++ 0x7D :: rest = last at hclose ⊢
  generalize hthird : memberBytes "message" (printString e.2) last = third
  generalize hsecond : memberBytes "line" (digitBytes e.1.line.toNat)
    (0x2C :: indent ++ third) = second
  have hfilename := read_anyValue_string hblank (stringText_printString e.1.filename)
    (separated_comma second)
  have hnumber := read_anyValue_digitBytes hblank hline (separated_comma third)
  have hmessage := read_anyValue_string hblank (stringText_printString e.2) hclose
  generalize anyValue = value at hfilename hnumber hmessage ⊢
  have hmembers := members_of_printed (.first blank_indent) "filename" [] hfilename
  rw [← hsecond, members_of_printed hcomma "line" _ hnumber, ← hthird,
    members_of_printed hcomma "message" _ hmessage, ← hlast,
    members_of_done (nextMember_done hend rest)] at hmembers
  have hskip (s : Bytes) : skipBlank (0x7B :: s) = 0x7B :: s :=
    skipBlank_append blank_nil (b := 0x7B) rfl s
  rw [← hsecond, ← hthird, ← hlast]
  simp only [objectOf, hskip, if_true, hmembers]
  rfl

theorem apart_objectBytes (e : Position × String) (rest : Bytes) :
    Apart 0x5D (objectBytes e rest) := ⟨0x7B, _, rfl, rfl, by decide⟩

/-- The objects are read up to the end of the list. -/
theorem items_of_printed (l : List (Position × String)) (acc : List (List (String × Found))) :
    items (objectOf anyValue) false acc (laterBytes l) = .ok ((l.map row).reverse ++ acc, []) := by
  induction l generalizing acc with
  | nil => exact items_of_done (nextItem_done (w := [0x0A]) (blank_of_all rfl) [])
  | cons e l ih =>
    have hitem : nextItem false (laterBytes (e :: l)) =
        .ok (.item (objectBytes e (laterBytes l))) :=
      nextItem_item (.comma blank_nil (blank_of_all rfl)) (apart_objectBytes e _)
    rw [items_of_item hitem (read_object e (laterBytes l)), ih]
    simp

/-- **What is printed for some entries is read as these.** -/
theorem readAll_listBytes (l : List (Position × String)) :
    rows.readAll (listBytes l) = .ok (l.map row) := by
  have hitems : items (objectOf anyValue) true [] (listBytes l).tail =
      .ok ((l.map row).reverse, []) := by
    cases l with
    | nil => exact items_of_done (nextItem_done blank_nil [])
    | cons e l =>
      have hitem : nextItem true ([0x0A, 0x20, 0x20] ++ objectBytes e (laterBytes l)) =
          .ok (.item (objectBytes e (laterBytes l))) :=
        nextItem_item (.first (blank_of_all rfl)) (apart_objectBytes e _)
      show items _ true [] ([0x0A, 0x20, 0x20] ++ objectBytes e (laterBytes l)) = _
      rw [items_of_item hitem (read_object e (laterBytes l)), items_of_printed, List.map_cons,
        List.reverse_cons]
  have hlist : listBytes l = 0x5B :: (listBytes l).tail := by cases l <;> rfl
  have hskip (s : Bytes) : skipBlank (0x5B :: s) = 0x5B :: s :=
    skipBlank_append blank_nil (b := 0x5B) rfl s
  have hread : rows.read (listBytes l) = .ok (l.map row, []) := by
    rw [hlist]
    simp only [rows, listOf, hskip, if_true, hitems, List.reverse_reverse]
  rw [Reader.readAll, hread]
  rfl

theorem row_injective : Function.Injective row := by
  rintro ⟨⟨file, line⟩, message⟩ ⟨⟨file', line'⟩, message'⟩ h
  simp only [row, List.cons.injEq, Prod.mk.injEq, Found.string.injEq, Found.integer.injEq,
    true_and, and_true, Int.natCast_inj, UInt32.toNat_inj] at h
  obtain ⟨rfl, rfl, rfl⟩ := h
  rfl

/-! ## Line feeds -/

theorem count_jsonString (s : String) : (jsonString s).toList.count '\n' = 0 := by
  have hdigit : ∀ k < 16, Nat.digitChar k ≠ '\n' := by decide
  have hchar (c : Char) : '\n' ∉ jsonChar c := by
    unfold jsonChar hexDigit
    repeat' split
    all_goals simp_all [eq_comm]
  rw [List.count_eq_zero, jsonString, String.toList_ofList]
  simpa using fun c _ => hchar c

/-- An object takes four lines and the start of a fifth. -/
theorem count_jsonObject (e : Position × String) : (jsonObject e).toList.count '\n' = 4 := by
  have hline := List.count_eq_zero.2 (Position.newline_not_mem_toString e.1.line.toNat)
  unfold jsonObject
  simp only [String.toList_append, List.count_append, count_jsonString, hline]
  rfl

theorem count_objects (e : Position × String) (l : List (Position × String)) :
    (String.intercalate ",\n" ((e :: l).map jsonObject)).toList.count '\n' = 5 * l.length + 4 := by
  induction l generalizing e with
  | nil => rw [List.map_singleton, String.intercalate_singleton, count_jsonObject]; rfl
  | cons d l ih =>
    rw [List.map_cons, List.map_cons, String.intercalate_cons_cons, ← List.map_cons]
    have hcomma : (",\n" : String).toList.count '\n' = 1 := by decide +kernel
    simp only [String.toList_append, List.count_append, count_jsonObject, ih, hcomma,
      List.length_cons]
    omega

/-- Every entry takes five lines, and the brackets the first and the last. -/
theorem count_json (m : Diagnostics) :
    (json m).toList.count '\n' = if m.size = 0 then 0 else 5 * m.size + 1 := by
  unfold json SortedMap.size
  split
  next h => rw [h]; rfl
  next h =>
    cases hl : m.toList with
    | nil => exact absurd hl h
    | cons e l =>
      have hopen : ("[\n" : String).toList.count '\n' = 1 := by decide +kernel
      have hclose : ("\n]" : String).toList.count '\n' = 1 := by decide +kernel
      simp only [String.toList_append, List.count_append, count_objects, hopen, hclose,
        List.length_cons]
      rw [if_neg (by omega)]
      omega

/-! ## Reports -/

/-- **A report says what it is made from.** Read back, it is one object for each entry, in ascending
order of the positions, with the file name, the line and the message of the entry and nothing else.
So different diagnostics have different reports. The line feeds of a report are those of its layout,
whatever the texts are. -/
theorem json_reads_back (m : Diagnostics) :
    rows.readAll (Utf8.encode (json m)) = .ok (m.toList.map row) ∧
      (m.toList.map (·.1)).Pairwise (fun p q => compare p q = .lt) ∧
      (∀ m' : Diagnostics, json m' = json m ↔ m' = m) ∧
      (json m).toList.count '\n' = if m.size = 0 then 0 else 5 * m.size + 1 := by
  have hread (m : Diagnostics) : rows.readAll (Utf8.encode (json m)) = .ok (m.toList.map row) := by
    rw [encode_json, readAll_listBytes]
  refine ⟨hread m, List.pairwise_map.2 m.ordered, fun m' => ⟨fun h => ?_, ?_⟩, count_json m⟩
  · have hrows := hread m'
    rw [h, hread m] at hrows
    exact SortedMap.ext (List.map_injective_iff.2 row_injective (Except.ok.inj hrows).symm)
  · rintro rfl
    rfl

end Findings.Report
