import Findings.Text.Utf8

/-!
# Formatted output of shell commands

The escapes that `echo` and `printf` know, and the conversions of `printf`. Output is bytes, since
an escape may name any byte.
-/

set_option autoImplicit false

namespace Findings.Sandbox.Format

abbrev Bytes := List UInt8

def isOctal (c : Char) : Bool := '0' ≤ c && c ≤ '7'

/-- Reads up to `count` octal digits, continuing the number `n`. -/
def octal : (count n : Nat) → List Char → Nat × List Char
  | count + 1, n, c :: s =>
    if isOctal c then octal count (n * 8 + (c.toNat - 48)) s else (n, c :: s)
  | _, n, s => (n, s)

/-- The byte of an escape of one letter. -/
def letterEscape? (c : Char) : Option UInt8 :=
  if c = '\\' then some 0x5C
  else if c = 'a' then some 0x07
  else if c = 'b' then some 0x08
  else if c = 'e' then some 0x1B
  else if c = 'f' then some 0x0C
  else if c = 'n' then some 0x0A
  else if c = 'r' then some 0x0D
  else if c = 't' then some 0x09
  else if c = 'v' then some 0x0B
  else none

/-- Reads an escape; the backslash has been read. One that is not known stands for itself. -/
def escape : List Char → Bytes × List Char
  | [] => ([0x5C], [])
  | c :: s =>
    match letterEscape? c with
    | some b => ([b], s)
    | none =>
      if isOctal c then
        let (n, rest) := octal 3 0 (c :: s)
        ([UInt8.ofNat n], rest)
      else (0x5C :: Utf8.encode c.toString, s)

/-- Replaces the escapes in an argument of `echo` or `%b`. The answer says whether output goes on:
`\c` ends it. Octal numbers may have a zero in front of their three digits. -/
def unescape : (fuel : Nat) → List Char → Bytes × Bool
  | 0, _ => ([], true)
  | _ + 1, [] => ([], true)
  | _ + 1, '\\' :: 'c' :: _ => ([], false)
  | fuel + 1, '\\' :: s =>
    let (bytes, rest) :=
      match s with
      | '0' :: d :: t => if isOctal d then escape (d :: t) else escape s
      | _ => escape s
    let (more, on) := unescape fuel rest
    (bytes ++ more, on)
  | fuel + 1, c :: s =>
    let (more, on) := unescape fuel s
    (Utf8.encode c.toString ++ more, on)

def unescapeText (s : String) : Bytes × Bool := unescape (s.length + 1) s.toList

/-! ### Conversions -/

structure Conversion where
  left : Bool
  zero : Bool
  plus : Bool
  space : Bool
  /-- Whether octal and hexadecimal numbers are marked as such. -/
  marked : Bool
  width : Nat
  precision : Option Nat

/-- Fills up to the width. -/
def pad (c : Conversion) (bytes : Bytes) : Bytes :=
  let missing := c.width - bytes.length
  if c.left then bytes ++ List.replicate missing 0x20 else List.replicate missing 0x20 ++ bytes

/-- Writes a number of the given sign and digits. -/
def padNumber (c : Conversion) (sign : String) (digits : String) : Bytes :=
  let digits :=
    match c.precision with
    | some p => String.ofList (List.replicate (p - digits.length) '0') ++ digits
    | none => digits
  if c.zero && !c.left && c.precision.isNone then
    Utf8.encode
      (sign ++ String.ofList (List.replicate (c.width - sign.length - digits.length) '0') ++ digits)
  else pad c (Utf8.encode (sign ++ digits))

/-- The value of an argument that should be a number, and whether it is one. -/
def numeric (s : String) : Int × Bool :=
  match s.toList with
  | [] => (0, true)
  | '\'' :: c :: _ | '"' :: c :: _ => (c.toNat, true)
  | '-' :: ds => (-(ofDigits ds).1, (ofDigits ds).2)
  | '+' :: ds => ofDigits ds
  | ds => ofDigits ds
where
  digitsOf (base : Nat) (ds : List Char) : Int × Bool :=
    let value (c : Char) : Nat :=
      if '0' ≤ c && c ≤ '9' then c.toNat - 48
      else if 'a' ≤ c && c ≤ 'f' then c.toNat - 87
      else if 'A' ≤ c && c ≤ 'F' then c.toNat - 55
      else 99
    let good := ds.takeWhile fun c => value c < base
    (good.foldl (fun n c => n * base + value c) 0, good.length = ds.length && ds ≠ [])
  ofDigits : List Char → Int × Bool
    | '0' :: 'x' :: ds | '0' :: 'X' :: ds => digitsOf 16 ds
    | '0' :: ds => if ds = [] then (0, true) else digitsOf 8 ds
    | ds => digitsOf 10 ds

def natDigits (base : Nat) (upper : Bool) (n : Nat) : String :=
  let s := String.ofList (Nat.toDigits base n)
  if upper then s.toUpper else s

/-- A number as one without sign of 64 bits. -/
def unsigned (n : Int) : Nat := (n % (Nat.pow 2 64 : Nat)).toNat

/-- What may be wrong with a format or its arguments. -/
inductive Complaint where
  | notNumeric (argument : String)
  | unknownDirective (directive : String)
  | missingLetter
deriving DecidableEq, Repr

/-- What a run of `printf` has written and what went wrong. -/
structure Printed where
  bytes : Bytes := []
  complaints : List Complaint := []
  /-- Whether an argument or a complaint ended the output. -/
  ended : Bool := false

def Printed.add (p : Printed) (bytes : Bytes) : Printed := { p with bytes := p.bytes ++ bytes }

/-- Writes one argument in the way that the letter says; `none` for an unknown letter. -/
def convert (c : Conversion) (letter : Char) (arg : String) (p : Printed) : Option Printed :=
  let number (f : Int → Bytes) : Option Printed :=
    let (n, good) := numeric arg
    let p := p.add (f n)
    some (if good then p else { p with complaints := p.complaints ++ [.notNumeric arg] })
  let cut (bytes : Bytes) : Bytes :=
    match c.precision with
    | some k => bytes.take k
    | none => bytes
  if letter = 's' then some (p.add (pad c (cut (Utf8.encode arg))))
  else if letter = 'b' then
    let (bytes, on) := unescapeText arg
    some { p.add (pad c (cut bytes)) with ended := !on }
  else if letter = 'c' then some (p.add (pad c ((Utf8.encode arg).take 1)))
  else if letter = 'd' ∨ letter = 'i' then
    number fun n =>
      padNumber c (if n < 0 then "-" else if c.plus then "+" else if c.space then " " else "")
        (toString n.natAbs)
  else if letter = 'u' then number fun n => padNumber c "" (toString (unsigned n))
  else if letter = 'o' then
    number fun n =>
      padNumber c "" ((if c.marked && n ≠ 0 then "0" else "") ++ natDigits 8 false (unsigned n))
  else if letter = 'x' then
    number fun n =>
      padNumber c (if c.marked && n ≠ 0 then "0x" else "") (natDigits 16 false (unsigned n))
  else if letter = 'X' then
    number fun n =>
      padNumber c (if c.marked && n ≠ 0 then "0X" else "") (natDigits 16 true (unsigned n))
  else none

/-- Reads a width: digits, or a star that stands for an argument. -/
def readWidth (s : List Char) (args : List String) : Nat × List Char × List String :=
  match s with
  | '*' :: rest => ((numeric (args.headD "")).1.natAbs, rest, args.drop 1)
  | _ =>
    let ds := s.takeWhile Char.isDigit
    (ds.foldl (fun n c => n * 10 + (c.toNat - 48)) 0, s.dropWhile Char.isDigit, args)

/-- Writes the format once. The arguments that are left come with what was printed. -/
def once : (fuel : Nat) → List Char → List String → Printed → Printed × List String
  | 0, _, args, p => (p, args)
  | _ + 1, [], args, p => (p, args)
  | fuel + 1, '\\' :: s, args, p =>
    let (bytes, rest) := escape s
    once fuel rest args (p.add bytes)
  | fuel + 1, '%' :: '%' :: s, args, p => once fuel s args (p.add [0x25])
  | fuel + 1, '%' :: s, args, p =>
    let isFlag (c : Char) : Bool := c = '-' || c = '+' || c = ' ' || c = '0' || c = '#'
    let flags := s.takeWhile isFlag
    let (width, s, args) := readWidth (s.dropWhile isFlag) args
    let (precision, s, args) :=
      match s with
      | '.' :: t =>
        let (n, t, args) := readWidth t args
        (some n, t, args)
      | _ => (none, s, args)
    let c : Conversion :=
      ⟨flags.contains '-', flags.contains '0', flags.contains '+', flags.contains ' ',
        flags.contains '#', width, precision⟩
    match s with
    | [] => ({ p with complaints := p.complaints ++ [.missingLetter], ended := true }, args)
    | letter :: rest =>
      match convert c letter (args.headD "") p with
      | none =>
        let complaint := Complaint.unknownDirective ("%" ++ letter.toString)
        ({ p with complaints := p.complaints ++ [complaint], ended := true }, args)
      | some p => if p.ended then (p, args) else once fuel rest (args.drop 1) p
  | fuel + 1, c :: s, args, p =>
    let isPlain (c : Char) : Bool := c ≠ '\\' && c ≠ '%'
    once fuel (s.dropWhile isPlain) args
      (p.add (Utf8.encode (String.ofList (c :: s.takeWhile isPlain))))

/-- Writes the format, again and again until no arguments are left. -/
def all (format : String) : (fuel : Nat) → List String → Printed → Printed
  | 0, _, p => p
  | fuel + 1, args, p =>
    let (p, rest) := once (format.length + 1) format.toList args p
    if p.ended || rest = [] || rest.length = args.length then p else all format fuel rest p

/-- The output of `printf`. -/
def printf (format : String) (args : List String) : Printed := all format (args.length + 1) args {}

/-- The output of an `echo` that replaces escapes. -/
def echo (args : List String) : Bytes :=
  let (newline, args) :=
    match args with
    | "-n" :: rest => (false, rest)
    | _ => (true, args)
  let (bytes, on) := unescapeText (String.intercalate " " args)
  bytes ++ if newline && on then [0x0A] else []

end Findings.Sandbox.Format
