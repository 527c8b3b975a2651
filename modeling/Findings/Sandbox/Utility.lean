import Findings.Sandbox.FileTree
import Findings.Sandbox.Format

/-!
# Utilities

The programs of the system that scripts use: what they write, how they change the files, and with
which code they end.
-/

set_option autoImplicit false

namespace Findings.Sandbox

inductive Channel where
  | output
  | error
deriving DecidableEq, Repr

/-- What a process starts with. -/
structure Setting where
  tree : FileTree
  here : Place
  input : Bytes
  /-- Whether the input comes from a file, whose size is known. -/
  isInputFile : Bool

/-- What a process leaves behind. -/
structure Effect where
  tree : FileTree
  input : Bytes
  written : List (Channel × Bytes) := []
  code : UInt8 := 0

namespace Utility

def utilityNames : List String :=
  ["sh", "dash", "true", "false", "touch", "cat", "cp", "ls", "wc", "pwd", "printf", "tail", "echo",
    "test", "["]

/-- A name in a message. -/
def quote (s : String) : String :=
  if s.toList.contains '\'' then "\"" ++ s ++ "\"" else "'" ++ s ++ "'"

/-- A name in a message, quoted if it holds anything but plain characters. -/
def quoteIfNeeded (s : String) : String :=
  let isPlain (c : Char) : Bool :=
    c.isAlphanum || "_-./+,:@%=^".toList.contains c || c.toNat ≥ 128
  if s ≠ "" && s.toList.all isPlain then s else quote s

section
variable (s : Setting)

def finish (code : UInt8) (written : List (Channel × Bytes)) : Effect :=
  ⟨s.tree, s.input, written, code⟩

def out (text : String) : Channel × Bytes := (.output, Utf8.encode text)

def complain (text : String) : Channel × Bytes := (.error, Utf8.encode (text ++ "\n"))

/-- Splits arguments into letters of options and operands. -/
def options : List String → List Char × List String
  | [] => ([], [])
  | "--" :: rest => ([], rest)
  | a :: rest =>
    let (letters, operands) := options rest
    match a.toList with
    | '-' :: c :: cs => (c :: cs ++ letters, operands)
    | _ => (letters, a :: operands)

/-- The bytes of an operand, where `-` stands for standard input. -/
def contents (operand : String) : Except SystemError Bytes :=
  if operand = "-" then .ok s.input else s.tree.read s.here operand

def cat (args : List String) : Effect :=
  let (_, operands) := options args
  let operands := if operands = [] then ["-"] else operands
  let parts := operands.map fun o =>
    match contents s o with
    | .ok bytes => (true, (Channel.output, bytes))
    | .error e => (false, complain ("cat: " ++ quoteIfNeeded o ++ ": " ++ e.description))
  { finish s (if parts.all (·.1) then 0 else 1) (parts.map (·.2)) with
    input := if operands.contains "-" then [] else s.input }

/-- Makes a file if there is none. -/
def touchOne (t : FileTree) (operand : String) : Except SystemError FileTree :=
  match t.find s.here operand with
  | .ok _ => .ok t
  | .error _ => (t.openForWriting s.here operand false).map (·.2)

/-- What `touch` says of a file that it cannot make. A missing directory is noticed late. -/
def touchComplaint (operand : String) (e : SystemError) : String :=
  if e = .isADirectory then
    "touch: setting times of " ++ quote operand ++ ": " ++ SystemError.noSuchFile.description
  else "touch: cannot touch " ++ quote operand ++ ": " ++ e.description

def touch (args : List String) : Effect :=
  let (_, operands) := options args
  if operands = [] then
    finish s 1 [complain "touch: missing file operand",
      complain "Try 'touch --help' for more information."]
  else
    operands.foldl
      (fun (e : Effect) o =>
        match touchOne s e.tree o with
        | .ok t => { e with tree := t }
        | .error err =>
          { e with
            code := 1
            written := e.written ++
              [complain (touchComplaint o err)] })
      (finish s 0 [])

def baseName (path : String) : String := (FileTree.names path).getLast?.getD path

/-- Copies one file to a path that is no directory. -/
def copyFile (t : FileTree) (source target : String) : Except String FileTree :=
  match t.find s.here source with
  | .error e => .error ("cp: cannot stat " ++ quote source ++ ": " ++ e.description)
  | .ok (place, n) =>
    match FileTree.Node.bytes? n with
    | none => .error ("cp: -r not specified; omitting directory " ++ quote source)
    | some bytes =>
      let executable :=
        match n with
        | .file _ x => x
        | .utility _ => true
        | _ => false
      match t.locate s.here target with
      | .error e =>
        .error ("cp: cannot create regular file " ++ quote target ++ ": " ++ e.description)
      | .ok goal =>
        if goal = place then
          .error ("cp: " ++ quote source ++ " and " ++ quote target ++ " are the same file")
        else
          match t.node? goal with
          | some (.file _ x) => .ok (t.put goal (.file bytes x))
          | some _ => .ok t
          | none =>
            if Path.endsWithSlash target then
              .error ("cp: cannot create regular file " ++ quote target ++ ": Not a directory")
            else .ok (t.put goal (.file bytes executable))

/-- Copies everything below a directory. -/
def copyTree (t : FileTree) (source target : Place) : FileTree :=
  (t.nodes.filter fun e => source.isPrefixOf e.1).foldr
    (fun e t => t.put (target ++ e.1.drop source.length) e.2) (t.makeDirectory target)

def cp (args : List String) : Effect :=
  let (letters, operands) := options args
  let deep := letters.any fun c => c = 'r' || c = 'R' || c = 'a'
  match operands.reverse with
  | [] => finish s 1 [complain "cp: missing file operand",
      complain "Try 'cp --help' for more information."]
  | [one] => finish s 1 [complain ("cp: missing destination file operand after " ++ quote one),
      complain "Try 'cp --help' for more information."]
  | target :: sources =>
    let intoDirectory := s.tree.isDirectory s.here target
    if !intoDirectory && sources.length > 1 then
      let reason : SystemError :=
        if (s.tree.find s.here target).isOk then .notADirectory else .noSuchFile
      finish s 1 [complain ("cp: target " ++ quote target ++ ": " ++ reason.description)]
    else
      sources.reverse.foldl
        (fun (e : Effect) o =>
          let goal := if intoDirectory then Path.join target (baseName o) else target
          match e.tree.find s.here o, e.tree.locate s.here goal with
          | .ok (place, .directory), .ok goalPlace =>
            if deep then { e with tree := copyTree e.tree place goalPlace }
            else
              { e with
                code := 1
                written := e.written ++
                  [complain ("cp: -r not specified; omitting directory " ++ quote o)] }
          | _, _ =>
            match copyFile s e.tree o goal with
            | .ok t => { e with tree := t }
            | .error text => { e with code := 1, written := e.written ++ [complain text] })
        (finish s 0 [])

/-- The lines that `ls` writes for one directory. -/
def listing (letters : List Char) (place : Place) : String :=
  let names := s.tree.children place
  let all :=
    if letters.contains 'a' then "." :: ".." :: names
    else if letters.contains 'A' then names
    else names.filter fun n => n.toList.head? ≠ some '.'
  String.join (all.map (· ++ "\n"))

def ls (args : List String) : Effect :=
  let (letters, operands) := options args
  let operands := (if operands = [] then ["."] else operands).mergeSort fun a b => a ≤ b
  let found := operands.map fun o => (o, s.tree.find s.here o)
  let errors := found.filterMap fun (o, r) =>
    match r with
    | .error e => some (complain ("ls: cannot access " ++ quote o ++ ": " ++ e.description))
    | .ok _ => none
  let isShownAsFile (n : Node) : Bool := n ≠ .directory || letters.contains 'd'
  let files := found.filterMap fun (o, r) =>
    match r with
    | .ok (_, n) => if isShownAsFile n then some (o ++ "\n") else none
    | .error _ => none
  let directories := found.filterMap fun (o, r) =>
    match r with
    | .ok (place, n) => if isShownAsFile n then none else some (o, listing s letters place)
    | .error _ => none
  let blocks := directories.map fun (o, l) => if operands.length > 1 then o ++ ":\n" ++ l else l
  let text := String.intercalate "\n" ((if files = [] then [] else [String.join files]) ++ blocks)
  finish s (if errors = [] then 0 else 2) (errors ++ [out text])

/-- The numbers of lines, words and bytes. A word is a run without blanks that has a printable
character. -/
def counts (bytes : Bytes) : Nat × Nat × Nat :=
  let isBlank (b : UInt8) : Bool := b = 0x20 || (0x09 ≤ b && b ≤ 0x0D)
  let isPrintable (b : UInt8) : Bool := 0x21 ≤ b && b ≤ 0x7E
  let words := (bytes.foldl
    (fun (p : Nat × Bool) b =>
      if isBlank b then (p.1, false)
      else if p.2 || !isPrintable b then p
      else (p.1 + 1, true))
    (0, false)).1
  (bytes.count 0x0A, words, bytes.length)

/-- The size that `wc` can learn of an operand before it reads it: nothing for one that is missing,
`none` for one that is no file. -/
def knownSize (operand : String) : Option Nat :=
  if operand = "" || operand = "-" then
    if s.isInputFile then some s.input.length else none
  else
    match s.tree.find s.here operand with
    | .error _ => some 0
    | .ok (_, .file bytes _) => some bytes.length
    | .ok (_, .utility name) => some name.length
    | .ok _ => none

def wc (args : List String) : Effect :=
  let (letters, operands) := options args
  let letters := if letters = [] then ['l', 'w', 'c'] else letters
  let inputs :=
    if operands = [] then [("", Except.ok s.input)] else operands.map fun o => (o, contents s o)
  let good := inputs.filterMap fun (o, r) =>
    match r with
    | .ok bytes => some (o, counts bytes)
    | .error _ => none
  let total := good.foldl (fun (t : Nat × Nat × Nat) e =>
    (t.1 + e.2.1, t.2.1 + e.2.2.1, t.2.2 + e.2.2.2)) (0, 0, 0)
  let sizes := inputs.map fun i => knownSize s i.1
  let width :=
    if letters.length = 1 && inputs.length = 1 then 1
    else
      let known := sizes.foldl (fun n size => n + size.getD 0) 0
      max (toString known).length (if sizes.contains none then 7 else 1)
  let number (n : Nat) : String :=
    String.ofList (List.replicate (width - (toString n).length) ' ') ++ toString n
  let line (name : String) (c : Nat × Nat × Nat) : String :=
    let columns :=
      (if letters.contains 'l' then [number c.1] else []) ++
      (if letters.contains 'w' then [number c.2.1] else []) ++
      (if letters.contains 'c' || letters.contains 'm' then [number c.2.2] else [])
    String.intercalate " " (columns ++ if name = "" then [] else [name]) ++ "\n"
  let written := inputs.flatMap fun (o, r) =>
    match r with
    | .ok bytes => [out (line o (counts bytes))]
    | .error e =>
      complain ("wc: " ++ quoteIfNeeded o ++ ": " ++ e.description) ::
        -- a directory is opened before it turns out that it cannot be read
        (if e = .isADirectory then [out (line o (0, 0, 0))] else [])
  let failed := good.length < inputs.length
  finish s (if failed then 1 else 0)
    (written ++ if inputs.length > 1 then [out (line "total" total)] else [])

/-- The lines of a text, each with its end. -/
def lines (bytes : Bytes) : List Bytes :=
  let (last, full) := bytes.foldl
    (fun (p : Bytes × List Bytes) b =>
      if b = 0x0A then ([], (b :: p.1).reverse :: p.2) else (b :: p.1, p.2)) ([], [])
  (if last = [] then full else last.reverse :: full).reverse

/-- The part of a text that `tail` shows. -/
def tailOf (inBytes fromStart : Bool) (n : Nat) (bytes : Bytes) : Bytes :=
  if inBytes then if fromStart then bytes.drop (n - 1) else bytes.drop (bytes.length - n)
  else
    let l := lines bytes
    (if fromStart then l.drop (n - 1) else l.drop (l.length - n)).flatten

/-- What `tail` is asked to show. -/
structure TailPlan where
  inBytes : Bool := false
  fromStart : Bool := false
  amount : Nat := 10
  /-- Whether names stand above what is shown: `none` if this hangs on how many there are. -/
  named : Option Bool := none
  /-- An amount that is no number. -/
  wrong : Option String := none
  /-- The first digit of an amount that is an option itself, which goes with one file only. -/
  short : Option Char := none

/-- Sets the amount, from the start if it has a plus sign. -/
def TailPlan.setAmount (p : TailPlan) (inBytes : Bool) (text : List Char) : TailPlan :=
  let (fromStart, digits) :=
    match text with
    | '+' :: ds => (true, ds)
    | '-' :: ds => (false, ds)
    | ds => (false, ds)
  match (String.ofList digits).toNat? with
  | some amount => { p with inBytes, fromStart, amount }
  | none => { p with inBytes, wrong := some (String.ofList digits) }

/-- Reads the options of `tail`. What is left are the operands. -/
def tailOptions : (fuel : Nat) → TailPlan → List String → TailPlan × List String
  | fuel + 1, p, a :: rest =>
    match a.toList with
    | ['-', '-'] => (p, rest)
    | ['-', 'q'] => tailOptions fuel { p with named := some false } rest
    | ['-', 'v'] => tailOptions fuel { p with named := some true } rest
    | ['-', 'n'] => tailOptions fuel (p.setAmount false (rest.headD "").toList) (rest.drop 1)
    | ['-', 'c'] => tailOptions fuel (p.setAmount true (rest.headD "").toList) (rest.drop 1)
    | '-' :: 'n' :: cs => tailOptions fuel (p.setAmount false cs) rest
    | '-' :: 'c' :: cs => tailOptions fuel (p.setAmount true cs) rest
    | '-' :: c :: cs =>
      if c.isDigit then
        tailOptions fuel { p.setAmount false (c :: cs) with short := some c } rest
      else tailOptions fuel p rest
    | _ =>
      let (p, operands) := tailOptions fuel p rest
      (p, a :: operands)
  | _, p, args => (p, args)

def tail (args : List String) : Effect :=
  let (p, operands) := tailOptions (args.length + 1) {} args
  let operands := if operands = [] then ["-"] else operands
  match p.wrong, p.short.filter fun _ => operands.length > 1 with
  | some text, _ =>
    let unit := if p.inBytes then "bytes" else "lines"
    finish s 1 [complain ("tail: invalid number of " ++ unit ++ ": " ++ quote text)]
  | none, some c => finish s 1 [complain ("tail: option used in invalid context -- " ++ c.toString)]
  | none, none =>
    let named := p.named.getD (operands.length > 1)
    let shown := operands.foldl
      (fun (written, first, good) o =>
        let name := if o = "-" then "standard input" else o
        let title :=
          if named then (if first then "" else "\n") ++ "==> " ++ name ++ " <==\n" else ""
        match contents s o with
        | .ok bytes =>
          let part := tailOf p.inBytes p.fromStart p.amount bytes
          (written ++ [(Channel.output, Utf8.encode title ++ part)], false, good)
        | .error .isADirectory =>
          let text := "tail: error reading " ++ quote o ++ ": Is a directory"
          (written ++ [out title, complain text], false, false)
        | .error e =>
          let text := "tail: cannot open " ++ quote o ++ " for reading: " ++ e.description
          (written ++ [complain text], first, false))
      (([] : List (Channel × Bytes)), true, true)
    { finish s (if shown.2.2 then 0 else 1) shown.1 with
      input := if operands.contains "-" then [] else s.input }

/-- Whether a `printf` belongs to the shell, which starts its complaints with the given text, or is
a program of its own. -/
inductive Printer where
  | shell (name : String)
  | program

/-- What a `printf` says about a complaint. -/
def Printer.complaint : Printer → Format.Complaint → String
  | .shell name, .notNumeric a => name ++ "printf: " ++ a ++ ": expected numeric value"
  | .shell name, .unknownDirective d => name ++ "printf: " ++ d ++ ": invalid directive"
  | .shell name, .missingLetter => name ++ "printf: missing format character"
  | .program, .notNumeric a => "printf: " ++ quote a ++ ": expected a numeric value"
  | .program, .unknownDirective d => "printf: " ++ d ++ ": invalid conversion specification"
  | .program, .missingLetter => "printf: %: invalid conversion specification"

/-- The code that a `printf` ends with. -/
def Printer.code (p : Printer) (complaints : List Format.Complaint) : UInt8 :=
  let isFault : Format.Complaint → Bool
    | .notNumeric _ => false
    | _ => true
  if complaints = [] then 0
  else
    match p with
    | .shell _ => if complaints.any isFault then 2 else 1
    | .program => 1

def printf (printer : Printer) : List String → Effect
  | [] =>
    match printer with
    | .shell name => finish s 2 [complain (name ++ "printf: usage: printf format [arg ...]")]
    | .program => finish s 1 [complain "printf: missing operand",
        complain "Try 'printf --help' for more information."]
  | "--" :: format :: args => print format args
  | format :: args => print format args
where
  print (format : String) (args : List String) : Effect :=
    let p := Format.printf format args
    let complaints := p.complaints.map fun c => complain (printer.complaint c)
    let output := [(Channel.output, p.bytes)]
    finish s (printer.code p.complaints)
      (match printer with
      | .shell _ => complaints ++ output
      | .program => output ++ complaints)

/-- The program `echo`, which leaves escapes alone unless it is asked to replace them. -/
def echo (args : List String) : Effect :=
  let isOption (a : String) : Bool :=
    match a.toList with
    | '-' :: c :: cs => (c :: cs).all fun c => c = 'n' || c = 'e' || c = 'E'
    | _ => false
  let letters := (args.takeWhile isOption).flatMap (·.toList)
  let text := String.intercalate " " (args.dropWhile isOption)
  let (bytes, on) :=
    if letters.contains 'e' then Format.unescapeText text else (Utf8.encode text, true)
  finish s 0 [(.output, bytes ++ if on && !letters.contains 'n' then [0x0A] else [])]

/-! ### Conditions -/

def compareNumbers? (op : String) (a b : Int) : Option Bool :=
  if op = "-eq" then some (a == b)
  else if op = "-ne" then some (a != b)
  else if op = "-lt" then some (decide (a < b))
  else if op = "-le" then some (decide (a ≤ b))
  else if op = "-gt" then some (decide (a > b))
  else if op = "-ge" then some (decide (a ≥ b))
  else none

/-- Whether a path is as an operator on files asks. -/
def fileTest (op path : String) : Bool :=
  match s.tree.find s.here path with
  | .error _ => false
  | .ok (_, n) =>
    if op = "-e" || op = "-r" || op = "-w" then true
    else if op = "-f" then n ≠ .directory && n ≠ .sink
    else if op = "-d" then n = .directory
    else if op = "-c" then n = .sink
    else if op = "-x" then
      match n with
      | .file _ x => x
      | .sink => false
      | _ => true
    else if op = "-s" then
      match n with
      | .file bytes _ => bytes ≠ []
      | .sink => false
      | _ => true
    else false

def unaryOperators : List String :=
  ["-n", "-z", "-e", "-f", "-d", "-x", "-r", "-w", "-s", "-c", "-b", "-p", "-h", "-L", "-S", "-t"]

def binaryOperators : List String :=
  ["=", "==", "!=", "-eq", "-ne", "-lt", "-le", "-gt", "-ge"]

/-- The truth of a comparison, or what is wrong with it. -/
def comparison (a op b : String) : Except String Bool :=
  if op = "=" || op = "==" then .ok (a = b)
  else if op = "!=" then .ok (a ≠ b)
  else
    let (m, goodA) := Format.numeric a
    let (n, goodB) := Format.numeric b
    if !goodA || a = "" then .error ("Illegal number: " ++ a)
    else if !goodB || b = "" then .error ("Illegal number: " ++ b)
    else .ok ((compareNumbers? op m n).getD false)

/-- The truth of a condition that no word joins to another, with the words after it. -/
def oneHolds : (fuel : Nat) → List String → Except String (Bool × List String)
  | 0, args => .ok (false, args)
  | _ + 1, [] => .ok (false, [])
  | _ + 1, [a] => .ok (a ≠ "", [])
  | fuel + 1, a :: b :: rest =>
    if binaryOperators.contains b && rest ≠ [] then
      (comparison a b (rest.headD "")).map fun x => (x, rest.drop 1)
    else if a = "!" then (oneHolds fuel (b :: rest)).map fun r => (!r.1, r.2)
    else if a = "-n" then .ok (b ≠ "", rest)
    else if a = "-z" then .ok (b = "", rest)
    else if unaryOperators.contains a then .ok (fileTest s a b, rest)
    else if binaryOperators.contains b then .error (b ++ ": argument expected")
    else .ok (a ≠ "", b :: rest)

/-- The truth of conditions joined by `-a`. -/
def allHold : (fuel : Nat) → List String → Except String (Bool × List String)
  | 0, args => .ok (false, args)
  | fuel + 1, args => do
    let (x, rest) ← oneHolds s (args.length + 1) args
    match rest with
    | "-a" :: more =>
      let (y, rest) ← allHold fuel more
      return (x && y, rest)
    | _ => return (x, rest)

/-- The truth of conditions joined by `-o` and `-a`. -/
def anyHolds : (fuel : Nat) → List String → Except String (Bool × List String)
  | 0, args => .ok (false, args)
  | fuel + 1, args => do
    let (x, rest) ← allHold s (args.length + 1) args
    match rest with
    | "-o" :: more =>
      let (y, rest) ← anyHolds fuel more
      return (x || y, rest)
    | _ => return (x, rest)

/-- The truth of a condition, or what is wrong with it. -/
def holds (args : List String) : Except String Bool :=
  match anyHolds s (args.length + 1) args with
  | .error text => .error text
  | .ok (x, []) => .ok x
  | .ok (_, rest) =>
    let last := (args[args.length - rest.length - 1]?).getD ""
    .error (last ++ ": unexpected operator")

/-- The condition command; `name` starts its complaints. -/
def test (name : String) (args : List String) : Effect :=
  match holds s args with
  | .ok true => finish s 0 []
  | .ok false => finish s 1 []
  | .error text => finish s 2 [complain (name ++ text)]

/-- The condition command that a bracket closes. -/
def bracket (name missing : String) (args : List String) : Effect :=
  if args.getLast? = some "]" then test s name args.dropLast
  else finish s 2 [complain (name ++ missing)]

/-- Runs the utility of the given name, other than a shell. -/
def run (name : String) (args : List String) : Effect :=
  if name = "true" then finish s 0 []
  else if name = "false" then finish s 1 []
  else if name = "touch" then touch s args
  else if name = "cat" then cat s args
  else if name = "cp" then cp s args
  else if name = "ls" then ls s args
  else if name = "wc" then wc s args
  else if name = "pwd" then finish s 0 [out (FileTree.path s.here ++ "\n")]
  else if name = "printf" then printf s .program args
  else if name = "tail" then tail s args
  else if name = "echo" then echo s args
  else if name = "test" then test s "test: " args
  else if name = "[" then bracket s "[: " "missing ']'" args
  else finish s 127 []

end

end Utility

end Findings.Sandbox
