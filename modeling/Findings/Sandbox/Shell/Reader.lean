import Findings.Sandbox.Shell.Script

/-!
# Reading shell scripts

From text to tokens, where quotes and expansions are resolved into words, and from tokens to
commands. Fuel bounds the depth of the recursion; the length of the text is always enough.
-/

set_option autoImplicit false

namespace Findings.Sandbox.Shell

inductive Token where
  | word (word : Word)
  | redirect (channel : Option Nat) (mark : String)
  | here (text : Word)
  | mark (text : String)
deriving DecidableEq, Repr

/-! ### Words -/

def isNameStart (c : Char) : Bool := c.isAlpha || c = '_'

def isNameChar (c : Char) : Bool := c.isAlphanum || c = '_'

def isSpecialParameter (c : Char) : Bool := c.isDigit || "@*#?$!-".toList.contains c

/-- Cuts a text at the bracket that closes the one before it. Quoted brackets do not count. -/
def untilClosed : (fuel depth : Nat) → List Char → Option (List Char × List Char)
  | fuel + 1, depth, c :: s =>
    let before (taken : List Char) (depth : Nat) (rest : List Char) :=
      (untilClosed fuel depth rest).map fun (inner, r) => (taken ++ inner, r)
    if c = '\\' then before (c :: s.take 1) depth (s.drop 1)
    else if c = '\'' then
      let quoted := s.takeWhile (· ≠ '\'')
      before (c :: quoted ++ ['\'']) depth (s.drop (quoted.length + 1))
    else if c = '(' then before [c] (depth + 1) s
    else if c = ')' then if depth = 0 then some ([], s) else before [c] (depth - 1) s
    else before [c] depth s
  | _, _, _ => none

/-- Splits the text between braces into the name of a parameter and what follows it. -/
def parameterName (s : List Char) : List Char × List Char :=
  match s with
  | [] => ([], [])
  | c :: t =>
    if isNameStart c then (s.takeWhile isNameChar, s.dropWhile isNameChar)
    else if c.isDigit then (s.takeWhile Char.isDigit, s.dropWhile Char.isDigit)
    else ([c], t)

/-- The parameter that the text between braces stands for. -/
def braced (s : List Char) : Option Part :=
  match s with
  | '#' :: c :: t => some (.parameter (String.ofList (c :: t)) .length)
  | _ =>
    let (name, rest) := parameterName s
    let (emptyToo, rest) :=
      match rest with
      | ':' :: t => (true, t)
      | _ => (false, rest)
    let form? : Option Form :=
      match rest with
      | [] => if emptyToo then none else some .value
      | '-' :: t => some (.fallback emptyToo (String.ofList t))
      | '+' :: t => some (.alternative emptyToo (String.ofList t))
      | '=' :: t => some (.assigned emptyToo (String.ofList t))
      | '?' :: t => some (.required emptyToo (String.ofList t))
      | _ => none
    if name = [] then none else form?.map (.parameter (String.ofList name))

/-- Reads what follows a dollar sign. -/
def dollar (s : List Char) : Option (Part × List Char) :=
  match s with
  | '(' :: '(' :: t =>
    match untilClosed t.length 0 t with
    | some (inner, ')' :: rest) => some (.arithmetic (String.ofList inner), rest)
    | _ => none
  | '(' :: t =>
    (untilClosed (t.length + 1) 0 t).map fun (inner, r) => (.output (String.ofList inner), r)
  | '\x7b' :: t =>
    let inner := t.takeWhile (· ≠ '\x7d')
    if inner.length < t.length then
      (braced inner).map fun part => (part, t.drop (inner.length + 1))
    else none
  | c :: t =>
    if isNameStart c then
      some (.parameter (String.ofList (s.takeWhile isNameChar)) .value, s.dropWhile isNameChar)
    else if isSpecialParameter c then some (.parameter c.toString .value, t)
    else some (.text "$", s)
  | [] => some (.text "$", [])

/-- Reads a script between backquotes. -/
def backquoted : List Char → Option (List Char × List Char)
  | [] => none
  | '\\' :: c :: s => (backquoted s).map fun (t, r) =>
    (if c = '\x60' || c = '\\' || c = '$' then c :: t else '\\' :: c :: t, r)
  | c :: s => if c = '\x60' then some ([], s) else (backquoted s).map fun (t, r) => (c :: t, r)

/-- Reads pieces between double quotes, up to the closing one. If `toEnd` is set, the text ends
where its characters do, and a quote is one of them. -/
def quotedPieces (toEnd : Bool) : (fuel : Nat) → List Char → Option (Word × List Char)
  | 0, _ => none
  | _ + 1, [] => if toEnd then some ([], []) else none
  | fuel + 1, c :: s =>
    let piece (part : Part) (rest : List Char) : Option (Word × List Char) :=
      (quotedPieces toEnd fuel rest).map fun (w, r) => (⟨true, part⟩ :: w, r)
    if c = '"' && !toEnd then some ([], s)
    else if c = '\\' then
      match s with
      | '\n' :: t => quotedPieces toEnd fuel t
      | d :: t =>
        if d = '$' || d = '\x60' || d = '\\' || (d = '"' && !toEnd) then piece (.text d.toString) t
        else piece (.text ("\\" ++ d.toString)) t
      | [] => piece (.text "\\") []
    else if c = '$' then
      match dollar s with
      | some (part, rest) => piece part rest
      | none => none
    else if c = '\x60' then
      match backquoted s with
      | some (script, rest) => piece (.output (String.ofList script)) rest
      | none => none
    else
      let isPlain (c : Char) : Bool :=
        c ≠ '\\' && c ≠ '$' && c ≠ '\x60' && (c ≠ '"' || toEnd)
      piece (.text (String.ofList (c :: s.takeWhile isPlain))) (s.dropWhile isPlain)

/-- Whether a character ends a word. -/
def endsWord (c : Char) : Bool := " \t\n;&|<>()".toList.contains c

/-- Reads the pieces of a word. -/
def pieces : (fuel : Nat) → List Char → Option (Word × List Char)
  | 0, _ => none
  | _ + 1, [] => some ([], [])
  | fuel + 1, c :: s =>
    let piece (quoted : Bool) (part : Part) (rest : List Char) : Option (Word × List Char) :=
      (pieces fuel rest).map fun (w, r) => (⟨quoted, part⟩ :: w, r)
    if endsWord c then some ([], c :: s)
    else if c = '\\' then
      match s with
      | '\n' :: t => pieces fuel t
      | d :: t => piece true (.text d.toString) t
      | [] => piece true (.text "\\") []
    else if c = '\'' then
      let inner := s.takeWhile (· ≠ '\'')
      if inner.length < s.length then
        piece true (.text (String.ofList inner)) (s.drop (inner.length + 1))
      else none
    else if c = '"' then
      match quotedPieces false (s.length + 1) s with
      | some (w, rest) =>
        -- quotes make a field even of nothing, unless they hold the arguments alone
        let field : Word :=
          if w = [⟨true, .parameter "@" .value⟩] then [] else [⟨true, .text ""⟩]
        (pieces fuel rest).map fun (more, r) => (w ++ field ++ more, r)
      | none => none
    else if c = '$' then
      match dollar s with
      | some (part, rest) => piece false part rest
      | none => none
    else if c = '\x60' then
      match backquoted s with
      | some (script, rest) => piece false (.output (String.ofList script)) rest
      | none => none
    else
      let isPlain (c : Char) : Bool :=
        !endsWord c && c ≠ '\\' && c ≠ '\'' && c ≠ '"' && c ≠ '$' && c ≠ '\x60'
      piece false (.text (String.ofList (c :: s.takeWhile isPlain))) (s.dropWhile isPlain)

/-! ### Tokens -/

/-- The lines up to the one that is `ending`, and what comes after it. -/
def hereLines (strip : Bool) (ending : List Char) :
    (fuel : Nat) → List Char → List Char × List Char
  | 0, s => (s, [])
  | fuel + 1, s =>
    if s = [] then ([], [])
    else
      let line := s.takeWhile (· ≠ '\n')
      let rest := s.drop (line.length + 1)
      let line := if strip then line.dropWhile (· = '\t') else line
      if line = ending then ([], rest)
      else
        let (more, r) := hereLines strip ending fuel rest
        (line ++ '\n' :: more, r)

/-- Reads text that stands in the lines after this one: the token, and the rest of the line with the
lines after the text. -/
def hereText (strip : Bool) (s : List Char) : Option (Token × List Char) := do
  let (w, rest) ← pieces (s.length + 1) (s.dropWhile fun c => c = ' ' || c = '\t')
  let ending := w.flatMap fun p =>
    match p.part with
    | .text t => t.toList
    | _ => []
  let line := rest.takeWhile (· ≠ '\n')
  let after := rest.drop (line.length + 1)
  let (text, remaining) := hereLines strip ending after.length after
  let word ←
    if w.any (·.quoted) then some [⟨true, .text (String.ofList text)⟩]
    else (quotedPieces true (text.length + 1) text).map (·.1)
  return (.here word, line ++ '\n' :: remaining)

/-- Reads the mark of a redirection. -/
def redirectMark (channel : Option Nat) (s : List Char) : Option (Token × List Char) :=
  match s with
  | '<' :: '<' :: '-' :: t => hereText true t
  | '<' :: '<' :: t => hereText false t
  | '<' :: '&' :: t => some (.redirect channel "<&", t)
  | '<' :: t => some (.redirect channel "<", t)
  | '>' :: '>' :: t => some (.redirect channel ">>", t)
  | '>' :: '&' :: t => some (.redirect channel ">&", t)
  | '>' :: '|' :: t => some (.redirect channel ">", t)
  | '>' :: t => some (.redirect channel ">", t)
  | _ => none

/-- The next token, given that the text starts with neither a blank nor a comment. -/
def token (s : List Char) : Option (Token × List Char) :=
  match s with
  | '&' :: '&' :: t => some (.mark "&&", t)
  | '|' :: '|' :: t => some (.mark "||", t)
  | ';' :: ';' :: t => some (.mark ";;", t)
  | ';' :: t => some (.mark ";", t)
  | '&' :: t => some (.mark "&", t)
  | '|' :: t => some (.mark "|", t)
  | '(' :: t => some (.mark "(", t)
  | ')' :: t => some (.mark ")", t)
  | '\n' :: t => some (.mark "\n", t)
  | '<' :: _ | '>' :: _ => redirectMark none s
  | c :: '<' :: _ | c :: '>' :: _ =>
    if c.isDigit then redirectMark (some (c.toNat - 48)) (s.drop 1)
    else (pieces (s.length + 1) s).map fun (w, r) => (.word w, r)
  | _ => (pieces (s.length + 1) s).map fun (w, r) => (.word w, r)

/-- The tokens of a script with the lines they stand on; `last` is the number of the last line. -/
def tokens (last : Nat) : (fuel : Nat) → List Char → Option (List (Nat × Token))
  | 0, _ => none
  | _ + 1, [] => some []
  | fuel + 1, c :: s =>
    if c = ' ' || c = '\t' then tokens last fuel s
    else if c = '#' then tokens last fuel (s.dropWhile (· ≠ '\n'))
    else
      match c, s with
      | '\\', '\n' :: t => tokens last fuel t
      | _, _ =>
        match token (c :: s) with
        | none => none
        | some (t, rest) =>
          let line := last - (c :: s).count '\n'
          (tokens last fuel rest).map fun more => (line, t) :: more

/-! ### Commands -/

abbrev Tokens := List (Nat × Token)

/-- The word that comes next, if it is plain. -/
def keyword? : Tokens → Option String
  | (_, .word w) :: _ => w.plain?
  | _ => none

def skipLineEnds : Tokens → Tokens
  | (l, .mark m) :: ts => if m = "\n" then skipLineEnds ts else (l, .mark m) :: ts
  | ts => ts

def closers : List String := ["then", "do", "done", "fi", "else", "elif", "\x7d", "esac"]

/-- Whether no command can start here. -/
def atEnd (ts : Tokens) : Bool :=
  match ts with
  | [] => true
  | (_, .mark m) :: _ => m = ")" || m = ";;"
  | _ =>
    match keyword? ts with
    | some k => closers.contains k
    | none => false

/-- Reads a word that must be the given one. -/
def expect (k : String) (ts : Tokens) : Option Tokens :=
  if keyword? (skipLineEnds ts) = some k then some ((skipLineEnds ts).drop 1) else none

/-- A redirection that starts here. -/
def redirect? : Tokens → Option (Redirect × Tokens)
  | (_, .here text) :: ts => some (.here text, ts)
  | (_, .redirect channel m) :: (_, .word w) :: ts =>
    if m = "<" then some (.input w, ts)
    else if m = ">" then some (.output (channel.getD 1) w, ts)
    else if m = ">>" then some (.append (channel.getD 1) w, ts)
    else if m = ">&" then some (.same (channel.getD 1) w, ts)
    else some (.same (channel.getD 0) w, ts)
  | _ => none

/-- The name and value of a word that is an assignment. -/
def assignment? : Word → Option (String × Word)
  | ⟨false, .text t⟩ :: rest =>
    let name := t.toList.takeWhile isNameChar
    match t.toList.drop name.length with
    | '=' :: value =>
      if (name.head?.map isNameStart).getD false then
        let first : Word := if value = [] then [] else [⟨false, .text (String.ofList value)⟩]
        some (String.ofList name, first ++ rest)
      else none
    | _ => none
  | _ => none

/-- Skips a mark if it is the given one. -/
def dropMark (m : String) (ts : Tokens) : Tokens :=
  match ts with
  | (_, .mark n) :: rest => if n = m then rest else ts
  | _ => ts

/-- Reads patterns up to the bracket after them. -/
def casePatterns : (fuel : Nat) → Tokens → Option (List Word × Tokens)
  | fuel + 1, (_, .word w) :: (_, .mark m) :: ts =>
    if m = ")" then some ([w], ts)
    else if m = "|" then (casePatterns fuel ts).map fun (ws, rest) => (w :: ws, rest)
    else none
  | _, _ => none

/-- Reads the words and redirections of a simple command. -/
def simpleParts : (fuel : Nat) → Tokens → List Word × List Redirect × Tokens
  | 0, ts => ([], [], ts)
  | fuel + 1, ts =>
    match redirect? ts with
    | some (r, rest) =>
      let (ws, rs, rest) := simpleParts fuel rest
      (ws, r :: rs, rest)
    | none =>
      match ts with
      | (_, .word w) :: rest =>
        let (ws, rs, rest) := simpleParts fuel rest
        (w :: ws, rs, rest)
      | _ => ([], [], ts)

/-- The line that comes next. -/
def lineOf (ts : Tokens) : Nat := (ts.head?.map (·.1)).getD 1

/-- Reads redirections after a compound command that starts at a line. -/
def withRedirects (line : Nat) (c : Command) (ts : Tokens) : Command × Tokens :=
  match simpleParts ts.length (ts.takeWhile fun t => match t.2 with
      | .redirect .. | .here _ | .word _ => true
      | .mark _ => false) with
  | ([], [], _) => (c, ts)
  | ([], rs, _) => (.redirected line c rs, ts.dropWhile fun t => match t.2 with
      | .redirect .. | .here _ | .word _ => true
      | .mark _ => false)
  | _ => (c, ts)

def simple (ts : Tokens) : Option (Command × Tokens) :=
  let (words, redirects, rest) := simpleParts (ts.length + 1) ts
  let assignments := (words.map assignment?).takeWhile (·.isSome)
  let line := lineOf ts
  if words = [] && redirects = [] then none
  else
    some (.simple line (assignments.filterMap id) (words.drop assignments.length) redirects, rest)

mutual

/-- Reads commands up to where none can start. -/
def list : (fuel : Nat) → Tokens → Option (Command × Tokens)
  | 0, _ => none
  | fuel + 1, ts =>
    let ts := skipLineEnds ts
    if atEnd ts then some (.nothing, ts)
    else do
      let (first, rest) ← chain fuel ts
      match rest with
      | (_, .mark m) :: more =>
        if m = ";" || m = "&" || m = "\n" then do
          let (second, rest) ← list fuel more
          return (.sequence first second, rest)
        else if m = ")" || m = ";;" then return (first, rest)
        else none
      | _ => return (first, rest)

/-- Reads commands joined by `&&` and `||`. -/
def chain : (fuel : Nat) → Tokens → Option (Command × Tokens)
  | 0, _ => none
  | fuel + 1, ts => do
    let (first, rest) ← pipeline fuel ts
    chainRest fuel first rest

/-- Reads what is joined to a command. -/
def chainRest : (fuel : Nat) → Command → Tokens → Option (Command × Tokens)
  | 0, _, _ => none
  | fuel + 1, first, ts =>
    match ts with
    | (_, .mark m) :: more =>
      if m = "&&" then do
        let (second, rest) ← pipeline fuel (skipLineEnds more)
        chainRest fuel (.andThen first second) rest
      else if m = "||" then do
        let (second, rest) ← pipeline fuel (skipLineEnds more)
        chainRest fuel (.orElse first second) rest
      else some (first, ts)
    | _ => some (first, ts)

/-- Reads commands joined by `|`, perhaps after `!`. -/
def pipeline : (fuel : Nat) → Tokens → Option (Command × Tokens)
  | 0, _ => none
  | fuel + 1, ts =>
    if keyword? ts = some "!" then do
      let (c, rest) ← pipeline fuel (ts.drop 1)
      return (.negated c, rest)
    else do
      let (first, rest) ← command fuel ts
      match rest with
      | (_, .mark m) :: more =>
        if m = "|" then do
          let (second, rest) ← pipeline fuel (skipLineEnds more)
          return (.pipe first second, rest)
        else return (first, rest)
      | _ => return (first, rest)

/-- Reads one command. -/
def command : (fuel : Nat) → Tokens → Option (Command × Tokens)
  | 0, _ => none
  | fuel + 1, ts =>
    let line := lineOf ts
    match ts with
    | (_, .mark m) :: more =>
      if m = "(" then do
        let (c, rest) ← list fuel more
        match rest with
        | (_, .mark m) :: rest =>
          if m = ")" then return withRedirects line (.subshell c) rest else none
        | _ => none
      else none
    | _ =>
      match keyword? ts with
      | some k =>
        if k = "\x7b" then do
          let (c, rest) ← list fuel (ts.drop 1)
          let rest ← expect "\x7d" rest
          return withRedirects line c rest
        else if k = "if" then do
          let (c, rest) ← conditional fuel (ts.drop 1)
          return withRedirects line c rest
        else if k = "while" || k = "until" then do
          let (condition, rest) ← list fuel (ts.drop 1)
          let rest ← expect "do" rest
          let (body, rest) ← list fuel rest
          let rest ← expect "done" rest
          return withRedirects line (.loop (k = "while") condition body) rest
        else if k = "for" then do
          let name ← keyword? (ts.drop 1)
          let rest := skipLineEnds (ts.drop 2)
          let (words, rest) :=
            if keyword? rest = some "in" then
              let (ws, _, rest) := simpleParts rest.length (rest.drop 1)
              (ws, rest)
            else ([[⟨true, .parameter "@" .value⟩]], rest)
          let rest :=
            match rest with
            | (_, .mark m) :: more => if m = ";" then more else rest
            | _ => rest
          let rest ← expect "do" rest
          let (body, rest) ← list fuel rest
          let rest ← expect "done" rest
          return withRedirects line (.each name words body) rest
        else if k = "case" then
          match ts.drop 1 with
          | (_, .word w) :: rest => do
            let rest ← expect "in" rest
            let (arms, rest) ← caseArms fuel (skipLineEnds rest)
            let rest ← expect "esac" rest
            return withRedirects line (.select line w arms) rest
          | _ => none
        else if closers.contains k then none
        else simple ts
      | none => simple ts

/-- Reads the patterns and commands between `in` and `esac`. -/
def caseArms : (fuel : Nat) → Tokens → Option (List (List Word × Command) × Tokens)
  | 0, _ => none
  | fuel + 1, ts => do
    if keyword? ts = some "esac" then return ([], ts)
    else
      let (patterns, rest) ← casePatterns (ts.length + 1) (dropMark "(" ts)
      let (body, rest) ← list fuel rest
      let (more, rest) ← caseArms fuel (skipLineEnds (dropMark ";;" rest))
      return ((patterns, body) :: more, rest)

/-- Reads the rest of a conditional after `if` or `elif`. -/
def conditional : (fuel : Nat) → Tokens → Option (Command × Tokens)
  | 0, _ => none
  | fuel + 1, ts => do
    let (condition, rest) ← list fuel ts
    let rest ← expect "then" rest
    let (yes, rest) ← list fuel rest
    let rest := skipLineEnds rest
    if keyword? rest = some "elif" then do
      let (no, rest) ← conditional fuel (rest.drop 1)
      return (.choice condition yes no, rest)
    else if keyword? rest = some "else" then do
      let (no, rest) ← list fuel (rest.drop 1)
      let rest ← expect "fi" rest
      return (.choice condition yes no, rest)
    else do
      let rest ← expect "fi" rest
      return (.choice condition yes .nothing, rest)

end

/-- The commands of a script, or `none` if it is malformed. Lines are counted from `line`. -/
def parse (line : Nat) (script : String) : Option Command := do
  let text := script.toList
  let ts ← tokens (line + text.count '\n') (text.length + 1) text
  let (c, rest) ← list (4 * ts.length + 8) ts
  if rest = [] then return c else none

end Findings.Sandbox.Shell
