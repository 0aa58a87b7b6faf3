import CompletionServer.Text.Utf8
import CompletionServer.Yaml.Token

namespace CompletionServer.Yaml

/-- The text still to be read and where it stands in the whole, whose length is `size`. -/
structure Reader where
  rest : List Char
  size : Nat
  index : Nat := 0
  line : Nat := 0
  column : Nat := 0

namespace Reader

def ofChars (text : List Char) : Reader where
  rest := text
  size := text.length

def next (r : Reader) : Reader :=
  match r.rest with
  | [] => r
  | c :: rest =>
    if isBreak c then { r with rest := rest, index := r.index + 1, line := r.line + 1, column := 0 }
    else
      { r with
        rest := rest, index := r.index + 1,
        column := if c = '\uFEFF' then r.column else r.column + 1 }

def advance : Nat → Reader → Reader
  | 0, r => r
  | n + 1, r => advance n r.next

end Reader

abbrev Lex := StateT Reader (Except Fault)

namespace Lex

def peek : Lex (Option Char) := return (← get).rest.head?

def peekAt (k : Nat) : Lex (Option Char) := return (← get).rest[k]?

def skip (n : Nat) : Lex Unit := modify (Reader.advance n)

def fail {α : Type} : Lex α := do
  let r ← get
  throw (.malformed r.index)

/-- More rounds than any loop over the rest of the text takes. -/
def rounds : Lex Nat := do
  let r ← get
  return r.size - r.index + 1

def takeRun (p : Char → Bool) : Lex (List Char) := do
  let run := (← get).rest.takeWhile p
  skip run.length
  return run

/-- A line break as it counts in a text: the Unicode separators stay, the others become LF. -/
def lineBreak : Lex (List Char) := do
  match ← peek with
  | some c =>
    if isBreak c then
      skip 1
      return [if c = '\x85' then '\n' else c]
    else return []
  | none => return []

/-- A single break becomes a space, further breaks stay. -/
def fold (first breaks : List Char) : List Char :=
  if first ≠ ['\n'] then first ++ breaks
  else if breaks.isEmpty then [' ']
  else breaks

/-! ### Plain scalars -/

def plainRun (flow : Bool) : List Char → List Char
  | [] => []
  | c :: rest =>
    let colonEnds := endsIndicator rest.head? || (flow && rest.head?.any (",[]\x7b\x7d".contains ·))
    if isBlank c || isBreak c || (c = ':' && colonEnds) ||
        (flow && ",?[]\x7b\x7d".contains c) then []
    else c :: plainRun flow rest

/-- The breaks between two lines of a plain scalar; none if a separator line comes. -/
def plainBreaks : Nat → List Char → Lex (Option (List Char))
  | 0, _ => fail
  | n + 1, breaks => do
    match ← peek with
    | some ' ' =>
      skip 1
      plainBreaks n breaks
    | some c =>
      if isBreak c then
        let more ← lineBreak
        if startsAnySeparator (← get).rest then return none
        plainBreaks n (breaks ++ more)
      else return some breaks
    | none => return some breaks

def plainSpaces : Lex (List Char × Bool) := do
  let spaces ← takeRun (· = ' ')
  if (← peek).any isBreak then
    let first ← lineBreak
    if startsAnySeparator (← get).rest then return ([], true)
    match ← plainBreaks (← rounds) [] with
    | none => return ([], true)
    | some breaks => return (fold first breaks, true)
  else return (spaces, false)

/-- The runs of a plain scalar from here on; what was read of it before is given last character
first. -/
def plainRuns (indent : Int) (flow : Bool) :
    Nat → List Char → List Char → Bool → Lex (List Char × Bool)
  | 0, before, _, ended => return (before.reverse, ended)
  | n + 1, before, spaces, ended => do
    if (← peek) = some '#' then return (before.reverse, ended)
    let run := plainRun flow (← get).rest
    if run.isEmpty then return (before.reverse, ended)
    skip run.length
    let before := run.reverseAux (spaces.reverseAux before)
    let (spaces, ended) ← plainSpaces
    if spaces.isEmpty || (← peek) = some '#' || (!flow && (← get).column < indent) then
      return (before.reverse, ended)
    plainRuns indent flow n before spaces ended

/-- A plain scalar, and whether it was followed by the end of its line. Its further lines are
indented by at least `indent`. -/
def plain (indent : Int) (flow : Bool) : Lex (List Char × Bool) := do
  plainRuns indent flow (← rounds) [] [] false

/-! ### Quoted scalars -/

def quotedBreaks : Nat → List Char → Lex (List Char)
  | 0, _ => fail
  | n + 1, breaks => do
    if startsAnySeparator (← get).rest then fail
    discard <| takeRun isBlank
    if (← peek).any isBreak then
      let more ← lineBreak
      quotedBreaks n (breaks ++ more)
    else return breaks

def quotedSpaces : Lex (List Char) := do
  let spaces ← takeRun isBlank
  match ← peek with
  | none => fail
  | some c =>
    if isBreak c then
      let first ← lineBreak
      return fold first (← quotedBreaks (← rounds) [])
    else return spaces

def escapes : List (Char × Char) :=
  [('0', '\x00'), ('a', '\x07'), ('b', '\x08'), ('t', '\t'), ('\t', '\t'), ('n', '\n'),
    ('v', '\x0b'), ('f', '\x0c'), ('r', '\r'), ('e', '\x1b'), (' ', ' '), ('"', '"'),
    ('\\', '\\'), ('/', '/'), ('N', '\x85'), ('_', '\xa0'), ('L', '\u2028'), ('P', '\u2029')]

def escapeWidth : Char → Option Nat
  | 'x' => some 2
  | 'u' => some 4
  | 'U' => some 8
  | _ => none

def escape : Lex Text := do
  match ← peek with
  | none => fail
  | some c =>
    match escapes.lookup c, escapeWidth c with
    | some d, _ =>
      skip 1
      return [.ofChar d]
    | none, some width =>
      skip 1
      let digits := (← get).rest.take width
      match Digits.hexValue? digits with
      | some n =>
        if digits.length < width then fail
        if h : n < 0x110000 then
          skip width
          return [⟨n, h⟩]
        else throw (.conversion (.codePoint n))
      | none => fail
    | none, none =>
      if isBreak c then
        discard lineBreak
        return .ofChars (← quotedBreaks (← rounds) [])
      else fail

def endsQuotedRun (c : Char) : Bool :=
  c = '\'' || c = '"' || c = '\\' || isBlank c || isBreak c

/-- Text without spaces inside quotes, put in front of what was read before, all of it last
character first. -/
def quotedRuns (double : Bool) : Nat → Text → Lex Text
  | 0, _ => fail
  | n + 1, before => do
    let before := (Text.ofChars (← takeRun (!endsQuotedRun ·))).reverseAux before
    match ← peek with
    | none => return before
    | some c =>
      if !double && c = '\'' && (← peekAt 1) = some '\'' then
        skip 2
        quotedRuns double n (.ofChar '\'' :: before)
      else if (double && c = '\'') || (!double && (c = '"' || c = '\\')) then
        skip 1
        quotedRuns double n (.ofChar c :: before)
      else if double && c = '\\' then
        skip 1
        quotedRuns double n ((← escape).reverseAux before)
      else return before

def quotedRest (double : Bool) (quote : Char) : Nat → Text → Lex Text
  | 0, _ => fail
  | n + 1, before => do
    if (← peek) = some quote then
      skip 1
      return before.reverse
    let spaces ← quotedSpaces
    let before ← quotedRuns double (← rounds) ((Text.ofChars spaces).reverseAux before)
    quotedRest double quote n before

def quoted (double : Bool) : Lex Text := do
  skip 1
  let run ← quotedRuns double (← rounds) []
  quotedRest double (if double then '"' else '\'') (← rounds) run

/-! ### Block scalars -/

inductive Chomping where
  | strip
  | clip
  | keep
deriving DecidableEq

structure BlockHeader where
  chomping : Chomping
  increment : Option Nat

def chomping? (c : Option Char) : Option Chomping :=
  if c = some '+' then some .keep else if c = some '-' then some .strip else none

/-- An indentation indicator, which is not zero. -/
def increment : Lex (Option Nat) := do
  match ← peek with
  | some c =>
    if c.isDigit then
      if c = '0' then fail
      skip 1
      return some (c.toNat - 0x30)
    else return none
  | none => return none

def chompingMark : Lex (Option Chomping) := do
  match chomping? (← peek) with
  | some c =>
    skip 1
    return some c
  | none => return none

def blockHeader : Lex BlockHeader := do
  let before ← chompingMark
  let width ← increment
  let after ← if before.isNone && width.isSome then chompingMark else pure none
  if !endsWord (← peek) then fail
  return ⟨(before.or after).getD .clip, width⟩

def ignoredLine : Lex Unit := do
  discard <| takeRun (· = ' ')
  if (← peek) = some '#' then discard <| takeRun (!isBreak ·)
  if !endsLine (← peek) then fail
  discard lineBreak

/-- Leading empty lines, and the widest indentation seen in them. -/
def blockIndentation : Nat → List Char → Nat → Lex (List Char × Nat)
  | 0, _, _ => fail
  | n + 1, breaks, widest => do
    match ← peek with
    | some ' ' =>
      skip 1
      blockIndentation n breaks (max widest (← get).column)
    | some c =>
      if isBreak c then
        let more ← lineBreak
        blockIndentation n (breaks ++ more) widest
      else return (breaks, widest)
    | none => return (breaks, widest)

def indentation (indent : Nat) : Lex Unit := do
  let r ← get
  let spaces := r.rest.takeWhile (· = ' ')
  skip (min spaces.length (indent - r.column))

def blockBreaks (indent : Nat) : Nat → List Char → Lex (List Char)
  | 0, _ => fail
  | n + 1, breaks => do
    if (← peek).any isBreak then
      let more ← lineBreak
      indentation indent
      blockBreaks indent n (breaks ++ more)
    else return breaks

def emptyLines (indent : Nat) : Lex (List Char) := do
  indentation indent
  blockBreaks indent (← rounds) []

/-- The lines of a block scalar, the break of the last one and the empty lines after it; the lines
before are given last character first. -/
def blockLines (folded : Bool) (indent : Nat) :
    Nat → List Char → List Char → Lex (List Char × List Char × List Char)
  | 0, _, _ => fail
  | n + 1, before, breaks => do
    let flush := !(← peek).any isBlank
    let run ← takeRun (!isBreak ·)
    let before := run.reverseAux (breaks.reverseAux before)
    let last ← lineBreak
    let breaks ← emptyLines indent
    let r ← get
    if r.column = indent && !r.rest.isEmpty then
      let joint :=
        if folded && last = ['\n'] && flush && !(← peek).any isBlank then
          if breaks.isEmpty then [' '] else []
        else last
      blockLines folded indent n (joint.reverseAux before) breaks
    else return (before.reverse, last, breaks)

def block (folded : Bool) (outer : Int) : Lex (List Char) := do
  skip 1
  let header ← blockHeader
  ignoredLine
  let least := max 1 (outer + 1).toNat
  let (indent, breaks) ← match header.increment with
    | none =>
      let (breaks, widest) ← blockIndentation (← rounds) [] 0
      pure (max least widest, breaks)
    | some width =>
      let indent := least + width - 1
      pure (indent, ← emptyLines indent)
  let r ← get
  let (text, last, breaks) ←
    if r.column = indent && !r.rest.isEmpty then blockLines folded indent (← rounds) [] breaks
    else pure ([], [], breaks)
  return match header.chomping with
    | .strip => text
    | .clip => text ++ last
    | .keep => text ++ last ++ breaks

/-! ### Anchors, tags and directives -/

def isNameChar (c : Char) : Bool :=
  c.isAlphanum || c = '-' || c = '_'

def name : Lex String := do
  skip 1
  let name ← takeRun isNameChar
  let next ← peek
  if name.isEmpty || !(endsIndicator next || next.any ("?:,]\x7d%@\x60".contains ·)) then fail
  return .ofList name

def isUriChar (c : Char) : Bool :=
  c.isAlphanum || "-;/?:@&=+$,_.!~*'()[]".contains c

/-- Percent escapes in a row, which together spell UTF-8. -/
def uriEscapes : Nat → List UInt8 → Lex (List UInt8)
  | 0, _ => fail
  | n + 1, bytes => do
    match (← get).rest with
    | '%' :: a :: b :: _ =>
      match Digits.hexValue? [a, b] with
      | some byte =>
        skip 3
        uriEscapes n (bytes ++ [.ofNat byte])
      | none => fail
    | '%' :: _ => fail
    | _ => return bytes

def uriRest : Nat → List Char → Lex (List Char)
  | 0, _ => fail
  | n + 1, text => do
    let run ← takeRun isUriChar
    if (← peek) = some '%' then
      match Utf8.decode? (← uriEscapes (← rounds) []) with
      | some cs => uriRest n (text ++ run ++ cs)
      | none => fail
    else return text ++ run

def uri : Lex String := do
  let text ← uriRest (← rounds) []
  if text.isEmpty then fail
  return .ofList text

/-- A tag handle: `!`, `!!` or a name between exclamation marks. -/
def tagHandle : Lex String := do
  if (← peek) ≠ some '!' then fail
  skip 1
  if (← peek) = some ' ' then return "!"
  let name ← takeRun isNameChar
  if (← peek) ≠ some '!' then fail
  skip 1
  return .ofList ('!' :: name ++ ['!'])

def tag : Lex Token := do
  let next ← peekAt 1
  let token ←
    if next = some '<' then do
      skip 2
      let suffix ← uri
      if (← peek) ≠ some '>' then fail
      skip 1
      pure (Token.tag none suffix)
    else if endsIndicator next then do
      skip 1
      pure (Token.tag none "!")
    else do
      let word := ((← get).rest.drop 1).takeWhile fun c => !(c = ' ' || isBreak c)
      let handle ← if word.contains '!' then tagHandle else do
        skip 1
        pure "!"
      pure (Token.tag (some handle) (← uri))
  if !endsWord (← peek) then fail
  return token

def number : Lex Nat := do
  let digits ← takeRun Char.isDigit
  if digits.isEmpty then fail
  if Numeral.mostDigits < digits.length then throw (.conversion (.longInteger digits.length))
  return Digits.value digits

def directive : Lex Directive := do
  skip 1
  let name ← takeRun isNameChar
  if name.isEmpty || !endsWord (← peek) then fail
  let d ←
    if name = "YAML".toList then do
      discard <| takeRun (· = ' ')
      let major ← number
      if (← peek) ≠ some '.' then fail
      skip 1
      let minor ← number
      if !endsWord (← peek) then fail
      pure (Directive.version major minor)
    else if name = "TAG".toList then do
      discard <| takeRun (· = ' ')
      let handle ← tagHandle
      if (← peek) ≠ some ' ' then fail
      discard <| takeRun (· = ' ')
      let uri ← uri
      if !endsWord (← peek) then fail
      pure (Directive.handle handle uri)
    else do
      discard <| takeRun (!isBreak ·)
      pure .reserved
  ignoredLine
  return d

end Lex

end CompletionServer.Yaml
