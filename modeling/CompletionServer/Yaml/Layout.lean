import CompletionServer.Yaml.Lexeme

namespace CompletionServer.Yaml

/-- A place where a key may have begun. A required one must turn out to be a key. -/
structure Candidate where
  level : Nat
  token : Nat
  required : Bool
  index : Nat
  line : Nat
  column : Nat

/-- The state of the pass over a text. Of the tokens emitted so far, `count` of them, the last one
comes first. -/
structure Layout where
  reader : Reader
  level : Nat := 0
  indent : Int := -1
  outer : List Int := []
  keyAllowed : Bool := true
  candidates : List Candidate := []
  emitted : List Token := []
  count : Nat := 0

abbrev Scan := StateT Layout (Except Fault)

namespace Scan

def lex {α : Type} (p : Lex α) : Scan α := do
  let s ← get
  let (a, r) ← p.run s.reader
  set { s with reader := r }
  return a

def fail {α : Type} : Scan α := lex Lex.fail

def emit (t : Token) : Scan Unit :=
  modify fun s => { s with emitted := t :: s.emitted, count := s.count + 1 }

def emitAt (k : Nat) (t : Token) : Scan Unit :=
  modify fun s =>
    let later := s.count - k
    { s with
      emitted := s.emitted.take later ++ t :: s.emitted.drop later, count := s.count + 1 }

def allowKey (b : Bool) : Scan Unit :=
  modify fun s => { s with keyAllowed := b }

/-- A key takes at most this many characters. -/
def longestKey : Nat := 1024

/-- Gives up the candidates that satisfy a condition; a required one must not be given up. -/
def giveUp (p : Candidate → Bool) : Scan Unit := do
  let s ← get
  if s.candidates.any fun c => p c && c.required then fail
  set { s with candidates := s.candidates.filter (!p ·) }

def giveUpStale : Scan Unit := do
  let r := (← get).reader
  giveUp fun c => c.line ≠ r.line || longestKey < r.index - c.index

def giveUpHere : Scan Unit := do
  let level := (← get).level
  giveUp (·.level = level)

def mayBeKey : Scan Unit := do
  if (← get).keyAllowed then
    giveUpHere
    modify fun s => { s with
      candidates := ⟨s.level, s.count, s.level = 0 && s.indent = s.reader.column,
        s.reader.index, s.reader.line, s.reader.column⟩ :: s.candidates }

def unwind (column : Int) : List Int → Scan Unit
  | [] => return
  | i :: outer => do
    let s ← get
    if column < s.indent then
      set { s with indent := i, outer := outer }
      emit .blockEnd
      unwind column outer

def unwindTo (column : Int) : Scan Unit := do
  let s ← get
  if s.level = 0 then unwind column s.outer

def indentAt (column : Nat) : Scan Bool := do
  let s ← get
  if s.indent < column then
    set { s with indent := (column : Int), outer := s.indent :: s.outer }
    return true
  else return false

def blanks : Nat → Scan Unit
  | 0 => fail
  | n + 1 => do
    discard <| lex (Lex.takeRun (· = ' '))
    if (← lex Lex.peek) = some '#' then discard <| lex (Lex.takeRun (!isBreak ·))
    if !(← lex Lex.lineBreak).isEmpty then
      if (← get).level = 0 then allowKey true
      blanks n

def toNextToken : Scan Unit := do
  let r := (← get).reader
  if r.index = 0 && r.rest.head? = some '\uFEFF' then lex (Lex.skip 1)
  blanks (← lex Lex.rounds)

def documentMark (t : Token) : Scan Unit := do
  unwindTo (-1)
  giveUpHere
  allowKey false
  lex (Lex.skip 3)
  emit t

def flowStart (t : Token) : Scan Unit := do
  mayBeKey
  modify fun s => { s with level := s.level + 1 }
  allowKey true
  lex (Lex.skip 1)
  emit t

def flowEnd (t : Token) : Scan Unit := do
  giveUpHere
  if (← get).level = 0 then fail
  modify fun s => { s with level := s.level - 1 }
  allowKey false
  lex (Lex.skip 1)
  emit t

/-- An indicator that, outside flow collections, may stand only where a key may begin. It starts a
block if it is indented more than the one around it. -/
def blockIndicator (start : Token) : Scan Unit := do
  let s ← get
  if s.level = 0 then
    if !s.keyAllowed then fail
    if ← indentAt s.reader.column then emit start

def entry : Scan Unit := do
  blockIndicator .listStart
  allowKey true
  giveUpHere
  lex (Lex.skip 1)
  emit .entry

def comma : Scan Unit := do
  allowKey true
  giveUpHere
  lex (Lex.skip 1)
  emit .comma

def explicitKey : Scan Unit := do
  blockIndicator .mappingStart
  allowKey ((← get).level = 0)
  giveUpHere
  lex (Lex.skip 1)
  emit .key

/-- A colon makes the candidate of its level a key, if there is one. -/
def value : Scan Unit := do
  let s ← get
  match s.candidates.find? (·.level = s.level) with
  | some c =>
    set { s with candidates := s.candidates.filter (·.level ≠ s.level) }
    emitAt c.token .key
    if s.level = 0 then
      if ← indentAt c.column then emitAt c.token .mappingStart
    allowKey false
  | none =>
    blockIndicator .mappingStart
    allowKey (s.level = 0)
    giveUpHere
  lex (Lex.skip 1)
  emit .value

def keyed (p : Lex Token) : Scan Unit := do
  mayBeKey
  allowKey false
  emit (← lex p)

def blockScalar (folded : Bool) : Scan Unit := do
  allowKey true
  giveUpHere
  let text ← lex (Lex.block folded (← get).indent)
  emit (.scalar (.ofChars text) false)

def plainScalar : Scan Unit := do
  mayBeKey
  let s ← get
  let (text, ended) ← lex (Lex.plain (s.indent + 1) (s.level ≠ 0))
  allowKey ended
  emit (.scalar (.ofChars text) true)

def directive : Scan Unit := do
  unwindTo (-1)
  giveUpHere
  allowKey false
  emit (.directive (← lex Lex.directive))

def startsPlain (flow : Bool) (c : Char) (next : Option Char) : Bool :=
  !(isBlank c || isBreak c || "-?:,[]\x7b\x7d#&*!|>'\"%@\x60".contains c) ||
    (!endsIndicator next && (c = '-' || (!flow && (c = '?' || c = ':'))))

def token (s : Layout) (c : Char) (next : Option Char) : Scan Unit :=
  let flow := s.level ≠ 0
  let here := s.reader.rest
  let lineStart := s.reader.column = 0
  if c = '%' && lineStart then directive
  else if lineStart && startsSeparator '-' here then documentMark .documentStart
  else if lineStart && startsSeparator '.' here then documentMark .documentEnd
  else if c = '[' then flowStart .flowListStart
  else if c = '\x7b' then flowStart .flowMappingStart
  else if c = ']' then flowEnd .flowListEnd
  else if c = '\x7d' then flowEnd .flowMappingEnd
  else if c = ',' then comma
  else if c = '-' && endsIndicator next then entry
  else if c = '?' && (flow || endsIndicator next) then explicitKey
  else if c = ':' && (flow || endsIndicator next) then value
  else if c = '*' then keyed (Token.alias <$> Lex.name)
  else if c = '&' then keyed (Token.anchor <$> Lex.name)
  else if c = '!' then keyed Lex.tag
  else if (c = '|' || c = '>') && !flow then blockScalar (c = '>')
  else if c = '\'' || c = '"' then
    keyed do return Token.scalar (← Lex.quoted (c = '"')) false
  else if startsPlain flow c next then plainScalar
  else fail

/-- Passes over what stands before the next lexeme and ends the blocks that it does not belong
to. -/
def approach : Scan Unit := do
  toNextToken
  giveUpStale
  unwindTo (← get).reader.column

def finish : Scan Unit := do
  unwindTo (-1)
  giveUpHere

end Scan

structure Lexemes where
  tokens : List Token
  fault : Option Fault := none

namespace Layout

/-- Whether a candidate may still turn out to be a key at the place reached. -/
def isLive (s : Layout) (c : Candidate) : Bool :=
  c.line = s.reader.line && s.reader.index - c.index ≤ Scan.longestKey

/-- The lexemes that are certain: those before the first that may still turn out to be a key. -/
def settled (s : Layout) : List Token :=
  let undecided := (s.candidates.filter s.isLive).map (·.token)
  (s.emitted.drop (s.count - undecided.foldl min s.count)).reverse

/-- How far ahead a lexeme is looked for. -/
def lookahead : Nat := 4

/-- A text that breaks off near the place of a fault is itself the fault. -/
def faultOf (s : Layout) (broken : Option Fault) (f : Fault) : Fault :=
  match f, broken with
  | .malformed index, some b =>
    if s.reader.index + s.reader.rest.length < index + lookahead then b else f
  | _, _ => f

/-- All lexemes of a text that may break off at its end. -/
def lexemes (broken : Option Fault) : Nat → Layout → Lexemes
  | 0, s => ⟨s.settled, some (.malformed s.reader.index)⟩
  | n + 1, s =>
    match Scan.approach.run s with
    | .error f => ⟨s.settled, some (s.faultOf broken f)⟩
    | .ok (_, here) =>
      match here.reader.rest with
      | [] =>
        match broken, Scan.finish.run here with
        | some b, _ => ⟨s.settled, some b⟩
        | none, .error f => ⟨s.settled, some f⟩
        | none, .ok (_, done) => ⟨done.emitted.reverse, none⟩
      | c :: rest =>
        match (Scan.token here c rest.head?).run here with
        | .error f => ⟨s.settled, some (here.faultOf broken f)⟩
        | .ok (_, next) =>
          if next.reader.rest.isEmpty && broken.isSome then ⟨s.settled, broken⟩
          else lexemes broken n next

end Layout

def blockSize : Nat := 4096

/-- Nothing is used before the first two blocks are known to be intact. -/
def firstLook : Nat := 2 * blockSize

def intactPart (text : List Char) (index : Nat) : List Char :=
  if index < firstLook then [] else text.take (index / blockSize * blockSize)

/-- The text that can be used, and why it breaks off. -/
def usable (text : List Char) (broken : Option Fault) : List Char × Option Fault :=
  if broken.isSome && text.length < firstLook then ([], broken)
  else
    match text.find? (!isPrintable ·) with
    | some c => (intactPart text (text.takeWhile isPrintable).length, some (.unprintable c))
    | none => (text, broken)

def scan (text : List Char) (broken : Option Fault) : Lexemes :=
  let (text, broken) := usable text broken
  if text.isEmpty && broken.isSome then ⟨[], broken⟩
  else Layout.lexemes broken (text.length + 1) { reader := .ofChars text }

end CompletionServer.Yaml
