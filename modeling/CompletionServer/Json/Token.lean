import CompletionServer.Text.Utf8
import CompletionServer.Value.Basic

namespace CompletionServer.Surrogate

def isHigh (u : Nat) : Bool := 0xD800 ≤ u && u ≤ 0xDBFF

def isLow (u : Nat) : Bool := 0xDC00 ≤ u && u ≤ 0xDFFF

/-- Joins surrogate pairs; a surrogate that has no partner stays. -/
def join : List Nat → Text
  | [] => []
  | [u] => [.ofNat u]
  | u :: w :: rest =>
    if isHigh u && isLow w then
      .ofNat (0x10000 + (u - 0xD800) * 0x400 + (w - 0xDC00)) :: join rest
    else .ofNat u :: join (w :: rest)

end CompletionServer.Surrogate

namespace CompletionServer.Json

inductive Token where
  | openList
  | closeList
  | openObject
  | closeObject
  | comma
  | colon
  | scalar (v : Value)

def exponent? : List Char → Option Int
  | '+' :: ds => if ds.isEmpty || !ds.all Char.isDigit then none else some (Digits.value ds)
  | '-' :: ds =>
    if ds.isEmpty || !ds.all Char.isDigit then none else some (-(Digits.value ds : Int))
  | ds => if ds.isEmpty || !ds.all Char.isDigit then none else some (Digits.value ds)

/-- A number without its sign; a point or an exponent makes it a double. -/
def magnitude? (cs : List Char) : Option Value :=
  let whole := cs.takeWhile Char.isDigit
  if whole.isEmpty || (whole.head? = some '0' && whole.length > 1) then none
  else
    match cs.dropWhile Char.isDigit with
    | [] => some (.int (Digits.value whole))
    | '.' :: rest =>
      let decimals := rest.takeWhile Char.isDigit
      if decimals.isEmpty then none
      else
        match rest.dropWhile Char.isDigit with
        | [] => some (.float (.ofDecimal (Digits.value (whole ++ decimals)) (-decimals.length)))
        | mark :: ds =>
          if mark = 'e' || mark = 'E' then
            (exponent? ds).map fun e =>
              .float (.ofDecimal (Digits.value (whole ++ decimals)) (e - decimals.length))
          else none
    | mark :: ds =>
      if mark = 'e' || mark = 'E' then
        (exponent? ds).map fun e => .float (.ofDecimal (Digits.value whole) e)
      else none

def number? : List Char → Option Value
  | '-' :: rest =>
    (magnitude? rest).map fun
      | .int n => .int (-n)
      | .float x => .float x.neg
      | v => v
  | cs => magnitude? cs

/-- The words of JSON, the names of the doubles that no number denotes among them. -/
def word? (cs : List Char) : Option Token :=
  if cs = "null".toList then some (.scalar .null)
  else if cs = "true".toList then some (.scalar (.bool true))
  else if cs = "false".toList then some (.scalar (.bool false))
  else if cs = "NaN".toList then some (.scalar (.float .notANumber))
  else if cs = "Infinity".toList then some (.scalar (.float .infinity))
  else if cs = "-Infinity".toList then some (.scalar (.float (.neg .infinity)))
  else (number? cs).map .scalar

/-- The lexeme under way; the characters read so far stand in reverse. -/
inductive Lexing where
  | idle
  | word (read : List Char)
  | text (read : List Nat)
  | escape (read : List Nat)
  | unicode (read : List Nat) (value due : Nat)

def isBlank (c : Char) : Bool :=
  c = ' ' || c = '\n' || c = '\r' || c = '\t'

def mark? (c : Char) : Option Token :=
  if c = '[' then some .openList
  else if c = ']' then some .closeList
  else if c = '\x7b' then some .openObject
  else if c = '\x7d' then some .closeObject
  else if c = ',' then some .comma
  else if c = ':' then some .colon
  else none

def escaped? (c : Char) : Option Nat :=
  if c = '"' || c = '\\' || c = '/' then some c.toNat
  else if c = 'b' then some 8
  else if c = 'f' then some 12
  else if c = 'n' then some 10
  else if c = 'r' then some 13
  else if c = 't' then some 9
  else none

/-- The state after a character that starts a lexeme or stands between two. -/
def start (c : Char) : Lexing :=
  if c = '"' then .text [] else if isBlank c || (mark? c).isSome then .idle else .word [c]

def lexFrom : Lexing → List Char → Option (List Token)
  | .idle, [] => some []
  | .word read, [] => (word? read.reverse).map fun t => [t]
  | _, [] => none
  | .idle, c :: rest => do
    let tokens ← lexFrom (start c) rest
    return (mark? c).toList ++ tokens
  | .word read, c :: rest =>
    if isBlank c || (mark? c).isSome || c = '"' then do
      let token ← word? read.reverse
      let tokens ← lexFrom (start c) rest
      return token :: (mark? c).toList ++ tokens
    else lexFrom (.word (c :: read)) rest
  | .text read, c :: rest =>
    if c = '"' then do
      let tokens ← lexFrom .idle rest
      return .scalar (.str (Surrogate.join read.reverse)) :: tokens
    else if c = '\\' then lexFrom (.escape read) rest
    else lexFrom (.text (c.toNat :: read)) rest
  | .escape read, c :: rest =>
    if c = 'u' then lexFrom (.unicode read 0 4) rest
    else do
      let n ← escaped? c
      lexFrom (.text (n :: read)) rest
  | .unicode read value due, c :: rest => do
    let d ← Digits.hex? c
    let value := value * 16 + d
    if due ≤ 1 then lexFrom (.text (value :: read)) rest
    else lexFrom (.unicode read value (due - 1)) rest

def lex (s : String) : Option (List Token) :=
  lexFrom .idle s.toList

end CompletionServer.Json
