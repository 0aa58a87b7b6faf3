import CompletionServer.Php.Word

namespace CompletionServer.Php

def isSpace (b : UInt8) : Bool :=
  (0x09 ≤ b && b ≤ 0x0D) || b == 0x20

/-- Letters, digits and underscore of ASCII. -/
def isWordByte (b : UInt8) : Bool :=
  isLabelByte b && b < 0x80

/-- A word can begin after this byte, or at the start of the data. -/
def atBoundary (previous : Option UInt8) : Bool :=
  !previous.any isWordByte

def functionWord : List UInt8 := ascii "function"

/-- How many bytes of white space stand at the front. -/
def spaces (bytes : List UInt8) : Nat :=
  (bytes.takeWhile isSpace).length

/-- A declaration up to its name and the white space after it: the name, the number of bytes, and
what follows. -/
structure Head where
  name : List UInt8
  length : Nat
  rest : List UInt8

/-- White space, an optional ampersand and white space again: the number of bytes. There must be
white space first. -/
def gap? (bytes : List UInt8) : Option Nat :=
  let first := spaces bytes
  if first = 0 then none
  else
    match bytes.drop first with
    | 0x26 :: rest => some (first + 1 + spaces rest)
    | _ => some first

/-- Reads `function`, white space, an optional ampersand, a name and white space. -/
def head? (bytes : List UInt8) : Option Head :=
  if functionWord.isPrefixOf bytes then
    match gap? (bytes.drop functionWord.length) with
    | none => none
    | some gap =>
      let named := bytes.drop (functionWord.length + gap)
      if named.head?.any isLabelStart then
        let name := named.takeWhile isLabelByte
        let rest := named.drop name.length
        let after := spaces rest
        some ⟨name, functionWord.length + gap + name.length + after, rest.drop after⟩
      else none
  else none

/-- A byte of a return type: a word byte, a question mark, a backslash, a bar or an ampersand. -/
def isTypeByte (b : UInt8) : Bool :=
  isWordByte b || b == 0x3F || b == 0x5C || b == 0x7C || b == 0x26

structure ReturnType where
  text : List UInt8
  length : Nat

def returnType? (bytes : List UInt8) : Option ReturnType :=
  let gap := spaces bytes
  match bytes.drop gap with
  | 0x3A :: afterColon =>
    let inner := spaces afterColon
    let text := (afterColon.drop inner).takeWhile isTypeByte
    if text.isEmpty then none else some ⟨text, gap + 1 + inner + text.length⟩
  | _ => none

structure Declaration where
  paren : Nat
  name : List UInt8
  parameters : List UInt8
  returnType : Option (List UInt8)
deriving DecidableEq

/-- A declaration at the start of the bytes, and how many of them it takes. The offset of its
parenthesis is counted from there. -/
def declaration? (bytes : List UInt8) : Option (Declaration × Nat) :=
  match head? bytes with
  | none => none
  | some head =>
    match head.rest with
    | 0x28 :: inside =>
      let parameters := inside.takeWhile (· ≠ 0x29)
      match inside.drop parameters.length with
      | _ :: after =>
        let length := head.length + parameters.length + 2
        match returnType? after with
        | some type =>
          some (⟨head.length, head.name, parameters, some type.text⟩, length + type.length)
        | none => some (⟨head.length, head.name, parameters, none⟩, length)
      | [] => none
    | _ => none

/-- The declarations in order. After one is found the search goes on behind it, so the bytes that
belong to it are skipped. -/
def declarationsFrom (previous : Option UInt8) (start skip : Nat) : List UInt8 → List Declaration
  | [] => []
  | b :: rest =>
    if 0 < skip then declarationsFrom (some b) (start + 1) (skip - 1) rest
    else
      match if atBoundary previous then declaration? (b :: rest) else none with
      | some (d, length) =>
        { d with paren := start + d.paren } ::
          declarationsFrom (some b) (start + 1) (length - 1) rest
      | none => declarationsFrom (some b) (start + 1) 0 rest

def declarations (data : List UInt8) : List Declaration :=
  declarationsFrom none 0 0 data

/-- Whether the bytes end in a declaration's `function` and name. -/
def endsInHead (previous : Option UInt8) : List UInt8 → Bool
  | [] => false
  | b :: rest =>
    (atBoundary previous && (head? (b :: rest)).any (·.rest.isEmpty)) || endsInHead (some b) rest

/-- The name that the bytes end in, white space after it aside. -/
def callee? (bytes : List UInt8) : Option (List UInt8) :=
  let run := ((bytes.reverse.dropWhile isSpace).takeWhile isLabelByte).reverse
  match run.dropWhile isDigit with
  | [] => none
  | name => some name

end CompletionServer.Php
