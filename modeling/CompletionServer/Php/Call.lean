namespace CompletionServer.Php

/-- Where a call's parenthesis opens, and how many commas separate it from the cursor. -/
structure Call where
  paren : Nat
  commas : Nat
deriving DecidableEq, Repr

def isOpeningByte (b : UInt8) : Bool := b == 0x28 || b == 0x5B || b == 0x7B

def isClosingByte (b : UInt8) : Bool := b == 0x29 || b == 0x5D || b == 0x7D

/-- Walks over the bytes before the cursor, nearest first. An array literal starts the count of
commas anew; a semicolon or an open brace ends the search. -/
def walkBack (depth commas : Nat) : List UInt8 → Option Call
  | [] => none
  | b :: rest =>
    if isClosingByte b then walkBack (depth + 1) commas rest
    else if isOpeningByte b then
      if 0 < depth then walkBack (depth - 1) commas rest
      else if b = 0x28 then some ⟨rest.length, commas⟩
      else if b = 0x5B then walkBack 0 0 rest
      else none
    else if depth = 0 ∧ b = 0x2C then walkBack depth (commas + 1) rest
    else if depth = 0 ∧ b = 0x3B then none
    else walkBack depth commas rest

def enclosingCall (data : List UInt8) (offset : Nat) : Option Call :=
  walkBack 0 0 (data.take offset).reverse

end CompletionServer.Php
