namespace CompletionServer.Php

def isLabelStart (b : UInt8) : Bool :=
  (0x41 ≤ b && b ≤ 0x5A) || (0x61 ≤ b && b ≤ 0x7A) || b == 0x5F || 0x80 ≤ b

def isDigit (b : UInt8) : Bool :=
  0x30 ≤ b && b ≤ 0x39

def isLabelByte (b : UInt8) : Bool :=
  isLabelStart b || isDigit b

def dollar : UInt8 := 0x24

def clampOffset (data : List UInt8) (offset : Int) : Nat :=
  min offset.toNat data.length

/-- The bytes before an offset, nearest first. -/
def before (data : List UInt8) (offset : Nat) : List UInt8 :=
  (data.take offset).reverse

/-- Where the word that ends at an offset begins. -/
def wordStart (data : List UInt8) (offset : Int) : Nat :=
  let stop := clampOffset data offset
  stop - ((before data stop).takeWhile isLabelByte).length

theorem wordStart_le_clampOffset (data : List UInt8) (offset : Int) :
    wordStart data offset ≤ clampOffset data offset :=
  Nat.sub_le ..

def precededBy (data : List UInt8) (offset : Nat) (tokens : List (List UInt8)) : Bool :=
  tokens.any (·.isSuffixOf (data.take offset))

def ascii (s : String) : List UInt8 :=
  s.toList.map fun c => .ofNat c.toNat

end CompletionServer.Php
