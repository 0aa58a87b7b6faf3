import CompletionServer.Php.Word
import CompletionServer.Suggestion
import CompletionServer.Text.Utf8

namespace CompletionServer.Php

/-- A variable where it stands, its dollar sign included. -/
structure Occurrence where
  start : Nat
  name : List UInt8
deriving DecidableEq

def Occurrence.stop (o : Occurrence) : Nat := o.start + o.name.length

def occurrencesFrom (start : Nat) : List UInt8 → List Occurrence
  | [] => []
  | b :: rest =>
    if b = dollar ∧ rest.head?.any isLabelStart then
      ⟨start, b :: rest.takeWhile isLabelByte⟩ :: occurrencesFrom (start + 1) rest
    else occurrencesFrom (start + 1) rest

def occurrences (data : List UInt8) : List Occurrence :=
  occurrencesFrom 0 data

def variableSuggestion (range : ByteRange) (name : List UInt8) : Suggestion where
  name := Utf8.decodeLossy name
  type := some (.known .var)
  short := none
  doc := none
  snippet := none
  range := some range

/-- The names that occur elsewhere than at an offset, in order of first such occurrence. -/
def namesElsewhere (data : List UInt8) (offset : Nat) : List (List UInt8) :=
  (((occurrences data).filter (·.start ≠ offset)).map Occurrence.name).eraseDups

def variableSuggestions (data : List UInt8) (offset : Int) : List Suggestion :=
  let start := wordStart data offset
  if (before data start).head? = some dollar then
    (namesElsewhere data (start - 1)).map (variableSuggestion ⟨start - 1, clampOffset data offset,
      Nat.le_trans (Nat.sub_le ..) (wordStart_le_clampOffset data offset)⟩)
  else []

end CompletionServer.Php
