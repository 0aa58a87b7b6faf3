import CompletionServer.Text.CodePoint

namespace CompletionServer.Php

def isOpening (c : CodePoint) : Bool :=
  c = .ofChar '(' || c = .ofChar '[' || c = .ofChar '\x7b'

def isClosing (c : CodePoint) : Bool :=
  c = .ofChar ')' || c = .ofChar ']' || c = .ofChar '\x7d'

def consPiece (c : CodePoint) : List Text → List Text
  | [] => [[c]]
  | piece :: rest => (c :: piece) :: rest

/-- The pieces between the commas at depth zero. A surplus of closing brackets counts as negative
depth, where no comma cuts. -/
def pieces (depth : Int) : Text → List Text
  | [] => [[]]
  | c :: rest =>
    if isOpening c then consPiece c (pieces (depth + 1) rest)
    else if isClosing c then consPiece c (pieces (depth - 1) rest)
    else if c = .ofChar ',' ∧ depth = 0 then [] :: pieces depth rest
    else consPiece c (pieces depth rest)

def splitParameters (parameters : Text) : List Text :=
  ((pieces 0 parameters).map Blank.strip).filter (!·.isEmpty)

end CompletionServer.Php
