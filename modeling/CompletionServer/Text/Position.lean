namespace CompletionServer

structure Position where
  line : Nat
  character : Nat
deriving DecidableEq, Repr

namespace Position

/-- The largest coordinate that the editor protocol admits. -/
def bound : Nat := 2147483647

inductive Coordinate where
  | line
  | character
deriving DecidableEq

def Coordinate.name : Coordinate → String
  | .line => "line"
  | .character => "character"

structure OutOfRange where
  coordinate : Coordinate
  value : Int
deriving DecidableEq

def OutOfRange.message (e : OutOfRange) : String :=
  s!"Position.{e.coordinate.name} should be in range [0:{bound}], but was {e.value}."

def inRange (n : Int) : Bool :=
  0 ≤ n && n ≤ bound

/-- Refuses coordinates outside the protocol's range, the line first. -/
def ofInts (line character : Int) : Except OutOfRange Position :=
  if !inRange line then .error ⟨.line, line⟩
  else if !inRange character then .error ⟨.character, character⟩
  else .ok ⟨line.toNat, character.toNat⟩

end Position

end CompletionServer
