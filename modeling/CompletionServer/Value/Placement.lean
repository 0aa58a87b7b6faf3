import CompletionServer.Value.Basic

namespace CompletionServer.Value.Placement

/-- A prime for which equal numbers, whole or not, have equal residues: two has an inverse, and its
61st power is one. -/
def modulus : Nat := Nat.pow 2 61 - 1

def wordSize : Nat := Nat.pow 2 64

/-- The residue of a magnitude, negated in a word of 64 bits for a number below zero. There, one
counts as two. -/
def signed (negative : Bool) (residue : Nat) : Nat :=
  if negative then (wordSize - if residue = 1 then 2 else residue) % wordSize else residue

def ofInt (n : Int) : Nat := signed (n < 0) (n.natAbs % modulus)

/-- What stands for the residue of infinity. -/
def infinite : Nat := 314159

def ofDouble (x : Double) : Nat :=
  let residue :=
    if x.isFinite then x.significand * Nat.pow 2 (x.exponent % 61).toNat % modulus else infinite
  signed x.isNegative residue

/-- Only numbers that equal themselves have a place of their own. -/
def ofNumber? : Value → Option Nat
  | .bool b => some (if b then 1 else 0)
  | .int n => some (ofInt n)
  | .float x => if x.isNaN then none else some (ofDouble x)
  | _ => none

def powerAbove (bound : Nat) : Nat := max 8 (Nat.pow 2 (Nat.log2 bound + 1))

/-- Up to four members share eight places; more have over twice as many as they are. -/
def tableSize (count : Nat) : Nat := if count ≤ 4 then 8 else powerAbove (2 * count)

abbrev Table := Array (Option Value)

/-- The places tried at once: ten in a row, or one where the table has no ten left. -/
def row (size start : Nat) : List Nat :=
  if start + 9 < size then List.range' start 10 else [start]

/-- The first free place from a start on. Whatever of the residue is left sends it further off. -/
def place? (t : Table) : Nat → Nat → Nat → Option Nat
  | 0, _, _ => none
  | n + 1, start, left =>
    match (row t.size start).find? fun i => t[i]?.any Option.isNone with
    | some i => some i
    | none => place? t n ((5 * start + 1 + left / 32) % t.size) (left / 32)

/-- So many tries use up a residue and then reach every place. -/
def tries (t : Table) : Nat := t.size + 16

def insert (t : Table) (residue : Nat) (v : Value) : Table :=
  match place? t (tries t) (residue % t.size) residue with
  | some i => t.setIfInBounds i (some v)
  | none => t

/-- Numbers in the order of their places; members of which some are no numbers stay as they were
written. -/
def arrange (members : List Value) : List Value :=
  match members.mapM ofNumber? with
  | none => members
  | some residues =>
    let table : Table := .replicate (tableSize members.length) none
    let filled := (residues.zip members).foldl (fun t (r, v) => insert t r v) table
    filled.toList.filterMap id

end CompletionServer.Value.Placement
