namespace CompletionServer

structure Double where
  bits : UInt64
deriving DecidableEq

namespace Double

def ofFloat (x : Float) : Double := ⟨x.toBits⟩

def toFloat (x : Double) : Float := .ofBits x.bits

def infinity : Double := ⟨0x7FF0000000000000⟩

def notANumber : Double := ⟨0x7FF8000000000000⟩

/-- The NaN that is written by its name. Its last bit tells it from those that numerals and sums
give. -/
def namedNaN : Double := ⟨0x7FF8000000000001⟩

/-- The double nearest to `digits * 10 ^ exponent`. Exponents that leave no doubt about the result
are not carried out. -/
def ofDecimal (digits : Nat) (exponent : Int) : Double :=
  if digits = 0 then ⟨0⟩
  else if 400 ≤ exponent then infinity
  else if 3 * exponent + digits.log2 < -1100 then ⟨0⟩
  else ofFloat (.ofScientific digits (exponent < 0) exponent.natAbs)

def neg (x : Double) : Double := ⟨x.bits ^^^ 0x8000000000000000⟩

def isNegative (x : Double) : Bool := 0x8000000000000000 ≤ x.bits

def leadingBit : Nat := 0x10000000000000

def exponentField (x : Double) : Nat := x.bits.toNat / leadingBit % 2048

def fractionField (x : Double) : Nat := x.bits.toNat % leadingBit

def isZero (x : Double) : Bool := x.exponentField == 0 && x.fractionField == 0

def isFinite (x : Double) : Bool := x.exponentField != 2047

def isNaN (x : Double) : Bool := x.exponentField == 2047 && x.fractionField != 0

/-- A finite double's magnitude is `significand * 2 ^ exponent`. -/
def significand (x : Double) : Nat :=
  if x.exponentField = 0 then x.fractionField else leadingBit + x.fractionField

def exponent (x : Double) : Int :=
  if x.exponentField = 0 then -1074 else x.exponentField - 1075

/-- A positive fraction, scaled by powers of two and ten. -/
structure Ratio where
  num : Nat
  den : Nat

namespace Ratio

def scale (base : Nat) (k : Int) (r : Ratio) : Ratio :=
  if 0 ≤ k then ⟨r.num * base.pow k.toNat, r.den⟩ else ⟨r.num, r.den * base.pow (-k).toNat⟩

def floor (r : Ratio) : Nat := r.num / r.den

def le (a b : Ratio) : Bool := a.num * b.den ≤ b.num * a.den

def lt (a b : Ratio) : Bool := a.num * b.den < b.num * a.den

def sub (a b : Ratio) : Ratio := ⟨a.num * b.den - b.num * a.den, a.den * b.den⟩

end Ratio

/-- Decimal digits before the point; for a value below one the count goes down to minus the number
of zeros after the point. -/
def magnitude (r : Ratio) : Int :=
  let k : Int := (Nat.repr r.num).length - (Nat.repr r.den).length
  if r.lt (Ratio.scale 10 k ⟨1, 1⟩) then k else k + 1

structure Decimal where
  digits : Nat
  exponent : Int
deriving DecidableEq

def Decimal.ratio (d : Decimal) : Ratio := Ratio.scale 10 d.exponent ⟨d.digits, 1⟩

/-- The reals that round to a finite double lie between these two, which belong to them when the
significand is even. -/
def bounds (x : Double) : Ratio × Ratio :=
  let below := if x.fractionField = 0 ∧ 1 < x.exponentField then 1 else 2
  (Ratio.scale 2 (x.exponent - 2) ⟨4 * x.significand - below, 1⟩,
    Ratio.scale 2 (x.exponent - 2) ⟨4 * x.significand + 2, 1⟩)

def readsBack (x : Double) (d : Decimal) : Bool :=
  let (low, high) := x.bounds
  if x.significand % 2 = 0 then low.le d.ratio && d.ratio.le high
  else low.lt d.ratio && d.ratio.lt high

/-- The nearest decimal of so many digits that reads back as the double, if there is one. -/
def nearestWith (x : Double) (count : Nat) : Option Decimal :=
  let value := Ratio.scale 2 x.exponent ⟨x.significand, 1⟩
  let unit := magnitude value - count
  let down : Decimal := ⟨(value.scale 10 (-unit)).floor, unit⟩
  let up : Decimal := ⟨down.digits + 1, unit⟩
  match x.readsBack down, x.readsBack up with
  | true, true =>
    let below := value.sub down.ratio
    let above := up.ratio.sub value
    if below.lt above ∨ (below.le above ∧ down.digits % 2 = 0) then some down else some up
  | true, false => some down
  | false, true => some up
  | false, false => none

/-- The fewest digits that read back. -/
def shortest (x : Double) : Decimal :=
  ((List.range 17).findSome? fun i => x.nearestWith (i + 1)).getD ⟨0, 0⟩

def padExponent (n : Nat) : String :=
  if n < 10 then "0" ++ Nat.repr n else Nat.repr n

/-- Positional from 0.0001 up to sixteen digits before the point, with at least one decimal;
otherwise with an exponent of at least two digits. -/
def Decimal.render (d : Decimal) : String :=
  let digits := (Nat.repr d.digits).toList
  let stripped := (digits.reverse.dropWhile (· == '0')).reverse
  let point : Int := digits.length + d.exponent
  if -3 ≤ point ∧ point ≤ 0 then
    "0." ++ .ofList (List.replicate (-point).toNat '0' ++ stripped)
  else if 0 < point ∧ point ≤ 16 then
    let whole := stripped.take point.toNat
    let decimals := stripped.drop point.toNat
    .ofList (whole ++ List.replicate (point.toNat - whole.length) '0') ++ "." ++
      (if decimals.isEmpty then "0" else .ofList decimals)
  else
    let power := point - 1
    .ofList (stripped.take 1) ++
      (if stripped.length ≤ 1 then "" else "." ++ .ofList (stripped.drop 1)) ++
      (if power < 0 then "e-" else "e+") ++ padExponent power.natAbs

def render (x : Double) : String :=
  let magnitude :=
    if x.isNaN then "nan"
    else if !x.isFinite then "inf"
    else if x.isZero then "0.0"
    else x.shortest.render
  if x.isNegative && !x.isNaN then "-" ++ magnitude else magnitude

def toInt? (x : Double) : Option Int :=
  if !x.isFinite then none
  else
    let r := Ratio.scale 2 x.exponent ⟨x.significand, 1⟩
    if r.num % r.den = 0 then some (if x.isNegative then -(r.floor : Int) else r.floor) else none

end Double

end CompletionServer
