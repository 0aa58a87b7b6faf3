import CompletionServer.Text.Utf8
import CompletionServer.Value.Double

namespace CompletionServer.DecimalDigit

/-- The zeros beyond ASCII. -/
def zeros : List Nat := [
  0x660, 0x6f0, 0x7c0, 0x966, 0x9e6, 0xa66, 0xae6, 0xb66, 0xbe6, 0xc66, 0xce6, 0xd66, 0xde6,
  0xe50, 0xed0, 0xf20, 0x1040, 0x1090, 0x17e0, 0x1810, 0x1946, 0x19d0, 0x1a80, 0x1a90, 0x1b50,
  0x1bb0, 0x1c40, 0x1c50, 0xa620, 0xa8d0, 0xa900, 0xa9d0, 0xa9f0, 0xaa50, 0xabf0, 0xff10, 0x104a0,
  0x10d30, 0x11066, 0x110f0, 0x11136, 0x111d0, 0x112f0, 0x11450, 0x114d0, 0x11650, 0x116c0,
  0x11730, 0x118e0, 0x11950, 0x11c50, 0x11d50, 0x11da0, 0x16a60, 0x16ac0, 0x16b50, 0x1d7ce,
  0x1d7d8, 0x1d7e2, 0x1d7ec, 0x1d7f6, 0x1e140, 0x1e2f0, 0x1e950, 0x1fbf0]

/-- The value of a digit of any script. -/
def value? (c : CodePoint) : Option Nat :=
  (('0'.toNat :: zeros).find? fun z => z ≤ c.val && c.val < z + 10).map (c.val - ·)

end CompletionServer.DecimalDigit

namespace CompletionServer.Numeral

def isSpace (c : Char) : Bool :=
  ('\t' ≤ c && c ≤ '\r') || c = ' '

/-- A character in the form that numbers are read in: digits and blanks beyond ASCII become those
of ASCII, and everything else beyond ASCII becomes a question mark. -/
def plain (c : CodePoint) : Char :=
  if c.val < 0x7F then c.toChar
  else if Blank.isBlank c then ' '
  else
    match DecimalDigit.value? c with
    | some d => Char.ofNat ('0'.toNat + d)
    | none => '?'

def splitSign : List Char → Bool × List Char
  | '-' :: rest => (true, rest)
  | '+' :: rest => (false, rest)
  | cs => (false, cs)

/-- The letter that may announce a base after a zero. -/
def baseMark : Nat → Option Char
  | 2 => some 'b'
  | 8 => some 'o'
  | 16 => some 'x'
  | _ => none

def dropBaseMark (base : Nat) : List Char → List Char
  | '0' :: c :: rest => if baseMark base = some c.toLower then rest else '0' :: c :: rest
  | cs => cs

def isDigitIn (base : Nat) (c : Char) : Bool :=
  (Digits.hex? c).any (· < base)

def valueIn (base : Nat) (ds : List Char) : Nat :=
  (ds.filterMap Digits.hex?).foldl (fun n d => n * base + d) 0

/-- The most decimal digits that are converted. -/
def mostDigits : Nat := 4300

inductive IntegerFault where
  | malformed
  | tooLong (digits : Nat)
deriving DecidableEq

/-- An integer in a base of two, eight, ten or sixteen. -/
def integer (base : Nat) (t : Text) : Except IntegerFault Int :=
  let (negative, cs) := splitSign ((t.map plain).dropWhile isSpace)
  let cs := dropBaseMark base cs
  let ds := cs.takeWhile (isDigitIn base)
  let rest := (cs.dropWhile (isDigitIn base)).dropWhile isSpace
  if base = 10 ∧ mostDigits < ds.length then .error (.tooLong ds.length)
  else if ds.isEmpty || !rest.isEmpty then .error .malformed
  else .ok (if negative then -(valueIn base ds : Int) else valueIn base ds)

/-- Whether an integer has more digits than can be shown. -/
def isLong (n : Int) : Bool := Nat.pow 10 mostDigits ≤ n.natAbs

def exponent? : List Char → Option Int
  | [] => some 0
  | mark :: cs =>
    let (negative, ds) := splitSign cs
    if (mark = 'e' || mark = 'E') && !ds.isEmpty && ds.all Char.isDigit then
      some (if negative then -(Digits.value ds : Int) else Digits.value ds)
    else none

/-- Digits with at most one point among them, then perhaps an exponent. -/
def decimal? (cs : List Char) : Option Double :=
  let whole := cs.takeWhile Char.isDigit
  let (decimals, rest) := match cs.dropWhile Char.isDigit with
    | '.' :: rest => (rest.takeWhile Char.isDigit, rest.dropWhile Char.isDigit)
    | rest => ([], rest)
  if whole.isEmpty && decimals.isEmpty then none
  else
    (exponent? rest).map fun e =>
      .ofDecimal (Digits.value (whole ++ decimals)) (e - decimals.length)

def isInfinity (cs : List Char) : Bool :=
  let name := cs.map Char.toLower
  name = "inf".toList || name = "infinity".toList

def isNotANumber (cs : List Char) : Bool :=
  cs.map Char.toLower = "nan".toList

def magnitude? (cs : List Char) : Option Double :=
  if isInfinity cs then some .infinity
  else if isNotANumber cs then some .notANumber
  else decimal? cs

def dropSpaces (cs : List Char) : List Char :=
  ((cs.dropWhile isSpace).reverse.dropWhile isSpace).reverse

def double? (t : Text) : Option Double :=
  let (negative, cs) := splitSign (dropSpaces (t.map plain))
  (magnitude? cs).map fun x => if negative then x.neg else x

end CompletionServer.Numeral
