import CompletionServer.Text.Lowercase
import CompletionServer.Value.Basic
import CompletionServer.Value.Display
import CompletionServer.Yaml.Resolve

namespace CompletionServer.Yaml

inductive ConversionError where
  | integer (base : Nat) (text : Text)
  | longInteger (digits : Nat)
  | double (text : Text)
  | hugeFactor
  | truth (text : Text)
  | noDigits
  | calendar (e : CalendarError)
  | notTimestamp
  | timestampMapping
  | codePoint (n : Nat)
deriving DecidableEq

namespace Convert

def dropUnderscores (t : Text) : Text := t.filter (· ≠ .ofChar '_')

/-- A sign and what follows it; an empty text has no first character to look at. -/
def splitSign : Text → Except ConversionError (Bool × Text)
  | [] => .error .noDigits
  | c :: rest =>
    if c = .ofChar '-' then .ok (true, rest)
    else if c = .ofChar '+' then .ok (false, rest)
    else .ok (false, c :: rest)

def integer (base : Nat) (t : Text) : Except ConversionError Int :=
  (Numeral.integer base t).mapError fun
    | .malformed => .integer base t
    | .tooLong digits => .longInteger digits

/-- Hours, minutes and seconds. -/
def sexagesimal (pieces : List Text) : Except ConversionError Int := do
  let numbers ← pieces.mapM (integer 10)
  return numbers.foldl (fun n piece => n * 60 + piece) 0

def startsWith (start : String) (t : Text) : Bool := (Text.ofString start).isPrefixOf t

/-- A leading zero means octal digits, unless a letter after it says otherwise. -/
def magnitude (t : Text) : Except ConversionError Int :=
  if t = Text.ofString "0" then .ok 0
  else if startsWith "0b" t then integer 2 (t.drop 2)
  else if startsWith "0x" t then integer 16 (t.drop 2)
  else
    match t with
    | [] => .error .noDigits
    | c :: _ =>
      if c = .ofChar '0' then integer 8 t
      else if t.contains (.ofChar ':') then sexagesimal (cutAt (.ofChar ':') t)
      else integer 10 t

def int (t : Text) : Except ConversionError Int := do
  let (negative, rest) ← splitSign (dropUnderscores t)
  let n ← magnitude rest
  return if negative then -n else n

def double (t : Text) : Except ConversionError Double :=
  match Numeral.double? t with
  | some x => .ok x
  | none => .error (.double t)

/-- The first power of two that is no double. -/
def beyondDoubles : Nat := Nat.pow 2 1024

/-- Hours, minutes and seconds with a fraction, summed from the seconds up. -/
def sexagesimalSum (sum : Float) (factor : Nat) : List Double → Except ConversionError Double
  | [] => .ok (.ofFloat sum)
  | x :: rest =>
    if beyondDoubles ≤ factor then .error .hugeFactor
    else
      sexagesimalSum (sum + x.toFloat * (Double.ofDecimal factor 0).toFloat) (factor * 60) rest

def float (t : Text) : Except ConversionError Double := do
  let (negative, rest) ← splitSign (Lowercase.text (dropUnderscores t))
  let x ←
    if rest = Text.ofString ".inf" then pure .infinity
    else if rest = Text.ofString ".nan" then return .namedNaN
    else if rest.contains (.ofChar ':') then do
      let pieces ← (cutAt (.ofChar ':') rest).mapM double
      sexagesimalSum 0 1 pieces.reverse
    else double rest
  return if negative then x.neg else x

def truths : List (String × Bool) :=
  [("yes", true), ("no", false), ("true", true), ("false", false), ("on", true), ("off", false)]

def bool (t : Text) : Except ConversionError Bool :=
  let word := Lowercase.text t
  match truths.find? fun (name, _) => Text.ofString name = word with
  | some (_, b) => .ok b
  | none => .error (.truth word)

/-- Six digits of a fraction, cut or filled up with zeros. -/
def microseconds (fraction : List Char) : Nat :=
  let ds := fraction.take 6
  Digits.value (ds ++ List.replicate (6 - ds.length) '0')

def offset (z : Resolve.Zone) : Int :=
  let minutes : Int := Digits.value z.hours * 60 + Digits.value z.minutes
  if z.negative then -minutes else minutes

def timestamp (t : Text) : Except ConversionError Value :=
  match Resolve.stamp? (Resolve.dropLineFeed t.toChars) with
  | none => .error .notTimestamp
  | some s =>
    let date : Date := ⟨Digits.value s.year, Digits.value s.month, Digits.value s.day⟩
    match s.clock with
    | none => (date.check.map .date).mapError .calendar
    | some c =>
      let moment : Moment := ⟨date, Digits.value c.hour, Digits.value c.minute,
        Digits.value c.second, microseconds c.fraction, c.zone.map offset⟩
      (moment.check.map .moment).mapError .calendar

end Convert

namespace ConversionError

def shownLength : Nat := 200

def message : ConversionError → String
  | integer base t =>
    s!"invalid literal for int() with base {base}: " ++
      .ofList ((Value.quoted t).toList.take shownLength)
  | longInteger digits =>
    s!"Exceeds the limit ({Numeral.mostDigits} digits) for integer string conversion: " ++
      s!"value has {digits} digits; use sys.set_int_max_str_digits() to increase the limit"
  | double t => "could not convert string to float: " ++ Value.quoted t
  | hugeFactor => "int too large to convert to float"
  | truth word => Value.quoted word
  | noDigits => "string index out of range"
  | calendar e => e.message
  | notTimestamp => "'NoneType' object has no attribute 'groupdict'"
  | timestampMapping => "expected string or bytes-like object, got 'list'"
  | codePoint n =>
    if n < 0x80000000 then "chr() arg not in range(0x110000)"
    else "Python int too large to convert to C int"

end ConversionError

end CompletionServer.Yaml
