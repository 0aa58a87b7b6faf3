import CompletionServer.Text.Utf8
import CompletionServer.Yaml.Tag

namespace CompletionServer.Yaml.Resolve

def isNull (cs : List Char) : Bool :=
  ["", "~", "null", "Null", "NULL"].any (·.toList = cs)

def isBool (cs : List Char) : Bool :=
  ["yes", "Yes", "YES", "no", "No", "NO", "true", "True", "TRUE", "false", "False", "FALSE",
    "on", "On", "ON", "off", "Off", "OFF"].any (·.toList = cs)

def dropSign : List Char → List Char
  | '-' :: rest | '+' :: rest => rest
  | cs => cs

def isDigitOrMark (c : Char) : Bool := c.isDigit || c = '_'

def isDigits : List Char → Bool
  | [] => false
  | c :: rest => c.isDigit && rest.all isDigitOrMark

/-- Minutes and seconds: one or two digits, below sixty. -/
def isSixtieth : List Char → Bool
  | [d] => d.isDigit
  | [t, d] => '0' ≤ t && t ≤ '5' && d.isDigit
  | _ => false

/-- Digits that do not begin with zero, perhaps with minutes and seconds behind them. -/
def isPositive (cs : List Char) : Bool :=
  match cutAt ':' cs with
  | first :: rest => isDigits first && first.head? ≠ some '0' && rest.all isSixtieth
  | [] => false

def isMagnitude : List Char → Bool
  | ['0'] => true
  | '0' :: 'b' :: ds => !ds.isEmpty && ds.all fun c => c = '0' || c = '1' || c = '_'
  | '0' :: 'x' :: ds => !ds.isEmpty && ds.all fun c => (Digits.hex? c).isSome || c = '_'
  | '0' :: ds => ds.all fun c => ('0' ≤ c && c ≤ '7') || c = '_'
  | cs => isPositive cs

def isInt (cs : List Char) : Bool := isMagnitude (dropSign cs)

def isExponent : List Char → Bool
  | [] => true
  | e :: sign :: ds =>
    (e = 'e' || e = 'E') && (sign = '+' || sign = '-') && !ds.isEmpty && ds.all Char.isDigit
  | _ => false

/-- A number with digits before its point, which hours and minutes may precede. -/
def isPointed (cs : List Char) : Bool :=
  let whole := cs.takeWhile (· ≠ '.')
  match cs.dropWhile (· ≠ '.') with
  | _ :: rest =>
    match cutAt ':' whole with
    | [only] => isDigits only && isExponent (rest.dropWhile isDigitOrMark)
    | first :: more => isDigits first && more.all isSixtieth && rest.all isDigitOrMark
    | [] => false
  | [] => false

/-- A double that begins with its point takes no sign, infinity does. -/
def isFloat (cs : List Char) : Bool :=
  [".inf", ".Inf", ".INF"].any (·.toList = dropSign cs) ||
    [".nan", ".NaN", ".NAN"].any (·.toList = cs) ||
    match cs with
    | '.' :: ds => ds.head?.any Char.isDigit && isExponent (ds.dropWhile isDigitOrMark)
    | _ => isPointed (dropSign cs)

def digits? (least most : Nat) (cs : List Char) : Option (List Char × List Char) :=
  let ds := (cs.take most).takeWhile Char.isDigit
  if ds.length < least then none else some (ds, cs.drop ds.length)

def afterMark? (mark : Char) : List Char → Option (List Char)
  | c :: rest => if c = mark then some rest else none
  | [] => none

structure Zone where
  negative : Bool
  hours : List Char
  minutes : List Char

structure Clock where
  hour : List Char
  minute : List Char
  second : List Char
  fraction : List Char
  zone : Option Zone

structure Stamp where
  year : List Char
  month : List Char
  day : List Char
  clock : Option Clock

/-- A zone: `Z`, or a sign with hours and perhaps minutes. -/
def zone? (cs : List Char) : Option (Option Zone) :=
  match cs.dropWhile fun c => c = ' ' || c = '\t' with
  | [] => if cs.isEmpty then some none else none
  | ['Z'] => some (some ⟨false, ['0'], ['0']⟩)
  | sign :: rest =>
    if sign = '+' || sign = '-' then
      match digits? 1 2 rest with
      | some (hours, []) => some (some ⟨sign = '-', hours, ['0']⟩)
      | some (hours, ':' :: more) =>
        match digits? 2 2 more with
        | some (minutes, []) => some (some ⟨sign = '-', hours, minutes⟩)
        | _ => none
      | _ => none
    else none

def fraction (cs : List Char) : List Char × List Char :=
  match cs with
  | '.' :: rest => (rest.takeWhile Char.isDigit, rest.dropWhile Char.isDigit)
  | _ => ([], cs)

def clock? (cs : List Char) : Option Clock := do
  let (hour, cs) ← digits? 1 2 cs
  let (minute, cs) ← digits? 2 2 (← afterMark? ':' cs)
  let (second, cs) ← digits? 2 2 (← afterMark? ':' cs)
  let (fraction, cs) := fraction cs
  let zone ← zone? cs
  return ⟨hour, minute, second, fraction, zone⟩

/-- A date, perhaps with a time after `T` or blanks. -/
def stamp? (cs : List Char) : Option Stamp := do
  let (year, cs) ← digits? 4 4 cs
  let (month, cs) ← digits? 1 2 (← afterMark? '-' cs)
  let (day, cs) ← digits? 1 2 (← afterMark? '-' cs)
  match cs with
  | [] => return ⟨year, month, day, none⟩
  | c :: rest =>
    if c = 'T' || c = 't' then return ⟨year, month, day, some (← clock? rest)⟩
    else if c = ' ' || c = '\t' then
      let rest := rest.dropWhile fun c => c = ' ' || c = '\t'
      return ⟨year, month, day, some (← clock? rest)⟩
    else none

/-- A date alone has two digits for the month and two for the day. -/
def isTimestamp (cs : List Char) : Bool :=
  (stamp? cs).any fun s => s.clock.isSome || (s.month.length == 2 && s.day.length == 2)

/-- A line feed at the end does not count. -/
def dropLineFeed (cs : List Char) : List Char :=
  if cs.getLast? = some '\n' then cs.dropLast else cs

/-- The signs that announce a tag, an anchor and an alias are nothing by themselves. -/
def isSign (cs : List Char) : Bool :=
  cs = ['!'] || cs = ['&'] || cs = ['*']

def tag (cs : List Char) : Tag :=
  let form := dropLineFeed cs
  if isNull form && cs ≠ ['\n'] then .null
  else if isBool form then .bool
  else if isFloat form then .float
  else if isInt form then .int
  else if form = "<<".toList then .merge
  else if isTimestamp form then .timestamp
  else if form = "=".toList then .value
  else if isSign form then .sign
  else .str

end CompletionServer.Yaml.Resolve
