import CompletionServer.Text.Printable
import CompletionServer.Text.Utf8
import CompletionServer.Value.Basic
import CompletionServer.Value.Numeral

namespace CompletionServer.Value

/-- Quotation marks only if there is an apostrophe and no quotation mark. -/
def quoteFor (hasApostrophe hasQuotation : Bool) : Char :=
  if hasApostrophe && !hasQuotation then '"' else '\''

def escape? (quote : Char) (n : Nat) : Option (List Char) :=
  if n = quote.toNat || n = '\\'.toNat then some ['\\', .ofNat n]
  else if n = '\n'.toNat then some ['\\', 'n']
  else if n = '\t'.toNat then some ['\\', 't']
  else if n = '\r'.toNat then some ['\\', 'r']
  else none

def escapeChar (quote : Char) (c : CodePoint) : List Char :=
  match escape? quote c.val with
  | some cs => cs
  | none =>
    if Printable.isPrintable c then [c.toChar]
    else if c.val ≤ 0xFF then '\\' :: 'x' :: Digits.padHex 2 c.val
    else if c.val ≤ 0xFFFF then '\\' :: 'u' :: Digits.padHex 4 c.val
    else '\\' :: 'U' :: Digits.padHex 8 c.val

def quoted (t : Text) : String :=
  let quote := quoteFor (t.contains (.ofChar '\'')) (t.contains (.ofChar '"'))
  .ofList (quote :: t.flatMap (escapeChar quote) ++ [quote])

def escapeByte (quote : Char) (b : UInt8) : List Char :=
  match escape? quote b.toNat with
  | some cs => cs
  | none =>
    if 0x20 ≤ b && b < 0x7F then [.ofNat b.toNat] else '\\' :: 'x' :: Digits.padHex 2 b.toNat

def quotedBytes (bytes : List UInt8) : String :=
  let quote := quoteFor (bytes.contains 0x27) (bytes.contains 0x22)
  .ofList ('b' :: quote :: bytes.flatMap (escapeByte quote) ++ [quote])

def typeName : Value → String
  | null => "NoneType"
  | bool _ => "bool"
  | int _ => "int"
  | float _ => "float"
  | str _ => "str"
  | bytes _ => "bytes"
  | date _ => "date"
  | moment _ => "datetime"
  | list _ | again .list => "list"
  | pair _ _ => "tuple"
  | set _ => "set"
  | mapping _ | again .mapping => "dict"

mutual

def display : Value → String
  | null => "None"
  | bool true => "True"
  | bool false => "False"
  | int n => toString n
  | float x => x.render
  | str s => quoted s
  | bytes b => quotedBytes b
  | date d => d.display
  | moment m => m.display
  | list items => "[" ++ ", ".intercalate (displayItems items) ++ "]"
  | pair a b => "(" ++ display a ++ ", " ++ display b ++ ")"
  | set [] => "set()"
  | set members => "\x7b" ++ ", ".intercalate (displayItems members) ++ "\x7d"
  | mapping entries => "\x7b" ++ ", ".intercalate (displayEntries entries) ++ "\x7d"
  | again .list => "[...]"
  | again .mapping => "\x7b...\x7d"

def displayItems : List Value → List String
  | [] => []
  | v :: rest => display v :: displayItems rest

def displayEntries : List (Value × Value) → List String
  | [] => []
  | (k, v) :: rest => (display k ++ ": " ++ display v) :: displayEntries rest

end

mutual

/-- Whether a value holds an integer with too many digits to be shown. -/
def isLong : Value → Bool
  | int n => Numeral.isLong n
  | list items | set items => areLong items
  | pair a b => isLong a || isLong b
  | mapping entries => entriesLong entries
  | _ => false

def areLong : List Value → Bool
  | [] => false
  | v :: rest => isLong v || areLong rest

def entriesLong : List (Value × Value) → Bool
  | [] => false
  | (k, v) :: rest => isLong k || isLong v || entriesLong rest

end

end CompletionServer.Value
