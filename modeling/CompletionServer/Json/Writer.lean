import CompletionServer.Value.Display

namespace CompletionServer.Json

/-- Control characters, lone surrogates and whatever some reader may take for the end of a line. -/
def needsEscape (c : CodePoint) : Bool :=
  c.val < 0x20 || (0x7F ≤ c.val && c.val < 0xA0) || c.val = 0x2028 || c.val = 0x2029 ||
    c.isSurrogate

def escapeChar (c : CodePoint) : List Char :=
  if c = .ofChar '"' || c = .ofChar '\\' then ['\\', c.toChar]
  else if c = .lineFeed then ['\\', 'n']
  else if c = .carriageReturn then ['\\', 'r']
  else if c = .ofChar '\t' then ['\\', 't']
  else if needsEscape c then '\\' :: 'u' :: Digits.padHex 4 c.val
  else [c.toChar]

def quoted (t : Text) : String :=
  .ofList ('"' :: t.flatMap escapeChar ++ ['"'])

/-- The values that no number of JSON denotes have names. -/
def number (x : Double) : String :=
  if x.isFinite then x.render
  else if x.isNaN then "NaN"
  else if x.isNegative then "-Infinity"
  else "Infinity"

def fieldName : Value → Text
  | .str s => s
  | .null => "null"
  | .bool true => "true"
  | .bool false => "false"
  | .float x => number x
  | v => v.display

mutual

/-- What JSON has no form for is written as the text that shows it. -/
def write : Value → String
  | .null => "null"
  | .bool true => "true"
  | .bool false => "false"
  | .int n => toString n
  | .float x => number x
  | .str s => quoted s
  | .list items => "[" ++ ",".intercalate (writeItems items) ++ "]"
  | .pair a b => "[" ++ write a ++ "," ++ write b ++ "]"
  | .mapping entries => "\x7b" ++ ",".intercalate (writeEntries entries) ++ "\x7d"
  | v => quoted v.display

def writeItems : List Value → List String
  | [] => []
  | v :: rest => write v :: writeItems rest

def writeEntries : List (Value × Value) → List String
  | [] => []
  | (k, v) :: rest => (quoted (fieldName k) ++ ":" ++ write v) :: writeEntries rest

end

end CompletionServer.Json
