import CompletionServer.Text.CodePoint

namespace CompletionServer

inductive SuggestionType where
  | method
  | function
  | constructor
  | field
  | var
  | cls
  | interface
  | module
  | property
  | unit
  | value
  | enum
  | keyword
  | snippet
  | color
  | file
  | reference
  | constant
deriving DecidableEq, Repr

namespace SuggestionType

def all : List SuggestionType :=
  [method, function, constructor, field, var, cls, interface, module, property, unit,
    value, enum, keyword, snippet, color, file, reference, constant]

def name : SuggestionType → String
  | method => "method"
  | function => "function"
  | constructor => "constructor"
  | field => "field"
  | var => "variable"
  | cls => "class"
  | interface => "interface"
  | module => "module"
  | property => "property"
  | unit => "unit"
  | value => "value"
  | enum => "enum"
  | keyword => "keyword"
  | snippet => "snippet"
  | color => "color"
  | file => "file"
  | reference => "reference"
  | constant => "constant"

def ofName? (t : Text) : Option SuggestionType :=
  all.find? (Text.ofString ·.name = t)

end SuggestionType

/-- A suggestion's classification: one of the known types, or a name that a third party gave. -/
inductive Classification where
  | known (t : SuggestionType)
  | named (t : Text)
deriving DecidableEq

/-- A half-open range of byte offsets. -/
structure ByteRange where
  start : Nat
  stop : Nat
  start_le_stop : start ≤ stop
deriving DecidableEq

namespace ByteRange

inductive Invalid where
  | negative (start stop : Int)
  | inverted (start stop : Int)
deriving DecidableEq

def Invalid.message : Invalid → String
  | negative start stop => s!"Negative offset in range {start}..{stop}"
  | inverted start stop => s!"Range start {start} is after end {stop}"

def ofInts (start stop : Int) : Except Invalid ByteRange :=
  if start < 0 ∨ stop < 0 then .error (.negative start stop)
  else if h : start ≤ stop then .ok ⟨start.toNat, stop.toNat, by omega⟩
  else .error (.inverted start stop)

end ByteRange

structure Suggestion where
  name : Text
  type : Option Classification
  short : Option Text
  doc : Option Text
  snippet : Option Text
  range : Option ByteRange
deriving DecidableEq

namespace Suggestion

/-- How the name is shown. Trimming concerns variables of the known type only. -/
def label (trim : Bool) (s : Suggestion) : Text :=
  if trim && s.type == some (.known .var) && s.name.head? == some (.ofChar '$') then s.name.tail
  else s.name

end Suggestion

end CompletionServer
