import CompletionServer.Text.CodePoint
import CompletionServer.Value.Calendar
import CompletionServer.Value.Double

namespace CompletionServer

inductive Shape where
  | list
  | mapping
deriving DecidableEq

/-- A collection that holds itself stands as `again` at the place where it comes up once more. -/
inductive Value where
  | null
  | bool (b : Bool)
  | int (n : Int)
  | float (x : Double)
  | str (s : Text)
  | bytes (b : List UInt8)
  | date (d : Date)
  | moment (m : Moment)
  | list (items : List Value)
  | pair (first second : Value)
  | set (members : List Value)
  | mapping (entries : List (Value × Value))
  | again (shape : Shape)
deriving Inhabited

namespace Value

/-- Null, false, zero and everything empty count as no. -/
def truthy : Value → Bool
  | null => false
  | bool b => b
  | int n => n != 0
  | float x => !x.isZero
  | str s => !s.isEmpty
  | bytes b => !b.isEmpty
  | date _ | moment _ | pair _ _ | again _ => true
  | list items | set items => !items.isEmpty
  | mapping entries => !entries.isEmpty

def isNull : Value → Bool
  | null => true
  | _ => false

/-- The number that a truth value, an integer or a whole double stands for. -/
def number? : Value → Option Int
  | bool b => some (if b then 1 else 0)
  | int n => some n
  | float x => x.toInt?
  | _ => none

/-- Whether two values are one key of a mapping: numbers by their value, texts and bytes by their
content, moments by the time they denote. Of the NaNs, which equal nothing, only the named one is
the same each time. -/
def sameKey (a b : Value) : Bool :=
  match a, b with
  | null, null => true
  | str s, str t => s == t
  | bytes x, bytes y => x == y
  | date d, date e => d == e
  | moment m, moment n => m.same n
  | float x, float y =>
    (x == y && (!x.isNaN || x == .namedNaN)) || (x.isZero && y.isZero)
  | _, _ =>
    match a.number?, b.number? with
    | some m, some n => m == n
    | _, _ => false

/-- A key that is already there keeps its place and takes the new value. -/
def insertEntry (same : κ → κ → Bool) (key : κ) (value : α) : List (κ × α) → List (κ × α)
  | [] => [(key, value)]
  | (k, v) :: rest =>
    if same k key then (k, value) :: rest else (k, v) :: insertEntry same key value rest

def ofEntries (entries : List (Value × Value)) : Value :=
  mapping (entries.foldl (fun done (k, v) => insertEntry sameKey k v done) [])

def lookup (name : Text) : List (Value × α) → Option α
  | [] => none
  | (k, v) :: rest =>
    match k with
    | str s => if s = name then some v else lookup name rest
    | _ => lookup name rest

def field? (v : Value) (name : String) : Option Value :=
  match v with
  | mapping entries => lookup name entries
  | _ => none

/-- An absent field reads as null. -/
def field (v : Value) (name : String) : Value :=
  (v.field? name).getD null

def str? : Value → Option Text
  | str s => some s
  | _ => none

def int? : Value → Option Int
  | int n => some n
  | _ => none

def items : Value → List Value
  | list xs => xs
  | _ => []

def object (fields : List (String × Value)) : Value :=
  mapping (fields.map fun (k, v) => (str k, v))

def ofOption (f : α → Value) : Option α → Value
  | none => null
  | some a => f a

end Value

end CompletionServer
