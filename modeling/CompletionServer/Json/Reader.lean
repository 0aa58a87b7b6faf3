import CompletionServer.Json.Token

namespace CompletionServer.Json

/-- A collection still open, its finished members in reverse. -/
inductive Frame where
  | list (done : List Value)
  | object (done : List (Value × Value))
  | entry (done : List (Value × Value)) (key : Value)

inductive Expected where
  | value
  | valueOrClose
  | commaOrClose
  | key
  | keyOrClose
  | colon
  | finish (v : Value)

structure Reading where
  expected : Expected
  stack : List Frame

/-- Puts a finished value into the innermost collection. -/
def Reading.deliver (v : Value) : List Frame → Option Reading
  | [] => some ⟨.finish v, []⟩
  | .list done :: rest => some ⟨.commaOrClose, .list (v :: done) :: rest⟩
  | .entry done key :: rest => some ⟨.commaOrClose, .object ((key, v) :: done) :: rest⟩
  | .object _ :: _ => none

def Reading.close : Token → List Frame → Option Reading
  | .closeList, .list done :: rest => deliver (.list done.reverse) rest
  | .closeObject, .object done :: rest => deliver (.ofEntries done.reverse) rest
  | _, _ => none

def Reading.value (stack : List Frame) : Token → Option Reading
  | .openList => some ⟨.valueOrClose, .list [] :: stack⟩
  | .openObject => some ⟨.keyOrClose, .object [] :: stack⟩
  | .scalar v => deliver v stack
  | _ => none

def Reading.key : Token → List Frame → Option Reading
  | .scalar (.str s), .object done :: rest => some ⟨.colon, .entry done (.str s) :: rest⟩
  | _, _ => none

def Reading.step (r : Reading) (t : Token) : Option Reading :=
  match r.expected, t with
  | .value, t => Reading.value r.stack t
  | .valueOrClose, .closeList => close .closeList r.stack
  | .valueOrClose, t => Reading.value r.stack t
  | .commaOrClose, .comma =>
    match r.stack with
    | .list _ :: _ => some { r with expected := .value }
    | _ => some { r with expected := .key }
  | .commaOrClose, t => close t r.stack
  | .key, t => key t r.stack
  | .keyOrClose, .closeObject => close .closeObject r.stack
  | .keyOrClose, t => key t r.stack
  | .colon, .colon => some { r with expected := .value }
  | .colon, _ => none
  | .finish _, _ => none

def read? (s : String) : Option Value := do
  let tokens ← lex s
  let last ← tokens.foldlM Reading.step ⟨.value, []⟩
  match last.expected with
  | .finish v => some v
  | _ => none

end CompletionServer.Json
