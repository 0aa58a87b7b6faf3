import CompletionServer.Dictionary

namespace CompletionServer

structure Unsupported where
  language : Text
deriving DecidableEq

def Unsupported.message (e : Unsupported) : Text :=
  "No completor registered for language '" ++ e.language ++ "'"

structure Registry (α : Type u) where
  table : Dictionary α

namespace Registry

variable {α : Type u}

def ofList (entries : List (Text × α)) : Registry α := ⟨.ofList entries⟩

def register (r : Registry α) (language : Text) (a : α) : Registry α :=
  ⟨r.table.insert language a⟩

def find (r : Registry α) (language : Text) : Except Unsupported α :=
  match r.table.get? language with
  | some a => .ok a
  | none => .error ⟨language⟩

def contains (r : Registry α) (language : Text) : Bool := r.table.contains language

def languages (r : Registry α) : List Text := r.table.keys

end Registry

end CompletionServer
