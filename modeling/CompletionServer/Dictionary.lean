import CompletionServer.Text.CodePoint

namespace CompletionServer

structure Dictionary (α : Type u) where
  entries : List (Text × α)

namespace Dictionary

variable {α : Type u}

def empty : Dictionary α := ⟨[]⟩

def put (key : Text) (value : α) : List (Text × α) → List (Text × α)
  | [] => [(key, value)]
  | (k, v) :: rest => if k = key then (k, value) :: rest else (k, v) :: put key value rest

/-- A key that is there keeps its place and takes the new value. -/
def insert (d : Dictionary α) (key : Text) (value : α) : Dictionary α :=
  ⟨put key value d.entries⟩

def ofList (entries : List (Text × α)) : Dictionary α :=
  entries.foldl (fun d (k, v) => d.insert k v) empty

def erase (d : Dictionary α) (key : Text) : Dictionary α :=
  ⟨d.entries.filter (·.1 ≠ key)⟩

def get? (d : Dictionary α) (key : Text) : Option α :=
  d.entries.lookup key

def contains (d : Dictionary α) (key : Text) : Bool :=
  d.entries.any (·.1 = key)

def keys (d : Dictionary α) : List Text :=
  d.entries.map Prod.fst

def values (d : Dictionary α) : List α :=
  d.entries.map Prod.snd

end Dictionary

end CompletionServer
