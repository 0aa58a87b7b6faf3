namespace CompletionServer.Yaml

/-- The tags of the standard, of which `merge` and `value` concern keys only and `sign` stands for
no value, and others by their address. -/
inductive Tag where
  | null
  | bool
  | int
  | float
  | binary
  | timestamp
  | str
  | seq
  | omap
  | pairs
  | map
  | set
  | merge
  | value
  | sign
  | other (uri : String)
deriving DecidableEq

namespace Tag

def authority : String := "tag:yaml.org,2002:"

def standard : List (String × Tag) :=
  [("null", null), ("bool", bool), ("int", int), ("float", float), ("binary", binary),
    ("timestamp", timestamp), ("str", str), ("seq", seq), ("omap", omap), ("pairs", pairs),
    ("map", map), ("set", set), ("merge", merge), ("value", value), ("yaml", sign)]

def ofUri (uri : String) : Tag :=
  ((standard.find? fun (name, _) => authority ++ name = uri).map Prod.snd).getD (.other uri)

def isScalar : Tag → Bool
  | null | bool | int | float | binary | timestamp | str => true
  | _ => false

end Tag

end CompletionServer.Yaml
