import CompletionServer.Yaml.Layout

namespace CompletionServer.Yaml

inductive Content where
  | scalar (text : Text)
  | list (items : List Nat)
  | mapping (entries : Array (Nat × Nat))

structure Node where
  tag : Tag
  content : Content

namespace Node

/-- What stands where nothing was written. -/
def empty : Node := ⟨.null, .scalar []⟩

end Node

/-- Nodes by their numbers, and the one that everything hangs on. -/
structure Graph where
  nodes : Array Node
  root : Nat

structure Parsing where
  lexemes : Lexemes
  nodes : Array Node := #[]
  anchors : List (String × Nat) := []
  depth : Nat := 0
  handles : List (String × String) := []

abbrev Parse := StateT Parsing (Except Fault)

namespace Parse

def defaultHandles : List (String × String) :=
  [("!", "!"), ("!!", Tag.authority)]

/-- The next token, or none at the end. Where the lexemes break off there is nothing to look at. -/
def peek : Parse (Option Token) := do
  let lexemes := (← get).lexemes
  match lexemes.tokens, lexemes.fault with
  | t :: _, _ => return some t
  | [], some f => throw f
  | [], none => return none

def skip : Parse Unit :=
  modify fun s => { s with lexemes := { s.lexemes with tokens := s.lexemes.tokens.tail } }

def fail {α : Type} : Parse α := do throw (.unexpected (← peek))

def expect (t : Token) : Parse Unit := do
  if (← peek) ≠ some t then fail
  skip

def at? (ts : List Token) : Parse Bool := return (← peek).any (ts.contains ·)

def anchor? : Parse (Option String) := do
  match ← peek with
  | some (.anchor name) =>
    skip
    return some name
  | _ => return none

def fullTag (handle : Option String) (suffix : String) : Parse String := do
  match handle with
  | none => return suffix
  | some h =>
    match (← get).handles.lookup h with
    | some uri => return uri ++ suffix
    | none => throw (.undefinedHandle h)

def tag? : Parse (Option String) := do
  match ← peek with
  | some (.tag handle suffix) =>
    skip
    return some (← fullTag handle suffix)
  | _ => return none

structure Properties where
  anchor : Option String
  tag : Option String

namespace Properties

/-- The tag `!` alone leaves a node to be resolved. -/
def explicitTag? (p : Properties) : Option Tag :=
  (p.tag.filter (· ≠ "!")).map .ofUri

/-- Plain scalars, and those with the tag `!`, are resolved by their text. -/
def scalarTag (p : Properties) (text : Text) (plain : Bool) : Tag :=
  match p.explicitTag? with
  | some t => t
  | none => if plain || p.tag.isSome then Resolve.tag text.toChars else .str

end Properties

def properties : Parse Properties := do
  match ← anchor? with
  | some a => return ⟨some a, ← tag?⟩
  | none =>
    let tag ← tag?
    if tag.isSome then return ⟨← anchor?, tag⟩ else return ⟨none, none⟩

/-- The number of a new node, which its anchor names from now on. -/
def add (anchor : Option String) (node : Node) : Parse Nat := do
  let s ← get
  let number := s.nodes.size
  match anchor with
  | none => set { s with nodes := s.nodes.push node }
  | some a =>
    if s.anchors.any (·.1 = a) then throw (.repeatedAnchor a)
    set { s with nodes := s.nodes.push node, anchors := (a, number) :: s.anchors }
  return number

def addEmpty : Parse Nat := add none .empty

def fill (number : Nat) (content : Content) : Parse Nat := do
  modify fun s => { s with nodes := s.nodes.modify number ({ · with content := content }) }
  return number

def lookup (name : String) : Parse Nat := do
  match (← get).anchors.lookup name with
  | some number => return number
  | none => throw (.undefinedAlias name)

/-- The most nodes that may stand inside each other. -/
def deepest : Nat := 491

/-- A node that stands inside one more than those before it. -/
def nested (p : Parse Nat) : Parse Nat := do
  let depth := (← get).depth
  if deepest ≤ depth then throw .tooDeep
  modify ({ · with depth := depth + 1 })
  let number ← p
  modify ({ · with depth := depth })
  return number

/-- Where a node stands: in a flow collection, in a block, or as an entry of a block mapping, where
a list need not be indented. -/
inductive Context where
  | flow
  | block
  | entry
deriving DecidableEq

mutual

def node (context : Context) : Nat → Parse Nat
  | 0 => fail
  | n + 1 => nested do
    match ← peek with
    | some (.alias name) =>
      skip
      lookup name
    | _ =>
      let p ← properties
      match ← peek with
      | some (.scalar text plain) =>
        skip
        add p.anchor ⟨p.scalarTag text plain, .scalar text⟩
      | some .flowListStart =>
        skip
        let number ← add p.anchor ⟨p.explicitTag?.getD .seq, .list []⟩
        fill number (.list (← flowItems true n))
      | some .flowMappingStart =>
        skip
        let number ← add p.anchor ⟨p.explicitTag?.getD .map, .mapping #[]⟩
        fill number (.mapping (← flowEntries true n).toArray)
      | next =>
        if context = .entry && next = some .entry then
          let number ← add p.anchor ⟨p.explicitTag?.getD .seq, .list []⟩
          fill number (.list (← flushItems n))
        else if context ≠ .flow && next = some .listStart then
          skip
          let number ← add p.anchor ⟨p.explicitTag?.getD .seq, .list []⟩
          fill number (.list (← blockItems n))
        else if context ≠ .flow && next = some .mappingStart then
          skip
          let number ← add p.anchor ⟨p.explicitTag?.getD .map, .mapping #[]⟩
          fill number (.mapping (← blockEntries n).toArray)
        else if p.anchor.isSome || p.tag.isSome then
          add p.anchor ⟨p.scalarTag [] true, .scalar []⟩
        else fail

/-- A node, unless one of the given tokens shows that it was left out. -/
def nodeUnless (context : Context) (ends : List Token) : Nat → Parse Nat
  | 0 => fail
  | n + 1 => do if ← at? ends then addEmpty else node context n

def blockItems : Nat → Parse (List Nat)
  | 0 => fail
  | n + 1 => do
    if (← peek) = some .entry then
      skip
      let item ← nodeUnless .block [.entry, .blockEnd] n
      return item :: (← blockItems n)
    else
      expect .blockEnd
      return []

/-- The items of a list that is not indented more than the mapping around it. -/
def flushItems : Nat → Parse (List Nat)
  | 0 => fail
  | n + 1 => do
    if (← peek) = some .entry then
      skip
      let item ← nodeUnless .block [.entry, .key, .value, .blockEnd] n
      return item :: (← flushItems n)
    else return []

def blockEntries : Nat → Parse (List (Nat × Nat))
  | 0 => fail
  | n + 1 => do
    let ends := [Token.key, .value, .blockEnd]
    if (← peek) = some .key then
      skip
      let key ← nodeUnless .entry ends n
      let value ←
        if (← peek) = some .value then do
          skip
          nodeUnless .entry ends n
        else addEmpty
      return (key, value) :: (← blockEntries n)
    else
      expect .blockEnd
      return []

/-- A key and its value inside a flow collection that ends with the given token. -/
def flowPair (last : Token) : Nat → Parse (Nat × Nat)
  | 0 => fail
  | n + 1 => do
    skip
    let key ← nodeUnless .flow [.value, .comma, last] n
    if (← peek) = some .value then
      skip
      return (key, ← nodeUnless .flow [.comma, last] n)
    else return (key, ← addEmpty)

def flowItems (first : Bool) : Nat → Parse (List Nat)
  | 0 => fail
  | n + 1 => do
    if (← peek) = some .flowListEnd then
      skip
      return []
    if !first then expect .comma
    match ← peek with
    | some .flowListEnd =>
      skip
      return []
    | some .key =>
      let item ← nested do
        let number ← add none ⟨.map, .mapping #[]⟩
        fill number (.mapping #[← flowPair .flowListEnd n])
      return item :: (← flowItems false n)
    | _ =>
      let item ← node .flow n
      return item :: (← flowItems false n)

def flowEntries (first : Bool) : Nat → Parse (List (Nat × Nat))
  | 0 => fail
  | n + 1 => do
    if (← peek) = some .flowMappingEnd then
      skip
      return []
    if !first then expect .comma
    match ← peek with
    | some .flowMappingEnd =>
      skip
      return []
    | some .key =>
      let pair ← flowPair .flowMappingEnd n
      return pair :: (← flowEntries false n)
    | _ =>
      let key ← node .flow n
      return (key, ← addEmpty) :: (← flowEntries false n)

end

def directives (versioned : Bool) : Nat → Parse Unit
  | 0 => fail
  | n + 1 => do
    match ← peek with
    | some (.directive d) =>
      skip
      match d with
      | .version major _ =>
        if versioned then throw .repeatedDirective
        if major ≠ 1 then throw (.incompatible major)
        directives true n
      | .handle h uri =>
        if (← get).handles.any (·.1 = h) then throw .repeatedDirective
        modify fun s => { s with handles := s.handles ++ [(h, uri)] }
        directives versioned n
      | .reserved => directives versioned n
    | _ => return

def skipDocumentEnds : Nat → Parse Unit
  | 0 => fail
  | n + 1 => do
    if (← peek) = some .documentEnd then
      skip
      skipDocumentEnds n

/-- More rounds than there can be nested calls for the tokens left. -/
def rounds : Parse Nat := return 4 * (← get).lexemes.tokens.length + 4

def announcement : Parse Unit := do
  modify ({ · with handles := [] })
  directives false (← rounds)
  modify fun s => { s with handles := s.handles ++ defaultHandles }
  expect .documentStart

def explicitDocument : Parse Nat := do
  announcement
  match ← peek with
  | none | some .documentStart | some .documentEnd | some (.directive _) => addEmpty
  | _ => node .block (← rounds)

/-- The only document, or the empty node if there is none. A second one is refused as soon as it is
announced. -/
def document : Parse Nat := do
  let root ←
    match ← peek with
    | none => addEmpty
    | some .documentStart | some (.directive _) => explicitDocument
    | _ =>
      modify fun s => { s with handles := defaultHandles }
      node .block (← rounds)
  skipDocumentEnds (← rounds)
  if (← peek).isSome then
    announcement
    throw .severalDocuments
  return root

end Parse

def compose (lexemes : Lexemes) : Except Fault Graph := do
  let (root, s) ← Parse.document.run { lexemes := lexemes }
  return ⟨s.nodes, root⟩

end CompletionServer.Yaml
