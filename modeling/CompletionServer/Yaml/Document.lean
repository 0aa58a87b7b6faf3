import CompletionServer.Value.Placement
import CompletionServer.Yaml.Base64
import CompletionServer.Yaml.Convert
import CompletionServer.Yaml.Node

namespace CompletionServer.Yaml

/-- The value of a node, as far as it does not lie in other nodes. -/
inductive Cell where
  | scalar (v : Value)
  | list (items : List Nat)
  | pairs (items : List (Nat × Nat))
  | set (members : List Value)
  | mapping (entries : List (Value × Nat))
deriving Inhabited

structure Key where
  node : Nat
  value : Value

/-- A node is one key with itself, even where its value equals nothing. -/
def Key.same (a b : Key) : Bool :=
  a.node == b.node || a.value.sameKey b.value

def Cell.key? : Cell → Option Value
  | scalar v => some v
  | _ => none

structure Building where
  nodes : Array Node
  cells : Array (Option Cell)

abbrev Build := StateT Building (Except Fault)

namespace Build

def node (number : Nat) : Build Node :=
  return (← get).nodes.getD number .empty

def cell? (number : Nat) : Build (Option Cell) :=
  return ((← get).cells[number]?).join

def put (number : Nat) (c : Cell) : Build Unit :=
  modify fun s => { s with cells := s.cells.setIfInBounds number (some c) }

def retag (number : Nat) (t : Tag) : Build Unit :=
  modify fun s => { s with nodes := s.nodes.modify number ({ · with tag := t }) }

def setEntries (number : Nat) (entries : Array (Nat × Nat)) : Build Unit :=
  modify fun s => { s with
    nodes := s.nodes.modify number ({ · with content := .mapping entries }) }

/-- More nodes than can stand inside each other without repetition. -/
def rounds : Build Nat := return (← get).nodes.size + 1

/-! ### Scalars -/

def defaultEntry? (entries : Array (Nat × Nat)) : Build (Option Nat) := do
  let s ← get
  return (entries.find? fun (key, _) => (s.nodes.getD key .empty).tag = .value).map Prod.snd

/-- A mapping with a default value stands for that where a scalar is due. -/
def scalarText (tag : Tag) : Nat → Nat → Build Text
  | 0, _ => throw .tooDeep
  | n + 1, number => do
    match (← node number).content with
    | .scalar text => return text
    | .list _ => throw (.unfitTag tag)
    | .mapping entries =>
      match ← defaultEntry? entries with
      | some v => scalarText tag n v
      | none => throw (.unfitTag tag)

def convert (r : Except ConversionError Value) : Build Value :=
  match r with
  | .ok v => return v
  | .error e => throw (.conversion e)

/-- Timestamps are recognised in a scalar's own text only. -/
def timestamp (number : Nat) (text : Text) : Build Value := do
  match (← node number).content with
  | .scalar _ => convert (Convert.timestamp text)
  | _ => throw (.conversion .timestampMapping)

def scalar (tag : Tag) (number : Nat) (text : Text) : Build Value :=
  match tag with
  | .null => return .null
  | .str => return .str text
  | .bool => convert ((Convert.bool text).map .bool)
  | .int => convert ((Convert.int text).map .int)
  | .float => convert ((Convert.float text).map .float)
  | .timestamp => timestamp number text
  | .binary =>
    match Base64.decode? text with
    | some bytes => return .bytes bytes
    | none => throw (.unfitTag tag)
  | _ => throw (.unknownTag tag)

/-! ### Merging -/

def entriesOf (number : Nat) : Build (Array (Nat × Nat)) := do
  match (← node number).content with
  | .mapping entries => return entries
  | _ => throw .unfitMerge

/-- The entries of the mappings that are merged in; of several mappings the first counts most. -/
def mergeable (flatten : Nat → Build Unit) (number : Nat) : Build (Array (Nat × Nat)) := do
  match (← node number).content with
  | .scalar _ => throw .unfitMerge
  | .mapping _ =>
    flatten number
    entriesOf number
  | .list items =>
    let groups ← items.mapM fun item => do
      discard <| entriesOf item
      flatten item
      entriesOf item
    return groups.reverse.foldl (· ++ ·) #[]

/-- Takes the merging keys out of a mapping, from one entry on, and puts what they bring in front of
its own entries. -/
def flattenFrom (flatten : Nat → Build Unit) (number : Nat) :
    Nat → Nat → Array (Nat × Nat) → Build Unit
  | 0, _, merged => do
    if !merged.isEmpty then setEntries number (merged ++ (← entriesOf number))
  | n + 1, index, merged => do
    let entries ← entriesOf number
    match entries[index]? with
    | none => flattenFrom flatten number n index merged
    | some (key, value) =>
      match (← node key).tag with
      | .merge =>
        setEntries number (entries.eraseIdxIfInBounds index)
        flattenFrom flatten number n index (merged ++ (← mergeable flatten value))
      | .value =>
        retag key .str
        flattenFrom flatten number n (index + 1) merged
      | _ => flattenFrom flatten number n (index + 1) merged

/-- Merging keys may lead on to further mappings. -/
def flatten : Nat → Nat → Build Unit
  | 0, _ => throw .tooDeep
  | n + 1, number => do
    flattenFrom (flatten n) number (← entriesOf number).size 0 #[]

/-! ### Collections -/

/-- Makes the cell of a node unless it is there, and returns its number if it is to be filled. -/
def make (number : Nat) : Build (List Nat) := do
  if (← cell? number).isSome then return []
  match (← node number).tag with
  | .seq => put number (.list []); return [number]
  | .omap | .pairs => put number (.pairs []); return [number]
  | .map => put number (.mapping []); return [number]
  | .set => put number (.set []); return [number]
  | tag =>
    if !tag.isScalar then throw (.unknownTag tag)
    let text ← scalarText tag (← rounds) number
    put number (.scalar (← scalar tag number text))
    return []

def key (number : Nat) : Build Key := do
  match (← cell? number).bind Cell.key? with
  | some v => return ⟨number, v⟩
  | none => throw .collectionAsKey

def makeEntries : List (Nat × Nat) → Build (List (Key × Nat) × List Nat)
  | [] => return ([], [])
  | (k, v) :: rest => do
    let first ← make k
    let name ← key k
    let second ← make v
    let (entries, more) ← makeEntries rest
    return ((name, v) :: entries, first ++ second ++ more)

/-- The entries of a mapping after merging; of equal keys the last one counts. -/
def entries (tag : Tag) (number : Nat) : Build (List (Value × Nat) × List Nat) := do
  match (← node number).content with
  | .mapping _ =>
    flatten (← rounds) number
    let (entries, made) ← makeEntries (← entriesOf number).toList
    let distinct := entries.foldl (fun done (k, v) => Value.insertEntry Key.same k v done) []
    return (distinct.map fun (k, v) => (k.value, v), made)
  | _ => throw (.unfitTag tag)

/-- A list of mappings with one entry each. -/
def makePairs (tag : Tag) : List Nat → Build (List (Nat × Nat) × List Nat)
  | [] => return ([], [])
  | item :: rest => do
    match (← node item).content with
    | .mapping ⟨[(k, v)]⟩ =>
      let first ← make k
      let second ← make v
      let (pairs, more) ← makePairs tag rest
      return ((k, v) :: pairs, first ++ second ++ more)
    | _ => throw (.unfitTag tag)

/-- Fills a collection and returns the numbers of those that were made for it. -/
def fill (number : Nat) : Build (List Nat) := do
  let n ← node number
  match n.tag, n.content with
  | .seq, .list items =>
    let made ← items.mapM make
    put number (.list items)
    return made.flatten
  | .omap, .list items | .pairs, .list items =>
    let (pairs, made) ← makePairs n.tag items
    put number (.pairs pairs)
    return made
  | .map, _ =>
    let (entries, made) ← entries n.tag number
    put number (.mapping entries)
    return made
  | .set, _ =>
    let (entries, made) ← entries n.tag number
    put number (.set (entries.map Prod.fst))
    return made
  | tag, _ => throw (.unfitTag tag)

/-- Fills collections round by round, those made in one round in the next. -/
def fillAll : Nat → List Nat → Build Unit
  | 0, _ => return
  | n + 1, numbers => do
    if !numbers.isEmpty then
      let made ← numbers.mapM fill
      fillAll n made.flatten

end Build

/-- The cells of a document's nodes by number, and the number of its root. -/
structure Document where
  cells : Array (Option Cell)
  root : Nat

namespace Document

def ofGraph (g : Graph) : Except Fault Document := do
  let build : Build Unit := do Build.fillAll (← Build.rounds) (← Build.make g.root)
  let (_, s) ← build.run ⟨g.nodes, .replicate g.nodes.size none⟩
  return ⟨s.cells, g.root⟩

/-- The only document of a text, which may break off at its end. A text without one denotes
null. -/
def read (text : List Char) (broken : Option Fault) : Except Fault Document := do
  ofGraph (← compose (scan text broken))

def cell (d : Document) (number : Nat) : Cell :=
  ((d.cells[number]?).join).getD (.scalar .null)

def field? (d : Document) (number : Nat) (name : Text) : Option Nat :=
  match d.cell number with
  | .mapping entries => Value.lookup name entries
  | _ => none

/-- The value of a node inside those of a path, which it refers back to by saying so. -/
def unroll (d : Document) : Nat → List Nat → Nat → Value
  | 0, _, _ => .null
  | n + 1, path, number =>
    let inner := unroll d n (number :: path)
    match d.cell number with
    | .scalar v => v
    | .set members => .set (Value.Placement.arrange members)
    | .list items => if path.contains number then .again .list else .list (items.map inner)
    | .pairs items =>
      if path.contains number then .again .list
      else .list (items.map fun (a, b) => .pair (inner a) (inner b))
    | .mapping entries =>
      if path.contains number then .again .mapping
      else .mapping (entries.map fun (k, v) => (k, inner v))

def value (d : Document) (number : Nat) : Value :=
  d.unroll (d.cells.size + 1) [] number

/-- A value without what is inside it. -/
def outline (d : Document) (number : Nat) : Value :=
  match d.cell number with
  | .scalar v => v
  | .set members => .set members
  | .list items => .list (items.map fun _ => .null)
  | .pairs items => .list (items.map fun _ => .null)
  | .mapping entries => .mapping (entries.map fun (k, _) => (k, .null))

end Document

end CompletionServer.Yaml
