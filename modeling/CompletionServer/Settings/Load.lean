import CompletionServer.Files.Decoding
import CompletionServer.Settings.Config
import CompletionServer.Yaml.Document

namespace CompletionServer

inductive LoadError where
  | settings (e : SettingsError)
  | crash (c : Crash)

namespace LoadError

/-- A refusal that cannot be put into words is a crash. -/
def ofRefusal (e : SettingsError) : LoadError :=
  if e.isUnspeakable then .crash .longInteger else .settings e

/-- A settings file that is no document is bad settings; what goes wrong besides is a crash. -/
def ofFault (path : Path) : Yaml.Fault → LoadError
  | .undecodable f => .crash (.undecodable f)
  | .conversion e => .crash (.conversion e)
  | .tooDeep => .crash .nesting
  | _ => .settings (.unparsable path)

end LoadError

namespace Settings

def fileName : String := ".completionls.yml"

def firstFile (tree : FileTree) : List Path → Except Crash (Option Path)
  | [] => .ok none
  | path :: rest =>
    match tree.isFile path with
    | .ok true => .ok (some path)
    | .ok false => firstFile tree rest
    | .error e => .error (.file e path)

/-- The settings file in the root or the nearest folder above it. -/
def findFile (tree : FileTree) (root : Path) : Except Crash (Option Path) :=
  firstFile tree (root.ancestors.map (·.child fileName))

def readFile (tree : FileTree) (path : Path) : Except LoadError Decoded :=
  match path.check, tree.read path with
  | .error e, _ => .error (.crash (.path e))
  | .ok _, .error e => .error (.settings (.unreadable path e))
  | .ok _, .ok bytes => .ok (.ofBytes bytes)

/-- The document in a settings file: a mapping, or null if there is none. -/
def document (tree : FileTree) (path : Path) : Except LoadError Yaml.Document := do
  let file ← readFile tree path
  match Yaml.Document.read file.text (file.fault.map .undecodable) with
  | .error f => .error (.ofFault path f)
  | .ok d =>
    match d.cell d.root with
    | .scalar .null | .mapping _ => .ok d
    | _ => .error (.settings (.topLevelNotMapping path))

/-- The entries of a settings file; a file without a document has none. -/
def loadFile (tree : FileTree) (path : Path) : Except LoadError (List (Value × Value)) := do
  let d ← document tree path
  match d.value d.root with
  | .mapping entries => return entries
  | _ => return []

def knownSettings (d : Yaml.Document) (number : Nat) : Value :=
  match d.cell number with
  | .mapping entries =>
    .mapping ((entries.filter fun (k, _) => (SettingKey.ofValue? k).isSome).map fun (k, v) =>
      (k, d.value v))
  | _ => d.outline number

/-- The part of a document that can matter to the server. The rest, which may be large, is left
alone. -/
def ofDocument (d : Yaml.Document) : Value :=
  match d.field? d.root "completion" with
  | some number => .object [("completion", knownSettings d number)]
  | none => .mapping []

def merge (c : Config) (settings : Value) : Except LoadError Config :=
  (c.merge settings).mapError .ofRefusal

def loadFrom (tree : FileTree) (path : Path) : Except LoadError Config := do
  let c ← merge {} (ofDocument (← document tree path))
  return { c with source := some path }

def load (tree : FileTree) (root : Option Path) (options : Value) : Except LoadError Config := do
  let found ← match root with
    | some path => (findFile tree path).mapError .crash
    | none => pure none
  let base ← match found with
    | some path => loadFrom tree path
    | none => pure {}
  merge base options

end Settings

end CompletionServer
