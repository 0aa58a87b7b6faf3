import CompletionServer.Capability.Group
import CompletionServer.Settings.Load
import CompletionServer.Uri

namespace CompletionServer

structure Server where
  config : Config := {}
  registry : Registry Completer := .ofList []
  helpers : Dictionary Helper := .empty
  snippetSupport : Bool := false
  group : Option Group := none
  workspace : Workspace := .empty

structure Initialization where
  rootUri : Option Text
  options : Value
  capabilities : Value

inductive Request where
  | initialise (i : Initialization)
  | openDocument (d : Document)
  | changeDocument (uri : Text) (text : Text)
  | closeDocument (uri : Text)
  | complete (place : Place)
  | help (place : Place)

inductive Reply where
  | done
  | completions (list : CompletionList)
  | help (h : Option Help)

inductive RequestError where
  | crash (c : Crash)
  | notOpen (uri : Text)
  | invalidParams (message : Text)
  | raised (message : Text)
  | cancelled
deriving DecidableEq

structure Response where
  result : Except RequestError Reply
  events : List Event := []
  logs : List LogMessage := []

namespace Server

/-- Whether the client says that its completion items may hold snippets. -/
def supportsSnippets (capabilities : Value) : Bool :=
  ((((capabilities.field "textDocument").field "completion").field "completionItem").field
    "snippetSupport").truthy

def registryFor (config : Config) : Registry Completer :=
  .ofList [(Text.ofString "php", .php config.limit)]

def standardHelpers : Dictionary Helper := .ofList [(Text.ofString "php", .php)]

def itemOptions (config : Config) (snippetSupport : Bool) : ItemOptions where
  snippets := config.snippets && snippetSupport
  textEdits := config.textEdits
  trimDollar := config.trimDollar

def standardGroup (config : Config) (snippetSupport : Bool) : Group where
  capabilities := .ofList
    [(Text.ofString "completion", .completion
        ⟨registryFor config, itemOptions config snippetSupport, config.defaultLanguage⟩),
      (Text.ofString "signature_help", .help ⟨standardHelpers, config.defaultLanguage⟩)]
  registered := true

/-- The server in force under given settings; its documents stay. -/
def configured (s : Server) (config : Config) (snippetSupport : Bool) : Server where
  config := config
  registry := registryFor config
  helpers := standardHelpers
  snippetSupport := snippetSupport
  group := some (standardGroup config snippetSupport)
  workspace := s.workspace

/-- The folder of the workspace, where the client gives one. Only a file address leads to a
folder. -/
def rootPath? (uri : Option Text) : Except Crash (Option Path) :=
  match uri with
  | none | some [] => .ok none
  | some u =>
    match Uri.filePath? u with
    | .ok (some path) => .ok (some (.ofText path))
    | .ok none => .error .noPath
    | .error e => .error (.host e)

/-- Bad settings are reported and replaced by the defaults. -/
def settingsFor (tree : FileTree) (root : Option Path) (options : Value) :
    Except Crash (Config × List LogMessage) :=
  match Settings.load tree root options with
  | .ok config =>
    .ok (config, config.source.toList.map fun p => ⟨.info, "Loaded settings from " ++ p.render⟩)
  | .error (.settings e) => .ok ({}, [⟨.error, e.message ++ "; using default settings"⟩])
  | .error (.crash c) => .error c

def initialise (tree : FileTree) (s : Server) (i : Initialization) : Server × Response :=
  let settings := do settingsFor tree (← rootPath? i.rootUri) i.options
  match settings with
  | .error c => (s, ⟨.error (.crash c), [], []⟩)
  | .ok (config, logs) =>
    let s := s.configured config (supportsSnippets i.capabilities)
    let enabled := "Completion enabled for: " ++ Text.join ", " s.registry.languages
    (s, ⟨.ok .done, [], logs ++ [⟨.info, enabled⟩]⟩)

/-- The signals of a request from the editor, whose token nobody else holds. -/
def freshSignals : Signals := .forRequest false false

def completionError : Failure → RequestError
  | .documentNotFound uri => .invalidParams (Failure.message (.documentNotFound uri))
  | .raised message => .raised message
  | .cancelled => .cancelled

/-- A failure of the search itself is logged. -/
def failureLogs (uri : Text) : Failure → List LogMessage
  | .raised message =>
    [⟨.error, "Completion failed for " ++ uri ++ ": RuntimeError: " ++ message⟩]
  | _ => []

def complete (s : Server) (place : Place) (coming : List Arrival := []) : Response :=
  match s.group with
  | none => ⟨.ok (.completions ⟨false, []⟩), [], []⟩
  | some g =>
    let report := (g.complete s.workspace place { freshSignals with coming }).report
    match report.result with
    | .ok list => ⟨.ok (.completions list), report.events, report.logs⟩
    | .error e =>
      ⟨.error (completionError e), report.events, report.logs ++ failureLogs place.uri e⟩

def help (s : Server) (place : Place) : Response :=
  match s.group with
  | none => ⟨.ok (.help none), [], []⟩
  | some g => ⟨((g.help s.workspace place).result.map .help).mapError completionError, [], []⟩

/-- Documents are kept under their address without percent escapes, and looked up under the
address as it is given. The host in an address has to be a possible one. -/
def openDocument (s : Server) (d : Document) : Server × Response :=
  match Uri.filePath? d.uri with
  | .ok _ => ({ s with workspace := s.workspace.insert (Uri.decode d.uri) d }, ⟨.ok .done, [], []⟩)
  | .error e => (s, ⟨.error (.crash (.host e)), [], []⟩)

def changeDocument (s : Server) (uri : Text) (text : Text) : Server × Response :=
  let key := Uri.decode uri
  match s.workspace.get? key with
  | some d =>
    ({ s with workspace := s.workspace.insert key { d with text := text } }, ⟨.ok .done, [], []⟩)
  | none => (s, ⟨.error (.notOpen key), [], []⟩)

def closeDocument (s : Server) (uri : Text) : Server :=
  { s with workspace := s.workspace.erase (Uri.decode uri) }

/-- Only a completion is ever suspended, so only there others can come in between. -/
def handle (tree : FileTree) (s : Server) (r : Request) (coming : List Arrival := []) :
    Server × Response :=
  match r with
  | .initialise i => s.initialise tree i
  | .openDocument d => s.openDocument d
  | .changeDocument uri text => s.changeDocument uri text
  | .closeDocument uri => (s.closeDocument uri, ⟨.ok .done, [], []⟩)
  | .complete place => (s, s.complete place coming)
  | .help place => (s, s.help place)

def withRegistry (registry : Registry Completer) : Capability → Capability
  | .completion service => .completion { service with registry := registry }
  | c => c

/-- Lets completion be answered by one completer, for one language. A server that is not
initialised does not answer yet. -/
def useCompleter? (s : Server) (language : Text) (c : Completer) : Option Server :=
  s.group.map fun g =>
    { s with group := some { g with
        capabilities := ⟨g.capabilities.entries.map fun (name, cap) =>
          (name, withRegistry (.ofList [(language, c)]) cap)⟩ } }

end Server

end CompletionServer
