import CompletionServer.Server.Basic

namespace CompletionServer.Wire

def serverName : String := "completionls"

def serverVersion : String := "0.1.0"

def completionTriggers : List String := [":", ">", "$"]

def helpTriggers : List String := ["(", ","]

def initializeMethod : String := "initialize"

def completionMethod : String := "textDocument/completion"

def helpMethod : String := "textDocument/signatureHelp"

/-- The methods that this server adds to what every server has. -/
def features : List String := [initializeMethod, completionMethod, helpMethod]

def texts (xs : List String) : Value := .list (xs.map fun s => .str (.ofString s))

/-- Fields without a value are left out. -/
def fields (fs : List (String × Option Value)) : Value :=
  .object (fs.filterMap fun (name, v) => v.map fun v => (name, v))

def natural (n : Nat) : Value := .int n

def position (p : Position) : Value :=
  .object [("line", natural p.line), ("character", natural p.character)]

def textEdit (e : TextEdit) : Value :=
  .object [("range", .object [("start", position e.start), ("end", position e.stop)]),
    ("newText", .str e.newText)]

def item (i : Item) : Value :=
  fields [("label", some (.str i.label)), ("kind", i.kind.map natural),
    ("detail", i.detail.map .str),
    ("documentation", i.documentation.map .str), ("insertText", i.insertText.map .str),
    ("insertTextFormat", i.insertFormat.map fun f => natural f.code),
    ("textEdit", i.textEdit.map textEdit)]

def completionList (l : CompletionList) : Value :=
  .object [("isIncomplete", .bool l.isIncomplete), ("items", .list (l.items.map item))]

def parameter (label : Text) : Value := .object [("label", .str label)]

/-- The active parameter is written even when there is none. -/
def signature (s : Signature) : Value :=
  fields [("label", some (.str s.label)), ("activeParameter", some .null),
    ("parameters", s.parameters.map fun ps => .list (ps.map parameter))]

def help (h : Help) : Value :=
  fields [("signatures", some (.list (h.signatures.map signature))),
    ("activeSignature", h.activeSignature.map natural),
    ("activeParameter", some (.ofOption natural h.activeParameter))]

def completionProvider : Value :=
  .object [("triggerCharacters", texts completionTriggers), ("resolveProvider", .bool false)]

def helpProvider : Value := .object [("triggerCharacters", texts helpTriggers)]

def serverInfo : Value :=
  .object [("name", .str serverName), ("version", .str serverVersion)]

/-- Documents are sent whole on every change. -/
def announcement : Value :=
  .object [("capabilities", .object [("textDocumentSync", .object [("openClose", .bool true),
      ("change", .int 1)]), ("completionProvider", completionProvider),
      ("signatureHelpProvider", helpProvider)]), ("serverInfo", serverInfo)]

inductive Outgoing where
  | log (m : LogMessage)
  | result (id : Value) (v : Value)
  | failure (id : Value) (code : Int) (message : Text)

namespace Outgoing

def message : Outgoing → Value
  | log m => .object [("jsonrpc", .str "2.0"), ("method", .str "window/logMessage"),
      ("params", .object [("type", natural m.severity.code), ("message", .str m.text)])]
  | result id v => .object [("jsonrpc", .str "2.0"), ("id", id), ("result", v)]
  | failure id code text => .object [("jsonrpc", .str "2.0"), ("id", id),
      ("error", .object [("code", .int code), ("message", .str text)])]

end Outgoing

/-- What the client sent, as far as this server takes part in it. -/
inductive Incoming where
  | request (id : Value) (r : Request)
  | notification (r : Request)
  | shutdown (id : Value)
  | unchanged
  | unknown (id : Option Value) (method : Text)

def documentUri (params : Value) : Text :=
  ((params.field "textDocument").field "uri").str?.getD []

def place? (params : Value) : Except Position.OutOfRange Place := do
  let p := params.field "position"
  let position ← Position.ofInts ((p.field "line").int?.getD 0) ((p.field "character").int?.getD 0)
  return ⟨documentUri params, position⟩

def initialization (params : Value) : Initialization where
  rootUri := (params.field "rootUri").str?
  options := params.field "initializationOptions"
  capabilities := params.field "capabilities"

def openedDocument (params : Value) : Document :=
  let d := params.field "textDocument"
  ⟨documentUri params, (d.field "text").str?.getD [], (d.field "languageId").str?⟩

/-- Of several changes the last one counts, as each brings the whole text. -/
def changedText? (params : Value) : Option Text :=
  (params.field "contentChanges").items.getLast?.map fun change =>
    (change.field "text").str?.getD []

def change (params : Value) : Incoming :=
  match changedText? params with
  | some text => .notification (.changeDocument (documentUri params) text)
  | none => .unchanged

def requestOf (id : Value) (params : Value) (make : Place → Request) :
    Except Position.OutOfRange Incoming := do
  return .request id (make (← place? params))

def incoming (m : Value) : Except Position.OutOfRange Incoming :=
  let method := (m.field "method").str?.getD []
  let params := m.field "params"
  match m.field? "id" with
  | some id =>
    if method = Text.ofString initializeMethod then
      .ok (.request id (.initialise (initialization params)))
    else if method = Text.ofString completionMethod then requestOf id params .complete
    else if method = Text.ofString helpMethod then requestOf id params .help
    else if method = Text.ofString "shutdown" then .ok (.shutdown id)
    else .ok (.unknown (some id) method)
  | none =>
    if method = Text.ofString "textDocument/didOpen" then
      .ok (.notification (.openDocument (openedDocument params)))
    else if method = Text.ofString "textDocument/didChange" then
      .ok (change params)
    else if method = Text.ofString "textDocument/didClose" then
      .ok (.notification (.closeDocument (documentUri params)))
    else .ok (.unknown none method)

def invalidParams : Int := -32602

def internalError : Int := -32603

def methodNotFound : Int := -32601

def errorCode : RequestError → Int
  | .invalidParams _ => invalidParams
  | _ => internalError

/-- An error that nobody foresaw is named by its kind. -/
def crashText (kind : String) (message : Text) : Text := kind ++ ": " ++ message

def errorText : RequestError → Text
  | .crash c => crashText c.kind c.message
  | .notOpen uri => crashText "KeyError" (Value.quoted uri)
  | .invalidParams message => message
  | .raised message => crashText "RuntimeError" message
  | .cancelled => "Request cancelled"

def reply : Reply → Value
  | .done => announcement
  | .completions list => completionList list
  | .help h => .ofOption help h

/-- A server at the end of a connection. Documents are taken note of only once it has been
initialised, and initialising forgets those it had. If it fails, the capabilities from before still
hold theirs, and the documents that come from then on are kept apart as `newer`. After a shutdown
nothing is answered. -/
structure Connection where
  server : Server := {}
  newer : Option Workspace := none
  ready : Bool := false
  stopped : Bool := false

namespace Connection

/-- An impossible root comes to light before any document is forgotten. -/
def initialise (tree : FileTree) (c : Connection) (i : Initialization) : Connection × Response :=
  let (server, response) := { c.server with workspace := .empty }.initialise tree i
  match Server.rootPath? i.rootUri, response.result with
  | .error (.host _), _ => (c, response)
  | _, .ok _ => ({ c with server := server, newer := none, ready := true }, response)
  | _, .error _ => ({ c with newer := some .empty, ready := true }, response)

def notice (tree : FileTree) (c : Connection) (r : Request) : Connection :=
  match c.newer with
  | none => { c with server := (c.server.handle tree r).1 }
  | some documents =>
    let server := ({ c.server with workspace := documents }.handle tree r).1
    { c with newer := some server.workspace }

def handle (tree : FileTree) (c : Connection) (r : Request) : Connection × Response :=
  match r with
  | .initialise i => c.initialise tree i
  | r => (c, (c.server.handle tree r).2)

def answer (tree : FileTree) (c : Connection) (id : Value) (r : Request) :
    Connection × List Outgoing :=
  let (c, response) := c.handle tree r
  let last := match response.result with
    | .ok v => Outgoing.result id (reply v)
    | .error e => .failure id (errorCode e) (errorText e)
  (c, response.logs.map .log ++ [last])

def receive (tree : FileTree) (c : Connection) (m : Value) : Connection × List Outgoing :=
  if c.stopped then (c, [])
  else
    match incoming m with
    | .error e => (c, ((m.field? "id").toList.map fun id => .failure id invalidParams e.message))
    | .ok (.request id r) => c.answer tree id r
    | .ok (.notification r) =>
      (if c.ready then c.notice tree r else c, [])
    | .ok (.shutdown id) => ({ c with stopped := true }, [.result id .null])
    | .ok .unchanged => (c, [])
    | .ok (.unknown id method) =>
      (c, id.toList.map fun id => .failure id methodNotFound ("Method Not Found: " ++ method))

end Connection

/-- What is said to the user when the server starts in debug mode. -/
def startupNotices (debug : Option String) : List String :=
  match debug with
  | none | some "" => []
  | some _ =>
    [serverName ++ " starting in DEBUG mode", "Waiting for debugger to attach on port 5678...",
      "debugpy not available - install with: poetry install --with dev"]

end CompletionServer.Wire
