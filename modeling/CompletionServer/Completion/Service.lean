import CompletionServer.Completer
import CompletionServer.Completion.Collect
import CompletionServer.Completion.Item
import CompletionServer.Registry
import CompletionServer.Report
import CompletionServer.Workspace

namespace CompletionServer

structure CompletionService where
  registry : Registry Completer
  options : ItemOptions
  defaultLanguage : Text

structure Place where
  uri : Text
  position : Position
deriving DecidableEq

namespace CompletionService

/-- Cancelled requests are incomplete; others ask the stream. -/
def isIncomplete (c : Collected) : Bool :=
  match c.ending with
  | .cancelled => true
  | _ => !c.stream.isComplete

def summary (uri : Text) (list : CompletionList) : LogMessage :=
  ⟨.log, "Completion for " ++ uri ++ ": " ++ .ofInt list.items.length ++ " items" ++
    if list.isIncomplete then " (incomplete)" else ""⟩

/-- Runs a search in a document. The stream is closed before the answer is given. -/
def run (service : CompletionService) (document : Document) (language : Text)
    (completer : Completer) (position : Position) (signals : Signals) : Report CompletionList :=
  let table := LineTable.ofText document.text
  let started := completer.start ⟨document.uri, document.text, language⟩ (table.offsetOf position)
  let c := started.stream.collect signals
  let events := started.events ++ c.events ++ c.stream.close.2
  match c.ending with
  | .failed message => ⟨.error (.raised message), c.signals, events, []⟩
  | _ =>
    let list := ⟨isIncomplete c, c.items.map (Suggestion.item service.options table)⟩
    ⟨.ok list, c.signals, events, [summary document.uri list]⟩

/-- A language without a completer gets an empty list and a warning. -/
def complete (service : CompletionService) (workspace : Workspace) (place : Place)
    (signals : Signals) : Report CompletionList :=
  match workspace.get? place.uri with
  | none => ⟨.error (.documentNotFound place.uri), signals, [], []⟩
  | some document =>
    let language := document.languageOr service.defaultLanguage
    match service.registry.find language with
    | .error e => ⟨.ok ⟨false, []⟩, signals, [], [⟨.warning, e.message⟩]⟩
    | .ok completer => service.run document language completer place.position signals

/-- A request of its own, as a task that may have been cancelled. -/
def request (service : CompletionService) (workspace : Workspace) (place : Place)
    (signals : Signals) : Report CompletionList :=
  (service.complete workspace place signals).settle

end CompletionService

end CompletionServer
