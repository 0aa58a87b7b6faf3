import CompletionServer.Capability.Basic

namespace CompletionServer

structure Group where
  capabilities : Dictionary Capability
  registered : Bool := false

namespace Group

open Capability

/-- Registers every capability, the first time only. -/
def register (g : Group) : Group × List Note :=
  if g.registered then (g, [])
  else ({ g with registered := true }, g.capabilities.values.flatMap Capability.registration)

def find? (g : Group) (name : Text) : Option Capability :=
  g.capabilities.get? name

def withFeature (g : Group) (f : Feature) : List Capability :=
  g.capabilities.values.filter (·.feature = f)

/-- Asks the capabilities in order and joins their lists. The signals are handed on from each to
the next; the first failure ends the request. -/
def completeAll (workspace : Workspace) (place : Place) (signals : Signals) :
    List Capability → Answer CompletionList
  | [] => ⟨⟨.ok ⟨false, []⟩, signals, [], []⟩, []⟩
  | c :: rest =>
    match c.complete? workspace place signals with
    | none => completeAll workspace place signals rest
    | some first =>
      match first.report.result with
      | .error _ => first
      | .ok list =>
        let others := completeAll workspace place first.report.signals rest
        let joined := others.report.result.map fun more =>
          ⟨list.isIncomplete || more.isIncomplete, list.items ++ more.items⟩
        ⟨⟨joined, others.report.signals, first.report.events ++ others.report.events,
          first.report.logs ++ others.report.logs⟩, first.notes ++ others.notes⟩

def complete (g : Group) (workspace : Workspace) (place : Place) (signals : Signals) :
    Answer CompletionList :=
  let a := completeAll workspace place signals g.capabilities.values
  { a with report := a.report.settle }

structure HelpAnswer where
  result : Except Failure (Option Help)
  notes : List Note

def helpFirst (workspace : Workspace) (place : Place) : List Capability → HelpAnswer
  | [] => ⟨.ok none, []⟩
  | .help service :: rest =>
    match (service.help workspace place).result with
    | .ok none => helpFirst workspace place rest
    | answer => ⟨answer, []⟩
  | .fixedHelp c :: rest =>
    match c.label with
    | some label => ⟨.ok (some (.ofLabel label)), [.helped c.name]⟩
    | none =>
      let others := helpFirst workspace place rest
      { others with notes := .helped c.name :: others.notes }
  | .completion _ :: rest | .fixedCompletion _ :: rest => helpFirst workspace place rest

def help (g : Group) (workspace : Workspace) (place : Place) : HelpAnswer :=
  helpFirst workspace place g.capabilities.values

end Group

end CompletionServer
