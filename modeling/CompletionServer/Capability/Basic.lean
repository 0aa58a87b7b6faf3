import CompletionServer.Help.Service

namespace CompletionServer

structure FixedCompletion where
  name : Text
  labels : List Text
  incomplete : Bool
  cancels : Bool

structure FixedHelp where
  name : Text
  label : Option Text

inductive Capability where
  | completion (service : CompletionService)
  | help (service : HelpService)
  | fixedCompletion (c : FixedCompletion)
  | fixedHelp (c : FixedHelp)

namespace Capability

def name : Capability → Text
  | completion _ => "completion"
  | help _ => "signature_help"
  | fixedCompletion c => c.name
  | fixedHelp c => c.name

def description : Capability → String
  | completion _ => "Complete PHP code from the completor registered for the document language"
  | help _ => "Show the signature of the function being called"
  | fixedCompletion _ | fixedHelp _ => "fixed"

inductive Feature where
  | completion
  | help
deriving DecidableEq

def feature : Capability → Feature
  | completion _ | fixedCompletion _ => .completion
  | help _ | fixedHelp _ => .help

/-- What a fixed capability notes. -/
inductive Note where
  | registered (name : Text)
  | completed (name : Text) (cancelled : Bool)
  | helped (name : Text)
deriving DecidableEq

def Note.render : Note → Text
  | registered name => "register " ++ name
  | completed name cancelled =>
    "complete " ++ name ++ " cancelled=" ++ if cancelled then "true" else "false"
  | helped name => "signature " ++ name

def registration : Capability → List Note
  | fixedCompletion c => [.registered c.name]
  | fixedHelp c => [.registered c.name]
  | completion _ | help _ => []

structure Answer (α : Type u) where
  report : Report α
  notes : List Note

def complete? (workspace : Workspace) (place : Place) (signals : Signals) :
    Capability → Option (Answer CompletionList)
  | completion service => some ⟨service.complete workspace place signals, []⟩
  | fixedCompletion c =>
    let list := ⟨c.incomplete, c.labels.map fun l => { label := l }⟩
    let after := if c.cancels then { signals with token := true } else signals
    some ⟨⟨.ok list, after, [], []⟩, [.completed c.name signals.token]⟩
  | help _ | fixedHelp _ => none

end Capability

end CompletionServer
