import CompletionServer.Stream.Producer

namespace CompletionServer

inductive Severity where
  | error
  | warning
  | info
  | log
deriving DecidableEq

def Severity.code : Severity → Nat
  | error => 1
  | warning => 2
  | info => 3
  | log => 4

structure LogMessage where
  severity : Severity
  text : Text
deriving DecidableEq

inductive Failure where
  | documentNotFound (uri : Text)
  | raised (message : Text)
  | cancelled
deriving DecidableEq

namespace Failure

def message : Failure → Text
  | documentNotFound uri => "Document not found: " ++ uri
  | raised message => message
  | cancelled => []

end Failure

structure Report (α : Type u) where
  result : Except Failure α
  signals : Signals
  events : List Event
  logs : List LogMessage

namespace Report

variable {α : Type u}

/-- A task that ends with an answer although its cancellation is still pending counts as
cancelled; a failure of its own comes first. -/
def settle (r : Report α) : Report α :=
  match r.result with
  | .ok _ => if r.signals.task then { r with result := .error .cancelled } else r
  | .error _ => r

end Report

end CompletionServer
