import CompletionServer.Source
import CompletionServer.Stream.Signals
import CompletionServer.Suggestion
import CompletionServer.Value.Basic

namespace CompletionServer

inductive Action where
  | raise (message : Text)
  | cancelToken
  | cancelTask
  | await
deriving DecidableEq

def Action.name : Action → String
  | raise _ => "raise"
  | cancelToken => "cancel_token"
  | cancelTask => "cancel_task"
  | await => "await"

inductive Step where
  | suggest (s : Suggestion)
  | act (a : Action)
deriving DecidableEq

/-- Ways to produce. A `fixed` producer is a list made beforehand. A `generator` and an
`asynchronous` one can be closed and are done for once they have failed. A `resumable` one cannot
be closed and goes on after a failure. The verdict is what the producer reports about its search:
null or anything that counts as yes means that nothing was left out. -/
inductive Flavor where
  | fixed
  | generator (verdict : Value)
  | asynchronous
  | resumable (verdict : Value)

namespace Flavor

def closable : Flavor → Bool
  | generator _ | asynchronous => true
  | fixed | resumable _ => false

def saysComplete (verdict : Value) : Bool :=
  verdict.isNull || verdict.truthy

/-- Whether a producer that has come to its end left nothing out. -/
def complete : Flavor → Bool
  | generator verdict | resumable verdict => saysComplete verdict
  | fixed | asynchronous => true

end Flavor

inductive Happening where
  | opened (source : Source) (offset : Int)
  | yielded (name : Text)
  | acted (a : Action)
  | ended
  | closed
deriving DecidableEq

def Happening.text : Happening → Text
  | opened _ offset => "open@" ++ .ofInt offset
  | yielded name => "yield " ++ name
  | acted a => a.name
  | ended => "end"
  | closed => "closed"

structure Event where
  producer : Text
  happening : Happening
deriving DecidableEq

namespace Event

def render (e : Event) : Text :=
  e.producer ++ ":" ++ e.happening.text

end Event

/-- A producer without an identity leaves no trace. -/
structure Producer where
  id : Option Text
  flavor : Flavor
  script : List Step

namespace Producer

def silent (suggestions : List Suggestion) : Producer :=
  ⟨none, .generator .null, suggestions.map .suggest⟩

def note (p : Producer) (h : Happening) : List Event :=
  match p.id with
  | none => []
  | some id => [⟨id, h⟩]

/-- A list made beforehand is not seen at work. -/
def trace (p : Producer) (h : Happening) : List Event :=
  match p.flavor with
  | .fixed => []
  | _ => p.note h

end Producer

end CompletionServer
