import CompletionServer.Stream.Drain

namespace CompletionServer

/-- A scoped use of a stream asks it once and closes it whatever came of that. -/
inductive Operation where
  | next
  | drain
  | close
  | scoped
deriving DecidableEq

/-- The suggestions handed out, what came of the last pull if there was one, and whether the stream
calls itself complete afterwards. -/
structure Observation where
  items : List Suggestion
  outcome : Option Outcome
  events : List Event
  complete : Bool
deriving DecidableEq

structure Performed where
  observation : Observation
  stream : Stream
  signals : Signals

namespace Outcome

def items : Outcome → List Suggestion
  | item s => [s]
  | _ => []

end Outcome

namespace Stream

def perform (signals : Signals) (s : Stream) : Operation → Performed
  | .next =>
    let r := s.pull signals
    ⟨⟨r.outcome.items, some r.outcome, r.events, r.stream.isComplete⟩, r.stream, r.signals⟩
  | .drain =>
    let d := s.drain signals
    ⟨⟨d.items, some d.outcome, d.events, d.stream.isComplete⟩, d.stream, d.signals⟩
  | .close => ⟨⟨[], none, s.close.2, s.close.1.isComplete⟩, s.close.1, signals⟩
  | .scoped =>
    let r := s.pull signals
    let closed := r.stream.close
    ⟨⟨r.outcome.items, some r.outcome, r.events ++ closed.2, closed.1.isComplete⟩, closed.1,
      r.signals⟩

def observe (signals : Signals) (s : Stream) : List Operation → List Observation
  | [] => []
  | o :: rest =>
    let p := s.perform signals o
    p.observation :: observe p.signals p.stream rest

end Stream

end CompletionServer
