import CompletionServer.Stream.Remaining

namespace CompletionServer

/-- `outcome` is what came instead of a further suggestion. -/
structure Drained where
  items : List Suggestion
  outcome : Outcome
  stream : Stream
  signals : Signals
  events : List Event

namespace Stream

def drain (signals : Signals) (s : Stream) : Drained :=
  let r := s.pull signals
  match h : r.outcome with
  | .item x =>
    have := remaining_pull_lt h
    let d := drain r.signals r.stream
    { d with items := x :: d.items, events := r.events ++ d.events }
  | outcome => ⟨[], outcome, r.stream, r.signals, r.events⟩
termination_by s.remaining

end Stream

end CompletionServer
