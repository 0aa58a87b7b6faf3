import CompletionServer.Stream.Remaining

namespace CompletionServer

inductive Ending where
  | cancelled
  | stopped
  | failed (message : Text)
deriving DecidableEq

structure Collected where
  items : List Suggestion
  ending : Ending
  stream : Stream
  signals : Signals
  events : List Event

namespace Signals

/-- The task is suspended for a moment, and takes a cancellation that strikes then for one of its
token. -/
def afterSuspension (s : Signals) : Signals :=
  if s.suspend.task then s.suspend.accept else s.suspend

end Signals

namespace Stream

def collect (signals : Signals) (s : Stream) : Collected :=
  if signals.token then ⟨[], .cancelled, s, signals, []⟩
  else
    let r := s.pull signals
    match h : r.outcome with
    | .item x =>
      have := remaining_pull_lt h
      let c := collect r.signals.afterSuspension r.stream
      { c with items := x :: c.items, events := r.events ++ c.events }
    | .stop => ⟨[], .stopped, r.stream, r.signals, r.events⟩
    | .failed message => ⟨[], .failed message, r.stream, r.signals, r.events⟩
    | .cancelled => ⟨[], .cancelled, r.stream, r.signals.accept, r.events⟩
termination_by s.remaining

end Stream

end CompletionServer
