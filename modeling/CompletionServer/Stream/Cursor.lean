import CompletionServer.Stream.Producer

namespace CompletionServer

inductive Phase where
  | fresh
  | suspended
  | finished
deriving DecidableEq

structure Cursor where
  producer : Producer
  phase : Phase
  rest : List Step

inductive Halt where
  | yielded (s : Suggestion)
  | ended
  | raised (message : Text)
  | interrupted
deriving DecidableEq

structure Run where
  halt : Halt
  rest : List Step
  signals : Signals
  events : List Event

/-- Runs a script up to its next suggestion. The task is suspended where the script awaits, and a
cancellation of the task that is pending then strikes. -/
def Producer.run (p : Producer) (signals : Signals) : List Step → Run
  | [] => ⟨.ended, [], signals, p.trace .ended⟩
  | .suggest s :: rest => ⟨.yielded s, rest, signals, p.trace (.yielded s.name)⟩
  | .act (.raise message) :: rest =>
    ⟨.raised message, rest, signals, p.trace (.acted (.raise message))⟩
  | .act .cancelToken :: rest =>
    let r := p.run signals.cancelToken rest
    { r with events := p.trace (.acted .cancelToken) ++ r.events }
  | .act .cancelTask :: rest =>
    let r := p.run signals.cancelTask rest
    { r with events := p.trace (.acted .cancelTask) ++ r.events }
  | .act .await :: rest =>
    if signals.suspend.task then
      ⟨.interrupted, rest, signals.suspend.strike, p.trace (.acted .await)⟩
    else
      let r := p.run signals.suspend rest
      { r with events := p.trace (.acted .await) ++ r.events }

namespace Cursor

def ofProducer (p : Producer) : Cursor := ⟨p, .fresh, p.script⟩

def phaseAfter (flavor : Flavor) : Halt → Phase
  | .yielded _ => .suspended
  | .ended => .finished
  | .raised _ | .interrupted => if flavor.closable then .finished else .suspended

/-- What a producer says about its search if it ends now: one that is already finished, by failing
or by being closed, has no verdict to give. -/
def completeAtEnd (c : Cursor) : Bool :=
  c.phase = .finished || c.producer.flavor.complete

structure Advance where
  halt : Halt
  cursor : Cursor
  signals : Signals
  events : List Event

def advance (c : Cursor) (signals : Signals) : Advance :=
  match c.phase with
  | .finished => ⟨.ended, c, signals, []⟩
  | _ =>
    let r := c.producer.run signals c.rest
    ⟨r.halt, ⟨c.producer, phaseAfter c.producer.flavor r.halt, r.rest⟩, r.signals, r.events⟩

/-- Closing is noticed only by a producer that waits at a suggestion. -/
def close (c : Cursor) : Cursor × List Event :=
  if c.producer.flavor.closable then
    ({ c with phase := .finished },
      if c.phase = .suspended then c.producer.trace .closed else [])
  else (c, [])

end Cursor

end CompletionServer
