import CompletionServer.Stream.Cursor

namespace CompletionServer

/-- Whether a stream is finished, and whether it is known to have left anything out. -/
structure Progress where
  exhausted : Bool := false
  complete : Bool := true
deriving DecidableEq

mutual

inductive Stream where
  | leaf (progress : Progress) (cursor : Cursor)
  | wrapped (progress : Progress) (inner : Stream)
  | limited (progress : Progress) (limit taken : Nat) (inner : Stream)
  | chained (progress : Progress) (allComplete : Bool) (members : Members)

/-- What is left of a chain. A member that waits to be opened holds what opening it brings about. -/
inductive Members where
  | nil
  | cons (waiting : Option (List Event)) (head : Stream) (tail : Members)

end

inductive Outcome where
  | item (s : Suggestion)
  | stop
  | failed (message : Text)
  | cancelled
deriving DecidableEq

def Halt.outcome : Halt → Outcome
  | yielded s => .item s
  | ended => .stop
  | raised message => .failed message
  | interrupted => .cancelled

structure Pull where
  outcome : Outcome
  stream : Stream
  signals : Signals
  events : List Event

structure MembersPull where
  outcome : Outcome
  allComplete : Bool
  members : Members
  signals : Signals
  events : List Event

namespace Stream

def progress : Stream → Progress
  | leaf p _ | wrapped p _ | limited p _ _ _ | chained p _ _ => p

def isComplete (s : Stream) : Bool := s.progress.complete

/-- Releases the producer that is at work. -/
def close : Stream → Stream × List Event
  | leaf p c =>
    let (c, events) := c.close
    (leaf { p with exhausted := true } c, events)
  | wrapped p inner =>
    let (inner, events) := inner.close
    (wrapped { p with exhausted := true } inner, events)
  | limited p limit taken inner =>
    let (inner, events) := inner.close
    (limited { p with exhausted := true } limit taken inner, events)
  | chained p allComplete (.cons none head tail) =>
    (chained { p with exhausted := true } allComplete tail, head.close.2)
  | chained p allComplete members => (chained { p with exhausted := true } allComplete members, [])

def wrapPull (p : Progress) (r : Pull) : Pull :=
  { r with
    stream := wrapped (if r.outcome = .stop then ⟨true, r.stream.isComplete⟩ else p) r.stream }

/-- A pull on a limited stream, from the pull on what it limits. A suggestion too many shows that
something is left out; it is dropped and the stream is closed. -/
def limitPull (p : Progress) (limit taken : Nat) (r : Pull) : Pull :=
  match r.outcome with
  | .item s =>
    if limit ≤ taken then
      ⟨.stop, limited ⟨true, false⟩ limit taken r.stream.close.1, r.signals,
        r.events ++ r.stream.close.2⟩
    else ⟨.item s, limited p limit (taken + 1) r.stream, r.signals, r.events⟩
  | .stop => { r with stream := limited ⟨true, r.stream.isComplete⟩ limit taken r.stream }
  | _ => { r with stream := limited p limit taken r.stream }

def chainPull (p : Progress) (r : MembersPull) : Pull :=
  ⟨r.outcome,
    chained (if r.outcome = .stop then ⟨true, r.allComplete⟩ else p) r.allComplete r.members,
    r.signals, r.events⟩

mutual

def pull (signals : Signals) : Stream → Pull
  | leaf p c =>
    if p.exhausted then ⟨.stop, leaf p c, signals, []⟩
    else
      let r := c.advance signals
      ⟨r.halt.outcome, leaf (if r.halt = .ended then ⟨true, c.completeAtEnd⟩ else p) r.cursor,
        r.signals, r.events⟩
  | wrapped p inner =>
    if p.exhausted then ⟨.stop, wrapped p inner, signals, []⟩
    else wrapPull p (pull signals inner)
  | limited p limit taken inner =>
    if p.exhausted then ⟨.stop, limited p limit taken inner, signals, []⟩
    else limitPull p limit taken (pull signals inner)
  | chained p allComplete members =>
    if p.exhausted then ⟨.stop, chained p allComplete members, signals, []⟩
    else chainPull p (pullMembers signals allComplete members)

/-- Asks the members in turn until one does not stop. -/
def pullMembers (signals : Signals) (allComplete : Bool) : Members → MembersPull
  | .nil => ⟨.stop, allComplete, .nil, signals, []⟩
  | .cons waiting head tail =>
    let r := pull signals head
    let events := waiting.getD [] ++ r.events
    if r.outcome = .stop then
      let rest := pullMembers r.signals (allComplete && r.stream.isComplete) tail
      { rest with events := events ++ r.stream.close.2 ++ rest.events }
    else ⟨r.outcome, allComplete, .cons none r.stream tail, r.signals, events⟩

end

end Stream

end CompletionServer
