namespace CompletionServer

/-- What others cancel during one suspension of the task. -/
structure Arrival where
  token : Bool := false
  task : Bool := false
deriving DecidableEq

/-- `token` tells whether the request's token is cancelled. Producers normally cancel that one;
with a `detached` token they can reach only another, which the request does not look at. `coming`
holds what others do during the suspensions of the task that are still ahead. -/
structure Signals where
  token : Bool := false
  detached : Option Bool := none
  task : Bool := false
  coming : List Arrival := []
deriving DecidableEq

namespace Signals

/-- The signals of a request that is, or is not, handed the token that producers cancel. -/
def forRequest (handed cancelled : Bool) : Signals :=
  if handed then { token := cancelled } else { detached := some cancelled }

def producerToken (s : Signals) : Bool := s.detached.getD s.token

/-- What a producer, or anyone else outside the request, does when it cancels the token. -/
def cancelToken (s : Signals) : Signals :=
  match s.detached with
  | none => { s with token := true }
  | some _ => { s with detached := some true }

/-- A second cancellation before the first has struck changes nothing. -/
def cancelTask (s : Signals) : Signals := { s with task := true }

def arrive (s : Signals) (a : Arrival) : Signals :=
  let s := if a.token then s.cancelToken else s
  if a.task then s.cancelTask else s

def suspend (s : Signals) : Signals :=
  match s.coming with
  | [] => s
  | a :: rest => { s with coming := rest }.arrive a

/-- The cancellation has struck; the request takes it as a cancellation of its token. -/
def accept (s : Signals) : Signals := { s with token := true, task := false }

def strike (s : Signals) : Signals := { s with task := false }

end Signals

end CompletionServer
