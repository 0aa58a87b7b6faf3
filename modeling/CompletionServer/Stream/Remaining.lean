import CompletionServer.Stream.Basic

namespace CompletionServer

mutual

def Stream.remaining : Stream → Nat
  | .leaf _ c => c.rest.length
  | .wrapped _ inner => inner.remaining
  | .limited _ _ _ inner => inner.remaining
  | .chained _ _ members => members.remaining

def Members.remaining : Members → Nat
  | .nil => 0
  | .cons _ head tail => head.remaining + tail.remaining

end

def Outcome.count : Outcome → Nat
  | item _ => 1
  | _ => 0

theorem Producer.run_uses (p : Producer) (signals : Signals) (steps : List Step) :
    (p.run signals steps).rest.length + (p.run signals steps).halt.outcome.count ≤
      steps.length := by
  fun_induction Producer.run p signals steps <;> grind [Halt.outcome, Outcome.count]

theorem Cursor.advance_uses (c : Cursor) (signals : Signals) :
    (c.advance signals).cursor.rest.length + (c.advance signals).halt.outcome.count ≤
      c.rest.length := by
  unfold advance
  split
  · exact Nat.le_refl _
  · exact c.producer.run_uses signals c.rest

theorem Cursor.rest_close (c : Cursor) : c.close.1.rest = c.rest := by
  unfold close; split <;> rfl

namespace Stream

theorem remaining_close_le (s : Stream) : s.close.1.remaining ≤ s.remaining := by
  fun_induction close s with
  | case1 p c c' events h => simp [remaining, ← c.rest_close, h]
  | _ => simp_all [remaining, Members.remaining]

mutual

theorem pull_uses (signals : Signals) (s : Stream) :
    (s.pull signals).stream.remaining + (s.pull signals).outcome.count ≤ s.remaining := by
  match s with
  | leaf p c =>
    have := c.advance_uses signals
    unfold pull; split
    · simp [Outcome.count]
    · simpa [remaining] using this
  | wrapped p inner =>
    have := pull_uses signals inner
    unfold pull; split
    · simp [Outcome.count]
    · simpa [wrapPull, remaining] using this
  | limited p limit taken inner =>
    have := pull_uses signals inner
    have := remaining_close_le (inner.pull signals).stream
    unfold pull; split
    · simp [Outcome.count]
    · -- A suggestion too many is dropped, but it has been taken from what is left.
      simp only [limitPull]
      repeat' split
      all_goals simp_all [remaining, Outcome.count]
      omega
  | chained p allComplete members =>
    have := pullMembers_uses signals allComplete members
    unfold pull; split
    · simp [Outcome.count]
    · simpa [chainPull, remaining] using this

theorem pullMembers_uses (signals : Signals) (allComplete : Bool) (ms : Members) :
    (pullMembers signals allComplete ms).members.remaining +
      (pullMembers signals allComplete ms).outcome.count ≤ ms.remaining := by
  match ms with
  | .nil => simp [pullMembers, Outcome.count]
  | .cons waiting head tail =>
    have := pull_uses signals head
    have := pullMembers_uses (head.pull signals).signals
      (allComplete && (head.pull signals).stream.isComplete) tail
    simp only [pullMembers]
    split
    all_goals simp_all only [Members.remaining, Outcome.count]
    all_goals omega

end

theorem remaining_pull_lt {signals : Signals} {s : Stream} {x : Suggestion}
    (h : (s.pull signals).outcome = .item x) :
    (s.pull signals).stream.remaining < s.remaining := by
  have := pull_uses signals s
  rw [h, Outcome.count] at this
  omega

end Stream

end CompletionServer
