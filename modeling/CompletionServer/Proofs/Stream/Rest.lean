import CompletionServer.Proofs.Stream.Laws

namespace CompletionServer

namespace Cursor

variable {c : Cursor}

theorem close_of_finished (h : c.phase = .finished) : c.close = (c, []) := by
  obtain ⟨producer, phase, rest⟩ := c
  obtain rfl : phase = .finished := h
  unfold close
  split
  · simp
  · rfl

theorem close_of_not_closable (h : c.producer.flavor.closable = false) : c.close = (c, []) := by
  simp [close, h]

theorem close_close (c : Cursor) : c.close.1.close = (c.close.1, []) := by
  cases hc : c.producer.flavor.closable with
  | false =>
    have hnone := close_of_not_closable hc
    rw [hnone, hnone]
  | true =>
    apply close_of_finished
    simp [close, hc]

/-- There is nothing to close in a producer that has come to its end. -/
theorem close_advance_of_ended {signals : Signals} (h : (c.advance signals).halt = .ended) :
    (c.advance signals).cursor.close = ((c.advance signals).cursor, []) := by
  apply close_of_finished
  by_cases hf : c.phase = .finished
  · rw [advance_of_finished hf]
    exact hf
  · rw [advance_of_ne_finished hf] at h ⊢
    simp only at h
    simp [Producer.cursorAfter, phaseAfter, h]

end Cursor

/-- The stream stops at once when it is pulled, and neither this nor closing it changes anything. -/
structure Stream.AtRest (s : Stream) : Prop where
  pull_eq : ∀ signals, s.pull signals = ⟨.stop, s, signals, []⟩
  close_eq : s.close = (s, [])

mutual

/-- In whatever is finished there is nothing left to close, and only the first member of a chain may
have been opened. -/
def Stream.Settled : Stream → Prop
  | .leaf p c => p.exhausted = true → c.close = (c, [])
  | .wrapped p inner => inner.Settled ∧ (p.exhausted = true → inner.progress.exhausted = true)
  | .limited p _ _ inner => inner.Settled ∧ (p.exhausted = true → inner.progress.exhausted = true)
  | .chained p _ members => members.Settled ∧ (p.exhausted = true → members.Waiting)

def Members.Settled : Members → Prop
  | .nil => True
  | .cons _ head tail => head.Settled ∧ tail.Waiting ∧ tail.Settled

end

theorem Progress.eq_of_exhausted {p : Progress} (h : p.exhausted = true) :
    ⟨true, p.complete⟩ = p := by
  rw [← h]

namespace Stream

variable {p : Progress}

theorem Settled.close_eq {s : Stream} (h : s.Settled) (hs : s.progress.exhausted = true) :
    s.close = (s, []) := by
  match s with
  | leaf p c =>
    have hp : p.exhausted = true := hs
    rw [close, h hp, Progress.eq_of_exhausted hp]
  | wrapped p inner =>
    have hp : p.exhausted = true := hs
    rw [close, Settled.close_eq h.1 (h.2 hp), Progress.eq_of_exhausted hp]
  | limited p limit taken inner =>
    have hp : p.exhausted = true := hs
    rw [close, Settled.close_eq h.1 (h.2 hp), Progress.eq_of_exhausted hp]
  | chained p allComplete members =>
    have hp : p.exhausted = true := hs
    rw [close_of_waiting (h.2 hp), Progress.eq_of_exhausted hp]

theorem Settled.atRest {s : Stream} (h : s.Settled) (hs : s.progress.exhausted = true) :
    s.AtRest :=
  ⟨pull_of_exhausted hs, h.close_eq hs⟩

theorem close_settled {s : Stream} (h : s.Settled) : s.close.1.Settled := by
  match s with
  | leaf p c => exact fun _ => c.close_close
  | wrapped p inner => exact ⟨close_settled h.1, fun _ => inner.exhausted_close⟩
  | limited p limit taken inner => exact ⟨close_settled h.1, fun _ => inner.exhausted_close⟩
  | chained p allComplete .nil => exact ⟨trivial, fun _ => trivial⟩
  | chained p allComplete (.cons none head tail) =>
    -- The member at work is dropped, and the others have not been opened.
    exact ⟨h.1.2.2, fun _ => h.1.2.1⟩
  | chained p allComplete (.cons (some events) head tail) => exact ⟨h.1, fun _ => ⟨rfl, h.1.2.1⟩⟩

theorem leaf_pull_settled (hp : p.exhausted = false) (signals : Signals) (c : Cursor) :
    ((leaf p c).pull signals).stream.Settled := by
  rw [pull_leaf hp]
  intro hexhausted
  exact Cursor.close_advance_of_ended (Progress.of_exhausted_ite hp hexhausted)

theorem wrapPull_settled (hp : p.exhausted = false) {r : Pull} (hr : r.stream.Settled)
    (hstop : r.outcome = .stop → r.stream.progress.exhausted = true) :
    (wrapPull p r).stream.Settled := by
  refine ⟨hr, ?_⟩
  intro hexhausted
  exact hstop (Progress.of_exhausted_ite hp hexhausted)

theorem limitPull_settled (hp : p.exhausted = false) (limit taken : Nat) {r : Pull}
    (hr : r.stream.Settled) (hstop : r.outcome = .stop → r.stream.progress.exhausted = true) :
    (limitPull p limit taken r).stream.Settled := by
  unfold limitPull
  split
  · split
    · exact ⟨close_settled hr, fun _ => r.stream.exhausted_close⟩
    · exact ⟨hr, by simp [hp]⟩
  next h => exact ⟨hr, fun _ => hstop h⟩
  next => exact ⟨hr, by simp [hp]⟩

theorem chainPull_settled (hp : p.exhausted = false) {r : MembersPull} (hr : r.members.Settled)
    (hstop : r.outcome = .stop → r.members = .nil) : (chainPull p r).stream.Settled := by
  refine ⟨hr, ?_⟩
  intro hexhausted
  have hnil := hstop (Progress.of_exhausted_ite hp hexhausted)
  show r.members.Waiting
  rw [hnil]
  trivial

mutual

theorem pull_settled (signals : Signals) {s : Stream} (h : s.Settled) :
    (s.pull signals).stream.Settled := by
  by_cases hs : s.progress.exhausted = true
  · rw [pull_of_exhausted hs]
    exact h
  · match s with
    | leaf p c => exact leaf_pull_settled (eq_false_of_ne_true hs) signals c
    | wrapped p inner =>
      have hp : p.exhausted = false := eq_false_of_ne_true hs
      rw [pull_wrapped hp]
      exact wrapPull_settled hp (pull_settled signals h.1) exhausted_of_stop
    | limited p limit taken inner =>
      have hp : p.exhausted = false := eq_false_of_ne_true hs
      rw [pull_limited hp]
      exact limitPull_settled hp limit taken (pull_settled signals h.1) exhausted_of_stop
    | chained p allComplete members =>
      have hp : p.exhausted = false := eq_false_of_ne_true hs
      rw [pull_chained hp]
      exact chainPull_settled hp (pullMembers_settled signals allComplete h.1) members_of_stop

theorem pullMembers_settled (signals : Signals) (allComplete : Bool) {ms : Members}
    (h : ms.Settled) : (pullMembers signals allComplete ms).members.Settled := by
  match ms with
  | .nil => trivial
  | .cons waiting head tail =>
    rw [pullMembers]
    split
    · exact pullMembers_settled _ _ h.2.2
    · exact ⟨pull_settled signals h.1, h.2⟩

end

end Stream

def Operation.idle (complete : Bool) : Operation → Observation
  | .close => ⟨[], none, [], complete⟩
  | .next | .drain | .scoped => ⟨[], some .stop, [], complete⟩

namespace Stream

variable {s : Stream}

theorem AtRest.perform_eq (h : s.AtRest) (signals : Signals) (o : Operation) :
    s.perform signals o = ⟨o.idle s.isComplete, s, signals⟩ := by
  have hdrain : s.drain signals = ⟨[], .stop, s, signals, []⟩ := by
    rw [drain_of_not_item (by simp [h.pull_eq]), h.pull_eq]
  match o with
  | .next => simp [perform, h.pull_eq, Outcome.items, Operation.idle]
  | .drain => simp [perform, hdrain, Operation.idle]
  | .close => simp [perform, h.close_eq, Operation.idle]
  | .scoped => simp [perform, h.pull_eq, h.close_eq, Outcome.items, Operation.idle]

theorem AtRest.observe_eq (h : s.AtRest) (signals : Signals) (ops : List Operation) :
    s.observe signals ops = ops.map (Operation.idle s.isComplete) := by
  induction ops with
  | nil => rfl
  | cons o ops ih => rw [observe, h.perform_eq, ih, List.map_cons]

theorem drain_settled (signals : Signals) {s : Stream} (h : s.Settled) :
    (s.drain signals).stream.Settled := by
  fun_induction Stream.drain signals s with
  | case1 signals s r x ho this d ih => exact ih (pull_settled signals h)
  | case2 signals s r hne => exact pull_settled signals h

theorem perform_settled (signals : Signals) (h : s.Settled) (o : Operation) :
    (s.perform signals o).stream.Settled := by
  match o with
  | .next => exact pull_settled signals h
  | .drain => exact drain_settled signals h
  | .close => exact close_settled h
  | .scoped => exact close_settled (pull_settled signals h)

theorem complete_perform (signals : Signals) (s : Stream) (o : Operation) :
    (s.perform signals o).observation.complete = (s.perform signals o).stream.isComplete := by
  cases o <;> rfl

/-- Behind an operation that finishes the stream, all that is seen is a stream at rest. -/
theorem Settled.observe_of_finished (h : s.Settled) {signals : Signals} {ops : List Operation}
    {k : Nat} {o : Operation} {b : Observation} (ho : ops[k]? = some o)
    (hb : (s.observe signals ops)[k]? = some b)
    (hlast : o = .close ∨ o = .scoped ∨ b.outcome = some .stop) :
    (s.observe signals ops).drop (k + 1) = (ops.drop (k + 1)).map (Operation.idle b.complete) := by
  induction ops generalizing s signals k with
  | nil => cases ho
  | cons o' ops ih =>
    have hnext := perform_settled signals h o'
    rw [observe] at hb ⊢
    cases k with
    | zero =>
      obtain rfl : o' = o := by simpa using ho
      obtain rfl : (s.perform signals o').observation = b := by simpa using hb
      have hrest := hnext.atRest (perform_finishes hlast)
      rw [complete_perform]
      exact hrest.observe_eq _ ops
    | succ k => exact ih hnext (by simpa using ho) (by simpa using hb)

end Stream

namespace Completer

variable (source : Source) (offset : Int)

mutual

theorem settled_start (c : Completer) : (c.start source offset).stream.Settled := by
  match c with
  | produced p => exact nofun
  | phpKeywords => exact nofun
  | phpVariables => exact nofun
  | empty => exact nofun
  | wrap inner => exact ⟨settled_start inner, nofun⟩
  | limit n inner => exact ⟨settled_start inner, nofun⟩
  | chain members => exact ⟨settled_startAll members, nofun⟩

theorem settled_startAll (cs : List Completer) : (startAll source offset cs).Settled := by
  match cs with
  | [] => trivial
  | c :: rest =>
    exact ⟨settled_start c, waiting_startAll source offset rest, settled_startAll rest⟩

end

end Completer

theorem Start.Ran.settled {a : Start} {s : Stream} {t : List Event} (h : a.Ran s t)
    (ha : a.stream.Settled) : s.Settled := by
  induction h with
  | start => exact ha
  | pull signals _ ih => exact Stream.pull_settled signals ih
  | close _ ih => exact Stream.close_settled ih

/-- Wherever a search has come to, a pull that stops leaves it at rest, and so does closing it,
which does not touch its verdict. So in a course of operations nothing is seen but stops behind an
operation that the stream stops in or is closed by, and the verdict stays as it was then. -/
theorem Completer.finished_stays_finished (source : Source) (offset : Int) (c : Completer) :
    (∀ s t, (c.start source offset).Ran s t →
      (∀ signals, (s.pull signals).outcome = .stop → (s.pull signals).stream.AtRest) ∧
      s.close.1.AtRest ∧ s.close.1.isComplete = s.isComplete) ∧
    ∀ signals ops k o b, ops[k]? = some o →
      ((c.start source offset).stream.observe signals ops)[k]? = some b →
      (o = .close ∨ o = .scoped ∨ b.outcome = some .stop) →
      ((c.start source offset).stream.observe signals ops).drop (k + 1) =
        (ops.drop (k + 1)).map (Operation.idle b.complete) := by
  have hstart := c.settled_start source offset
  constructor
  · intro s t hran
    have hs := hran.settled hstart
    refine ⟨fun signals hstop => ?_, ?_, ?_⟩
    · exact (Stream.pull_settled signals hs).atRest (Stream.exhausted_of_stop hstop)
    · exact (Stream.close_settled hs).atRest s.exhausted_close
    · rw [Stream.isComplete, Stream.progress_close]
      rfl
  · intro signals ops k o b ho hb hlast
    exact hstart.observe_of_finished ho hb hlast

def Completer.failsFirst : Completer :=
  .chain [
    .produced ⟨some "first", .resumable .null,
      [.act (.raise "busy"), .suggest ⟨"a", none, none, none, none, none⟩,
        .suggest ⟨"b", none, none, none, none, none⟩]⟩,
    .produced ⟨some "second", .fixed, [.suggest ⟨"c", none, none, none, none, none⟩]⟩]

/-- The first producer fails and goes on with one suggestion. Then the chain is closed, and neither
its other suggestion nor the second producer ever comes. -/
theorem Completer.failsFirst_stays_finished :
    let ops : List Operation := [.next, .next, .close, .next, .drain, .close]
    let seen := (failsFirst.start ⟨[], [], []⟩ 0).stream.observe {} ops
    (seen.take 3).map (·.outcome) =
        [some (.failed "busy"), some (.item ⟨"a", none, none, none, none, none⟩), none] ∧
      seen.drop 3 =
        [⟨[], some .stop, [], true⟩, ⟨[], some .stop, [], true⟩, ⟨[], none, [], true⟩] := by
  intro ops seen
  obtain ⟨-, hseen⟩ := finished_stays_finished ⟨[], [], []⟩ 0 failsFirst
  have hclosed : seen[2]? = some ⟨[], none, [], true⟩ := rfl
  exact ⟨rfl, hseen {} ops 2 .close _ rfl hclosed (.inl rfl)⟩

end CompletionServer
