import CompletionServer.Proofs.Stream.Meaning
import CompletionServer.Stream.Operation
import Mathlib.Data.List.Nodup

namespace CompletionServer

variable (f : Text → Option Text)

def Event.rename (e : Event) : Option Event := (f e.producer).map (⟨·, e.happening⟩)

def Producer.rename (p : Producer) : Producer := { p with id := p.id.bind f }

def Cursor.rename (c : Cursor) : Cursor := { c with producer := c.producer.rename f }

mutual

def Stream.rename : Stream → Stream
  | .leaf p c => .leaf p (c.rename f)
  | .wrapped p inner => .wrapped p inner.rename
  | .limited p limit taken inner => .limited p limit taken inner.rename
  | .chained p allComplete members => .chained p allComplete members.rename

def Members.rename : Members → Members
  | .nil => .nil
  | .cons waiting head tail =>
    .cons (waiting.map (·.filterMap (Event.rename f))) head.rename tail.rename

end

def Start.rename (a : Start) : Start := ⟨a.stream.rename f, a.events.filterMap (Event.rename f)⟩

def Pull.rename (r : Pull) : Pull :=
  { r with stream := r.stream.rename f, events := r.events.filterMap (Event.rename f) }

def MembersPull.rename (r : MembersPull) : MembersPull :=
  { r with members := r.members.rename f, events := r.events.filterMap (Event.rename f) }

def Drained.rename (d : Drained) : Drained :=
  { d with stream := d.stream.rename f, events := d.events.filterMap (Event.rename f) }

def Observation.rename (b : Observation) : Observation :=
  { b with events := b.events.filterMap (Event.rename f) }

namespace Producer

theorem note_rename (p : Producer) (h : Happening) :
    (p.rename f).note h = (p.note h).filterMap (Event.rename f) := by
  obtain ⟨id, flavor, script⟩ := p
  cases id with
  | none => rfl
  | some id => cases hid : f id <;> simp [rename, note, Event.rename, hid]

theorem trace_rename (p : Producer) (h : Happening) :
    (p.rename f).trace h = (p.trace h).filterMap (Event.rename f) := by
  cases hf : p.flavor with
  | fixed => simp [trace, rename, hf]
  | generator verdict => simpa [trace, rename, hf] using p.note_rename f h
  | asynchronous => simpa [trace, rename, hf] using p.note_rename f h
  | resumable verdict => simpa [trace, rename, hf] using p.note_rename f h

theorem run_rename (p : Producer) (signals : Signals) (steps : List Step) :
    (p.rename f).run signals steps =
      { p.run signals steps with
        events := (p.run signals steps).events.filterMap (Event.rename f) } := by
  fun_induction Producer.run p signals steps with
  | case1 signals => rw [run, trace_rename]
  | case2 signals x rest => rw [run, trace_rename]
  | case3 signals message rest => rw [run, trace_rename]
  | case4 signals rest r ih =>
    rw [run, ih, trace_rename, List.filterMap_append]
  | case5 signals rest r ih =>
    rw [run, ih, trace_rename, List.filterMap_append]
  | case6 signals rest h => rw [run, if_pos h, trace_rename]
  | case7 signals rest h r ih =>
    rw [run, if_neg h, ih, trace_rename, List.filterMap_append]

theorem start_rename (p : Producer) (source : Source) (offset : Int) :
    (p.start source offset).rename f = (p.rename f).start source offset := by
  rw [start, start, Start.rename, note_rename]
  rfl

end Producer

namespace Cursor

theorem advance_rename (c : Cursor) (signals : Signals) :
    (c.rename f).advance signals =
      { c.advance signals with
        cursor := (c.advance signals).cursor.rename f
        events := (c.advance signals).events.filterMap (Event.rename f) } := by
  cases hc : c.phase <;> simp [advance, rename, hc, Producer.run_rename] <;> rfl

theorem close_rename (c : Cursor) :
    (c.rename f).close = (c.close.1.rename f, c.close.2.filterMap (Event.rename f)) := by
  have hflavor : (c.rename f).producer.flavor = c.producer.flavor := rfl
  unfold close
  rw [hflavor]
  split
  · have htrace := c.producer.trace_rename f .closed
    by_cases hs : c.phase = .suspended
    · simp only [rename, hs, if_true, htrace]
    · simp only [rename, hs, if_false, List.filterMap_nil]
  · rfl

end Cursor

namespace Stream

@[simp] theorem progress_rename (s : Stream) : (s.rename f).progress = s.progress := by
  cases s <;> rfl

@[simp] theorem isComplete_rename (s : Stream) : (s.rename f).isComplete = s.isComplete :=
  congrArg Progress.complete (s.progress_rename f)

theorem close_rename (s : Stream) :
    (s.rename f).close = (s.close.1.rename f, s.close.2.filterMap (Event.rename f)) := by
  match s with
  | leaf p c =>
    simp only [rename, close, c.close_rename f]
  | wrapped p inner =>
    simp only [rename, close, close_rename inner]
  | limited p limit taken inner =>
    simp only [rename, close, close_rename inner]
  | chained p allComplete .nil => rfl
  | chained p allComplete (.cons none head tail) =>
    simp only [rename, Members.rename, Option.map_none, close, close_rename head]
  | chained p allComplete (.cons (some events) head tail) => rfl

theorem wrapPull_rename (p : Progress) (r : Pull) :
    wrapPull p (r.rename f) = (wrapPull p r).rename f := by
  simp only [wrapPull, Pull.rename, isComplete_rename, rename]

theorem limitPull_rename (p : Progress) (limit taken : Nat) (r : Pull) :
    limitPull p limit taken (r.rename f) = (limitPull p limit taken r).rename f := by
  cases ho : r.outcome with
  | item x =>
    by_cases hle : limit ≤ taken
    · simp [limitPull, Pull.rename, ho, hle, close_rename, rename]
    · simp [limitPull, Pull.rename, ho, hle, rename]
  | stop => simp [limitPull, Pull.rename, ho, rename]
  | failed message => simp [limitPull, Pull.rename, ho, rename]
  | cancelled => simp [limitPull, Pull.rename, ho, rename]

theorem chainPull_rename (p : Progress) (r : MembersPull) :
    chainPull p (r.rename f) = (chainPull p r).rename f :=
  rfl

mutual

theorem pull_rename (signals : Signals) (s : Stream) :
    (s.rename f).pull signals = (s.pull signals).rename f := by
  match s with
  | leaf p c =>
    simp only [rename, pull, c.advance_rename f]
    split <;> rfl
  | wrapped p inner =>
    simp only [rename, pull, pull_rename signals inner, wrapPull_rename]
    split <;> rfl
  | limited p limit taken inner =>
    simp only [rename, pull, pull_rename signals inner, limitPull_rename]
    split <;> rfl
  | chained p allComplete members =>
    simp only [rename, pull, pullMembers_rename signals allComplete members, chainPull_rename]
    split <;> rfl

theorem pullMembers_rename (signals : Signals) (allComplete : Bool) (ms : Members) :
    pullMembers signals allComplete (ms.rename f) =
      (pullMembers signals allComplete ms).rename f := by
  match ms with
  | .nil => rfl
  | .cons waiting head tail =>
    have hopen : (waiting.map (·.filterMap (Event.rename f))).getD [] =
        (waiting.getD []).filterMap (Event.rename f) := by
      cases waiting <;> rfl
    rw [Members.rename, pullMembers, pullMembers, hopen, pull_rename signals head]
    by_cases hstop : (head.pull signals).outcome = .stop
    · have ih := pullMembers_rename (head.pull signals).signals
        (allComplete && (head.pull signals).stream.isComplete) tail
      simp [Pull.rename, MembersPull.rename, hstop, ih, close_rename]
    · simp [Pull.rename, MembersPull.rename, hstop, Members.rename]

end

theorem drain_of_item {signals : Signals} {s : Stream} {x : Suggestion}
    (h : (s.pull signals).outcome = .item x) :
    s.drain signals =
      { (s.pull signals).stream.drain (s.pull signals).signals with
        items := x :: ((s.pull signals).stream.drain (s.pull signals).signals).items
        events := (s.pull signals).events ++
          ((s.pull signals).stream.drain (s.pull signals).signals).events } := by
  rw [drain]
  split
  next y hy =>
    obtain rfl : x = y := by simpa [h] using hy
    rfl
  next hne => exact absurd h (hne x)

theorem drain_of_not_item {signals : Signals} {s : Stream}
    (h : ∀ x, (s.pull signals).outcome ≠ .item x) :
    s.drain signals = ⟨[], (s.pull signals).outcome, (s.pull signals).stream,
      (s.pull signals).signals, (s.pull signals).events⟩ := by
  rw [drain]
  split
  next y hy => exact absurd hy (h y)
  next => rfl

theorem drain_rename (signals : Signals) (s : Stream) :
    (s.rename f).drain signals = (s.drain signals).rename f := by
  fun_induction Stream.drain signals s with
  | case1 signals s r x ho this d ih =>
    have ho' : ((s.rename f).pull signals).outcome = .item x := by
      rw [pull_rename]
      exact ho
    rw [drain_of_item ho', pull_rename]
    simp only [Pull.rename]
    rw [ih]
    simp [Drained.rename, d, r]
  | case2 signals s r hne =>
    have hne' : ∀ x, ((s.rename f).pull signals).outcome ≠ .item x := by
      rw [pull_rename]
      exact hne
    rw [drain_of_not_item hne', pull_rename]
    rfl

theorem perform_rename (signals : Signals) (s : Stream) (o : Operation) :
    (s.rename f).perform signals o =
      ⟨(s.perform signals o).observation.rename f, (s.perform signals o).stream.rename f,
        (s.perform signals o).signals⟩ := by
  match o with
  | .next => simp [perform, pull_rename, Pull.rename, Observation.rename]
  | .drain => simp [perform, drain_rename, Drained.rename, Observation.rename]
  | .close => simp [perform, close_rename, Observation.rename]
  | .scoped => simp [perform, pull_rename, close_rename, Pull.rename, Observation.rename]

theorem observe_rename (signals : Signals) (s : Stream) (ops : List Operation) :
    (s.rename f).observe signals ops = (s.observe signals ops).map (Observation.rename f) := by
  induction ops generalizing signals s with
  | nil => rfl
  | cons o ops ih =>
    rw [observe, observe, perform_rename, ih]
    rfl

end Stream

/-- The name of the producer with a given number. -/
def Text.numbered (k : Nat) : Text := List.replicate k (.ofChar '#')

@[simp] theorem Text.length_numbered (k : Nat) : (Text.numbered k).length = k :=
  List.length_replicate

def Producer.numbered (k : Nat) (p : Producer) : Producer := { p with id := some (.numbered k) }

namespace Completer

variable (source : Source) (offset : Int)

mutual

def leaves : Completer → List Producer
  | produced p => [p]
  | phpKeywords => [.silent (Php.keywordSuggestions source.data offset)]
  | phpVariables => [.silent (Php.variableSuggestions source.data offset)]
  | empty => [.silent []]
  | wrap inner => leaves inner
  | limit _ inner => leaves inner
  | chain members => leavesAll members

def leavesAll : List Completer → List Producer
  | [] => []
  | c :: rest => leaves c ++ leavesAll rest

end

mutual

/-- The search with numbers for the names of its producers. -/
def numberFrom (k : Nat) : Completer → Completer
  | produced p => produced (p.numbered k)
  | phpKeywords =>
    produced ((Producer.silent (Php.keywordSuggestions source.data offset)).numbered k)
  | phpVariables =>
    produced ((Producer.silent (Php.variableSuggestions source.data offset)).numbered k)
  | empty => produced ((Producer.silent []).numbered k)
  | wrap inner => wrap (numberFrom k inner)
  | limit n inner => limit n (numberFrom k inner)
  | chain members => chain (numberAllFrom k members)

def numberAllFrom (k : Nat) : List Completer → List Completer
  | [] => []
  | c :: rest => numberFrom k c :: numberAllFrom (k + (leaves source offset c).length) rest

end

def numbered (c : Completer) : Completer := numberFrom source offset 0 c

/-- The name under which the producer with a given number appears in the search itself. -/
def nameOf (c : Completer) (t : Text) : Option Text :=
  ((leaves source offset c)[t.length]?).bind (·.id)

def isGenerator (c : Completer) (k : Nat) : Bool :=
  ((leaves source offset c)[k]?).any (·.flavor.closable)

variable {source : Source} {offset : Int}

mutual

theorem leaves_numberFrom (k : Nat) (c : Completer) :
    leaves source offset (numberFrom source offset k c) =
      (leaves source offset c).mapIdx fun j p => p.numbered (k + j) := by
  match c with
  | produced p => rfl
  | phpKeywords => rfl
  | phpVariables => rfl
  | empty => rfl
  | wrap inner => exact leaves_numberFrom k inner
  | limit n inner => exact leaves_numberFrom k inner
  | chain members => exact leavesAll_numberAllFrom k members

theorem leavesAll_numberAllFrom (k : Nat) (cs : List Completer) :
    leavesAll source offset (numberAllFrom source offset k cs) =
      (leavesAll source offset cs).mapIdx fun j p => p.numbered (k + j) := by
  match cs with
  | [] => rfl
  | c :: rest =>
    rw [numberAllFrom, leavesAll, leavesAll, leaves_numberFrom k c, leavesAll_numberAllFrom,
      List.mapIdx_append]
    simp only [Nat.add_assoc, Nat.add_comm (leaves source offset c).length]

end


theorem start_numbered {f : Text → Option Text} {k : Nat} {p : Producer}
    (hf : f (.numbered k) = p.id) :
    ((p.numbered k).start source offset).rename f = p.start source offset := by
  have hp : (p.numbered k).rename f = p := by
    simp [Producer.rename, Producer.numbered, hf]
  rw [Producer.start_rename, hp]

mutual

/-- Back under their own names, the producers make the search that was numbered. -/
theorem start_numberFrom {f : Text → Option Text} (k : Nat) (c : Completer)
    (hf : ∀ j p, (leaves source offset c)[j]? = some p → f (.numbered (k + j)) = p.id) :
    ((numberFrom source offset k c).start source offset).rename f = c.start source offset := by
  match c with
  | produced p => exact start_numbered (hf 0 p rfl)
  | phpKeywords => exact start_numbered (hf 0 _ rfl)
  | phpVariables => exact start_numbered (hf 0 _ rfl)
  | empty => exact start_numbered (hf 0 _ rfl)
  | wrap inner =>
    rw [start, ← start_numberFrom k inner hf]
    rfl
  | limit n inner =>
    rw [start, ← start_numberFrom k inner hf]
    rfl
  | chain members =>
    rw [start, ← startAll_numberAllFrom k members hf]
    rfl

theorem startAll_numberAllFrom {f : Text → Option Text} (k : Nat) (cs : List Completer)
    (hf : ∀ j p, (leavesAll source offset cs)[j]? = some p → f (.numbered (k + j)) = p.id) :
    (startAll source offset (numberAllFrom source offset k cs)).rename f =
      startAll source offset cs := by
  match cs with
  | [] => rfl
  | c :: rest =>
    have hc : ∀ j p, (leaves source offset c)[j]? = some p → f (.numbered (k + j)) = p.id := by
      intro j p hj
      obtain ⟨hlt, -⟩ := List.getElem?_eq_some_iff.mp hj
      apply hf
      rw [leavesAll, List.getElem?_append_left hlt, hj]
    have hrest : ∀ j p, (leavesAll source offset rest)[j]? = some p →
        f (.numbered (k + (leaves source offset c).length + j)) = p.id := by
      intro j p hj
      rw [Nat.add_assoc]
      apply hf
      rw [leavesAll, List.getElem?_append_right (Nat.le_add_right _ _), Nat.add_sub_cancel_left, hj]
    rw [startAll, ← start_numberFrom k c hc, ← startAll_numberAllFrom _ rest hrest]
    rfl

end

/-- Numbering the producers of a search changes nothing but their names. -/
theorem start_eq_rename_numbered (c : Completer) : c.start source offset =
    ((c.numbered source offset).start source offset).rename (c.nameOf source offset) := by
  refine (start_numberFrom 0 c ?_).symm
  intro j p hj
  rw [nameOf, Text.length_numbered, Nat.zero_add, hj, Option.bind_some]

theorem isGenerator_of_mem_leaves_numbered {c : Completer} {p : Producer} {id : Text}
    (hp : p ∈ leaves source offset (c.numbered source offset)) (hid : p.id = some id) :
    c.isGenerator source offset id.length = p.flavor.closable := by
  rw [numbered, leaves_numberFrom] at hp
  obtain ⟨j, hj, rfl⟩ := List.mem_mapIdx.mp hp
  obtain rfl : Text.numbered (0 + j) = id := Option.some.inj hid
  rw [isGenerator, Text.length_numbered, Nat.zero_add, List.getElem?_eq_getElem hj]
  rfl

theorem nodup_names_numbered (c : Completer) :
    ((leaves source offset (c.numbered source offset)).filterMap (·.id)).Nodup := by
  -- Counted from the left, each producer has its index for a name.
  have hnames : (leaves source offset (c.numbered source offset)).map (·.id) =
      (List.range (leaves source offset c).length).map fun k => some (.numbered k) := by
    rw [numbered, leaves_numberFrom]
    apply List.ext_getElem
    · simp
    · simp [Producer.numbered]
  have hids : (leaves source offset (c.numbered source offset)).filterMap (·.id) =
      (List.range (leaves source offset c).length).map .numbered := by
    calc (leaves source offset (c.numbered source offset)).filterMap (·.id)
        = ((leaves source offset (c.numbered source offset)).map (·.id)).filterMap id := by
          simp [List.filterMap_map]
      _ = (List.range (leaves source offset c).length).map .numbered := by
          rw [hnames, List.filterMap_map]
          exact congrFun List.filterMap_eq_map _
  rw [hids]
  apply List.nodup_range.map
  intro j k hjk
  simpa using congrArg List.length hjk

end Completer

end CompletionServer
