import CompletionServer.Proofs.Stream.Naming
import CompletionServer.Stream.Operation

namespace CompletionServer

variable {R : Stream → Stream → Prop}

/-- Two pulls that look the same and leave streams in a relation. -/
structure Pull.Agrees (R : Stream → Stream → Prop) (r r' : Pull) : Prop where
  outcome_eq : r.outcome = r'.outcome
  signals_eq : r.signals = r'.signals
  events_eq : r.events = r'.events
  related : R r.stream r'.stream

structure Drained.Agrees (R : Stream → Stream → Prop) (d d' : Drained) : Prop where
  items_eq : d.items = d'.items
  outcome_eq : d.outcome = d'.outcome
  signals_eq : d.signals = d'.signals
  events_eq : d.events = d'.events
  related : R d.stream d'.stream

structure Performed.Agrees (R : Stream → Stream → Prop) (a a' : Performed) : Prop where
  observation_eq : a.observation = a'.observation
  signals_eq : a.signals = a'.signals
  related : R a.stream a'.stream

namespace Stream

/-- A relation that neither pulling nor closing leads out of, between streams that look the same. -/
structure Bisimulation (R : Stream → Stream → Prop) : Prop where
  isComplete_eq {s t : Stream} : R s t → s.isComplete = t.isComplete
  pull_agrees {s t : Stream} (signals : Signals) : R s t →
    (s.pull signals).Agrees R (t.pull signals)
  close_events_eq {s t : Stream} : R s t → s.close.2 = t.close.2
  close_related {s t : Stream} : R s t → R s.close.1 t.close.1

namespace Bisimulation

variable {s t : Stream}

theorem drain_agrees (hR : Bisimulation R) (signals : Signals) (s : Stream) :
    ∀ t, R s t → (s.drain signals).Agrees R (t.drain signals) := by
  fun_induction Stream.drain signals s with
  | case1 signals s r x ho this d ih =>
    intro t h
    have hr : r.Agrees R (t.pull signals) := hR.pull_agrees signals h
    have hd : d.Agrees R ((t.pull signals).stream.drain (t.pull signals).signals) := by
      rw [← hr.signals_eq]
      exact ih _ hr.related
    rw [drain_of_item (hr.outcome_eq ▸ ho)]
    exact ⟨congrArg (x :: ·) hd.items_eq, hd.outcome_eq, hd.signals_eq,
      congrArg₂ (· ++ ·) hr.events_eq hd.events_eq, hd.related⟩
  | case2 signals s r hne =>
    intro t h
    have hr : r.Agrees R (t.pull signals) := hR.pull_agrees signals h
    have hne' : ∀ x, (t.pull signals).outcome ≠ .item x := fun x hx =>
      hne x (hr.outcome_eq.trans hx)
    rw [drain_of_not_item hne']
    exact ⟨rfl, hr.outcome_eq, hr.signals_eq, hr.events_eq, hr.related⟩

theorem perform_agrees (hR : Bisimulation R) (signals : Signals) (h : R s t) (o : Operation) :
    (s.perform signals o).Agrees R (t.perform signals o) := by
  have hr := hR.pull_agrees signals h
  match o with
  | .next =>
    refine ⟨?_, hr.signals_eq, hr.related⟩
    simp only [perform, hr.outcome_eq, hr.events_eq, hR.isComplete_eq hr.related]
  | .drain =>
    have hd := hR.drain_agrees signals s t h
    refine ⟨?_, hd.signals_eq, hd.related⟩
    simp only [perform, hd.items_eq, hd.outcome_eq, hd.events_eq, hR.isComplete_eq hd.related]
  | .close =>
    have hc := hR.close_related h
    refine ⟨?_, rfl, hc⟩
    simp only [perform, hR.close_events_eq h, hR.isComplete_eq hc]
  | .scoped =>
    have hc := hR.close_related hr.related
    refine ⟨?_, hr.signals_eq, hc⟩
    simp only [perform, hr.outcome_eq, hr.events_eq, hR.close_events_eq hr.related,
      hR.isComplete_eq hc]

/-- No course of operations tells related streams apart. -/
theorem observe_eq (hR : Bisimulation R) (signals : Signals) (ops : List Operation) (h : R s t) :
    s.observe signals ops = t.observe signals ops := by
  induction ops generalizing s t signals with
  | nil => rfl
  | cons o ops ih =>
    have ho := hR.perform_agrees signals h o
    rw [observe, observe, ho.observation_eq, ho.signals_eq, ih _ ho.related]

end Bisimulation

end Stream

/-- Nobody can tell the searches apart, neither when they are started nor when their streams are put
to any uses, whatever is cancelled meanwhile. -/
structure Completer.Alike (c d : Completer) : Prop where
  events_eq (source : Source) (offset : Int) :
    (c.start source offset).events = (d.start source offset).events
  isComplete_eq (source : Source) (offset : Int) :
    (c.start source offset).stream.isComplete = (d.start source offset).stream.isComplete
  observe_eq (source : Source) (offset : Int) (signals : Signals) (ops : List Operation) :
    (c.start source offset).stream.observe signals ops =
      (d.start source offset).stream.observe signals ops

theorem Stream.Bisimulation.alike {c d : Completer} (hR : Bisimulation R)
    (hevents : ∀ source offset, (c.start source offset).events = (d.start source offset).events)
    (hstart : ∀ source offset, R (c.start source offset).stream (d.start source offset).stream) :
    c.Alike d :=
  ⟨hevents, fun source offset => hR.isComplete_eq (hstart source offset),
    fun source offset signals ops => hR.observe_eq signals ops (hstart source offset)⟩

end CompletionServer
