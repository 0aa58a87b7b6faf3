import CompletionServer.Completion.Collect
import CompletionServer.Proofs.Stream.Meaning

namespace CompletionServer

/-- The loop as it comes to ask the token: what it has taken so far and what has been seen. -/
structure Loop where
  signals : Signals
  stream : Stream
  items : List Suggestion
  events : List Event

namespace Stream

variable {signals : Signals} {s : Stream}

theorem collect_of_token (h : signals.token = true) :
    s.collect signals = ⟨[], .cancelled, s, signals, []⟩ := by
  rw [collect, if_pos h]

theorem collect_of_item (h : signals.token = false) {x : Suggestion}
    (ho : (s.pull signals).outcome = .item x) :
    s.collect signals =
      let c := (s.pull signals).stream.collect (s.pull signals).signals.afterSuspension
      { c with items := x :: c.items, events := (s.pull signals).events ++ c.events } := by
  rw [collect, if_neg (by simp [h])]
  dsimp only
  split <;> simp_all

theorem collect_of_stop (h : signals.token = false) (ho : (s.pull signals).outcome = .stop) :
    s.collect signals = ⟨[], .stopped, (s.pull signals).stream, (s.pull signals).signals,
      (s.pull signals).events⟩ := by
  rw [collect, if_neg (by simp [h])]
  dsimp only
  split <;> simp_all

theorem collect_of_failed (h : signals.token = false) {message : Text}
    (ho : (s.pull signals).outcome = .failed message) :
    s.collect signals = ⟨[], .failed message, (s.pull signals).stream, (s.pull signals).signals,
      (s.pull signals).events⟩ := by
  rw [collect, if_neg (by simp [h])]
  dsimp only
  split <;> simp_all

theorem collect_of_cancelled (h : signals.token = false)
    (ho : (s.pull signals).outcome = .cancelled) :
    s.collect signals = ⟨[], .cancelled, (s.pull signals).stream, (s.pull signals).signals.accept,
      (s.pull signals).events⟩ := by
  rw [collect, if_neg (by simp [h])]
  dsimp only
  split <;> simp_all

end Stream

/-- The finish that an ending shows of a stream that then calls itself complete or not. -/
def Ending.finish? (complete : Bool) : Ending → Option Finish
  | .stopped => some (.stopped complete)
  | .failed message => some (.failed message)
  | .cancelled => none

theorem Stream.collect_readAs (signals : Signals) (s : Stream) :
    s.meaning.ReadAs (s.collect signals).items
      ((s.collect signals).ending.finish? (s.collect signals).stream.isComplete) := by
  fun_induction Stream.collect signals s with
  | case1 signals s ht => exact List.nil_prefix
  | case2 signals s ht r x ho this c ih =>
    rw [(s.pull_follows signals).eq_cons ho]
    exact ih.cons x
  | case3 signals s ht r ho => exact (s.pull_follows signals).eq_stopped ho
  | case4 signals s ht r message ho => exact (s.pull_follows signals).eq_failed ho
  | case5 signals s ht r ho => exact List.nil_prefix

namespace Loop

def start (signals : Signals) (s : Stream) : Loop := ⟨signals, s, [], []⟩

def next (l : Loop) : Option Loop :=
  if l.signals.token then none
  else
    match l.stream.pull l.signals with
    | ⟨.item x, stream, signals, events⟩ =>
      some ⟨signals.afterSuspension, stream, l.items ++ [x], l.events ++ events⟩
    | _ => none

/-- The round in which `k` more suggestions have been taken, if it comes to that. -/
def after : Nat → Loop → Option Loop
  | 0, l => some l
  | k + 1, l => l.next.bind (after k)

def collected (l : Loop) : Collected :=
  let c := l.stream.collect l.signals
  { c with items := l.items ++ c.items, events := l.events ++ c.events }

variable {l l' : Loop} {k : Nat}

theorem next_cases (h : l.next = some l') :
    l.signals.token = false ∧ ∃ x, (l.stream.pull l.signals).outcome = .item x ∧
      l' = ⟨(l.stream.pull l.signals).signals.afterSuspension, (l.stream.pull l.signals).stream,
        l.items ++ [x], l.events ++ (l.stream.pull l.signals).events⟩ := by
  unfold next at h
  split at h
  next ht => cases h
  next ht =>
    refine ⟨eq_false_of_ne_true ht, ?_⟩
    split at h
    next x stream signals events hr =>
      rw [hr]
      exact ⟨x, rfl, (Option.some.inj h).symm⟩
    next => cases h

theorem cases_of_next_eq_none (h : l.next = none) :
    l.signals.token = true ∨
      l.signals.token = false ∧ ∀ x, (l.stream.pull l.signals).outcome ≠ .item x := by
  unfold next at h
  split at h
  next ht => exact .inl ht
  next ht =>
    refine .inr ⟨eq_false_of_ne_true ht, fun x ho => ?_⟩
    split at h
    next => cases h
    next hne => exact hne x _ _ _ (by rw [← ho])

/-- The loop comes to an end, as every suggestion uses up some of the stream. -/
theorem exists_last (l : Loop) : ∃ k l', l.after k = some l' ∧ l'.next = none := by
  induction h : l.stream.remaining using Nat.strongRecOn generalizing l with
  | ind n ih =>
    cases hnext : l.next with
    | none => exact ⟨0, l, rfl, hnext⟩
    | some m =>
      have hlt : m.stream.remaining < n := by
        obtain ⟨-, x, ho, rfl⟩ := next_cases hnext
        exact h ▸ Stream.remaining_pull_lt ho
      obtain ⟨k, l', hk, hlast⟩ := ih m.stream.remaining hlt m rfl
      exact ⟨k + 1, l', by rw [after, hnext]; exact hk, hlast⟩

theorem collected_of_next (h : l.next = some l') : l.collected = l'.collected := by
  obtain ⟨ht, x, ho, rfl⟩ := next_cases h
  simp [collected, Stream.collect_of_item ht ho]

theorem collected_of_after (h : l.after k = some l') : l.collected = l'.collected := by
  induction k generalizing l with
  | zero => rw [Option.some.inj h]
  | succ k ih =>
    obtain ⟨m, hm, hk⟩ := Option.bind_eq_some_iff.mp h
    rw [collected_of_next hm, ih hk]

theorem length_items_of_after (h : l.after k = some l') :
    l'.items.length = l.items.length + k := by
  induction k generalizing l with
  | zero => rw [Option.some.inj h]; rfl
  | succ k ih =>
    obtain ⟨m, hm, hk⟩ := Option.bind_eq_some_iff.mp h
    obtain ⟨-, x, -, rfl⟩ := next_cases hm
    rw [ih hk, List.length_append, List.length_singleton, Nat.add_assoc, Nat.add_comm 1]

theorem collect_eq_of_after {signals : Signals} {s : Stream}
    (h : (start signals s).after k = some l) : s.collect signals = l.collected := by
  rw [← collected_of_after h]
  simp [start, collected]

/-- A cancellation takes effect when `k` suggestions have been taken, and leaves the loop as given:
the token turns out to be cancelled with no cancellation of the task pending, or one of the task
strikes at the suspension after the last suggestion, or inside the producer that is asked for the
next one. -/
inductive CancelledAfter (first : Loop) : Nat → Loop → Prop
  | asked {k : Nat} {l : Loop} : first.after k = some l → l.signals.token = true →
    l.signals.task = false → CancelledAfter first k l
  | asleep {k : Nat} {l : Loop} {x : Suggestion} : first.after k = some l →
    l.signals.token = false → (l.stream.pull l.signals).outcome = .item x →
    (l.stream.pull l.signals).signals.suspend.task = true →
    CancelledAfter first (k + 1) ⟨(l.stream.pull l.signals).signals.suspend.accept,
      (l.stream.pull l.signals).stream, l.items ++ [x],
      l.events ++ (l.stream.pull l.signals).events⟩
  | inside {k : Nat} {l : Loop} : first.after k = some l → l.signals.token = false →
    (l.stream.pull l.signals).outcome = .cancelled →
    CancelledAfter first k ⟨(l.stream.pull l.signals).signals.accept,
      (l.stream.pull l.signals).stream, l.items, l.events ++ (l.stream.pull l.signals).events⟩

namespace CancelledAfter

variable {signals : Signals} {s : Stream}

/-- The loop goes no further than where the cancellation takes effect. -/
theorem collect_eq (h : (start signals s).CancelledAfter k l) :
    s.collect signals = ⟨l.items, .cancelled, l.stream, l.signals, l.events⟩ := by
  cases h with
  | asked hk ht _ =>
    rw [collect_eq_of_after hk, collected, Stream.collect_of_token ht]
    simp
  | asleep hk ht ho hs =>
    -- Accepting the cancellation cancels the token, which the next round sees before it pulls.
    rw [collect_eq_of_after hk, collected, Stream.collect_of_item ht ho, Signals.afterSuspension,
      if_pos hs, Stream.collect_of_token rfl]
    simp
  | inside hk ht ho =>
    rw [collect_eq_of_after hk, collected, Stream.collect_of_cancelled ht ho]
    simp

theorem length_items (h : (start signals s).CancelledAfter k l) : l.items.length = k := by
  cases h with
  | asked hk _ _ => simpa [start] using length_items_of_after hk
  | asleep hk _ _ _ => simpa [start] using length_items_of_after hk
  | inside hk _ _ => simpa [start] using length_items_of_after hk

theorem task_eq_false (h : (start signals s).CancelledAfter k l) : l.signals.task = false := by
  cases h with
  | asked _ _ htask => exact htask
  | asleep _ _ _ _ => rfl
  | inside _ _ _ => rfl

end CancelledAfter

end Loop

end CompletionServer
