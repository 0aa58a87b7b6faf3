import CompletionServer.Proofs.Stream.Custody
import CompletionServer.Proofs.Stream.Naming
import CompletionServer.Proofs.Stream.Turns

namespace CompletionServer

open Event
open scoped List

variable {generators : Text → Bool}

theorem Cursor.events_close_of_holder (c : Cursor) (h : c.holder = none) : c.close.2 = [] := by
  rw [events_close]
  split
  next hs =>
    have hid : c.producer.id = none := by simpa [holder, hs] using h
    cases hf : c.producer.flavor <;> simp [Producer.trace, Producer.note, hf, hid]
  next => rfl

namespace Stream

variable {s : Stream}

theorem progress_close (s : Stream) :
    s.close.1.progress = { s.progress with exhausted := true } := by
  fun_cases close s <;> rfl

theorem exhausted_close (s : Stream) : s.close.1.progress.exhausted = true := by
  rw [progress_close]

theorem progress_pull (signals : Signals) (s : Stream) :
    (s.pull signals).stream.progress =
      if (s.pull signals).outcome = .stop then ⟨true, (s.pull signals).stream.isComplete⟩
      else s.progress := by
  by_cases hs : s.progress.exhausted = true
  · rw [pull_of_exhausted hs, if_pos rfl, isComplete, ← hs]
  · cases s with
    | leaf p c =>
      have hp : p.exhausted = false := eq_false_of_ne_true hs
      rw [pull_leaf hp]
      cases hh : (c.advance signals).halt <;> simp [Halt.outcome, progress, isComplete]
    | wrapped p inner =>
      have hp : p.exhausted = false := eq_false_of_ne_true hs
      rw [pull_wrapped hp]
      by_cases hstop : (inner.pull signals).outcome = .stop <;>
        simp [wrapPull, hstop, progress, isComplete]
    | limited p limit taken inner =>
      have hp : p.exhausted = false := eq_false_of_ne_true hs
      rw [pull_limited hp, limitPull]
      split
      · split <;> simp [progress, isComplete]
      next hstop => simp [hstop, progress, isComplete]
      next hne => exact (if_neg hne).symm
    | chained p allComplete members =>
      have hp : p.exhausted = false := eq_false_of_ne_true hs
      rw [pull_chained hp]
      by_cases hstop : (pullMembers signals allComplete members).outcome = .stop <;>
        simp [chainPull, hstop, progress, isComplete]

theorem exhausted_of_stop {signals : Signals} (h : (s.pull signals).outcome = .stop) :
    (s.pull signals).stream.progress.exhausted = true := by
  rw [progress_pull, if_pos h]

theorem drain_exhausted_of_stop {signals : Signals} (h : (s.drain signals).outcome = .stop) :
    (s.drain signals).stream.progress.exhausted = true := by
  fun_induction Stream.drain signals s with
  | case1 signals s r x ho this d ih => exact ih h
  | case2 signals s r hne => exact exhausted_of_stop h

theorem events_close_of_holder {s : Stream} (h : s.holder = none) : s.close.2 = [] := by
  match s with
  | leaf p c => exact c.events_close_of_holder h
  | wrapped p inner => exact events_close_of_holder (s := inner) h
  | limited p limit taken inner => exact events_close_of_holder (s := inner) h
  | chained p allComplete .nil => rfl
  | chained p allComplete (.cons none head tail) => exact events_close_of_holder (s := head) h
  | chained p allComplete (.cons (some events) head tail) => rfl

/-- Whatever is done with a finished stream, nothing comes of it. -/
theorem perform_of_exhausted (ht : s.Tidy generators) (hs : s.progress.exhausted = true)
    (signals : Signals) (o : Operation) :
    (s.perform signals o).observation.events = [] ∧
      (s.perform signals o).stream.Tidy generators ∧
      (s.perform signals o).stream.progress.exhausted = true := by
  have hpull := pull_of_exhausted hs signals
  have hclose := events_close_of_holder (ht.holder_of_exhausted hs)
  have hdrain : s.drain signals = ⟨[], .stop, s, signals, []⟩ := by
    rw [drain_of_not_item (by simp [hpull]), hpull]
  match o with
  | .next => simp [perform, hpull, ht, hs]
  | .drain => simp [perform, hdrain, ht, hs]
  | .close => exact ⟨hclose, (close_keeps ht).tidy, s.exhausted_close⟩
  | .scoped =>
    simp only [perform, hpull, List.nil_append]
    exact ⟨hclose, (close_keeps ht).tidy, s.exhausted_close⟩

theorem observe_of_exhausted (ht : s.Tidy generators) (hs : s.progress.exhausted = true)
    (signals : Signals) (ops : List Operation) :
    ∀ b ∈ s.observe signals ops, b.events = [] := by
  induction ops generalizing s signals with
  | nil => exact List.forall_mem_nil _
  | cons o ops ih =>
    obtain ⟨hevents, ht, hs⟩ := perform_of_exhausted ht hs signals o
    exact List.forall_mem_cons.mpr ⟨hevents, ih ht hs _⟩

theorem perform_finishes {signals : Signals} {o : Operation}
    (h : o = .close ∨ o = .scoped ∨ (s.perform signals o).observation.outcome = some .stop) :
    (s.perform signals o).stream.progress.exhausted = true := by
  match o with
  | .next => exact exhausted_of_stop (by simpa [perform] using h)
  | .drain => exact drain_exhausted_of_stop (by simpa [perform] using h)
  | .close => exact s.exhausted_close
  | .scoped => exact exhausted_close _

end Stream

theorem Event.length_filter_terminal {t : List Event} {id : Text} (hid : generators id = true) :
    (t.filter fun e => e.producer = id ∧ e.happening.isTerminal).length =
      (endings generators t).count id := by
  rw [endings, List.count_eq_countP, List.countP_map, List.countP_filter,
    List.countP_eq_length_filter]
  congr 1
  apply List.filter_congr
  intro e he
  by_cases hp : e.producer = id
  · simp [hp, hid]
  · simp [hp]

namespace Start

variable {a : Start} {s : Stream} {t : List Event}

theorem ran_drain (signals : Signals) (s : Stream) :
    ∀ t, a.Ran s t → a.Ran (s.drain signals).stream (t ++ (s.drain signals).events) := by
  fun_induction Stream.drain signals s with
  | case1 signals s r x ho this d ih =>
    intro t h
    rw [← List.append_assoc]
    exact ih _ (h.pull signals)
  | case2 signals s r hne =>
    intro t h
    exact h.pull signals

theorem Ran.perform (h : a.Ran s t) (signals : Signals) (o : Operation) :
    a.Ran (s.perform signals o).stream (t ++ (s.perform signals o).observation.events) := by
  match o with
  | .next => exact h.pull signals
  | .drain => exact ran_drain signals s t h
  | .close => exact h.close
  | .scoped =>
    have hclosed := (h.pull signals).close
    rw [List.append_assoc] at hclosed
    exact hclosed

theorem Ran.observe (h : a.Ran s t) (signals : Signals) (ops : List Operation) :
    ∃ s', a.Ran s' (t ++ (s.observe signals ops).flatMap (·.events)) := by
  induction ops generalizing s t signals with
  | nil =>
    refine ⟨s, ?_⟩
    simpa [Stream.observe] using h
  | cons o ops ih =>
    obtain ⟨s', hs'⟩ := ih (h.perform signals o) (s.perform signals o).signals
    refine ⟨s', ?_⟩
    simpa [Stream.observe] using hs'

structure Fresh (generators : Text → Bool) (a : Start) : Prop where
  tidy : a.stream.Tidy generators
  holder_eq : a.stream.holder = none
  openings : ∀ e ∈ a.events, e.happening.isOpening = true

/-- The order among generators in a started search that has been used. -/
structure Keeps (generators : Text → Bool) (a : Start) (s : Stream) (t : List Event) : Prop where
  watched : watchAll generators none t = some s.holder
  endings : endings generators t ++ s.alive <+ a.stream.alive
  tidy : s.Tidy generators

theorem Ran.keeps (ha : a.Fresh generators) (h : a.Ran s t) : a.Keeps generators s t := by
  induction h with
  | start =>
    refine ⟨?_, ?_, ha.tidy⟩
    · rw [ha.holder_eq]
      exact watchAll_openings ha.openings
    · rw [endings_openings ha.openings]
      exact List.Sublist.refl _
  | pull signals _ ih =>
    have hr := Stream.pull_keeps signals ih.tidy
    exact ⟨watchAll_trans ih.watched hr.watched, endings_append_sublist ih.endings hr.endings,
      hr.tidy⟩
  | close _ ih =>
    have hr := Stream.close_keeps ih.tidy
    refine ⟨?_, endings_append_sublist ih.endings hr.endings, hr.tidy⟩
    rw [hr.released]
    exact watchAll_trans ih.watched hr.watched

/-- At any moment so far at most one generator was suspended. -/
theorem Keeps.alone (h : a.Keeps generators s t) {past : List Event} (hpast : past <+: t)
    {i j : Text} (hi : generators i = true) (hj : generators j = true)
    (hsi : SuspendedAfter past i) (hsj : SuspendedAfter past j) : i = j := by
  obtain ⟨later, rfl⟩ := hpast
  have hwatched := h.watched
  rw [watchAll_append] at hwatched
  obtain ⟨holder, hholder, -⟩ := Option.bind_eq_some_iff.mp hwatched
  have heq := (hsi.eq_holder hi hholder).symm.trans (hsj.eq_holder hj hholder)
  exact Option.some.inj heq

/-- If no name stands twice among the generators of the search, each came to an end at most once. -/
theorem Keeps.once (h : a.Keeps generators s t) (hnames : a.stream.alive.Nodup) {id : Text}
    (hid : generators id = true) :
    (t.filter fun e => e.producer = id ∧ e.happening.isTerminal).length ≤ 1 := by
  have hends : (Event.endings generators t).Nodup :=
    hnames.sublist ((List.sublist_append_left _ _).trans h.endings)
  rw [length_filter_terminal hid]
  exact List.nodup_iff_count_le_one.mp hends id

/-- Nobody is suspended after an operation that finishes the stream, and nothing happens later. -/
theorem Ran.released (ha : a.Fresh generators) (h : a.Ran s t) {signals : Signals}
    {ops : List Operation} {k : Nat} {o : Operation} {b : Observation} (ho : ops[k]? = some o)
    (hb : (s.observe signals ops)[k]? = some b)
    (hlast : o = .close ∨ o = .scoped ∨ b.outcome = some .stop) :
    watchAll generators none (t ++ ((s.observe signals ops).take (k + 1)).flatMap (·.events)) =
      some none ∧
    ∀ b' ∈ (s.observe signals ops).drop (k + 1), b'.events = [] := by
  induction ops generalizing s t signals k with
  | nil => cases ho
  | cons o' ops ih =>
    have hran := h.perform signals o'
    rw [Stream.observe] at hb ⊢
    cases k with
    | zero =>
      -- This operation finishes the stream, and what is finished is left without a holder.
      obtain rfl : o' = o := by simpa using ho
      obtain rfl : (s.perform signals o').observation = b := by simpa using hb
      have hkeeps := hran.keeps ha
      have hdone := Stream.perform_finishes hlast
      have hwatched := hkeeps.watched
      rw [hkeeps.tidy.holder_of_exhausted hdone] at hwatched
      exact ⟨by simpa using hwatched, Stream.observe_of_exhausted hkeeps.tidy hdone _ _⟩
    | succ k =>
      obtain ⟨hwatched, hquiet⟩ := ih hran (by simpa using ho) (by simpa using hb)
      exact ⟨by simpa using hwatched, hquiet⟩

end Start

namespace Producer

theorem holder_start (source : Source) (offset : Int) (p : Producer) :
    (p.start source offset).stream.holder = none :=
  if_neg fun h => nomatch h.2

theorem alive_start (source : Source) (offset : Int) (p : Producer) :
    (p.start source offset).stream.alive <+ [p].filterMap (·.id) := by
  have halive : (p.start source offset).stream.alive <+ p.id.toList := by
    rw [start, Stream.alive, Cursor.alive]
    split
    · exact List.Sublist.refl _
    · exact List.nil_sublist _
  cases hid : p.id <;> simpa [hid] using halive

end Producer

namespace Completer

variable (source : Source) (offset : Int)

theorem holder_start (c : Completer) : (c.start source offset).stream.holder = none := by
  match c with
  | produced p => exact Producer.holder_start source offset p
  | phpKeywords => exact Producer.holder_start source offset _
  | phpVariables => exact Producer.holder_start source offset _
  | empty => exact Producer.holder_start source offset _
  | wrap inner => exact holder_start inner
  | limit n inner => exact holder_start inner
  | chain [] => rfl
  | chain (c :: rest) => exact holder_start c

theorem isOpening_of_mem_start (c : Completer) :
    ∀ e ∈ (c.start source offset).events, e.happening.isOpening = true := by
  intro e he
  rw [happening_of_mem_start c e he]
  rfl

theorem waiting_startAll (cs : List Completer) : (startAll source offset cs).Waiting := by
  induction cs with
  | nil => trivial
  | cons c rest ih => exact ⟨rfl, ih⟩

mutual

theorem tidy_start (c : Completer) (h : ∀ p ∈ leaves source offset c, p.Marked generators) :
    (c.start source offset).stream.Tidy generators := by
  match c with
  | produced p => exact ⟨h _ List.mem_cons_self, fun _ => Producer.holder_start source offset _⟩
  | phpKeywords => exact ⟨h _ List.mem_cons_self, fun _ => Producer.holder_start source offset _⟩
  | phpVariables => exact ⟨h _ List.mem_cons_self, fun _ => Producer.holder_start source offset _⟩
  | empty => exact ⟨h _ List.mem_cons_self, fun _ => Producer.holder_start source offset _⟩
  | wrap inner => exact ⟨tidy_start inner h, fun _ => holder_start source offset inner⟩
  | limit n inner => exact ⟨tidy_start inner h, fun _ => holder_start source offset inner⟩
  | chain members =>
    exact ⟨tidy_startAll members h, fun _ => holder_start source offset (.chain members)⟩

theorem tidy_startAll (cs : List Completer)
    (h : ∀ p ∈ leavesAll source offset cs, p.Marked generators) :
    (startAll source offset cs).Tidy generators := by
  match cs with
  | [] => trivial
  | c :: rest =>
    obtain ⟨hc, hrest⟩ := List.forall_mem_append.mp h
    exact ⟨isOpening_of_mem_start source offset c, fun _ => holder_start source offset c,
      tidy_start c hc, waiting_startAll source offset rest, tidy_startAll rest hrest⟩

end

mutual

theorem alive_start (c : Completer) : (c.start source offset).stream.alive <+
    (leaves source offset c).filterMap (·.id) := by
  match c with
  | produced p => exact Producer.alive_start source offset p
  | phpKeywords => exact Producer.alive_start source offset _
  | phpVariables => exact Producer.alive_start source offset _
  | empty => exact Producer.alive_start source offset _
  | wrap inner => exact alive_start inner
  | limit n inner => exact alive_start inner
  | chain members => exact alive_startAll members

theorem alive_startAll (cs : List Completer) : (startAll source offset cs).alive <+
    (leavesAll source offset cs).filterMap (·.id) := by
  match cs with
  | [] => exact List.Sublist.refl _
  | c :: rest =>
    rw [leavesAll, List.filterMap_append]
    exact (alive_start c).append (alive_startAll rest)

end

def marks (c : Completer) (t : Text) : Bool := c.isGenerator source offset t.length

@[simp] theorem marks_numbered (c : Completer) (k : Nat) :
    c.marks source offset (.numbered k) = c.isGenerator source offset k := by
  rw [marks, Text.length_numbered]

theorem fresh_start_numbered (c : Completer) :
    ((c.numbered source offset).start source offset).Fresh (c.marks source offset) := by
  refine ⟨tidy_start source offset _ ?_, holder_start source offset _,
    isOpening_of_mem_start source offset _⟩
  intro p hp id hid
  exact isGenerator_of_mem_leaves_numbered hp hid

def numberedEvents (c : Completer) (seen : List Observation) : List Event :=
  ((c.numbered source offset).start source offset).events ++ seen.flatMap (·.events)

/-- What is seen of a search whose producers are numbered, when it is put to some uses, shows that
no producer is left behind. -/
structure LeaksNothing (c : Completer) (ops : List Operation) (seen : List Observation) : Prop where
  /-- At any moment at most one generator is suspended at a suggestion. -/
  alone : ∀ t, t <+: c.numberedEvents source offset seen → ∀ j k,
    c.isGenerator source offset j = true → c.isGenerator source offset k = true →
    SuspendedAfter t (.numbered j) → SuspendedAfter t (.numbered k) → j = k
  /-- A chain opens a member only when the one before it has stopped and been closed. -/
  inTurn : ∃ s, ((c.numbered source offset).start source offset).Ran s
      (c.numberedEvents source offset seen) ∧
    (c.numbered source offset).Orderly source offset s (c.numberedEvents source offset seen)
  /-- A generator comes to its end, is closed or fails at most once. -/
  once : ∀ k, c.isGenerator source offset k = true →
    ((c.numberedEvents source offset seen).filter fun e =>
      e.producer = .numbered k ∧ e.happening.isTerminal).length ≤ 1
  /-- Once the stream has been closed or has stopped, no generator is suspended at a suggestion, and
  nobody does anything. -/
  released : ∀ k o b, ops[k]? = some o → seen[k]? = some b →
    (o = .close ∨ o = .scoped ∨ b.outcome = some .stop) →
    (∀ j, c.isGenerator source offset j = true →
      ¬ SuspendedAfter (c.numberedEvents source offset (seen.take (k + 1))) (.numbered j)) ∧
    ∀ later ∈ seen.drop (k + 1), later.events = []

/-- However a search is used, no producer of it is left behind, as its events show once every
producer has a name of its own; but for the names, they are the events of the search. -/
theorem observe_leaksNothing (source : Source) (offset : Int) (c : Completer) (signals : Signals)
    (ops : List Operation) :
    c.start source offset =
      ((c.numbered source offset).start source offset).rename (c.nameOf source offset) ∧
    (c.start source offset).stream.observe signals ops =
      (((c.numbered source offset).start source offset).stream.observe signals ops).map
        (Observation.rename (c.nameOf source offset)) ∧
    c.LeaksNothing source offset ops
      (((c.numbered source offset).start source offset).stream.observe signals ops) := by
  have hfresh := c.fresh_start_numbered source offset
  have hstart : ((c.numbered source offset).start source offset).Ran _ _ := .start
  obtain ⟨s, hran⟩ := hstart.observe signals ops
  have hkeeps := hran.keeps hfresh
  refine ⟨c.start_eq_rename_numbered, ?_, ⟨?_, ⟨s, hran, hran.orderly⟩, ?_, ?_⟩⟩
  · rw [start_eq_rename_numbered c]
    exact Stream.observe_rename _ signals _ ops
  · intro t ht j k hj hk hsj hsk
    rw [← marks_numbered] at hj hk
    have hnames := hkeeps.alone ht hj hk hsj hsk
    simpa using congrArg List.length hnames
  · intro k hk
    have hnodup := (c.nodup_names_numbered).sublist
      (alive_start source offset (c.numbered source offset))
    exact hkeeps.once hnodup (by rwa [marks_numbered])
  · intro k o b ho hb hlast
    obtain ⟨hwatched, hquiet⟩ := hstart.released hfresh ho hb hlast
    refine ⟨?_, hquiet⟩
    intro j hj hs
    -- The last event would leave the generator suspended, and the watch says that nobody is.
    have hholder := hs.eq_holder (by rwa [marks_numbered]) hwatched
    cases hholder

end Completer

end CompletionServer
