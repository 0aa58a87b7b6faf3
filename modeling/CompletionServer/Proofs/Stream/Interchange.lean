import CompletionServer.Completion.Collect
import CompletionServer.Proofs.Stream.Naming
import CompletionServer.Proofs.Stream.Reading

namespace CompletionServer

/-- Where the token is cancelled, the task is cancelled instead. -/
def Action.viaTask : Action → Action
  | cancelToken => cancelTask
  | a => a

def Step.viaTask : Step → Step
  | suggest s => suggest s
  | act a => act a.viaTask

def Happening.viaTask : Happening → Happening
  | acted a => acted a.viaTask
  | h => h

def Event.viaTask (e : Event) : Event := { e with happening := e.happening.viaTask }

def Producer.viaTask (p : Producer) : Producer := { p with script := p.script.map Step.viaTask }

def Cursor.viaTask (c : Cursor) : Cursor :=
  { c with producer := c.producer.viaTask, rest := c.rest.map Step.viaTask }

mutual

def Stream.viaTask : Stream → Stream
  | .leaf p c => .leaf p c.viaTask
  | .wrapped p inner => .wrapped p inner.viaTask
  | .limited p limit taken inner => .limited p limit taken inner.viaTask
  | .chained p allComplete members => .chained p allComplete members.viaTask

def Members.viaTask : Members → Members
  | .nil => .nil
  | .cons waiting head tail =>
    .cons (waiting.map (·.map Event.viaTask)) head.viaTask tail.viaTask

end

def Start.viaTask (a : Start) : Start := ⟨a.stream.viaTask, a.events.map Event.viaTask⟩

namespace Completer

mutual

def viaTask : Completer → Completer
  | produced p => produced p.viaTask
  | phpKeywords => phpKeywords
  | phpVariables => phpVariables
  | empty => empty
  | wrap inner => wrap (viaTask inner)
  | limit n inner => limit n (viaTask inner)
  | chain members => chain (viaTaskAll members)

def viaTaskAll : List Completer → List Completer
  | [] => []
  | c :: rest => viaTask c :: viaTaskAll rest

end

/-- No producer of the search awaits. Lists and generators have no way to. -/
def Synchronous (source : Source) (offset : Int) (c : Completer) : Prop :=
  ∀ p ∈ c.leaves source offset, .act .await ∉ p.script

end Completer

mutual

def Stream.ahead : Stream → List Step
  | .leaf _ c => c.rest
  | .wrapped _ inner => inner.ahead
  | .limited _ _ _ inner => inner.ahead
  | .chained _ _ members => members.ahead

def Members.ahead : Members → List Step
  | .nil => []
  | .cons _ head tail => head.ahead ++ tail.ahead

end

namespace Signals

/-- Signals that differ at most in what has been cancelled, the token or the task. The token that
producers cancel is the one of the request. -/
structure Interchanges (s t : Signals) : Prop where
  detached_left : s.detached = none
  detached_right : t.detached = none
  coming_eq : t.coming = s.coming
  cancelled_eq : (t.token || t.task) = (s.token || s.task)

theorem interchanges_self {s : Signals} (h : s.detached = none) : s.Interchanges s :=
  ⟨h, h, rfl, rfl⟩

theorem cancelToken_of_detached_eq_none {s : Signals} (h : s.detached = none) :
    s.cancelToken = { s with token := true } := by
  rw [cancelToken, h]

theorem token_cancelToken {s : Signals} (h : s.token = true) : s.cancelToken.token = true := by
  unfold cancelToken
  split
  · rfl
  · exact h

theorem token_suspend {s : Signals} (h : s.token = true) : s.suspend.token = true := by
  unfold suspend
  split
  next => exact h
  next a rest hcoming =>
    have hrest : { s with coming := rest }.token = true := h
    obtain ⟨token, task⟩ := a
    cases token <;> cases task
    · exact hrest
    · exact hrest
    · exact token_cancelToken hrest
    · exact token_cancelToken hrest

/-- A suspension turns a cancellation of the task into one of the token. -/
theorem afterSuspension_eq (s : Signals) :
    s.afterSuspension =
      { s.suspend with token := s.suspend.token || s.suspend.task, task := false } := by
  unfold afterSuspension
  split
  next h => simp [accept, h]
  next h =>
    have hf : s.suspend.task = false := eq_false_of_ne_true h
    rw [hf, Bool.or_false, ← hf]

theorem task_afterSuspension (s : Signals) : s.afterSuspension.task = false := by
  rw [afterSuspension_eq]

theorem token_afterSuspension {s : Signals} (h : s.token = true) :
    s.afterSuspension.token = true := by
  rw [afterSuspension_eq, token_suspend h, Bool.true_or]

namespace Interchanges

variable {s t : Signals}

theorem cancelToken_cancelTask (h : s.Interchanges t) :
    s.cancelToken.Interchanges t.cancelTask := by
  rw [cancelToken_of_detached_eq_none h.detached_left]
  exact ⟨h.detached_left, h.detached_right, h.coming_eq, by simp [cancelTask]⟩

theorem cancelToken (h : s.Interchanges t) : s.cancelToken.Interchanges t.cancelToken := by
  rw [cancelToken_of_detached_eq_none h.detached_left,
    cancelToken_of_detached_eq_none h.detached_right]
  exact ⟨h.detached_left, h.detached_right, h.coming_eq, rfl⟩

theorem cancelTask (h : s.Interchanges t) : s.cancelTask.Interchanges t.cancelTask :=
  ⟨h.detached_left, h.detached_right, h.coming_eq, by simp [Signals.cancelTask]⟩

theorem arrive (h : s.Interchanges t) (a : Arrival) : (s.arrive a).Interchanges (t.arrive a) := by
  obtain ⟨token, task⟩ := a
  cases token <;> cases task
  · exact h
  · exact h.cancelTask
  · exact h.cancelToken
  · exact h.cancelToken.cancelTask

theorem suspend (h : s.Interchanges t) : s.suspend.Interchanges t.suspend := by
  unfold Signals.suspend
  rw [h.coming_eq]
  split
  next => exact h
  next a rest hcoming =>
    have hrest : Interchanges { s with coming := rest } { t with coming := rest } :=
      ⟨h.detached_left, h.detached_right, rfl, h.cancelled_eq⟩
    exact hrest.arrive a

theorem accept_eq (h : s.Interchanges t) : t.accept = s.accept := by
  simp [accept, h.detached_left, h.detached_right, h.coming_eq]

theorem afterSuspension_eq_afterSuspension (h : s.Interchanges t) :
    t.afterSuspension = s.afterSuspension := by
  have hn := h.suspend
  simp only [afterSuspension_eq, hn.cancelled_eq, hn.coming_eq, hn.detached_left, hn.detached_right]

theorem detached_afterSuspension (h : s.Interchanges t) : s.afterSuspension.detached = none := by
  rw [afterSuspension_eq]
  exact h.suspend.detached_left

end Interchanges

end Signals

namespace Producer

theorem note_viaTask (p : Producer) (h : Happening) :
    p.viaTask.note h.viaTask = (p.note h).map Event.viaTask := by
  obtain ⟨id, flavor, script⟩ := p
  cases id <;> rfl

theorem trace_viaTask (p : Producer) (h : Happening) :
    p.viaTask.trace h.viaTask = (p.trace h).map Event.viaTask := by
  have hn := p.note_viaTask h
  obtain ⟨id, flavor, script⟩ := p
  cases flavor
  · rfl
  · exact hn
  · exact hn
  · exact hn

end Producer

/-- A run and the one that cancels the task in place of the token. -/
structure Run.Mirrors (r r' : Run) : Prop where
  halt_eq : r'.halt = r.halt
  rest_eq : r'.rest = r.rest.map Step.viaTask
  events_eq : r'.events = r.events.map Event.viaTask
  signals_interchange : r.signals.Interchanges r'.signals

theorem Producer.run_viaTask (p : Producer) (s : Signals) (steps : List Step)
    (hs : .act .await ∉ steps) :
    ∀ t, s.Interchanges t → (p.run s steps).Mirrors (p.viaTask.run t (steps.map Step.viaTask)) := by
  fun_induction Producer.run p s steps with
  | case1 s =>
    intro t h
    exact ⟨rfl, rfl, p.trace_viaTask .ended, h⟩
  | case2 s x rest =>
    intro t h
    exact ⟨rfl, rfl, p.trace_viaTask (.yielded x.name), h⟩
  | case3 s message rest =>
    intro t h
    exact ⟨rfl, rfl, p.trace_viaTask (.acted (.raise message)), h⟩
  | case4 s rest r ih =>
    intro t h
    have hr := ih (List.not_mem_of_not_mem_cons hs) _ h.cancelToken_cancelTask
    refine ⟨hr.halt_eq, hr.rest_eq, ?_, hr.signals_interchange⟩
    rw [List.map_append, ← hr.events_eq, ← p.trace_viaTask]
    rfl
  | case5 s rest r ih =>
    intro t h
    have hr := ih (List.not_mem_of_not_mem_cons hs) _ h.cancelTask
    refine ⟨hr.halt_eq, hr.rest_eq, ?_, hr.signals_interchange⟩
    rw [List.map_append, ← hr.events_eq, ← p.trace_viaTask]
    rfl
  -- There is no place for a cancellation to strike, as nothing awaits.
  | case6 s rest hstrike => exact absurd List.mem_cons_self hs
  | case7 s rest hstrike r ih => exact absurd List.mem_cons_self hs

namespace Cursor

structure Advance.Mirrors (r r' : Advance) : Prop where
  halt_eq : r'.halt = r.halt
  cursor_eq : r'.cursor = r.cursor.viaTask
  events_eq : r'.events = r.events.map Event.viaTask
  signals_interchange : r.signals.Interchanges r'.signals

theorem advance_viaTask (c : Cursor) {s t : Signals} (h : s.Interchanges t)
    (hs : .act .await ∉ c.rest) : (c.advance s).Mirrors (c.viaTask.advance t) := by
  have hr := c.producer.run_viaTask s c.rest hs t h
  have hphase : c.viaTask.phase = c.phase := rfl
  unfold advance
  rw [hphase]
  split
  · exact ⟨rfl, rfl, rfl, h⟩
  · refine ⟨hr.halt_eq, ?_, hr.events_eq, hr.signals_interchange⟩
    simp only [viaTask, hr.halt_eq, hr.rest_eq]
    rfl

theorem close_viaTask (c : Cursor) :
    c.viaTask.close = (c.close.1.viaTask, c.close.2.map Event.viaTask) := by
  have hflavor : c.viaTask.producer.flavor = c.producer.flavor := rfl
  have hphase : c.viaTask.phase = c.phase := rfl
  have htrace : c.viaTask.producer.trace .closed = (c.producer.trace .closed).map Event.viaTask :=
    c.producer.trace_viaTask .closed
  unfold close
  rw [hflavor, hphase, htrace]
  split
  · split <;> rfl
  · rfl

end Cursor

structure Pull.Mirrors (r r' : Pull) : Prop where
  outcome_eq : r'.outcome = r.outcome
  stream_eq : r'.stream = r.stream.viaTask
  events_eq : r'.events = r.events.map Event.viaTask
  signals_interchange : r.signals.Interchanges r'.signals

structure MembersPull.Mirrors (r r' : MembersPull) : Prop where
  outcome_eq : r'.outcome = r.outcome
  allComplete_eq : r'.allComplete = r.allComplete
  members_eq : r'.members = r.members.viaTask
  events_eq : r'.events = r.events.map Event.viaTask
  signals_interchange : r.signals.Interchanges r'.signals

namespace Stream

@[simp] theorem progress_viaTask (s : Stream) : s.viaTask.progress = s.progress := by
  cases s <;> rfl

@[simp] theorem isComplete_viaTask (s : Stream) : s.viaTask.isComplete = s.isComplete :=
  congrArg Progress.complete s.progress_viaTask

theorem close_viaTask (s : Stream) :
    s.viaTask.close = (s.close.1.viaTask, s.close.2.map Event.viaTask) := by
  match s with
  | leaf p c =>
    simp only [viaTask, close, c.close_viaTask]
  | wrapped p inner =>
    simp only [viaTask, close, close_viaTask inner]
  | limited p limit taken inner =>
    simp only [viaTask, close, close_viaTask inner]
  | chained p allComplete .nil => rfl
  | chained p allComplete (.cons none head tail) =>
    simp only [viaTask, Members.viaTask, Option.map_none, close, close_viaTask head]
  | chained p allComplete (.cons (some events) head tail) => rfl

theorem leaf_pull_viaTask {s t : Signals} (h : s.Interchanges t) {p : Progress} {c : Cursor}
    (hs : .act .await ∉ c.rest) : ((leaf p c).pull s).Mirrors ((leaf p c).viaTask.pull t) := by
  have hr := c.advance_viaTask h hs
  have hcomplete : c.viaTask.completeAtEnd = c.completeAtEnd := rfl
  rw [viaTask, pull, pull]
  split
  · exact ⟨rfl, rfl, rfl, h⟩
  · exact ⟨congrArg Halt.outcome hr.halt_eq,
      by simp only [viaTask, hr.halt_eq, hr.cursor_eq, hcomplete], hr.events_eq,
      hr.signals_interchange⟩

theorem wrapPull_mirrors {r r' : Pull} (h : r.Mirrors r') (p : Progress) :
    (wrapPull p r).Mirrors (wrapPull p r') :=
  ⟨h.outcome_eq, by simp [wrapPull, viaTask, h.outcome_eq, h.stream_eq], h.events_eq,
    h.signals_interchange⟩

theorem limitPull_mirrors {r r' : Pull} (h : r.Mirrors r') (p : Progress) (limit taken : Nat) :
    (limitPull p limit taken r).Mirrors (limitPull p limit taken r') := by
  unfold limitPull
  rw [h.outcome_eq, h.stream_eq]
  split
  · split
    · exact ⟨rfl, by simp [viaTask, close_viaTask], by simp [close_viaTask, h.events_eq],
        h.signals_interchange⟩
    · exact ⟨rfl, rfl, h.events_eq, h.signals_interchange⟩
  · exact ⟨rfl, by simp [viaTask], h.events_eq, h.signals_interchange⟩
  · exact ⟨rfl, rfl, h.events_eq, h.signals_interchange⟩

theorem chainPull_mirrors {r r' : MembersPull} (h : r.Mirrors r') (p : Progress) :
    (chainPull p r).Mirrors (chainPull p r') :=
  ⟨h.outcome_eq, by simp [chainPull, viaTask, h.outcome_eq, h.allComplete_eq, h.members_eq],
    h.events_eq, h.signals_interchange⟩

mutual

theorem pull_viaTask {s t : Signals} (h : s.Interchanges t) (st : Stream)
    (hs : .act .await ∉ st.ahead) : (st.pull s).Mirrors (st.viaTask.pull t) := by
  match st with
  | leaf p c => exact leaf_pull_viaTask h hs
  | wrapped p inner =>
    rw [viaTask, pull, pull]
    split
    · exact ⟨rfl, rfl, rfl, h⟩
    · exact wrapPull_mirrors (pull_viaTask h inner hs) p
  | limited p limit taken inner =>
    rw [viaTask, pull, pull]
    split
    · exact ⟨rfl, rfl, rfl, h⟩
    · exact limitPull_mirrors (pull_viaTask h inner hs) p limit taken
  | chained p allComplete members =>
    rw [viaTask, pull, pull]
    split
    · exact ⟨rfl, rfl, rfl, h⟩
    · exact chainPull_mirrors (pullMembers_viaTask h allComplete members hs) p

theorem pullMembers_viaTask {s t : Signals} (h : s.Interchanges t) (allComplete : Bool)
    (ms : Members) (hs : .act .await ∉ ms.ahead) :
    (pullMembers s allComplete ms).Mirrors (pullMembers t allComplete ms.viaTask) := by
  match ms with
  | .nil => exact ⟨rfl, rfl, rfl, rfl, h⟩
  | .cons waiting head tail =>
    obtain ⟨hhead, htail⟩ := not_or.mp (mt List.mem_append.mpr hs)
    have hopen : (waiting.map (·.map Event.viaTask)).getD [] =
        (waiting.getD []).map Event.viaTask := by
      cases waiting <;> rfl
    have hr := pull_viaTask h head hhead
    rw [Members.viaTask, pullMembers, pullMembers, hopen, hr.outcome_eq, hr.events_eq,
      hr.stream_eq, isComplete_viaTask, close_viaTask]
    split
    · have ih := pullMembers_viaTask hr.signals_interchange
        (allComplete && (head.pull s).stream.isComplete) tail htail
      exact ⟨ih.outcome_eq, ih.allComplete_eq, ih.members_eq, by simp [ih.events_eq],
        ih.signals_interchange⟩
    · exact ⟨rfl, rfl, rfl, by simp, hr.signals_interchange⟩

end

theorem ahead_close_subset (s : Stream) : s.close.1.ahead ⊆ s.ahead := by
  match s with
  | leaf p c =>
    rw [close, ahead, c.rest_close]
    exact List.Subset.refl _
  | wrapped p inner => exact ahead_close_subset inner
  | limited p limit taken inner => exact ahead_close_subset inner
  | chained p allComplete .nil => exact List.Subset.refl _
  | chained p allComplete (.cons none head tail) => exact List.subset_append_right _ _
  | chained p allComplete (.cons (some events) head tail) => exact List.Subset.refl _

theorem ahead_limitPull_subset (p : Progress) (limit taken : Nat) (r : Pull) :
    (limitPull p limit taken r).stream.ahead ⊆ r.stream.ahead := by
  unfold limitPull
  split
  · split
    · exact ahead_close_subset r.stream
    · exact List.Subset.refl _
  · exact List.Subset.refl _
  · exact List.Subset.refl _

mutual

theorem ahead_pull_subset (signals : Signals) (s : Stream) :
    (s.pull signals).stream.ahead ⊆ s.ahead := by
  match s with
  | leaf p c =>
    unfold pull
    split
    · exact List.Subset.refl _
    · unfold Cursor.advance
      split
      · exact List.Subset.refl _
      · exact (c.producer.run_rest_suffix signals c.rest).subset
  | wrapped p inner =>
    unfold pull
    split
    · exact List.Subset.refl _
    · exact ahead_pull_subset signals inner
  | limited p limit taken inner =>
    unfold pull
    split
    · exact List.Subset.refl _
    · exact List.Subset.trans (ahead_limitPull_subset p limit taken _)
        (ahead_pull_subset signals inner)
  | chained p allComplete members =>
    unfold pull
    split
    · exact List.Subset.refl _
    · exact ahead_pullMembers_subset signals allComplete members

theorem ahead_pullMembers_subset (signals : Signals) (allComplete : Bool) (ms : Members) :
    (pullMembers signals allComplete ms).members.ahead ⊆ ms.ahead := by
  match ms with
  | .nil => exact List.Subset.refl _
  | .cons waiting head tail =>
    rw [pullMembers]
    split
    · exact List.subset_append_of_subset_right _ (ahead_pullMembers_subset _ _ tail)
    · exact List.append_subset_of_subset_of_subset
        (List.subset_append_of_subset_left _ (ahead_pull_subset signals head))
        (List.subset_append_right _ _)

end

end Stream

theorem Producer.viaTask_silent (suggestions : List Suggestion) :
    (silent suggestions).viaTask = silent suggestions := by
  simp [silent, viaTask, Step.viaTask]

theorem Producer.start_viaTask (p : Producer) (source : Source) (offset : Int) :
    p.viaTask.start source offset = (p.start source offset).viaTask :=
  congrArg (Start.mk _) (p.note_viaTask (.opened source offset))

namespace Completer

variable (source : Source) (offset : Int)

mutual

theorem start_viaTask (c : Completer) :
    c.viaTask.start source offset = (c.start source offset).viaTask := by
  match c with
  | produced p => exact p.start_viaTask source offset
  | phpKeywords =>
    rw [viaTask, start, ← Producer.start_viaTask, Producer.viaTask_silent]
  | phpVariables =>
    rw [viaTask, start, ← Producer.start_viaTask, Producer.viaTask_silent]
  | empty =>
    rw [viaTask, start, ← Producer.start_viaTask, Producer.viaTask_silent]
  | wrap inner =>
    rw [viaTask, start, start, start_viaTask inner]
    rfl
  | limit n inner =>
    rw [viaTask, start, start, start_viaTask inner]
    rfl
  | chain members =>
    rw [viaTask, start, start, startAll_viaTaskAll members]
    rfl

theorem startAll_viaTaskAll (cs : List Completer) :
    startAll source offset (viaTaskAll cs) = (startAll source offset cs).viaTask := by
  match cs with
  | [] => rfl
  | c :: rest =>
    rw [viaTaskAll, startAll, startAll, start_viaTask c, startAll_viaTaskAll rest]
    rfl

end

mutual

theorem ahead_start (c : Completer) :
    (c.start source offset).stream.ahead = (c.leaves source offset).flatMap (·.script) := by
  match c with
  | produced p => simp [start, leaves, Producer.start, Stream.ahead, Cursor.ofProducer]
  | phpKeywords => simp [start, leaves, Producer.start, Stream.ahead, Cursor.ofProducer]
  | phpVariables => simp [start, leaves, Producer.start, Stream.ahead, Cursor.ofProducer]
  | empty => simp [start, leaves, Producer.start, Stream.ahead, Cursor.ofProducer]
  | wrap inner => exact ahead_start inner
  | limit n inner => exact ahead_start inner
  | chain members => exact ahead_startAll members

theorem ahead_startAll (cs : List Completer) :
    (startAll source offset cs).ahead = (leavesAll source offset cs).flatMap (·.script) := by
  match cs with
  | [] => rfl
  | c :: rest =>
    rw [startAll, Members.ahead, ahead_start c, ahead_startAll rest, leavesAll, List.flatMap_append]

end

variable {source : Source} {offset : Int}

theorem Synchronous.not_mem_ahead {c : Completer} (h : c.Synchronous source offset) :
    .act .await ∉ (c.start source offset).stream.ahead := by
  rw [ahead_start, List.mem_flatMap]
  rintro ⟨p, hp, hawait⟩
  exact h p hp hawait

end Completer

end CompletionServer
