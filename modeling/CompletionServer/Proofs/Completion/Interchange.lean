import CompletionServer.Proofs.Completion.Answer
import CompletionServer.Proofs.Stream.Interchange

namespace CompletionServer

structure Collected.Mirrors (c c' : Collected) : Prop where
  items_eq : c'.items = c.items
  ending_eq : c'.ending = c.ending
  stream_eq : c'.stream = c.stream.viaTask
  events_eq : c'.events = c.events.map Event.viaTask
  signals_eq : c.ending = .cancelled → c'.signals = c.signals

/-- Where the loop asks the token, the signals are the same in both runs: behind every suggestion
the task has been suspended. -/
theorem Stream.collect_viaTask (signals : Signals) (s : Stream) (hd : signals.detached = none)
    (hs : .act .await ∉ s.ahead) : (s.collect signals).Mirrors (s.viaTask.collect signals) := by
  fun_induction Stream.collect signals s with
  | case1 signals s ht =>
    rw [collect_of_token ht]
    exact ⟨rfl, rfl, rfl, rfl, fun _ => rfl⟩
  | case2 signals s ht r x ho this c ih =>
    have hr : r.Mirrors (s.viaTask.pull signals) :=
      pull_viaTask (Signals.interchanges_self hd) s hs
    -- The suspension behind the suggestion takes away what the two runs differ in.
    have hc := ih hr.signals_interchange.detached_afterSuspension
      (fun h => hs (ahead_pull_subset signals s h))
    rw [collect_of_item (eq_false_of_ne_true ht) (hr.outcome_eq.trans ho), hr.stream_eq,
      hr.signals_interchange.afterSuspension_eq_afterSuspension]
    refine ⟨congrArg (x :: ·) hc.items_eq, hc.ending_eq, hc.stream_eq, ?_, hc.signals_eq⟩
    rw [List.map_append, ← hr.events_eq, ← hc.events_eq]
  | case3 signals s ht r ho =>
    have hr : r.Mirrors (s.viaTask.pull signals) :=
      pull_viaTask (Signals.interchanges_self hd) s hs
    rw [collect_of_stop (eq_false_of_ne_true ht) (hr.outcome_eq.trans ho)]
    exact ⟨rfl, rfl, hr.stream_eq, hr.events_eq, by simp⟩
  | case4 signals s ht r message ho =>
    have hr : r.Mirrors (s.viaTask.pull signals) :=
      pull_viaTask (Signals.interchanges_self hd) s hs
    rw [collect_of_failed (eq_false_of_ne_true ht) (hr.outcome_eq.trans ho)]
    exact ⟨rfl, rfl, hr.stream_eq, hr.events_eq, by simp⟩
  | case5 signals s ht r ho =>
    have hr : r.Mirrors (s.viaTask.pull signals) :=
      pull_viaTask (Signals.interchanges_self hd) s hs
    rw [collect_of_cancelled (eq_false_of_ne_true ht) (hr.outcome_eq.trans ho)]
    exact ⟨rfl, rfl, hr.stream_eq, hr.events_eq, fun _ => hr.signals_interchange.accept_eq⟩

attribute [ext] Report

namespace CompletionService

variable {service : CompletionService} {workspace : Workspace} {place : Place}
  {document : Document} {completer : Completer} {registry : Registry Completer}

theorem complete_viaTask (h : service.Serves workspace place document completer)
    (h' : { service with registry := registry }.Serves workspace place document completer.viaTask)
    {signals : Signals} (hd : signals.detached = none)
    (hs : completer.Synchronous (service.sourceOf document)
      ((LineTable.ofText document.text).offsetOf place.position)) :
    let c := (service.search document completer place.position).stream.collect signals
    let report := service.complete workspace place signals
    let report' := { service with registry := registry }.complete workspace place signals
    report'.result = report.result ∧ report'.logs = report.logs ∧
      report'.events = report.events.map Event.viaTask ∧
      (c.ending = .cancelled → report'.signals = report.signals) := by
  intro c report report'
  have hstart : { service with registry := registry }.search document completer.viaTask
      place.position = (service.search document completer place.position).viaTask :=
    completer.start_viaTask _ _
  obtain ⟨c', hc'⟩ : ∃ c', ({ service with registry := registry }.search document
      completer.viaTask place.position).stream.collect signals = c' := ⟨_, rfl⟩
  have hc : c.Mirrors c' := by
    rw [← hc', hstart]
    exact Stream.collect_viaTask signals _ hd hs.not_mem_ahead
  have hclose : c'.stream.close.2 = c.stream.close.2.map Event.viaTask := by
    rw [hc.stream_eq, Stream.close_viaTask]
  have hevents : (service.search document completer place.position).viaTask.events ++ c'.events ++
      c'.stream.close.2 = ((service.search document completer place.position).events ++ c.events ++
        c.stream.close.2).map Event.viaTask := by
    rw [List.map_append, List.map_append, hc.events_eq, hclose]
    rfl
  -- The searches end alike; only one that fails leaves the request without a list.
  by_cases hf : ∃ message, c.ending = .failed message
  · obtain ⟨message, hm⟩ := hf
    have hr : report = _ := complete_eq_of_failed h rfl hm
    have hr' : report' = _ := complete_eq_of_failed h' hc' (hc.ending_eq.trans hm)
    rw [hr, hr', hstart]
    exact ⟨rfl, rfl, hevents, hc.signals_eq⟩
  · have hne := not_exists.mp hf
    have hr : report = _ := complete_of_not_failed h rfl hne
    have hr' : report' = _ := complete_of_not_failed h' hc' (hc.ending_eq ▸ hne)
    have hanswer : { service with registry := registry }.answer c' document =
        service.answer c document := by
      simp only [answer, isIncomplete, hc.ending_eq, hc.items_eq, hc.stream_eq,
        Stream.isComplete_viaTask]
      rfl
    rw [hr, hr', hstart, hanswer]
    exact ⟨rfl, rfl, hevents, hc.signals_eq⟩

/-- A pull that cancels the token and still hands out a suggestion is the last one, and the request
is answered with what has been taken so far, as an incomplete list. Had the task been cancelled in
place of the token, the request would have been answered by the same list and left the same message,
and nothing else would have been seen of the producers but the other cancellation. -/
theorem request_viaTask_of_cancelled (h : service.Serves workspace place document completer)
    (h' : { service with registry := registry }.Serves workspace place document completer.viaTask)
    {signals : Signals} (hd : signals.detached = none)
    (hs : completer.Synchronous (service.sourceOf document)
      ((LineTable.ofText document.text).offsetOf place.position))
    {k : Nat} {l : Loop} {x : Suggestion}
    (hk : (Loop.start signals
      (service.search document completer place.position).stream).after k = some l)
    (ht : l.signals.token = false) (ho : (l.stream.pull l.signals).outcome = .item x)
    (hcancel : (l.stream.pull l.signals).signals.token = true) :
    let r := l.stream.pull l.signals
    let events := (service.search document completer place.position).events ++
      (l.events ++ r.events) ++ r.stream.close.2
    let list : CompletionList := ⟨true, (l.items ++ [x]).map (service.itemIn document)⟩
    let report (seen : List Event) : Report CompletionList :=
      ⟨.ok list, r.signals.afterSuspension, seen, [summary document.uri list]⟩
    let service' := { service with registry := registry }
    service.complete workspace place signals = report events ∧
      service.request workspace place signals = report events ∧
      service'.complete workspace place signals = report (events.map Event.viaTask) ∧
      service'.request workspace place signals = report (events.map Event.viaTask) := by
  intro r events list report service'
  have hc : (service.search document completer place.position).stream.collect signals =
      ⟨l.items ++ [x], .cancelled, r.stream, r.signals.afterSuspension, l.events ++ r.events⟩ := by
    -- Behind the suggestion the loop finds the token cancelled and goes no further.
    rw [Loop.collect_eq_of_after hk, Loop.collected, Stream.collect_of_item ht ho,
      Stream.collect_of_token (Signals.token_afterSuspension hcancel)]
    simp [r]
  have hcomplete : service.complete workspace place signals = report events :=
    complete_of_not_failed h hc (by simp)
  have hcomplete' : service'.complete workspace place signals =
      report (events.map Event.viaTask) := by
    obtain ⟨hresult, hlogs, hevents, hsignals⟩ := complete_viaTask h h' hd hs
    replace hsignals := hsignals (by rw [hc])
    rw [hcomplete] at hresult hlogs hevents hsignals
    exact Report.ext hresult hsignals hevents hlogs
  have hsettle (seen : List Event) : (report seen).settle = report seen := by
    simp [Report.settle, report, Signals.task_afterSuspension]
  refine ⟨hcomplete, ?_, hcomplete', ?_⟩
  · rw [request, hcomplete, hsettle]
  · rw [request, hcomplete', hsettle]

/-- The generator cancels the token before a suggestion that its limit drops, so that the list
behind it hands out the last one. -/
def cancellingAtLimit : Completer :=
  .chain [.limit 1 (.produced ⟨some "g", .generator .null,
      [.suggest ⟨"a", none, none, none, none, none⟩, .act .cancelToken,
        .suggest ⟨"b", none, none, none, none, none⟩]⟩),
    .produced ⟨some "l", .fixed, [.suggest ⟨"c", none, none, none, none, none⟩,
      .suggest ⟨"d", none, none, none, none, none⟩]⟩]

theorem request_viaTask_cancellingAtLimit :
    let workspace : Workspace := .ofList [([], ⟨[], [], none⟩)]
    let report := (only cancellingAtLimit).request workspace ⟨[], ⟨0, 0⟩⟩ {}
    let report' := (only cancellingAtLimit.viaTask).request workspace ⟨[], ⟨0, 0⟩⟩ {}
    (∃ list, report.result = .ok list ∧ list.isIncomplete = true ∧
      list.items.map Item.label = ["a", "c"]) ∧
    report'.result = report.result ∧ report'.logs = report.logs ∧
      report'.events = report.events.map Event.viaTask := by
  intro workspace report report'
  have hs : cancellingAtLimit.Synchronous ⟨[], [], []⟩ 0 := by
    simp [Completer.Synchronous, cancellingAtLimit, Completer.leaves, Completer.leavesAll]
  have hk : (Loop.start {} ((only cancellingAtLimit).search ⟨[], [], none⟩ cancellingAtLimit
      ⟨0, 0⟩).stream).after 1 = some _ := rfl
  obtain ⟨-, hr, -, hr'⟩ := request_viaTask_of_cancelled (serves_only cancellingAtLimit ⟨0, 0⟩)
    (serves_only cancellingAtLimit.viaTask ⟨0, 0⟩) rfl hs hk rfl rfl rfl
  rw [show report = _ from hr, show report' = _ from hr']
  exact ⟨⟨_, rfl, rfl, rfl⟩, rfl, rfl, rfl⟩

end CompletionService

end CompletionServer
