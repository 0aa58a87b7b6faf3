import CompletionServer.Completion.Service
import CompletionServer.Proofs.Completion.Loop

namespace CompletionServer

namespace CompletionService

variable (service : CompletionService)

structure Serves (workspace : Workspace) (place : Place) (document : Document)
    (completer : Completer) : Prop where
  document_eq : workspace.get? place.uri = some document
  completer_eq : service.registry.find (document.languageOr service.defaultLanguage) = .ok completer

def sourceOf (document : Document) : Source :=
  ⟨document.uri, document.text, document.languageOr service.defaultLanguage⟩

def search (document : Document) (completer : Completer) (position : Position) : Start :=
  completer.start (service.sourceOf document) ((LineTable.ofText document.text).offsetOf position)

def searchMeaning (document : Document) (completer : Completer) (position : Position) : Meaning :=
  completer.meaning (service.sourceOf document)
    ((LineTable.ofText document.text).offsetOf position)

def itemIn (document : Document) (s : Suggestion) : Item :=
  s.item service.options (LineTable.ofText document.text)

def answer (c : Collected) (document : Document) : CompletionList :=
  ⟨isIncomplete c, c.items.map (service.itemIn document)⟩

variable {service} {workspace : Workspace} {place : Place} {document : Document}
  {completer : Completer}

theorem meaning_search (position : Position) :
    (service.search document completer position).stream.meaning =
      service.searchMeaning document completer position :=
  completer.meaning_start _ _

theorem complete_eq_run (h : service.Serves workspace place document completer)
    (signals : Signals) :
    service.complete workspace place signals =
      service.run document (document.languageOr service.defaultLanguage) completer place.position
        signals := by
  simp only [complete, h.document_eq, h.completer_eq]

theorem complete_eq_of_failed (h : service.Serves workspace place document completer)
    {signals : Signals} {c : Collected}
    (hc : (service.search document completer place.position).stream.collect signals = c)
    {message : Text} (hf : c.ending = .failed message) :
    service.complete workspace place signals =
      ⟨.error (.raised message), c.signals,
        (service.search document completer place.position).events ++ c.events ++ c.stream.close.2,
        []⟩ := by
  subst hc
  rw [complete_eq_run h, run]
  dsimp only
  split
  next message' hm =>
    obtain rfl : message' = message := Ending.failed.inj (hm.symm.trans hf)
    rfl
  next hne => exact absurd hf (hne message)

theorem complete_of_failed (h : service.Serves workspace place document completer)
    {signals : Signals} {message : Text}
    (hc : ((service.search document completer place.position).stream.collect signals).ending =
      .failed message) :
    (service.complete workspace place signals).result = .error (.raised message) := by
  rw [complete_eq_of_failed h rfl hc]

theorem complete_of_not_failed (h : service.Serves workspace place document completer)
    {signals : Signals} {c : Collected}
    (hc : (service.search document completer place.position).stream.collect signals = c)
    (hne : ∀ message, c.ending ≠ .failed message) :
    service.complete workspace place signals =
      ⟨.ok (service.answer c document), c.signals,
        (service.search document completer place.position).events ++ c.events ++ c.stream.close.2,
        [summary document.uri (service.answer c document)]⟩ := by
  subst hc
  rw [complete_eq_run h, run]
  dsimp only
  split
  next message hm => exact absurd hm (hne message)
  next => rfl

theorem complete_cases (h : service.Serves workspace place document completer)
    {signals : Signals} {c : Collected}
    (hc : (service.search document completer place.position).stream.collect signals = c) :
    (∃ message, c.ending = .failed message ∧
      (service.complete workspace place signals).result = .error (.raised message)) ∨
    (∀ message, c.ending ≠ .failed message) ∧
      (service.complete workspace place signals).result = .ok (service.answer c document) := by
  by_cases hf : ∃ message, c.ending = .failed message
  · obtain ⟨message, hm⟩ := hf
    exact .inl ⟨message, hm, complete_of_failed h (hc ▸ hm)⟩
  · have hne := not_exists.mp hf
    exact .inr ⟨hne, by rw [complete_of_not_failed h hc hne]⟩

theorem readAs_search (position : Position) {signals : Signals} {c : Collected}
    (hc : (service.search document completer position).stream.collect signals = c) :
    (service.searchMeaning document completer position).ReadAs c.items
      (c.ending.finish? c.stream.isComplete) := by
  rw [← meaning_search, ← hc]
  exact Stream.collect_readAs signals _

/-- A list that does not call itself incomplete comes from a stream that stopped and was asked. -/
theorem ending_of_isIncomplete_eq_false {c : Collected} (hi : isIncomplete c = false)
    (hne : ∀ message, c.ending ≠ .failed message) :
    c.ending = .stopped ∧ c.stream.isComplete = true := by
  cases he : c.ending with
  | cancelled => simp [isIncomplete, he] at hi
  | stopped => exact ⟨rfl, by simpa [isIncomplete, he] using hi⟩
  | failed message => exact absurd he (hne message)

/-- Any answer holds a first part of the search, and a complete one holds all of it. -/
theorem exists_take_of_complete_ok (h : service.Serves workspace place document completer)
    {signals : Signals} {c : Collected}
    (hc : (service.search document completer place.position).stream.collect signals = c)
    {list : CompletionList} (hl : (service.complete workspace place signals).result = .ok list) :
    let m := service.searchMeaning document completer place.position
    ∃ k ≤ m.items.length, list.items = (m.items.take k).map (service.itemIn document) ∧
      (list.isIncomplete = false → k = m.items.length ∧ m.finish = .stopped true ∧
        c.ending = .stopped ∧ c.stream.isComplete = true) := by
  intro m
  have hm : m.ReadAs c.items (c.ending.finish? c.stream.isComplete) :=
    readAs_search place.position hc
  obtain ⟨message, -, hr⟩ | ⟨hne, hr⟩ := complete_cases h hc
  · rw [hr] at hl
    cases hl
  · obtain rfl : service.answer c document = list := Except.ok.inj (hr.symm.trans hl)
    refine ⟨c.items.length, hm.isPrefix.length_le, ?_, ?_⟩
    · rw [← List.prefix_iff_eq_take.mp hm.isPrefix]
      rfl
    · intro hi
      obtain ⟨hstop, hcomplete⟩ := ending_of_isIncomplete_eq_false hi hne
      rw [hstop, hcomplete] at hm
      have hall : m = ⟨c.items, .stopped true⟩ := hm
      exact ⟨by rw [hall], by rw [hall], hstop, hcomplete⟩

theorem complete_of_pull_failed (h : service.Serves workspace place document completer)
    {signals : Signals} {k : Nat} {l : Loop} {message : Text}
    (hk : (Loop.start signals
      (service.search document completer place.position).stream).after k = some l)
    (ht : l.signals.token = false) (ho : (l.stream.pull l.signals).outcome = .failed message) :
    (service.complete workspace place signals).result = .error (.raised message) := by
  apply complete_of_failed h
  rw [Loop.collect_eq_of_after hk, Loop.collected, Stream.collect_of_failed ht ho]

/-- Nothing but the search's own failure fails a request. -/
theorem finish_of_complete_error (h : service.Serves workspace place document completer)
    {signals : Signals} {e : Failure}
    (he : (service.complete workspace place signals).result = .error e) :
    ∃ message, e = .raised message ∧
      (service.searchMeaning document completer place.position).finish = .failed message := by
  obtain ⟨c, hc⟩ : ∃ c, (service.search document completer place.position).stream.collect
      signals = c := ⟨_, rfl⟩
  obtain ⟨message, hf, hr⟩ | ⟨-, hr⟩ := complete_cases h hc
  · have hm := readAs_search place.position hc
    rw [hf] at hm
    exact ⟨message, Except.error.inj (he.symm.trans hr), congrArg Meaning.finish hm⟩
  · rw [hr] at he
    cases he

def only (completer : Completer) : CompletionService :=
  ⟨.ofList [([], completer)], {}, []⟩

theorem serves_only (completer : Completer) (position : Position) :
    (only completer).Serves (.ofList [([], ⟨[], [], none⟩)]) ⟨[], position⟩ ⟨[], [], none⟩
      completer :=
  ⟨rfl, rfl⟩

/-- A complete answer is the whole search, and any answer a first part of it, whoever cancels what
and when. If a pull fails, the request fails with the same message, and it fails in no other
way. -/
theorem complete_items_eq_take (h : service.Serves workspace place document completer)
    (signals : Signals) :
    let m := service.searchMeaning document completer place.position
    let s := (service.search document completer place.position).stream
    let report := service.complete workspace place signals
    (∀ list, report.result = .ok list →
      ∃ k ≤ m.items.length, list.items = (m.items.take k).map (service.itemIn document) ∧
        (list.isIncomplete = false → k = m.items.length ∧ m.finish = .stopped true ∧
          (s.collect signals).ending = .stopped ∧ (s.collect signals).stream.isComplete = true)) ∧
    (∀ k l message, (Loop.start signals s).after k = some l → l.signals.token = false →
      (l.stream.pull l.signals).outcome = .failed message →
      report.result = .error (.raised message)) ∧
    ∀ e, report.result = .error e →
      ∃ message, e = .raised message ∧ m.finish = .failed message := by
  intro m s report
  refine ⟨?_, ?_, ?_⟩
  · intro list hlist
    exact exists_take_of_complete_ok h rfl hlist
  · intro k l message hk ht ho
    exact complete_of_pull_failed h hk ht ho
  · intro e he
    exact finish_of_complete_error h he

/-- A producer that fails behind another one's suggestion in a chain fails the request. -/
theorem complete_fails_with_member :
    ((only (.chain [.produced ⟨none, .fixed, [.suggest ⟨"a", none, none, none, none, none⟩]⟩,
      .wrap (.produced ⟨none, .asynchronous, [.act .await, .act (.raise "lost")]⟩)])).complete
      (.ofList [([], ⟨[], [], none⟩)]) ⟨[], ⟨0, 0⟩⟩ {}).result = .error (.raised "lost") :=
  (complete_items_eq_take (serves_only _ ⟨0, 0⟩) {}).2.1 1 _ "lost" rfl rfl rfl

/-- A cancellation ends the request where it takes effect. The answer holds exactly the suggestions
taken until then and calls itself incomplete. The stream is not asked again: it is closed as the
cancellation found it, and nothing is seen after that moment but its closing. -/
theorem request_eq_of_cancelledAfter (h : service.Serves workspace place document completer)
    {signals : Signals} {k : Nat} {l : Loop}
    (hl : (Loop.start signals
      (service.search document completer place.position).stream).CancelledAfter k l) :
    let started := service.search document completer place.position
    let m := service.searchMeaning document completer place.position
    let list : CompletionList := ⟨true, (m.items.take k).map (service.itemIn document)⟩
    let report : Report CompletionList := ⟨.ok list, l.signals,
      started.events ++ l.events ++ l.stream.close.2, [summary document.uri list]⟩
    k ≤ m.items.length ∧ (started.stream.collect signals).stream = l.stream ∧
      service.complete workspace place signals = report ∧
      service.request workspace place signals = report := by
  intro started m list report
  have hc : started.stream.collect signals =
      ⟨l.items, .cancelled, l.stream, l.signals, l.events⟩ := hl.collect_eq
  have hm := readAs_search place.position hc
  have htake : l.items = m.items.take k := by
    rw [← hl.length_items]
    exact List.prefix_iff_eq_take.mp hm.isPrefix
  have hcomplete : service.complete workspace place signals = report := by
    rw [complete_of_not_failed h hc (by simp)]
    simp only [answer, isIncomplete, htake]
    rfl
  refine ⟨?_, by rw [hc], hcomplete, ?_⟩
  · rw [← hl.length_items]
    exact hm.isPrefix.length_le
  · rw [request, hcomplete, Report.settle]
    simp [report, hl.task_eq_false]

/-- A search whose producer cancels the task behind its first suggestion. -/
def selfCancelling : Completer :=
  .produced ⟨none, .asynchronous, [.suggest ⟨"a", none, none, none, none, none⟩, .act .cancelTask,
    .act .await, .suggest ⟨"b", none, none, none, none, none⟩]⟩

theorem request_selfCancelling :
    ((only selfCancelling).request (.ofList [([], ⟨[], [], none⟩)]) ⟨[], ⟨0, 0⟩⟩ {}).result =
      .ok ⟨true, [Suggestion.item {} (.ofText []) ⟨"a", none, none, none, none, none⟩]⟩ := by
  have hl : (Loop.start {} ((only selfCancelling).search ⟨[], [], none⟩ selfCancelling
      ⟨0, 0⟩).stream).CancelledAfter 1 _ := .inside rfl rfl rfl
  rw [(request_eq_of_cancelledAfter (serves_only _ ⟨0, 0⟩) hl).2.2.2]
  rfl

end CompletionService

end CompletionServer
