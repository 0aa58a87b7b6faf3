import CompletionServer.Proofs.Completion.Answer

namespace CompletionServer

namespace Loop

/-- The token is first cancelled in the pull that finds the end of the search, of which nothing has
been left out. -/
def CancelledAtEnd (first : Loop) : Prop :=
  ∃ k l, first.after k = some l ∧ l.signals.token = false ∧
    (l.stream.pull l.signals).signals.token = true ∧ (l.stream.pull l.signals).outcome = .stop ∧
    (l.stream.pull l.signals).stream.isComplete = true

variable {signals : Signals} {s : Stream}

theorem collect_of_cancelledAtEnd (h : (start signals s).CancelledAtEnd) :
    (s.collect signals).ending = .stopped ∧ (s.collect signals).stream.isComplete = true ∧
      (s.collect signals).signals.token = true := by
  obtain ⟨k, l, hk, ht, htoken, hstop, hcomplete⟩ := h
  rw [collect_eq_of_after hk, collected, Stream.collect_of_stop ht hstop]
  exact ⟨rfl, hcomplete, htoken⟩

theorem collect_of_token_cancelled (htoken : (s.collect signals).signals.token = true) :
    (s.collect signals).ending = .cancelled ∨
      (∃ message, (s.collect signals).ending = .failed message) ∨
      ((s.collect signals).ending = .stopped ∧ (s.collect signals).stream.isComplete = false) ∨
      (start signals s).CancelledAtEnd := by
  obtain ⟨k, l, hk, hlast⟩ := (start signals s).exists_last
  rw [collect_eq_of_after hk, collected] at *
  obtain ht | ⟨ht, hne⟩ := cases_of_next_eq_none hlast
  · rw [Stream.collect_of_token ht]
    exact .inl rfl
  cases ho : (l.stream.pull l.signals).outcome with
  | item x => exact absurd ho (hne x)
  | failed message =>
    rw [Stream.collect_of_failed ht ho]
    exact .inr (.inl ⟨message, rfl⟩)
  | cancelled =>
    rw [Stream.collect_of_cancelled ht ho]
    exact .inl rfl
  | stop =>
    rw [Stream.collect_of_stop ht ho] at *
    -- A stop is the one outcome after which nobody looks at the token.
    cases hcomplete : (l.stream.pull l.signals).stream.isComplete with
    | false => exact .inr (.inr (.inl ⟨rfl, rfl⟩))
    | true => exact .inr (.inr (.inr ⟨k, l, hk, ht, htoken, ho, hcomplete⟩))

end Loop

namespace CompletionService

variable {service : CompletionService} {workspace : Workspace} {place : Place}
  {document : Document} {completer : Completer}

/-- The list that answers a request whose token is cancelled by the time the streaming ends calls
itself incomplete, unless the token is first cancelled in the very pull that finds the end of a
complete search: nobody looks at the token after that. -/
theorem isIncomplete_iff_not_cancelledAtEnd
    (h : service.Serves workspace place document completer) {signals : Signals}
    {list : CompletionList} (hl : (service.complete workspace place signals).result = .ok list)
    (htoken : (service.complete workspace place signals).signals.token = true) :
    list.isIncomplete = true ↔
      ¬(Loop.start signals
        (service.search document completer place.position).stream).CancelledAtEnd := by
  obtain ⟨c, hc⟩ : ∃ c, (service.search document completer place.position).stream.collect
      signals = c := ⟨_, rfl⟩
  obtain ⟨message, -, hr⟩ | ⟨hne, -⟩ := complete_cases h hc
  · rw [hr] at hl
    cases hl
  rw [complete_of_not_failed h hc hne] at hl htoken
  obtain rfl : service.answer c document = list := Except.ok.inj hl
  subst hc
  constructor
  · intro hincomplete hend
    obtain ⟨hstop, hcomplete, -⟩ := Loop.collect_of_cancelledAtEnd hend
    simp [answer, isIncomplete, hstop, hcomplete] at hincomplete
  · intro hend
    obtain hcancelled | ⟨message, hf⟩ | ⟨hstop, hcomplete⟩ | hatEnd :=
      Loop.collect_of_token_cancelled htoken
    · simp [answer, isIncomplete, hcancelled]
    · exact absurd hf (hne message)
    · simp [answer, isIncomplete, hstop, hcomplete]
    · exact absurd hatEnd hend

/-- A generator that cancels the token on its way to the last suggestion or to its end. -/
def cancelling (more : List Step) : Completer :=
  .produced ⟨none, .generator .null,
    .suggest ⟨"a", none, none, none, none, none⟩ :: .act .cancelToken :: more⟩

/-- Behind a limit the same pull drops a suggestion, so the list is incomplete in any case. -/
theorem isIncomplete_of_cancelled_at_limit :
    let completer := Completer.limit 1 (cancelling [.suggest ⟨"b", none, none, none, none, none⟩])
    let report := (only completer).complete (.ofList [([], ⟨[], [], none⟩)]) ⟨[], ⟨0, 0⟩⟩ {}
    ∃ list, report.result = .ok list ∧ report.signals.token = true ∧
      list.isIncomplete = true := by
  intro completer report
  have hserves := serves_only completer ⟨0, 0⟩
  have hc : ((only completer).search ⟨[], [], none⟩ completer ⟨0, 0⟩).stream.collect {} = _ :=
    (Stream.collect_of_item rfl rfl).trans (by rw [Stream.collect_of_stop rfl rfl])
  have hreport := complete_of_not_failed hserves hc (by simp)
  have hresult : report.result = .ok _ := congrArg Report.result hreport
  have htoken : report.signals.token = true := by
    rw [show report = _ from hreport]
    rfl
  refine ⟨_, hresult, htoken, (isIncomplete_iff_not_cancelledAtEnd hserves hresult htoken).mpr ?_⟩
  rintro ⟨k, l, hk, ht, -, hstop, hcomplete⟩
  match k with
  | 0 =>
    obtain rfl := Option.some.inj hk
    cases hstop
  | 1 =>
    obtain rfl := Option.some.inj hk
    cases hcomplete
  | k + 2 => cases hk

/-- Without a limit it finds the end, and the list calls itself complete although the request is
cancelled. -/
theorem not_isIncomplete_of_cancelled_at_end :
    let report := (only (cancelling [])).complete (.ofList [([], ⟨[], [], none⟩)]) ⟨[], ⟨0, 0⟩⟩ {}
    report.signals.token = true ∧ report.result =
      .ok ⟨false, [Suggestion.item {} (.ofText []) ⟨"a", none, none, none, none, none⟩]⟩ := by
  intro report
  have hc : ((only (cancelling [])).search ⟨[], [], none⟩ (cancelling []) ⟨0, 0⟩).stream.collect
      {} = _ :=
    (Stream.collect_of_item rfl rfl).trans (by rw [Stream.collect_of_stop rfl rfl])
  have hreport := complete_of_not_failed (serves_only (cancelling []) ⟨0, 0⟩) hc (by simp)
  rw [show report = _ from hreport]
  exact ⟨rfl, rfl⟩

end CompletionService

end CompletionServer
