import CompletionServer.Proofs.Completion.Edit
import CompletionServer.Proofs.Stream.Reading

namespace CompletionServer

namespace Signals

/-- A property of signals that nothing can undo which happens while a search is pulled. -/
structure Stable (P : Signals → Prop) : Prop where
  cancelToken {s : Signals} : P s → P s.cancelToken
  cancelTask {s : Signals} : P s → P s.cancelTask
  suspend {s : Signals} : P s → P s.suspend
  strike {s : Signals} : P s → P s.strike

/-- The token is not cancelled, and whoever cancels reaches another one. -/
def OutOfReach (s : Signals) : Prop :=
  s.token = false ∧ s.detached.isSome = true

theorem OutOfReach.cancelToken {s : Signals} (h : s.OutOfReach) : s.cancelToken.OutOfReach := by
  unfold Signals.cancelToken
  split
  next hd => exact absurd h.2 (by simp [hd])
  next => exact ⟨h.1, rfl⟩

theorem OutOfReach.arrive {s : Signals} (h : s.OutOfReach) (a : Arrival) :
    (s.arrive a).OutOfReach := by
  obtain ⟨token, task⟩ := a
  cases token <;> cases task
  · exact h
  · exact h
  · exact h.cancelToken
  · exact h.cancelToken

theorem stable_outOfReach : Stable OutOfReach where
  cancelToken := OutOfReach.cancelToken
  cancelTask h := h
  strike h := h
  suspend {s} h := by
    unfold Signals.suspend
    split
    next => exact h
    next a rest hcoming =>
      have hrest : OutOfReach { s with coming := rest } := h
      exact hrest.arrive a

structure Undisturbed (s : Signals) : Prop where
  outOfReach : s.OutOfReach
  calm : s.Calm

end Signals

variable {P : Signals → Prop}

theorem Producer.run_stable (hP : Signals.Stable P) (p : Producer) (signals : Signals)
    (steps : List Step) (h : P signals) : P (p.run signals steps).signals := by
  fun_induction Producer.run p signals steps with
  | case1 => exact h
  | case2 => exact h
  | case3 => exact h
  | case4 signals rest r ih => exact ih (hP.cancelToken h)
  | case5 signals rest r ih => exact ih (hP.cancelTask h)
  | case6 signals rest ht => exact hP.strike (hP.suspend h)
  | case7 signals rest ht r ih => exact ih (hP.suspend h)

theorem Cursor.advance_stable (hP : Signals.Stable P) (c : Cursor) {signals : Signals}
    (h : P signals) : P (c.advance signals).signals := by
  unfold advance
  split
  · exact h
  · exact c.producer.run_stable hP signals c.rest h

namespace Stream

theorem signals_limitPull (p : Progress) (limit taken : Nat) (r : Pull) :
    (limitPull p limit taken r).signals = r.signals := by
  unfold limitPull
  split
  · split <;> rfl
  · rfl
  · rfl

mutual

theorem pull_stable (hP : Signals.Stable P) {signals : Signals} (h : P signals) (s : Stream) :
    P (s.pull signals).signals := by
  match s with
  | leaf p c =>
    unfold pull
    split
    · exact h
    · exact c.advance_stable hP h
  | wrapped p inner =>
    unfold pull
    split
    · exact h
    · exact pull_stable hP h inner
  | limited p limit taken inner =>
    unfold pull
    split
    · exact h
    · rw [signals_limitPull]
      exact pull_stable hP h inner
  | chained p allComplete members =>
    unfold pull
    split
    · exact h
    · exact pullMembers_stable hP h allComplete members

theorem pullMembers_stable (hP : Signals.Stable P) {signals : Signals} (h : P signals)
    (allComplete : Bool) (ms : Members) : P (pullMembers signals allComplete ms).signals := by
  match ms with
  | .nil => exact h
  | .cons waiting head tail =>
    have hhead := pull_stable hP h head
    rw [pullMembers]
    split
    · exact pullMembers_stable hP hhead _ tail
    · exact hhead

end

end Stream

namespace Signals.Undisturbed

variable {signals : Signals}

theorem pull (h : signals.Undisturbed) {s : Stream} (hs : ¬s.CancelsTask) :
    (s.pull signals).signals.Undisturbed :=
  ⟨Stream.pull_stable stable_outOfReach h.outOfReach s, (Stream.pull_calm h.calm s hs).signals_calm⟩

theorem afterSuspension (h : signals.Undisturbed) : signals.afterSuspension.Undisturbed := by
  have hcalm := h.calm.suspend
  rw [Signals.afterSuspension, if_neg (by simp [hcalm.1])]
  exact ⟨stable_outOfReach.suspend h.outOfReach, hcalm⟩

end Signals.Undisturbed

theorem Stream.collect_of_undisturbed (s : Stream) (signals : Signals) (h : signals.Undisturbed)
    (hs : ¬s.CancelsTask) :
    (s.collect signals).ending ≠ .cancelled ∧ (s.collect signals).signals.Undisturbed := by
  fun_induction Stream.collect signals s with
  | case1 signals s ht => exact absurd ht (by simp [h.outOfReach.1])
  | case2 signals s ht r x ho this c ih =>
    exact ih (h.pull hs).afterSuspension (pull_calm h.calm s hs).stream_calm
  | case3 signals s ht r ho => exact ⟨by simp, h.pull hs⟩
  | case4 signals s ht r message ho => exact ⟨by simp, h.pull hs⟩
  | case5 signals s ht r ho => exact absurd ho (pull_calm h.calm s hs).outcome_ne

namespace CompletionService

variable {service : CompletionService} {workspace : Workspace} {place : Place}
  {document : Document} {completer : Completer} {signals : Signals}

theorem request_of_undisturbed (h : service.Serves workspace place document completer)
    (hu : signals.Undisturbed)
    (hs : ¬(service.search document completer place.position).stream.CancelsTask) :
    let m := service.searchMeaning document completer place.position
    (service.request workspace place signals).result =
      match m.finish with
      | .stopped complete => .ok ⟨!complete, m.items.map (service.itemIn document)⟩
      | .failed message => .error (.raised message) := by
  intro m
  obtain ⟨c, hc⟩ : ∃ c, (service.search document completer place.position).stream.collect
      signals = c := ⟨_, rfl⟩
  obtain ⟨hne, hsignals⟩ := Stream.collect_of_undisturbed _ signals hu hs
  have hm : m.ReadAs c.items (c.ending.finish? c.stream.isComplete) :=
    readAs_search place.position hc
  rw [hc] at hne hsignals
  cases he : c.ending with
  | cancelled => exact absurd he hne
  | stopped =>
    rw [he] at hm
    rw [show m = ⟨c.items, .stopped c.stream.isComplete⟩ from hm, request,
      complete_of_not_failed h hc (by simp [he]), Report.settle]
    simp [hsignals.calm.1, answer, isIncomplete, he]
  | failed message =>
    rw [he] at hm
    have hfail := complete_of_failed h (hc ▸ he)
    rw [show m = ⟨c.items, .failed message⟩ from hm, request, Report.settle, hfail]
    exact hfail

end CompletionService

namespace Php

def candidates (data : List UInt8) (offset : Int) : List Suggestion :=
  variableSuggestions data offset ++ keywordSuggestions data offset

end Php

namespace Completer

variable {source : Source} {offset : Int} {cap : Option Nat}

/-- A cap leaves something out just if there is more than it allows. -/
theorem meaning_php (cap : Option Nat) :
    let candidates := Php.candidates source.data offset
    (php cap).meaning source offset =
      ⟨candidates.take (cap.getD candidates.length),
        .stopped (!cap.any (· < candidates.length))⟩ := by
  intro candidates
  have hall : (php none).meaning source offset = ⟨candidates, .stopped true⟩ := meaning_php_none
  cases cap with
  | none => simpa using hall
  | some n =>
    have hlimit : (php (some n)).meaning source offset = Meaning.limit n ⟨candidates, _⟩ :=
      congrArg (Meaning.limit n) hall
    rw [hlimit, Meaning.limit]
    by_cases hn : n < candidates.length
    · simp [hn]
    · have htake : candidates.take n = candidates := List.take_of_length_le (Nat.le_of_not_lt hn)
      simp [hn, htake]

theorem not_cancelsTask_start_php (cap : Option Nat) :
    ¬((php cap).start source offset).stream.CancelsTask := by
  cases cap <;>
    simp [php, start, startAll, Producer.start, Cursor.ofProducer, Producer.silent,
      Stream.CancelsTask, Members.CancelsTask]

end Completer

namespace CompletionService

variable {service : CompletionService} {workspace : Workspace} {place : Place}
  {document : Document} {cap : Option Nat} {signals : Signals}

/-- An undisturbed PHP completion gives as many of the candidates as the cap allows, and is
incomplete just if it allows fewer than there are. -/
theorem request_php_of_undisturbed (h : service.Serves workspace place document (.php cap))
    (hu : signals.Undisturbed) :
    let candidates := Php.candidates document.text.utf8
      ((LineTable.ofText document.text).offsetOf place.position)
    (service.request workspace place signals).result =
      .ok ⟨cap.any (· < candidates.length),
        (candidates.take (cap.getD candidates.length)).map (service.itemIn document)⟩ := by
  intro candidates
  have hm : service.searchMeaning document (.php cap) place.position =
      ⟨candidates.take (cap.getD candidates.length),
        .stopped (!cap.any (· < candidates.length))⟩ := Completer.meaning_php cap
  have hrequest := request_of_undisturbed h hu (Completer.not_cancelsTask_start_php cap)
  simpa only [hm, Bool.not_not] using hrequest

end CompletionService

end CompletionServer
