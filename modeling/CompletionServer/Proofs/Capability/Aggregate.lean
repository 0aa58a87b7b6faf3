import CompletionServer.Capability.Group
import CompletionServer.Proofs.Completion.Answer
import CompletionServer.Proofs.Stream.Release
import Mathlib

namespace CompletionServer

namespace Report

variable {α : Type} {r : Report α}

theorem settle_eq_ok {a : α} (h : r.settle.result = .ok a) : r.result = .ok a := by
  unfold settle at h
  split at h
  · split at h
    · cases h
    · exact h
  · exact h

/-- Only a pending cancellation takes an answer back. -/
theorem settle_eq_error {a : α} {e : Failure} (ha : r.result = .ok a)
    (h : r.settle.result = .error e) : e = .cancelled ∧ r.signals.task = true := by
  simp only [settle, ha] at h
  split at h
  next ht => exact ⟨(Except.error.inj h).symm, ht⟩
  next =>
    rw [ha] at h
    cases h

end Report

namespace CompletionService

variable {service : CompletionService} {workspace : Workspace} {place : Place}
  {document : Document} {completer : Completer} {signals : Signals}

theorem complete_of_token (h : service.Serves workspace place document completer)
    (ht : signals.token = true) :
    service.complete workspace place signals =
      ⟨.ok ⟨true, []⟩, signals, (service.search document completer place.position).events,
        [summary document.uri ⟨true, []⟩]⟩ := by
  have hclose : (service.search document completer place.position).stream.close.2 = [] :=
    Stream.events_close_of_holder (Completer.holder_start _ _ completer)
  rw [complete_of_not_failed h (Stream.collect_of_token ht) (by simp)]
  simp [answer, isIncomplete, hclose]

theorem signals_complete_of_token (ht : signals.token = true) :
    (service.complete workspace place signals).signals = signals := by
  cases hd : workspace.get? place.uri with
  | none => simp [complete, hd]
  | some document =>
    cases hc : service.registry.find (document.languageOr service.defaultLanguage) with
    | error e => simp [complete, hd, hc]
    | ok completer => rw [complete_of_token ⟨hd, hc⟩ ht]

end CompletionService

namespace Capability

/-- An answer that is a list. -/
structure Given where
  answer : Answer CompletionList
  list : CompletionList
  result_eq : answer.report.result = .ok list

def joined (given : List Given) : CompletionList :=
  ⟨given.any (·.list.isIncomplete), given.flatMap (·.list.items)⟩

/-- What comes of a request in which these answers are given before all others. -/
def behind (given : List Given) (others : Answer CompletionList) : Answer CompletionList :=
  ⟨⟨others.report.result.map fun more =>
      ⟨(joined given).isIncomplete || more.isIncomplete, (joined given).items ++ more.items⟩,
    others.report.signals, given.flatMap (·.answer.report.events) ++ others.report.events,
    given.flatMap (·.answer.report.logs) ++ others.report.logs⟩,
    given.flatMap (·.answer.notes) ++ others.notes⟩

theorem behind_nil (others : Answer CompletionList) : behind [] others = others := by
  obtain ⟨⟨result, signals, events, logs⟩, notes⟩ := others
  cases result <;> simp [behind, joined, Except.map]

theorem exists_of_behind_ok {given : List Given} {others : Answer CompletionList}
    {list : CompletionList} (h : (behind given others).report.result = .ok list) :
    ∃ more, others.report.result = .ok more ∧
      list.isIncomplete = ((joined given).isIncomplete || more.isIncomplete) := by
  obtain ⟨⟨result, signals, events, logs⟩, notes⟩ := others
  cases result with
  | error e => cases h
  | ok more =>
    obtain rfl := Except.ok.inj h
    exact ⟨more, rfl, rfl⟩

theorem behind_cons (x : Given) (given : List Given) (others : Answer CompletionList) :
    behind (x :: given) others = behind [x] (behind given others) := by
  obtain ⟨⟨result, signals, events, logs⟩, notes⟩ := others
  cases result <;> simp [behind, joined, Except.map, Bool.or_assoc]

variable (workspace : Workspace) (place : Place)

/-- Asked in turn, each with the signals that the one before it has left, the capabilities give
these answers and leave the signals behind them. Those of another feature are passed over. -/
inductive Answered : Signals → List Capability → List Given → Signals → Prop
  | nil {signals : Signals} : Answered signals [] [] signals
  | skip {signals after : Signals} {c : Capability} {cs : List Capability} {given : List Given} :
    c.complete? workspace place signals = none → Answered signals cs given after →
    Answered signals (c :: cs) given after
  | cons {signals after : Signals} {c : Capability} {cs : List Capability} {x : Given}
    {given : List Given} : c.complete? workspace place signals = some x.answer →
    Answered x.answer.report.signals cs given after → Answered signals (c :: cs) (x :: given) after

/-- The capabilities are asked in turn, some of them give their answers, and the next one fails. -/
inductive Failed (signals : Signals) (cs : List Capability) (given : List Given)
    (a : Answer CompletionList) (e : Failure) : Prop
  | intro {before later : List Capability} {c : Capability} {mid : Signals} :
    cs = before ++ c :: later → Answered workspace place signals before given mid →
    c.complete? workspace place mid = some a → a.report.result = .error e →
    Failed signals cs given a e

variable {workspace : Workspace} {place : Place} {signals after : Signals} {cs : List Capability}
  {given : List Given}

theorem token_of_complete?_eq_some {c : Capability} {a : Answer CompletionList}
    (h : c.complete? workspace place signals = some a) (ht : signals.token = true) :
    a.report.signals.token = true := by
  cases c with
  | completion service =>
    obtain rfl := Option.some.inj h
    exact (congrArg Signals.token (CompletionService.signals_complete_of_token ht)).trans ht
  | fixedCompletion c =>
    obtain rfl := Option.some.inj h
    dsimp only
    split
    · rfl
    · exact ht
  | help service => cases h
  | fixedHelp c => cases h

theorem completeAll_of_none {c : Capability} (h : c.complete? workspace place signals = none)
    (cs : List Capability) :
    Group.completeAll workspace place signals (c :: cs) =
      Group.completeAll workspace place signals cs := by
  rw [Group.completeAll, h]

theorem completeAll_of_answer {c : Capability} {x : Given}
    (h : c.complete? workspace place signals = some x.answer) (cs : List Capability) :
    Group.completeAll workspace place signals (c :: cs) =
      behind [x] (Group.completeAll workspace place x.answer.report.signals cs) := by
  rw [Group.completeAll, h]
  simp [x.result_eq, behind, joined]

theorem completeAll_of_failure {c : Capability} {a : Answer CompletionList} {e : Failure}
    (h : c.complete? workspace place signals = some a) (ha : a.report.result = .error e)
    (cs : List Capability) : Group.completeAll workspace place signals (c :: cs) = a := by
  rw [Group.completeAll, h]
  simp only [ha]

namespace Answered

theorem token_eq_true (h : Answered workspace place signals cs given after)
    (ht : signals.token = true ∨ ∃ x ∈ given, x.answer.report.signals.token = true) :
    after.token = true := by
  induction h with
  | nil => simpa using ht
  | skip _ _ ih => exact ih ht
  | cons hc _ ih =>
    apply ih
    obtain ht | ⟨y, hy, ht⟩ := ht
    · exact .inl (token_of_complete?_eq_some hc ht)
    · obtain rfl | hy := List.mem_cons.mp hy
      · exact .inl ht
      · exact .inr ⟨y, hy, ht⟩

/-- Whatever comes of the capabilities that are left, it is put behind the answers given before. -/
theorem completeAll_append (h : Answered workspace place signals cs given after)
    (rest : List Capability) :
    Group.completeAll workspace place signals (cs ++ rest) =
      behind given (Group.completeAll workspace place after rest) := by
  induction h with
  | nil => rw [behind_nil, List.nil_append]
  | skip hc _ ih => rw [List.cons_append, completeAll_of_none hc, ih]
  | cons hc _ ih => rw [List.cons_append, completeAll_of_answer hc, ih, ← behind_cons]

theorem completeAll_ok (h : Answered workspace place signals cs given after) :
    (Group.completeAll workspace place signals cs).report.result = .ok (joined given) ∧
      (Group.completeAll workspace place signals cs).report.signals = after := by
  have hall := h.completeAll_append []
  rw [List.append_nil, Group.completeAll] at hall
  rw [hall]
  simp [behind, Except.map]

theorem isIncomplete_of_append (h : Answered workspace place signals cs given after)
    {c : Capability} {x : Given} (hx : c.complete? workspace place after = some x.answer)
    (hi : x.list.isIncomplete = true) {rest : List Capability} {list : CompletionList}
    (hl : (Group.completeAll workspace place signals (cs ++ c :: rest)).report.result = .ok list) :
    list.isIncomplete = true := by
  rw [h.completeAll_append, completeAll_of_answer hx] at hl
  obtain ⟨more, hmore, hlist⟩ := exists_of_behind_ok hl
  obtain ⟨others, -, hothers⟩ := exists_of_behind_ok hmore
  simp [hlist, hothers, joined, hi]

end Answered

theorem Failed.completeAll_eq {a : Answer CompletionList} {e : Failure}
    (h : Failed workspace place signals cs given a e) :
    Group.completeAll workspace place signals cs =
      ⟨⟨.error e, a.report.signals, given.flatMap (·.answer.report.events) ++ a.report.events,
        given.flatMap (·.answer.report.logs) ++ a.report.logs⟩,
        given.flatMap (·.answer.notes) ++ a.notes⟩ := by
  obtain ⟨rfl, hbefore, hc, he⟩ := h
  rw [hbefore.completeAll_append, completeAll_of_failure hc he, behind, he]
  rfl

theorem answered_or_failed (workspace : Workspace) (place : Place) (signals : Signals)
    (cs : List Capability) :
    (∃ given after, Answered workspace place signals cs given after) ∨
      ∃ given a e, Failed workspace place signals cs given a e := by
  induction cs generalizing signals with
  | nil => exact .inl ⟨[], signals, .nil⟩
  | cons c cs ih =>
    cases hc : c.complete? workspace place signals with
    | none =>
      obtain ⟨given, after, h⟩ | ⟨given, a, e, rfl, h, ha, he⟩ := ih signals
      · exact .inl ⟨given, after, .skip hc h⟩
      · exact .inr ⟨given, a, e, .intro (List.cons_append ..).symm (.skip hc h) ha he⟩
    | some first =>
      cases hr : first.report.result with
      | error e => exact .inr ⟨[], first, e, .intro (List.nil_append _).symm .nil hc hr⟩
      | ok list =>
        let x : Given := ⟨first, list, hr⟩
        obtain ⟨given, after, h⟩ | ⟨given, a, e, rfl, h, ha, he⟩ := ih first.report.signals
        · exact .inl ⟨x :: given, after, .cons hc h⟩
        · exact .inr ⟨x :: given, a, e, .intro (List.cons_append ..).symm (.cons hc h) ha he⟩

end Capability

namespace Group

open Capability

theorem complete_of_failed {g : Group} {workspace : Workspace} {place : Place} {signals : Signals}
    {given : List Given} {a : Answer CompletionList} {e : Failure}
    (h : Failed workspace place signals g.capabilities.values given a e) :
    g.complete workspace place signals =
      ⟨⟨.error e, a.report.signals, given.flatMap (·.answer.report.events) ++ a.report.events,
        given.flatMap (·.answer.report.logs) ++ a.report.logs⟩,
        given.flatMap (·.answer.notes) ++ a.notes⟩ := by
  rw [complete, h.completeAll_eq]
  rfl

/-- A request that gives a list gives the lists of all its capabilities, joined in their order. Once
its token is cancelled, no search that is still to come is pulled: it has no items, and the request
is incomplete. If a capability fails, the request fails with the same failure, nothing is seen of
the capabilities behind it, and a request fails in no other way unless its task is cancelled and
nobody takes notice. -/
theorem complete_aggregates (g : Group) (workspace : Workspace) (place : Place)
    (signals : Signals) :
    let cs := g.capabilities.values
    let request := g.complete workspace place signals
    (∀ list, request.report.result = .ok list →
      ∃ given after, Answered workspace place signals cs given after ∧
        list.items = given.flatMap (·.list.items) ∧
        (list.isIncomplete = true ↔ ∃ x ∈ given, x.list.isIncomplete = true)) ∧
    (∀ before service later given mid document completer,
      cs = before ++ .completion service :: later →
      Answered workspace place signals before given mid →
      (signals.token = true ∨ ∃ x ∈ given, x.answer.report.signals.token = true) →
      service.Serves workspace place document completer →
      let search := service.search document completer place.position
      search.stream.collect mid = ⟨[], .cancelled, search.stream, mid, []⟩ ∧
        service.complete workspace place mid = ⟨.ok ⟨true, []⟩, mid, search.events,
          [CompletionService.summary document.uri ⟨true, []⟩]⟩ ∧
        ∀ list, request.report.result = .ok list → list.isIncomplete = true) ∧
    (∀ given a e, Failed workspace place signals cs given a e →
      request = ⟨⟨.error e, a.report.signals,
        given.flatMap (·.answer.report.events) ++ a.report.events,
        given.flatMap (·.answer.report.logs) ++ a.report.logs⟩,
        given.flatMap (·.answer.notes) ++ a.notes⟩) ∧
    ∀ e, request.report.result = .error e →
      (∃ given a, Failed workspace place signals cs given a e) ∨
        e = .cancelled ∧ ∃ given after, Answered workspace place signals cs given after ∧
          after.task = true := by
  intro cs request
  refine ⟨?_, ?_, ?_, ?_⟩
  · intro list hlist
    -- A list that is answered is the joined one: settling only ever takes an answer back.
    have hok := Report.settle_eq_ok hlist
    obtain ⟨given, after, h⟩ | ⟨given, a, e, h⟩ := answered_or_failed workspace place signals cs
    · refine ⟨given, after, h, ?_⟩
      obtain rfl : joined given = list := Except.ok.inj (h.completeAll_ok.1.symm.trans hok)
      simp [joined]
    · rw [h.completeAll_eq] at hok
      cases hok
  · intro before service later given mid document completer hcs h ht hs search
    have hmid := h.token_eq_true ht
    have hrun := CompletionService.complete_of_token hs hmid
    refine ⟨Stream.collect_of_token hmid, hrun, ?_⟩
    intro list hlist
    have hok := Report.settle_eq_ok hlist
    rw [show g.capabilities.values = _ from hcs] at hok
    let x : Given := ⟨⟨service.complete workspace place mid, []⟩, ⟨true, []⟩, by rw [hrun]⟩
    exact h.isIncomplete_of_append (x := x) rfl rfl hok
  · intro given a e h
    exact complete_of_failed h
  · intro e he
    obtain ⟨given, after, h⟩ | ⟨given, a, e', h⟩ := answered_or_failed workspace place signals cs
    · -- All have answered, so nothing but a pending cancellation is left to fail the request.
      obtain ⟨hok, hafter⟩ := h.completeAll_ok
      obtain ⟨rfl, ht⟩ := Report.settle_eq_error hok he
      exact .inr ⟨rfl, given, after, h, hafter ▸ ht⟩
    · have hrequest : request.report.result = .error e' := by
        rw [show request = _ from complete_of_failed h]
      obtain rfl : e' = e := Except.error.inj (hrequest.symm.trans he)
      exact .inl ⟨given, a, h⟩

def oneDocument : Workspace := .ofList [([], ⟨[], [], none⟩)]

/-- A search that cancels its task behind its first suggestion, a list that is always the same, and
a search that would give a suggestion. -/
def selfCancelled : Group where
  capabilities := .ofList [("first", .completion (.only CompletionService.selfCancelling)),
    ("list", .fixedCompletion ⟨"list", ["x"], false, false⟩),
    ("late", .completion (.only (.produced ⟨some "late", .generator .null,
      [.suggest ⟨"b", none, none, none, none, none⟩]⟩)))]

def failing : Group where
  capabilities := .ofList
    [("lost", .completion (.only (.produced ⟨none, .asynchronous, [.act (.raise "lost")]⟩))),
      ("list", .fixedCompletion ⟨"list", ["x"], false, false⟩)]

/-- The last search of the first group is opened and not pulled; the list of the second is not asked
for. -/
theorem complete_aggregates_selfCancelled_failing :
    (selfCancelled.complete oneDocument ⟨[], ⟨0, 0⟩⟩ {}).report.result =
      .ok ⟨true, [Suggestion.item {} (.ofText []) ⟨"a", none, none, none, none, none⟩,
        { label := "x" }]⟩ ∧
    (∀ list, (selfCancelled.complete oneDocument ⟨[], ⟨0, 0⟩⟩ {}).report.result = .ok list →
      list.isIncomplete = true) ∧
    (failing.complete oneDocument ⟨[], ⟨0, 0⟩⟩ {}).report.result = .error (.raised "lost") ∧
    (failing.complete oneDocument ⟨[], ⟨0, 0⟩⟩ {}).notes = [] := by
  refine ⟨by cbv, ?_, ?_⟩
  · let first : Given := ⟨⟨(CompletionService.only CompletionService.selfCancelling).complete
      oneDocument ⟨[], ⟨0, 0⟩⟩ {}, []⟩, _, by cbv⟩
    have hfirst : first.answer.report.signals.token = true := by cbv
    let second : Given := ⟨⟨⟨.ok ⟨false, [{ label := "x" }]⟩, first.answer.report.signals, [], []⟩,
      [.completed "list" first.answer.report.signals.token]⟩, _, rfl⟩
    have h : Answered oneDocument ⟨[], ⟨0, 0⟩⟩ {}
        [.completion (.only CompletionService.selfCancelling),
          .fixedCompletion ⟨"list", ["x"], false, false⟩] [first, second] _ :=
      .cons rfl (.cons rfl .nil)
    exact ((complete_aggregates selfCancelled oneDocument ⟨[], ⟨0, 0⟩⟩ {}).2.1 _ _ [] _ _ _ _ rfl h
      (.inr ⟨first, List.mem_cons_self, hfirst⟩)
      (CompletionService.serves_only _ ⟨0, 0⟩)).2.2
  · have h : Failed oneDocument ⟨[], ⟨0, 0⟩⟩ {} failing.capabilities.values [] _ (.raised "lost") :=
      .intro (List.nil_append _).symm .nil rfl (by cbv)
    have hall := (complete_aggregates failing oneDocument ⟨[], ⟨0, 0⟩⟩ {}).2.2.1 _ _ _ h
    rw [hall]
    exact ⟨rfl, rfl⟩

end Group

end CompletionServer
