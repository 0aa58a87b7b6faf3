import CompletionServer.Proofs.Stream.Opening

namespace CompletionServer

namespace Happening

def isSuggestion : Happening → Bool
  | yielded _ => true
  | _ => false

def isOpening : Happening → Bool
  | opened .. => true
  | _ => false

def isTerminal : Happening → Bool
  | ended | closed | acted (.raise _) => true
  | _ => false

def isQuiet (h : Happening) : Bool := !h.isSuggestion && !h.isTerminal

end Happening

def Halt.happening : Halt → Happening
  | yielded s => .yielded s.name
  | ended => .ended
  | raised message => .acted (.raise message)
  | interrupted => .acted .await

theorem Halt.eq_ended_of_outcome {h : Halt} (ho : h.outcome = .stop) : h = .ended := by
  cases h <;> simp_all [Halt.outcome]

namespace Event

/-- The last that is seen of a producer is a suggestion. -/
def SuspendedAfter (t : List Event) (id : Text) : Prop :=
  ∃ before name after, t = before ++ ⟨id, .yielded name⟩ :: after ∧ ∀ e ∈ after, e.producer ≠ id

variable (generators : Text → Bool)

/-- The generator that is suspended after an event. Nobody may act but the one that was suspended
before it. -/
def watch (holder : Option Text) (e : Event) : Option (Option Text) :=
  if holder = none ∨ holder = some e.producer then
    some (if generators e.producer && e.happening.isSuggestion then some e.producer else none)
  else none

def watchAll (holder : Option Text) (t : List Event) : Option (Option Text) :=
  t.foldlM (watch generators) holder

def endings (t : List Event) : List Text :=
  (t.filter fun e => generators e.producer && e.happening.isTerminal).map (·.producer)

variable {generators : Text → Bool} {holder h : Option Text}

@[simp] theorem watchAll_nil : watchAll generators holder [] = some holder := rfl

theorem watchAll_append (a b : List Event) : watchAll generators holder (a ++ b) =
    (watchAll generators holder a).bind fun h => watchAll generators h b :=
  List.foldlM_append

theorem watchAll_append_of_eq {a : List Event} (ha : watchAll generators holder a = some h)
    (b : List Event) :
    watchAll generators holder (a ++ b) = watchAll generators h b := by
  rw [watchAll_append, ha, Option.bind_some]

theorem watchAll_trans {a b : List Event} {h₁ h₂ : Option Text}
    (ha : watchAll generators holder a = some h₁) (hb : watchAll generators h₁ b = some h₂) :
    watchAll generators holder (a ++ b) = some h₂ :=
  (watchAll_append_of_eq ha b).trans hb

theorem watchAll_openings {t : List Event} (ht : ∀ e ∈ t, e.happening.isOpening = true) :
    watchAll generators none t = some none := by
  induction t with
  | nil => rfl
  | cons e t ih =>
    obtain ⟨he, ht⟩ := List.forall_mem_cons.mp ht
    have hstep : watch generators none e = some none := by
      cases hh : e.happening <;> simp_all [watch, Happening.isOpening, Happening.isSuggestion]
    rw [watchAll, List.foldlM_cons, hstep]
    exact ih ht

@[simp] theorem endings_append (a b : List Event) :
    endings generators (a ++ b) = endings generators a ++ endings generators b := by
  simp [endings]

theorem endings_append_sublist {a b : List Event} {l₀ l₁ l₂ : List Text}
    (ha : (endings generators a ++ l₁).Sublist l₀) (hb : (endings generators b ++ l₂).Sublist l₁) :
    (endings generators (a ++ b) ++ l₂).Sublist l₀ := by
  rw [endings_append, List.append_assoc]
  exact ((List.Sublist.refl _).append hb).trans ha

theorem endings_openings {t : List Event} (ht : ∀ e ∈ t, e.happening.isOpening = true) :
    endings generators t = [] := by
  have hnone : ∀ e ∈ t, ¬(generators e.producer && e.happening.isTerminal) = true := by
    intro e he
    have hopen := ht e he
    cases hh : e.happening <;> simp_all [Happening.isOpening, Happening.isTerminal]
  rw [endings, List.filter_eq_nil_iff.mpr hnone, List.map_nil]

/-- Whoever is suspended has acted last of all, as nobody else may act after it. -/
theorem SuspendedAfter.eq_holder {t : List Event} {id : Text} (hs : SuspendedAfter t id)
    (hid : generators id = true) (ht : watchAll generators holder t = some h) : h = some id := by
  obtain ⟨before, name, after, rfl, hafter⟩ := hs
  rw [watchAll_append] at ht
  obtain ⟨h₀, -, ht⟩ := Option.bind_eq_some_iff.mp ht
  rw [watchAll, List.foldlM_cons] at ht
  obtain ⟨h₁, hyield, ht⟩ := Option.bind_eq_some_iff.mp ht
  have hheld : h₁ = some id := by
    simp only [watch, hid, Happening.isSuggestion] at hyield
    split at hyield <;> simp_all
  cases after with
  | nil =>
    rw [List.foldlM_nil] at ht
    exact (Option.some.inj ht).symm.trans hheld
  | cons e after =>
    -- Somebody else would act while the generator is suspended, which the watch refuses.
    have hne : e.producer ≠ id := hafter e List.mem_cons_self
    have hrefused : watch generators h₁ e = none := by
      simp [watch, hheld, Ne.symm hne]
    rw [List.foldlM_cons, hrefused] at ht
    cases ht

end Event

open Event
open scoped List

/-- The marks tell generators from other producers. -/
def Producer.Marked (generators : Text → Bool) (p : Producer) : Prop :=
  ∀ id, p.id = some id → generators id = p.flavor.closable

namespace Cursor

def holder (c : Cursor) : Option Text :=
  if c.producer.flavor.closable ∧ c.phase = .suspended then c.producer.id else none

def alive (c : Cursor) : List Text :=
  if c.producer.flavor.closable ∧ c.phase ≠ .finished then c.producer.id.toList else []

end Cursor

variable {generators : Text → Bool} {holder : Option Text}

namespace Producer

variable {p : Producer}

theorem watchAll_trace (hp : p.Marked generators)
    (hh : holder = none ∨ p.flavor.closable = true ∧ holder = p.id) (h : Happening) :
    watchAll generators holder (p.trace h) =
      some (if p.flavor.closable && h.isSuggestion then p.id else none) := by
  obtain ⟨id, flavor, script⟩ := p
  cases id with
  | none =>
    obtain rfl : holder = none := hh.elim (·) (·.2)
    cases flavor <;> simp [trace, note]
  | some id =>
    have hid := hp id rfl
    cases flavor <;> simp_all [trace, note, watchAll, watch, Flavor.closable]

theorem endings_trace (hp : p.Marked generators) (h : Happening) :
    endings generators (p.trace h) =
      if p.flavor.closable && h.isTerminal then p.id.toList else [] := by
  obtain ⟨id, flavor, script⟩ := p
  cases id with
  | none => cases flavor <;> simp [trace, note, endings]
  | some id =>
    have hid := hp id rfl
    cases flavor <;> cases ht : h.isTerminal <;>
      simp_all [trace, note, endings, Flavor.closable]

/-- Events that are neither a suggestion nor an end go unnoticed by others. -/
theorem watchAll_quiet (hp : p.Marked generators) {hs : List Happening}
    (hquiet : ∀ h ∈ hs, h.isQuiet = true)
    (hh : holder = none ∨ p.flavor.closable = true ∧ holder = p.id) :
    ∃ holder', (holder' = none ∨ p.flavor.closable = true ∧ holder' = p.id) ∧
      watchAll generators holder (hs.flatMap p.trace) = some holder' := by
  induction hs generalizing holder with
  | nil => exact ⟨holder, hh, rfl⟩
  | cons h hs ih =>
    obtain ⟨hq, hquiet⟩ := List.forall_mem_cons.mp hquiet
    have hstep : watchAll generators holder (p.trace h) = some none := by
      rw [watchAll_trace hp hh]
      cases h <;> simp_all [Happening.isQuiet, Happening.isSuggestion]
    obtain ⟨holder', hh', hrest⟩ := ih hquiet (.inl rfl)
    exact ⟨holder', hh', watchAll_trans hstep hrest⟩

theorem endings_quiet (hp : p.Marked generators) {hs : List Happening}
    (hquiet : ∀ h ∈ hs, h.isQuiet = true) : endings generators (hs.flatMap p.trace) = [] := by
  induction hs with
  | nil => rfl
  | cons h hs ih =>
    obtain ⟨hq, hquiet⟩ := List.forall_mem_cons.mp hquiet
    have hstep : endings generators (p.trace h) = [] := by
      rw [endings_trace hp]
      cases h <;> simp_all [Happening.isQuiet]
    rw [List.flatMap_cons, endings_append, hstep, ih hquiet, List.nil_append]

/-- A run does things that go unnoticed until it comes to a halt. -/
theorem run_events (p : Producer) (signals : Signals) (steps : List Step) :
    ∃ hs : List Happening, (∀ h ∈ hs, h.isQuiet = true) ∧
      (p.run signals steps).events =
        hs.flatMap p.trace ++ p.trace (p.run signals steps).halt.happening := by
  fun_induction Producer.run p signals steps with
  | case1 signals => exact ⟨[], List.forall_mem_nil _, rfl⟩
  | case2 signals x rest => exact ⟨[], List.forall_mem_nil _, rfl⟩
  | case3 signals message rest => exact ⟨[], List.forall_mem_nil _, rfl⟩
  | case4 signals rest r ih =>
    obtain ⟨hs, hquiet, hevents⟩ := ih
    refine ⟨.acted .cancelToken :: hs, List.forall_mem_cons.mpr ⟨rfl, hquiet⟩, ?_⟩
    rw [hevents, List.flatMap_cons, List.append_assoc]
  | case5 signals rest r ih =>
    obtain ⟨hs, hquiet, hevents⟩ := ih
    refine ⟨.acted .cancelTask :: hs, List.forall_mem_cons.mpr ⟨rfl, hquiet⟩, ?_⟩
    rw [hevents, List.flatMap_cons, List.append_assoc]
  | case6 signals rest h => exact ⟨[], List.forall_mem_nil _, rfl⟩
  | case7 signals rest h r ih =>
    obtain ⟨hs, hquiet, hevents⟩ := ih
    refine ⟨.acted .await :: hs, List.forall_mem_cons.mpr ⟨rfl, hquiet⟩, ?_⟩
    rw [hevents, List.flatMap_cons, List.append_assoc]

def cursorAfter (p : Producer) (r : Run) : Cursor :=
  ⟨p, Cursor.phaseAfter p.flavor r.halt, r.rest⟩

theorem run_watched (hp : p.Marked generators) (signals : Signals) (steps : List Step)
    (hh : holder = none ∨ p.flavor.closable = true ∧ holder = p.id) :
    watchAll generators holder (p.run signals steps).events =
      some (p.cursorAfter (p.run signals steps)).holder := by
  obtain ⟨hs, hquiet, hevents⟩ := p.run_events signals steps
  obtain ⟨holder', hh', hw⟩ := watchAll_quiet hp hquiet hh
  rw [hevents, watchAll_append_of_eq hw, watchAll_trace hp hh']
  cases hhalt : (p.run signals steps).halt <;>
    simp [cursorAfter, Cursor.holder, Cursor.phaseAfter, hhalt, Halt.happening,
      Happening.isSuggestion]

theorem run_endings (hp : p.Marked generators) (signals : Signals) (steps : List Step) :
    endings generators (p.run signals steps).events ++
        (p.cursorAfter (p.run signals steps)).alive <+
      if p.flavor.closable then p.id.toList else [] := by
  obtain ⟨hs, hquiet, hevents⟩ := p.run_events signals steps
  rw [hevents, endings_append, endings_quiet hp hquiet, endings_trace hp]
  cases hhalt : (p.run signals steps).halt <;> cases hc : p.flavor.closable <;>
    simp [cursorAfter, Cursor.alive, Cursor.phaseAfter, hhalt, hc, Halt.happening,
      Happening.isTerminal]

end Producer

namespace Cursor

variable {c : Cursor}

theorem holder_eq (c : Cursor) :
    c.holder = none ∨ c.producer.flavor.closable = true ∧ c.holder = c.producer.id := by
  unfold holder
  split
  next h => exact .inr ⟨h.1, rfl⟩
  next => exact .inl rfl

theorem advance_of_finished (h : c.phase = .finished) (signals : Signals) :
    c.advance signals = ⟨.ended, c, signals, []⟩ := by
  simp [advance, h]

theorem advance_of_ne_finished (h : c.phase ≠ .finished) (signals : Signals) :
    c.advance signals =
      ⟨(c.producer.run signals c.rest).halt,
        c.producer.cursorAfter (c.producer.run signals c.rest),
        (c.producer.run signals c.rest).signals, (c.producer.run signals c.rest).events⟩ := by
  unfold advance
  split
  · contradiction
  · rfl

theorem advance_watched (hp : c.producer.Marked generators) (signals : Signals) :
    watchAll generators c.holder (c.advance signals).events =
      some (c.advance signals).cursor.holder := by
  by_cases hf : c.phase = .finished
  · rw [advance_of_finished hf]
    rfl
  · rw [advance_of_ne_finished hf]
    exact Producer.run_watched hp signals c.rest c.holder_eq

theorem advance_endings (hp : c.producer.Marked generators) (signals : Signals) :
    endings generators (c.advance signals).events ++ (c.advance signals).cursor.alive <+
      c.alive := by
  by_cases hf : c.phase = .finished
  · rw [advance_of_finished hf]
    exact List.Sublist.refl _
  · have halive : c.alive = if c.producer.flavor.closable then c.producer.id.toList else [] := by
      simp [alive, hf]
    rw [advance_of_ne_finished hf, halive]
    exact Producer.run_endings hp signals c.rest

theorem holder_advance_of_ended {signals : Signals} (h : (c.advance signals).halt = .ended) :
    (c.advance signals).cursor.holder = none := by
  by_cases hf : c.phase = .finished
  · rw [advance_of_finished hf]
    simp [holder, hf]
  · rw [advance_of_ne_finished hf] at h ⊢
    simp only at h
    simp [holder, Producer.cursorAfter, phaseAfter, h]

theorem events_close (c : Cursor) :
    c.close.2 = if c.producer.flavor.closable ∧ c.phase = .suspended then c.producer.trace .closed
      else [] := by
  cases hc : c.producer.flavor.closable <;> simp [close, hc]

theorem close_watched (hp : c.producer.Marked generators) :
    watchAll generators c.holder c.close.2 = some none := by
  by_cases hs : c.producer.flavor.closable ∧ c.phase = .suspended
  · rw [events_close, if_pos hs, Producer.watchAll_trace hp c.holder_eq]
    simp [Happening.isSuggestion]
  · rw [events_close, if_neg hs, holder, if_neg hs]
    rfl

@[simp] theorem holder_close (c : Cursor) : c.close.1.holder = none := by
  unfold close
  split
  · simp [holder]
  next hc => simp [holder, hc]

theorem close_endings (hp : c.producer.Marked generators) :
    endings generators c.close.2 ++ c.close.1.alive <+ c.alive := by
  cases hc : c.producer.flavor.closable with
  | false => simp [close, alive, hc, endings]
  | true =>
    have halive : c.close.1.alive = [] := by simp [close, alive, hc]
    rw [halive, List.append_nil, events_close]
    split
    next hs =>
      rw [Producer.endings_trace hp]
      simp [alive, hs, Happening.isTerminal]
    next => exact List.nil_sublist _

end Cursor

mutual

/-- Who is suspended at a suggestion in a stream. In a chain it can only be the first member. -/
def Stream.holder : Stream → Option Text
  | .leaf _ c => c.holder
  | .wrapped _ inner => inner.holder
  | .limited _ _ _ inner => inner.holder
  | .chained _ _ members => members.holder

def Members.holder : Members → Option Text
  | .nil => none
  | .cons _ head _ => head.holder

end

mutual

def Stream.alive : Stream → List Text
  | .leaf _ c => c.alive
  | .wrapped _ inner => inner.alive
  | .limited _ _ _ inner => inner.alive
  | .chained _ _ members => members.alive

def Members.alive : Members → List Text
  | .nil => []
  | .cons _ head tail => head.alive ++ tail.alive

end

def Members.Waiting : Members → Prop
  | .nil => True
  | .cons waiting _ tail => waiting.isSome = true ∧ tail.Waiting

mutual

/-- The marks are right, nobody is suspended in a stream that is finished or in a member that waits,
and only the first member of a chain does not wait. -/
def Stream.Tidy (generators : Text → Bool) : Stream → Prop
  | .leaf p c => c.producer.Marked generators ∧ (p.exhausted = true → c.holder = none)
  | .wrapped p inner => inner.Tidy generators ∧ (p.exhausted = true → inner.holder = none)
  | .limited p _ _ inner => inner.Tidy generators ∧ (p.exhausted = true → inner.holder = none)
  | .chained p _ members => members.Tidy generators ∧ (p.exhausted = true → members.holder = none)

def Members.Tidy (generators : Text → Bool) : Members → Prop
  | .nil => True
  | .cons waiting head tail =>
    (∀ e ∈ waiting.getD [], e.happening.isOpening = true) ∧
      (waiting.isSome = true → head.holder = none) ∧
      head.Tidy generators ∧ tail.Waiting ∧ tail.Tidy generators

end

/-- A stream that was not finished is finished by a pull only in the case that the pull stops. -/
theorem Progress.of_exhausted_ite {p : Progress} {c : Prop} [Decidable c] {complete : Bool}
    (hp : p.exhausted = false)
    (h : (if c then ⟨true, complete⟩ else p : Progress).exhausted = true) : c := by
  by_cases hc : c
  · exact hc
  · rw [if_neg hc, hp] at h
    cases h

theorem Members.Tidy.holder_of_waiting {ms : Members} (h : ms.Tidy generators)
    (hw : ms.Waiting) : ms.holder = none := by
  cases ms with
  | nil => rfl
  | cons waiting head tail => exact h.2.1 hw.1

theorem Stream.Tidy.holder_of_exhausted {s : Stream} (h : s.Tidy generators)
    (hs : s.progress.exhausted = true) : s.holder = none := by
  cases s <;> exact h.2 hs

/-- What a pull keeps of the order among generators. -/
structure Pull.Keeps (generators : Text → Bool) (s : Stream) (r : Pull) : Prop where
  watched : watchAll generators s.holder r.events = some r.stream.holder
  endings : endings generators r.events ++ r.stream.alive <+ s.alive
  tidy : r.stream.Tidy generators
  released : r.outcome = .stop → r.stream.holder = none

structure MembersPull.Keeps (generators : Text → Bool) (ms : Members) (r : MembersPull) :
    Prop where
  watched : watchAll generators ms.holder r.events = some r.members.holder
  endings : endings generators r.events ++ r.members.alive <+ ms.alive
  tidy : r.members.Tidy generators
  released : r.outcome = .stop → r.members.holder = none

/-- What closing keeps of it. Nobody is suspended afterwards. -/
structure Stream.ClosesTidily (generators : Text → Bool) (s : Stream) : Prop where
  watched : watchAll generators s.holder s.close.2 = some none
  endings : endings generators s.close.2 ++ s.close.1.alive <+ s.alive
  tidy : s.close.1.Tidy generators
  released : s.close.1.holder = none

namespace Stream

/-- In a chain, closing a member leaves the others as they are. -/
theorem ClosesTidily.endings_append {s : Stream} (h : s.ClosesTidily generators) (l : List Text) :
    Event.endings generators s.close.2 ++ l <+ s.alive ++ l :=
  ((List.sublist_append_left _ _).trans h.endings).append (List.Sublist.refl l)

theorem close_keeps {s : Stream} (h : s.Tidy generators) : s.ClosesTidily generators := by
  match s with
  | leaf p c =>
    have hp : c.close.1.producer.Marked generators := by
      rw [c.producer_close]
      exact h.1
    exact ⟨Cursor.close_watched h.1, Cursor.close_endings h.1, ⟨hp, fun _ => c.holder_close⟩,
      c.holder_close⟩
  | wrapped p inner =>
    have ih := close_keeps h.1
    exact ⟨ih.watched, ih.endings, ⟨ih.tidy, fun _ => ih.released⟩, ih.released⟩
  | limited p limit taken inner =>
    have ih := close_keeps h.1
    exact ⟨ih.watched, ih.endings, ⟨ih.tidy, fun _ => ih.released⟩, ih.released⟩
  | chained p allComplete .nil => exact ⟨rfl, List.Sublist.refl _, ⟨trivial, fun _ => rfl⟩, rfl⟩
  | chained p allComplete (.cons none head tail) =>
    -- The member at work is closed and dropped, and the others have not been opened.
    obtain ⟨-, -, hhead, hwaiting, htail⟩ := h.1
    have ih := close_keeps hhead
    have hnone := htail.holder_of_waiting hwaiting
    exact ⟨ih.watched, ih.endings_append tail.alive, ⟨htail, fun _ => hnone⟩, hnone⟩
  | chained p allComplete (.cons (some events) head tail) =>
    have hnone : head.holder = none := h.1.2.1 rfl
    refine ⟨?_, List.Sublist.refl _, ⟨h.1, fun _ => hnone⟩, hnone⟩
    exact congrArg some hnone

theorem leaf_pull_keeps {p : Progress} {c : Cursor} (hp : p.exhausted = false)
    (h : c.producer.Marked generators) (signals : Signals) :
    ((leaf p c).pull signals).Keeps generators (leaf p c) := by
  have hmarked : (c.advance signals).cursor.producer.Marked generators := by
    rw [c.producer_advance]
    exact h
  rw [pull_leaf hp]
  refine ⟨Cursor.advance_watched h signals, Cursor.advance_endings h signals, ⟨hmarked, ?_⟩, ?_⟩
  · intro hexhausted
    exact Cursor.holder_advance_of_ended (Progress.of_exhausted_ite hp hexhausted)
  · intro hstop
    exact Cursor.holder_advance_of_ended (Halt.eq_ended_of_outcome hstop)

theorem wrapPull_keeps {p : Progress} {s : Stream} {r : Pull} (hp : p.exhausted = false)
    (h : r.Keeps generators s) : (wrapPull p r).Keeps generators (wrapped p s) := by
  refine ⟨h.watched, h.endings, ⟨h.tidy, ?_⟩, h.released⟩
  intro hexhausted
  exact h.released (Progress.of_exhausted_ite hp hexhausted)

theorem limitPull_keeps {p : Progress} {s : Stream} {r : Pull} (hp : p.exhausted = false)
    (h : r.Keeps generators s) (limit taken : Nat) :
    (limitPull p limit taken r).Keeps generators (limited p limit taken s) := by
  unfold limitPull
  split
  · split
    · -- One suggestion too many: whoever made it is closed.
      have hclose := close_keeps h.tidy
      have hwatched := watchAll_trans h.watched hclose.watched
      rw [← hclose.released] at hwatched
      exact ⟨hwatched, endings_append_sublist h.endings hclose.endings,
        ⟨hclose.tidy, fun _ => hclose.released⟩, fun _ => hclose.released⟩
    · refine ⟨h.watched, h.endings, ⟨h.tidy, ?_⟩, ?_⟩ <;> simp [hp]
  next hstop =>
    exact ⟨h.watched, h.endings, ⟨h.tidy, fun _ => h.released hstop⟩, fun _ => h.released hstop⟩
  next =>
    refine ⟨h.watched, h.endings, ⟨h.tidy, ?_⟩, h.released⟩
    simp [hp]

theorem chainPull_keeps {p : Progress} {allComplete : Bool} {ms : Members} {r : MembersPull}
    (hp : p.exhausted = false) (h : r.Keeps generators ms) :
    (chainPull p r).Keeps generators (chained p allComplete ms) := by
  refine ⟨h.watched, h.endings, ⟨h.tidy, ?_⟩, h.released⟩
  intro hexhausted
  exact h.released (Progress.of_exhausted_ite hp hexhausted)

mutual

theorem pull_keeps (signals : Signals) {s : Stream} (h : s.Tidy generators) :
    (s.pull signals).Keeps generators s := by
  by_cases hs : s.progress.exhausted = true
  · rw [pull_of_exhausted hs]
    exact ⟨rfl, List.Sublist.refl _, h, fun _ => h.holder_of_exhausted hs⟩
  · match s with
    | leaf p c => exact leaf_pull_keeps (eq_false_of_ne_true hs) h.1 signals
    | wrapped p inner =>
      have hp : p.exhausted = false := eq_false_of_ne_true hs
      rw [pull_wrapped hp]
      exact wrapPull_keeps hp (pull_keeps signals h.1)
    | limited p limit taken inner =>
      have hp : p.exhausted = false := eq_false_of_ne_true hs
      rw [pull_limited hp]
      exact limitPull_keeps hp (pull_keeps signals h.1) limit taken
    | chained p allComplete members =>
      have hp : p.exhausted = false := eq_false_of_ne_true hs
      rw [pull_chained hp]
      exact chainPull_keeps hp (pullMembers_keeps signals allComplete h.1)

theorem pullMembers_keeps (signals : Signals) (allComplete : Bool) {ms : Members}
    (h : ms.Tidy generators) : (pullMembers signals allComplete ms).Keeps generators ms := by
  match ms with
  | .nil => exact ⟨rfl, List.Sublist.refl _, trivial, fun _ => rfl⟩
  | .cons waiting head tail =>
    obtain ⟨hopen, hnone, hhead, hwaiting, htail⟩ := h
    have hr := pull_keeps signals hhead
    -- A member that is opened only now has nobody suspended yet.
    have hevents : watchAll generators head.holder (waiting.getD [] ++ (head.pull signals).events) =
        some (head.pull signals).stream.holder := by
      cases waiting with
      | none => exact hr.watched
      | some events =>
        have hw := hr.watched
        rw [hnone rfl] at hw ⊢
        rw [watchAll_append_of_eq (watchAll_openings hopen)]
        exact hw
    have hends : endings generators (waiting.getD [] ++ (head.pull signals).events) ++
        ((head.pull signals).stream.alive ++ tail.alive) <+ head.alive ++ tail.alive := by
      rw [endings_append, endings_openings hopen, List.nil_append, ← List.append_assoc]
      exact hr.endings.append (List.Sublist.refl _)
    rw [pullMembers]
    split
    next hstop =>
      have hclose := close_keeps hr.tidy
      have hclosed := hclose.endings_append tail.alive
      have ih := pullMembers_keeps (head.pull signals).signals
        (allComplete && (head.pull signals).stream.isComplete) htail
      have hrest := ih.watched
      rw [htail.holder_of_waiting hwaiting] at hrest
      exact ⟨watchAll_trans (watchAll_trans hevents hclose.watched) hrest,
        endings_append_sublist (endings_append_sublist hends hclosed) ih.endings, ih.tidy,
        ih.released⟩
    next hne =>
      refine ⟨hevents, hends, ⟨?_, ?_, hr.tidy, hwaiting, htail⟩, fun hstop => absurd hstop hne⟩
      · exact List.forall_mem_nil _
      · simp

end

end Stream

end CompletionServer
