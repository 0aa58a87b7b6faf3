import CompletionServer.Proofs.Stream.Meaning

namespace CompletionServer

variable (source : Source) (offset : Int)

/-- The event's producer has been opened for the search by the end of the given events, and if the
event itself is an opening, it is one for the search. -/
def Event.Warranted (past : List Event) (e : Event) : Prop :=
  ⟨e.producer, .opened source offset⟩ ∈ past ∧
    ∀ s o, e.happening = .opened s o → s = source ∧ o = offset

/-- The events, coming after the past, leave none of them unwarranted. -/
def Event.AllWarranted (past events : List Event) : Prop :=
  ∀ e ∈ events, e.Warranted source offset (past ++ events)

mutual

/-- Every producer that can be asked was opened in the past; those of a waiting member are opened
by the events that the member waits with. -/
def Stream.OpenedIn (past : List Event) : Stream → Prop
  | .leaf _ c => c.producer.note (.opened source offset) ⊆ past
  | .wrapped _ inner => inner.OpenedIn past
  | .limited _ _ _ inner => inner.OpenedIn past
  | .chained _ _ members => members.OpenedIn past

def Members.OpenedIn (past : List Event) : Members → Prop
  | .nil => True
  | .cons waiting head tail =>
    (∀ e ∈ waiting.getD [], e.happening = .opened source offset) ∧
      head.OpenedIn (past ++ waiting.getD []) ∧ tail.OpenedIn past

end

structure Pull.Opens (past : List Event) (r : Pull) : Prop where
  warranted : Event.AllWarranted source offset past r.events
  opened : r.stream.OpenedIn source offset (past ++ r.events)

structure MembersPull.Opens (past : List Event) (r : MembersPull) : Prop where
  warranted : Event.AllWarranted source offset past r.events
  opened : r.members.OpenedIn source offset (past ++ r.events)

variable {source : Source} {offset : Int}

theorem Event.Warranted.mono {past later : List Event} {e : Event}
    (h : e.Warranted source offset past) (hp : past ⊆ later) : e.Warranted source offset later :=
  ⟨hp h.1, h.2⟩

theorem Event.AllWarranted.append {past a b : List Event}
    (ha : AllWarranted source offset past a) (hb : AllWarranted source offset (past ++ a) b) :
    AllWarranted source offset past (a ++ b) := by
  unfold AllWarranted at *
  rw [List.append_assoc] at hb
  refine List.forall_mem_append.mpr ⟨fun e he => (ha e he).mono ?_, hb⟩
  exact List.append_subset.mpr ⟨List.subset_append_left _ _,
    fun x hx => List.mem_append_right _ (List.mem_append_left _ hx)⟩

theorem Event.warranted_of_opened {past : List Event} {e : Event}
    (h : e.happening = .opened source offset) (hp : e ∈ past) :
    e.Warranted source offset past := by
  obtain ⟨id, happening⟩ := e
  obtain rfl : happening = .opened source offset := h
  refine ⟨hp, ?_⟩
  rintro s o ⟨⟩
  exact ⟨rfl, rfl⟩

mutual

theorem Stream.OpenedIn.mono {past later : List Event} {s : Stream}
    (h : s.OpenedIn source offset past) (hp : past ⊆ later) : s.OpenedIn source offset later := by
  match s with
  | .leaf p c => exact fun e he => hp (h he)
  | .wrapped p inner => exact Stream.OpenedIn.mono (s := inner) h hp
  | .limited p limit taken inner => exact Stream.OpenedIn.mono (s := inner) h hp
  | .chained p allComplete members =>
    have hm : members.OpenedIn source offset past := h
    exact hm.mono hp

theorem Members.OpenedIn.mono {past later : List Event} {ms : Members}
    (h : ms.OpenedIn source offset past) (hp : past ⊆ later) : ms.OpenedIn source offset later := by
  match ms with
  | .nil => trivial
  | .cons waiting head tail =>
    obtain ⟨hw, hh, ht⟩ := h
    have hp' : past ++ waiting.getD [] ⊆ later ++ waiting.getD [] :=
      List.append_subset.mpr ⟨fun e he => List.mem_append_left _ (hp he),
        List.subset_append_right _ _⟩
    exact ⟨hw, Stream.OpenedIn.mono hh hp', Members.OpenedIn.mono ht hp⟩

end

theorem Producer.trace_warranted {past : List Event} {p : Producer} {h : Happening}
    (hp : p.note (.opened source offset) ⊆ past) (hh : ∀ s o, h ≠ .opened s o) :
    ∀ e ∈ p.trace h, e.Warranted source offset past := by
  intro e he
  cases hid : p.id with
  | none =>
    cases hf : p.flavor <;> simp [trace, note, hid, hf] at he
  | some id =>
    have hopen : ⟨id, .opened source offset⟩ ∈ past := hp (by simp [note, hid])
    have he' : e = ⟨id, h⟩ := by
      cases hf : p.flavor <;> simp [trace, note, hid, hf] at he <;> exact he
    subst he'
    exact ⟨hopen, fun s o hso => absurd hso (hh s o)⟩

theorem Producer.run_warranted {past : List Event} {p : Producer}
    (hp : p.note (.opened source offset) ⊆ past) (signals : Signals) (steps : List Step) :
    ∀ e ∈ (p.run signals steps).events, e.Warranted source offset past := by
  fun_induction Producer.run p signals steps with
  | case1 => exact p.trace_warranted hp (by simp)
  | case2 => exact p.trace_warranted hp (by simp)
  | case3 => exact p.trace_warranted hp (by simp)
  | case4 signals rest r ih => exact List.forall_mem_append.mpr ⟨p.trace_warranted hp (by simp), ih⟩
  | case5 signals rest r ih => exact List.forall_mem_append.mpr ⟨p.trace_warranted hp (by simp), ih⟩
  | case6 => exact p.trace_warranted hp (by simp)
  | case7 signals rest h r ih =>
    exact List.forall_mem_append.mpr ⟨p.trace_warranted hp (by simp), ih⟩

theorem Cursor.producer_advance (c : Cursor) (signals : Signals) :
    (c.advance signals).cursor.producer = c.producer := by
  unfold advance
  split <;> rfl

theorem Cursor.advance_warranted {past : List Event} {c : Cursor}
    (hp : c.producer.note (.opened source offset) ⊆ past) (signals : Signals) :
    ∀ e ∈ (c.advance signals).events, e.Warranted source offset past := by
  unfold advance
  split
  · exact List.forall_mem_nil _
  · exact Producer.run_warranted hp signals c.rest

theorem Cursor.close_warranted {past : List Event} {c : Cursor}
    (hp : c.producer.note (.opened source offset) ⊆ past) :
    ∀ e ∈ c.close.2, e.Warranted source offset past := by
  unfold close
  split
  · split
    · exact c.producer.trace_warranted hp (by simp)
    · exact List.forall_mem_nil _
  · exact List.forall_mem_nil _

theorem Cursor.producer_close (c : Cursor) : c.close.1.producer = c.producer := by
  unfold close
  split <;> rfl

namespace Stream

theorem openedIn_close {past : List Event} (s : Stream) (h : s.OpenedIn source offset past) :
    s.close.1.OpenedIn source offset past := by
  match s with
  | leaf p c =>
    rw [close, OpenedIn, c.producer_close]
    exact h
  | wrapped p inner => exact openedIn_close inner h
  | limited p limit taken inner => exact openedIn_close inner h
  | chained p allComplete (.cons none head tail) => exact h.2.2
  | chained p allComplete .nil => exact h
  | chained p allComplete (.cons (some events) head tail) => exact h

theorem close_warranted {past : List Event} (s : Stream) (h : s.OpenedIn source offset past) :
    ∀ e ∈ s.close.2, e.Warranted source offset past := by
  match s with
  | leaf p c => exact Cursor.close_warranted h
  | wrapped p inner => exact close_warranted inner h
  | limited p limit taken inner => exact close_warranted inner h
  | chained p allComplete (.cons none head tail) =>
    have hh : head.OpenedIn source offset (past ++ []) := h.2.1
    exact close_warranted head (List.append_nil past ▸ hh)
  | chained p allComplete .nil => exact List.forall_mem_nil _
  | chained p allComplete (.cons (some events) head tail) => exact List.forall_mem_nil _

theorem allWarranted_close {past : List Event} {s : Stream} (h : s.OpenedIn source offset past) :
    Event.AllWarranted source offset past s.close.2 := by
  intro e he
  exact (close_warranted s h e he).mono (List.subset_append_left _ _)

theorem limitPull_opens {past : List Event} {r : Pull} (h : r.Opens source offset past)
    (p : Progress) (limit taken : Nat) : (limitPull p limit taken r).Opens source offset past := by
  unfold limitPull
  split
  · split
    · refine ⟨h.warranted.append (allWarranted_close h.opened), ?_⟩
      rw [← List.append_assoc]
      exact (openedIn_close _ h.opened).mono (List.subset_append_left _ _)
    · exact ⟨h.warranted, h.opened⟩
  · exact ⟨h.warranted, h.opened⟩
  · exact ⟨h.warranted, h.opened⟩

theorem leaf_pull_opens {past : List Event} {c : Cursor}
    (h : c.producer.note (.opened source offset) ⊆ past) (signals : Signals) {p : Progress}
    (hp : p.exhausted = false) : ((leaf p c).pull signals).Opens source offset past := by
  simp only [pull, hp, Bool.false_eq_true, if_false]
  have hsub := List.subset_append_left past (c.advance signals).events
  refine ⟨fun e he => (Cursor.advance_warranted h signals e he).mono hsub, ?_⟩
  rw [OpenedIn, c.producer_advance]
  exact fun e he => hsub (h he)

mutual

theorem pull_opens {past : List Event} (signals : Signals) (s : Stream)
    (h : s.OpenedIn source offset past) : (s.pull signals).Opens source offset past := by
  by_cases hs : s.progress.exhausted = true
  · rw [pull_of_exhausted hs]
    exact ⟨List.forall_mem_nil _, h.mono (List.subset_append_left _ _)⟩
  · match s with
    | leaf p c => exact leaf_pull_opens h signals (eq_false_of_ne_true hs)
    | wrapped p inner =>
      have hp : p.exhausted = false := eq_false_of_ne_true hs
      have ih := pull_opens signals inner h
      simp only [pull, hp, Bool.false_eq_true, if_false]
      exact ⟨ih.warranted, ih.opened⟩
    | limited p limit taken inner =>
      have hp : p.exhausted = false := eq_false_of_ne_true hs
      simp only [pull, hp, Bool.false_eq_true, if_false]
      exact limitPull_opens (pull_opens signals inner h) p limit taken
    | chained p allComplete members =>
      have hp : p.exhausted = false := eq_false_of_ne_true hs
      have ih := pullMembers_opens signals allComplete members h
      simp only [pull, hp, Bool.false_eq_true, if_false]
      exact ⟨ih.warranted, ih.opened⟩

theorem pullMembers_opens {past : List Event} (signals : Signals) (allComplete : Bool)
    (ms : Members) (h : ms.OpenedIn source offset past) :
    (pullMembers signals allComplete ms).Opens source offset past := by
  match ms with
  | .nil => exact ⟨List.forall_mem_nil _, trivial⟩
  | .cons waiting head tail =>
    obtain ⟨hw, hh, ht⟩ := h
    have hr := pull_opens signals head hh
    -- Opening the member is itself warranted, by the openings that it consists of.
    have hopen : Event.AllWarranted source offset past (waiting.getD []) := fun e he =>
      Event.warranted_of_opened (hw e he) (List.mem_append_right _ he)
    have hevents := hopen.append hr.warranted
    have hstream := hr.opened
    rw [List.append_assoc] at hstream
    rw [pullMembers]
    split
    · have hclosed := hevents.append (allWarranted_close hstream)
      have hpast := List.subset_append_left past
        (waiting.getD [] ++ (head.pull signals).events ++ (head.pull signals).stream.close.2)
      have ih := pullMembers_opens (head.pull signals).signals
        (allComplete && (head.pull signals).stream.isComplete) tail
        (ht.mono hpast)
      refine ⟨hclosed.append ih.warranted, ?_⟩
      rw [← List.append_assoc past]
      exact ih.opened
    · refine ⟨hevents, List.forall_mem_nil _, ?_, ht.mono (List.subset_append_left past _)⟩
      exact hstream.mono (List.subset_append_left _ _)

end

end Stream

namespace Completer

theorem happening_of_mem_note (p : Producer) :
    ∀ e ∈ p.note (.opened source offset), e.happening = .opened source offset := by
  cases hid : p.id <;> simp [Producer.note, hid]

/-- Starting a search only opens producers, and opens them for the search. -/
theorem happening_of_mem_start (c : Completer) :
    ∀ e ∈ (c.start source offset).events, e.happening = .opened source offset := by
  cases c with
  | produced p => exact happening_of_mem_note p
  | phpKeywords => exact List.forall_mem_nil _
  | phpVariables => exact List.forall_mem_nil _
  | empty => exact List.forall_mem_nil _
  | wrap inner => exact happening_of_mem_start inner
  | limit n inner => exact happening_of_mem_start inner
  | chain members => exact List.forall_mem_nil _

mutual

theorem openedIn_start (c : Completer) :
    (c.start source offset).stream.OpenedIn source offset (c.start source offset).events := by
  match c with
  | produced p => exact List.Subset.refl _
  | phpKeywords => exact List.Subset.refl _
  | phpVariables => exact List.Subset.refl _
  | empty => exact List.Subset.refl _
  | wrap inner => exact openedIn_start inner
  | limit n inner => exact openedIn_start inner
  | chain members => exact openedIn_startAll members

theorem openedIn_startAll (cs : List Completer) :
    (startAll source offset cs).OpenedIn source offset [] := by
  match cs with
  | [] => trivial
  | c :: rest => exact ⟨happening_of_mem_start c, openedIn_start c, openedIn_startAll rest⟩

end

end Completer

end CompletionServer
