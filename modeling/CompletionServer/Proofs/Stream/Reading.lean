import CompletionServer.Proofs.Stream.Meaning
import CompletionServer.Proofs.Stream.Opening

namespace CompletionServer

/-- The task is not cancelled and nobody outside the search is going to cancel it. -/
def Signals.Calm (s : Signals) : Prop :=
  s.task = false ∧ ∀ a ∈ s.coming, a.task = false

mutual

/-- Some producer still has a cancellation of the task ahead of it. -/
def Stream.CancelsTask : Stream → Prop
  | .leaf _ c => .act .cancelTask ∈ c.rest
  | .wrapped _ inner => inner.CancelsTask
  | .limited _ _ _ inner => inner.CancelsTask
  | .chained _ _ members => members.CancelsTask

def Members.CancelsTask : Members → Prop
  | .nil => False
  | .cons _ head tail => head.CancelsTask ∨ tail.CancelsTask

end

namespace Signals.Calm

variable {s : Signals}

theorem cancelToken (h : s.Calm) : s.cancelToken.Calm := by
  unfold Signals.cancelToken
  split <;> exact h

theorem suspend (h : s.Calm) : s.suspend.Calm := by
  obtain ⟨token, detached, task, coming⟩ := s
  obtain ⟨htask, hcoming⟩ := h
  cases coming with
  | nil => exact ⟨htask, hcoming⟩
  | cons a rest =>
    obtain ⟨ha, hrest⟩ := List.forall_mem_cons.mp hcoming
    have hquiet : Signals.Calm ⟨token, detached, task, rest⟩ := ⟨htask, hrest⟩
    simp only [Signals.suspend, arrive, ha, Bool.false_eq_true, if_false]
    split
    · exact hquiet.cancelToken
    · exact hquiet

end Signals.Calm

theorem Producer.run_rest_suffix (p : Producer) (signals : Signals) (steps : List Step) :
    (p.run signals steps).rest <:+ steps := by
  fun_induction Producer.run p signals steps with
  | case1 => exact List.suffix_refl _
  | case2 signals s rest => exact List.suffix_cons _ _
  | case3 signals message rest => exact List.suffix_cons _ _
  | case4 signals rest r ih => exact ih.trans (List.suffix_cons _ _)
  | case5 signals rest r ih => exact ih.trans (List.suffix_cons _ _)
  | case6 signals rest h => exact List.suffix_cons _ _
  | case7 signals rest h r ih => exact ih.trans (List.suffix_cons _ _)

theorem Producer.run_calm (p : Producer) (signals : Signals) (steps : List Step)
    (hc : signals.Calm) (hs : .act .cancelTask ∉ steps) :
    (p.run signals steps).halt ≠ .interrupted ∧ (p.run signals steps).signals.Calm := by
  fun_induction Producer.run p signals steps with
  | case1 => exact ⟨by simp, hc⟩
  | case2 => exact ⟨by simp, hc⟩
  | case3 => exact ⟨by simp, hc⟩
  | case4 signals rest r ih => exact ih hc.cancelToken (List.not_mem_of_not_mem_cons hs)
  | case5 signals rest r ih => exact absurd List.mem_cons_self hs
  | case6 signals rest h => exact absurd h (by simp [hc.suspend.1])
  | case7 signals rest h r ih => exact ih hc.suspend (List.not_mem_of_not_mem_cons hs)

/-- A pull in calm: it does not end by a cancellation and leaves the calm as it was. -/
structure Pull.Calm (r : Pull) : Prop where
  outcome_ne : r.outcome ≠ .cancelled
  signals_calm : r.signals.Calm
  stream_calm : ¬r.stream.CancelsTask

structure MembersPull.Calm (r : MembersPull) : Prop where
  outcome_ne : r.outcome ≠ .cancelled
  signals_calm : r.signals.Calm
  members_calm : ¬r.members.CancelsTask

namespace Stream

theorem leaf_pull_calm {signals : Signals} {p : Progress} {c : Cursor} (hc : signals.Calm)
    (hs : .act .cancelTask ∉ c.rest) : ((leaf p c).pull signals).Calm := by
  obtain ⟨hhalt, hcalm⟩ := c.producer.run_calm signals c.rest hc hs
  have hrest := (c.producer.run_rest_suffix signals c.rest).subset
  unfold pull
  split
  · exact ⟨by simp, hc, hs⟩
  · unfold Cursor.advance
    split
    · exact ⟨by simp [Halt.outcome], hc, hs⟩
    · refine ⟨?_, hcalm, fun h => hs (hrest h)⟩
      cases hh : (c.producer.run signals c.rest).halt <;> simp_all [Halt.outcome]

theorem not_cancelsTask_close {s : Stream} (h : ¬s.CancelsTask) : ¬s.close.1.CancelsTask := by
  match s with
  | leaf p c =>
    rw [close, CancelsTask, c.rest_close]
    exact h
  | wrapped p inner => exact not_cancelsTask_close (s := inner) h
  | limited p limit taken inner => exact not_cancelsTask_close (s := inner) h
  | chained p allComplete (.cons none head tail) => exact fun ht => h (.inr ht)
  | chained p allComplete .nil => exact h
  | chained p allComplete (.cons (some events) head tail) => exact h

theorem limitPull_calm {r : Pull} (h : r.Calm) (p : Progress) (limit taken : Nat) :
    (limitPull p limit taken r).Calm := by
  unfold limitPull
  split
  · split
    · exact ⟨by simp, h.signals_calm, not_cancelsTask_close h.stream_calm⟩
    · exact ⟨by simp, h.signals_calm, h.stream_calm⟩
  · exact ⟨h.outcome_ne, h.signals_calm, h.stream_calm⟩
  · exact ⟨h.outcome_ne, h.signals_calm, h.stream_calm⟩

mutual

theorem pull_calm {signals : Signals} (hc : signals.Calm) (s : Stream) (hs : ¬s.CancelsTask) :
    (s.pull signals).Calm := by
  match s with
  | leaf p c => exact leaf_pull_calm hc hs
  | wrapped p inner =>
    have ih := pull_calm hc inner hs
    unfold pull
    split
    · exact ⟨by simp, hc, hs⟩
    · exact ⟨ih.outcome_ne, ih.signals_calm, ih.stream_calm⟩
  | limited p limit taken inner =>
    unfold pull
    split
    · exact ⟨by simp, hc, hs⟩
    · exact limitPull_calm (pull_calm hc inner hs) p limit taken
  | chained p allComplete members =>
    have ih := pullMembers_calm hc allComplete members hs
    unfold pull
    split
    · exact ⟨by simp, hc, hs⟩
    · exact ⟨ih.outcome_ne, ih.signals_calm, ih.members_calm⟩

theorem pullMembers_calm {signals : Signals} (hc : signals.Calm) (allComplete : Bool)
    (ms : Members) (hs : ¬ms.CancelsTask) : (pullMembers signals allComplete ms).Calm := by
  match ms with
  | .nil => exact ⟨by simp [pullMembers], hc, hs⟩
  | .cons waiting head tail =>
    obtain ⟨hhead, htail⟩ := not_or.mp hs
    have ih := pull_calm hc head hhead
    rw [pullMembers]
    split
    · have iht := pullMembers_calm ih.signals_calm
        (allComplete && (head.pull signals).stream.isComplete) tail htail
      exact ⟨iht.outcome_ne, iht.signals_calm, iht.members_calm⟩
    · exact ⟨ih.outcome_ne, ih.signals_calm, not_or.mpr ⟨ih.stream_calm, htail⟩⟩

end

end Stream

end CompletionServer
