import CompletionServer.Proofs.Stream.Interchange
import CompletionServer.Proofs.Stream.Reading

namespace CompletionServer

variable {signals : Signals}

theorem Producer.halt_run_ne_interrupted (p : Producer) (signals : Signals) {steps : List Step}
    (hs : .act .await ∉ steps) : (p.run signals steps).halt ≠ .interrupted := by
  fun_induction Producer.run p signals steps with
  | case1 => exact Halt.noConfusion
  | case2 => exact Halt.noConfusion
  | case3 => exact Halt.noConfusion
  | case4 signals rest r ih => exact ih (List.not_mem_of_not_mem_cons hs)
  | case5 signals rest r ih => exact ih (List.not_mem_of_not_mem_cons hs)
  | case6 signals rest hstrike => exact absurd List.mem_cons_self hs
  | case7 signals rest hstrike r ih => exact absurd List.mem_cons_self hs

theorem Halt.outcome_ne_cancelled {h : Halt} (hne : h ≠ .interrupted) : h.outcome ≠ .cancelled := by
  cases h with
  | interrupted => exact absurd rfl hne
  | _ => exact Outcome.noConfusion

namespace Stream

theorem leaf_pull_outcome_ne_cancelled (p : Progress) {c : Cursor}
    (hs : .act .await ∉ c.rest) : ((leaf p c).pull signals).outcome ≠ .cancelled := by
  unfold pull
  split
  · exact Outcome.noConfusion
  · unfold Cursor.advance
    split
    · exact Outcome.noConfusion
    · exact Halt.outcome_ne_cancelled (c.producer.halt_run_ne_interrupted signals hs)

theorem limitPull_outcome_ne_cancelled {r : Pull} (h : r.outcome ≠ .cancelled) (p : Progress)
    (limit taken : Nat) : (limitPull p limit taken r).outcome ≠ .cancelled := by
  unfold limitPull
  split
  · split <;> exact Outcome.noConfusion
  · exact h
  · exact h

mutual

theorem pull_outcome_ne_cancelled (s : Stream) (signals : Signals) (hs : .act .await ∉ s.ahead) :
    (s.pull signals).outcome ≠ .cancelled := by
  match s with
  | leaf p c => exact leaf_pull_outcome_ne_cancelled p hs
  | wrapped p inner =>
    unfold pull
    split
    · exact Outcome.noConfusion
    · exact pull_outcome_ne_cancelled inner signals hs
  | limited p limit taken inner =>
    unfold pull
    split
    · exact Outcome.noConfusion
    · exact limitPull_outcome_ne_cancelled (pull_outcome_ne_cancelled inner signals hs) p _ _
  | chained p allComplete members =>
    unfold pull
    split
    · exact Outcome.noConfusion
    · exact pullMembers_outcome_ne_cancelled members signals allComplete hs

theorem pullMembers_outcome_ne_cancelled (ms : Members) (signals : Signals) (allComplete : Bool)
    (hs : .act .await ∉ ms.ahead) : (pullMembers signals allComplete ms).outcome ≠ .cancelled := by
  match ms with
  | .nil => exact Outcome.noConfusion
  | .cons waiting head tail =>
    obtain ⟨hhead, htail⟩ := not_or.mp (mt List.mem_append.mpr hs)
    rw [pullMembers]
    split
    · exact pullMembers_outcome_ne_cancelled tail _ _ htail
    · exact pull_outcome_ne_cancelled head signals hhead

end

end Stream

namespace Completer

variable {source : Source} {offset : Int} {c : Completer}

end Completer

end CompletionServer
