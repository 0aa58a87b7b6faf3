import CompletionServer.Proofs.Stream.Alike
import CompletionServer.Proofs.Stream.Release

namespace CompletionServer

namespace Stream

/-- A stream beside the stream that it wraps: both say the same of themselves. -/
inductive Wraps : Stream → Stream → Prop
  | intro (s : Stream) : Wraps (.wrapped s.progress s) s

theorem bisimulation_wraps : Bisimulation Wraps where
  isComplete_eq h := by cases h; rfl
  pull_agrees {_ s} signals h := by
    cases h
    by_cases hs : s.progress.exhausted = true
    · rw [pull_of_exhausted (s := .wrapped s.progress s) hs, pull_of_exhausted hs]
      exact ⟨rfl, rfl, rfl, .intro s⟩
    · rw [pull_wrapped (eq_false_of_ne_true hs), wrapPull, ← progress_pull]
      exact ⟨rfl, rfl, rfl, .intro _⟩
  close_events_eq h := by cases h; rfl
  close_related {_ s} h := by
    cases h
    rw [close, ← progress_close]
    exact .intro s.close.1

/-- A limit on a limited stream, beside the lower limit on the stream itself. While they are at work
all three have let the same number of suggestions pass; afterwards the counts no longer matter. -/
inductive LimitsTwice (m n : Nat) : Stream → Stream → Prop
  | working {p : Progress} (taken : Nat) (s : Stream) : p.exhausted = false →
    LimitsTwice m n (.limited p m taken (.limited p n taken s)) (.limited p (min m n) taken s)
  | finished {p q : Progress} (i j k : Nat) (s : Stream) : p.exhausted = true →
    LimitsTwice m n (.limited p m i (.limited q n j s)) (.limited p (min m n) k s)

theorem limitPull_limitPull_agrees {p : Progress} (hp : p.exhausted = false) (m n taken : Nat)
    (r : Pull) : (limitPull p m taken (limitPull p n taken r)).Agrees (LimitsTwice m n)
      (limitPull p (min m n) taken r) := by
  obtain ⟨outcome, s, signals, events⟩ := r
  cases outcome with
  | item x =>
    by_cases hn : n ≤ taken
    -- The inner limit is reached: it closes the search, and the outer one only sees it stop.
    · have hmin : min m n ≤ taken := Nat.le_trans (Nat.min_le_right m n) hn
      simp only [limitPull, if_pos hn, if_pos hmin]
      exact ⟨rfl, rfl, rfl, .finished _ _ _ _ rfl⟩
    · by_cases hm : m ≤ taken
      -- The outer limit is reached: to close the inner one is to close the search.
      · have hmin : min m n ≤ taken := Nat.le_trans (Nat.min_le_left m n) hm
        simp only [limitPull, if_neg hn, if_pos hm, if_pos hmin]
        exact ⟨rfl, rfl, rfl, .finished _ _ _ _ rfl⟩
      · have hmin : ¬ min m n ≤ taken := by omega
        simp only [limitPull, if_neg hn, if_neg hm, if_neg hmin]
        exact ⟨rfl, rfl, rfl, .working _ _ hp⟩
  | stop => exact ⟨rfl, rfl, rfl, .finished _ _ _ _ rfl⟩
  | failed message => exact ⟨rfl, rfl, rfl, .working _ _ hp⟩
  | cancelled => exact ⟨rfl, rfl, rfl, .working _ _ hp⟩

theorem bisimulation_limitsTwice (m n : Nat) : Bisimulation (LimitsTwice m n) where
  isComplete_eq h := by cases h <;> rfl
  pull_agrees signals h := by
    cases h with
    | working taken s hp =>
      rw [pull_limited hp, pull_limited hp, pull_limited hp]
      exact limitPull_limitPull_agrees hp m n taken _
    | finished i j k s hp =>
      rw [pull_of_exhausted (s := .limited ..) hp, pull_of_exhausted (s := .limited ..) hp]
      exact ⟨rfl, rfl, rfl, .finished i j k s hp⟩
  close_events_eq h := by cases h <;> rfl
  close_related h := by
    cases h with
    | working taken s hp => exact .finished taken taken taken s.close.1 rfl
    | finished i j k s hp => exact .finished i j k s.close.1 rfl

end Stream

namespace Members

def append : Members → Members → Members
  | .nil, ms => ms
  | .cons waiting head tail, ms => .cons waiting head (tail.append ms)

/-- Only the first member may have been opened. -/
def InLine : Members → Prop
  | .nil => True
  | .cons _ _ tail => tail.Waiting

variable {xs ys : Members}

theorem Waiting.inLine (h : xs.Waiting) : xs.InLine := by
  cases xs with
  | nil => trivial
  | cons waiting head tail => exact h.2

theorem Waiting.append {xs ys : Members} (hx : xs.Waiting) (hy : ys.Waiting) :
    (xs.append ys).Waiting := by
  match xs with
  | .nil => exact hy
  | .cons waiting head tail => exact ⟨hx.1, hx.2.append hy⟩

theorem InLine.append (hx : xs.InLine) (hy : ys.Waiting) : (xs.append ys).InLine := by
  cases xs with
  | nil => exact hy.inLine
  | cons waiting head tail => exact Waiting.append hx hy

end Members

namespace Stream

variable {xs ys : Members}

theorem inLine_pullMembers (signals : Signals) (allComplete : Bool) {ms : Members}
    (h : ms.InLine) : (pullMembers signals allComplete ms).members.InLine := by
  match ms with
  | .nil => trivial
  | .cons waiting head tail =>
    rw [pullMembers]
    split
    · exact inLine_pullMembers _ _ (Members.Waiting.inLine h)
    · exact h

theorem members_of_stop {signals : Signals} {allComplete : Bool} {ms : Members}
    (h : (pullMembers signals allComplete ms).outcome = .stop) :
    (pullMembers signals allComplete ms).members = .nil := by
  match ms with
  | .nil => rfl
  | .cons waiting head tail =>
    rw [pullMembers] at h ⊢
    split at h
    next hstop =>
      rw [if_pos hstop]
      exact members_of_stop h
    next hne => exact absurd h hne

/-- What earlier members have left out only joins in the verdict. -/
theorem pullMembers_and (signals : Signals) (a b : Bool) (ms : Members) :
    pullMembers signals (a && b) ms =
      { pullMembers signals b ms with
        allComplete := a && (pullMembers signals b ms).allComplete } := by
  cases ms with
  | nil => rfl
  | cons waiting head tail =>
    rw [pullMembers, pullMembers]
    split
    · rw [Bool.and_assoc, pullMembers_and]
    · rfl

/-- Members are asked in turn: the later ones only when the earlier ones have come to a stop. -/
theorem pullMembers_append (signals : Signals) (allComplete : Bool) (xs ys : Members) :
    pullMembers signals allComplete (xs.append ys) =
      let r := pullMembers signals allComplete xs
      if r.outcome = .stop then
        let rest := pullMembers r.signals r.allComplete ys
        { rest with events := r.events ++ rest.events }
      else { r with members := r.members.append ys } := by
  cases xs with
  | nil => rfl
  | cons waiting head tail =>
    rw [Members.append, pullMembers, pullMembers]
    by_cases hstop : (head.pull signals).outcome = .stop
    · simp only [if_pos hstop, pullMembers_append _ _ tail ys]
      split <;> simp
    · simp only [if_neg hstop]
      rfl

theorem close_of_waiting {ms : Members} (h : ms.Waiting) (p : Progress) (a : Bool) :
    (chained p a ms).close = (chained { p with exhausted := true } a ms, []) := by
  cases ms with
  | nil => rfl
  | cons waiting head tail =>
    cases waiting with
    | none => cases h.1
    | some events => rfl

theorem events_close_of_waiting {ms : Members} (h : ms.Waiting) (p : Progress) (a : Bool) :
    (chained p a ms).close.2 = [] := by
  rw [close_of_waiting h]

/-- Closing a chain concerns the member that is at work, not those behind it. -/
theorem events_close_append (hx : xs.InLine) (hy : ys.Waiting) (p q : Progress) (a b : Bool) :
    (chained p a (xs.append ys)).close.2 = (chained q b xs).close.2 := by
  match xs with
  | .nil => exact events_close_of_waiting hy p a
  | .cons none head tail => rfl
  | .cons (some events) head tail => rfl

theorem close_eq_chained {ms : Members} (h : ms.InLine) (p : Progress) (a : Bool) :
    ∃ ns : Members, ns.Waiting ∧
      (chained p a ms).close.1 = chained { p with exhausted := true } a ns := by
  match ms with
  | .nil => exact ⟨.nil, trivial, rfl⟩
  | .cons none head tail => exact ⟨tail, h, rfl⟩
  | .cons (some events) head tail => exact ⟨.cons (some events) head tail, ⟨rfl, h⟩, rfl⟩

/-- A chain with a chain among its members, beside the chain of all their members. -/
inductive Flattens : Stream → Stream → Prop
  /-- The inner chain has not been opened. -/
  | ahead {p : Progress} {a : Bool} {before inner after : Members} : p.exhausted = false →
    before.InLine → inner.Waiting → after.Waiting →
    Flattens (.chained p a (before.append (.cons (some []) (.chained {} true inner) after)))
      (.chained p a (before.append (inner.append after)))
  /-- The inner chain is at work. Its members that have stopped have left their verdict with it. -/
  | inside {p q : Progress} {a b : Bool} {inner after : Members} : p.exhausted = false →
    q.exhausted = false → inner.InLine → after.Waiting →
    Flattens (.chained p a (.cons none (.chained q b inner) after))
      (.chained p (a && b) (inner.append after))
  /-- The inner chain has been dropped. -/
  | behind (s : Stream) : Flattens s s
  /-- Both chains are finished, and those who still wait are never opened. -/
  | finished {p : Progress} {a b : Bool} {xs ys : Members} : p.exhausted = true → xs.Waiting →
    ys.Waiting → Flattens (.chained p a xs) (.chained p b ys)

theorem chainPull_inside_agrees {p q : Progress} (hp : p.exhausted = false)
    (hq : q.exhausted = false) {inner after : Members} (hinner : inner.InLine)
    (hafter : after.Waiting) (waiting : Option (List Event)) (hw : waiting.getD [] = [])
    (signals : Signals) (a b : Bool) :
    (chainPull p (pullMembers signals a (.cons waiting (.chained q b inner) after))).Agrees
      Flattens (chainPull p (pullMembers signals (a && b) (inner.append after))) := by
  have hline := inLine_pullMembers signals b hinner
  rw [pullMembers_append, pullMembers_and signals a b inner, pullMembers, pull_chained hq, hw]
  by_cases hstop : (pullMembers signals b inner).outcome = .stop
  · -- The inner chain stops, so both go on with the members behind it.
    have hnil := members_of_stop hstop
    simp only [chainPull, if_pos hstop, isComplete, progress, hnil, close, List.append_nil]
    exact ⟨rfl, rfl, rfl, .behind _⟩
  · simp only [chainPull, if_neg hstop]
    exact ⟨rfl, rfl, rfl, .inside hp hq hline hafter⟩

theorem bisimulation_flattens : Bisimulation Flattens where
  isComplete_eq h := by cases h <;> rfl
  pull_agrees signals h := by
    cases h with
    | @ahead p a before inner after hp hbefore hinner hafter =>
      rw [pull_chained hp, pull_chained hp, pullMembers_append, pullMembers_append]
      have hline := inLine_pullMembers signals a hbefore
      by_cases hstop : (pullMembers signals a before).outcome = .stop
      · -- All members before it stop, so this pull opens the inner chain.
        have h := chainPull_inside_agrees (q := {}) hp rfl hinner.inLine hafter (some []) rfl
          (pullMembers signals a before).signals (pullMembers signals a before).allComplete true
        rw [Bool.and_true] at h
        simp only [if_pos hstop]
        exact ⟨h.outcome_eq, h.signals_eq,
          congrArg ((pullMembers signals a before).events ++ ·) h.events_eq, h.related⟩
      · simp only [if_neg hstop]
        refine ⟨rfl, rfl, rfl, ?_⟩
        simp only [chainPull, if_neg hstop]
        exact .ahead hp hline hinner hafter
    | inside hp hq hinner hafter =>
      rw [pull_chained hp, pull_chained hp]
      exact chainPull_inside_agrees hp hq hinner hafter none rfl signals _ _
    | behind s => exact ⟨rfl, rfl, rfl, .behind _⟩
    | finished hp hx hy =>
      rw [pull_of_exhausted (s := .chained ..) hp, pull_of_exhausted (s := .chained ..) hp]
      exact ⟨rfl, rfl, rfl, .finished hp hx hy⟩
  close_events_eq h := by
    cases h with
    | @ahead p a before inner after hp hbefore hinner hafter =>
      have hnested : (Members.cons (some []) (.chained {} true inner) after).Waiting :=
        ⟨rfl, hafter⟩
      rw [events_close_append hbefore hnested p {} a true,
        events_close_append hbefore (hinner.append hafter) p {} a true]
    | inside hp hq hinner hafter => exact (events_close_append hinner hafter _ _ _ _).symm
    | behind s => rfl
    | finished hp hx hy => rw [events_close_of_waiting hx, events_close_of_waiting hy]
  close_related h := by
    cases h with
    | @ahead p a before inner after hp hbefore hinner hafter =>
      have hnested : (Members.cons (some []) (.chained {} true inner) after).Waiting :=
        ⟨rfl, hafter⟩
      obtain ⟨xs, hx, hxs⟩ := close_eq_chained (hbefore.append hnested) p a
      obtain ⟨ys, hy, hys⟩ := close_eq_chained (hbefore.append (hinner.append hafter)) p a
      rw [hxs, hys]
      exact .finished rfl hx hy
    | @inside p q a b inner after hp hq hinner hafter =>
      obtain ⟨ys, hy, hys⟩ := close_eq_chained (hinner.append hafter) p (a && b)
      rw [hys]
      exact .finished rfl hafter hy
    | behind s => exact .behind _
    | @finished p a b xs ys hp hx hy =>
      obtain ⟨xs, hx, hxs⟩ := close_eq_chained hx.inLine p a
      obtain ⟨ys, hy, hys⟩ := close_eq_chained hy.inLine p b
      rw [hxs, hys]
      exact .finished rfl hx hy

end Stream

namespace Completer

theorem startAll_append (source : Source) (offset : Int) (cs ds : List Completer) :
    startAll source offset (cs ++ ds) =
      (startAll source offset cs).append (startAll source offset ds) := by
  induction cs with
  | nil => rfl
  | cons c cs ih => rw [List.cons_append, startAll, ih]; rfl

theorem alike_wrap (c : Completer) : (wrap c).Alike c := by
  refine Stream.bisimulation_wraps.alike (fun _ _ => rfl) fun source offset => ?_
  have hfresh : (c.start source offset).stream.progress = {} := by
    cases c <;> rfl
  rw [start, ← hfresh]
  exact .intro _

theorem alike_limit_limit (m n : Nat) (c : Completer) :
    (limit m (limit n c)).Alike (limit (min m n) c) :=
  (Stream.bisimulation_limitsTwice m n).alike (fun _ _ => rfl)
    fun source offset => .working 0 (c.start source offset).stream rfl

theorem alike_chain_chain (before inner after : List Completer) :
    (chain (before ++ chain inner :: after)).Alike (chain (before ++ inner ++ after)) := by
  refine Stream.bisimulation_flattens.alike (fun _ _ => rfl) fun source offset => ?_
  simp only [start, startAll_append, List.append_assoc]
  exact .ahead rfl (waiting_startAll source offset before).inLine
    (waiting_startAll source offset inner) (waiting_startAll source offset after)

/-- Wrapping changes nothing, of two limits the lower one counts, and brackets in a chain do not
matter: step by step the two searches of each law give the same suggestions, stops, failures and
verdicts, and their producers do the same. -/
theorem alike_of_laws :
    (∀ c, (wrap c).Alike c) ∧
    (∀ m n c, (limit m (limit n c)).Alike (limit (min m n) c)) ∧
    ∀ before inner after, (chain (before ++ chain inner :: after)).Alike
      (chain (before ++ inner ++ after)) :=
  ⟨alike_wrap, alike_limit_limit, alike_chain_chain⟩

end Completer

end CompletionServer
