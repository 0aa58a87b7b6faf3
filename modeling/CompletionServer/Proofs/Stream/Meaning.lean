import CompletionServer.Completer
import CompletionServer.Stream.Drain

namespace CompletionServer

/-- A search stops, having left nothing out or something, or it fails. -/
inductive Finish where
  | stopped (complete : Bool)
  | failed (message : Text)
deriving DecidableEq

namespace Finish

def after (complete : Bool) : Finish → Finish
  | stopped c => stopped (complete && c)
  | failed message => failed message

end Finish

structure Meaning where
  items : List Suggestion
  finish : Finish
deriving DecidableEq

namespace Meaning

def stopped (complete : Bool) : Meaning := ⟨[], .stopped complete⟩

def failed (message : Text) : Meaning := ⟨[], .failed message⟩

def cons (s : Suggestion) (m : Meaning) : Meaning := ⟨s :: m.items, m.finish⟩

/-- The suggestions of a script up to the first failure. -/
def ofScript (complete : Bool) : List Step → Meaning
  | [] => stopped complete
  | .suggest s :: rest => (ofScript complete rest).cons s
  | .act (.raise message) :: _ => failed message
  | .act _ :: rest => ofScript complete rest

/-- One search and then another, unless the first fails. -/
def andThen (m next : Meaning) : Meaning :=
  match m.finish with
  | .stopped complete => ⟨m.items ++ next.items, next.finish.after complete⟩
  | .failed _ => m

/-- At most `n` suggestions. A search that has more stops there, and something is left out. -/
def limit (n : Nat) (m : Meaning) : Meaning :=
  if n < m.items.length then ⟨m.items.take n, .stopped false⟩ else m

end Meaning

namespace Completer

variable (source : Source) (offset : Int)

mutual

def meaning : Completer → Meaning
  | produced p => .ofScript p.flavor.complete p.script
  | phpKeywords => ⟨Php.keywordSuggestions source.data offset, .stopped true⟩
  | phpVariables => ⟨Php.variableSuggestions source.data offset, .stopped true⟩
  | empty => .stopped true
  | wrap inner => meaning inner
  | limit n inner => (meaning inner).limit n
  | chain members => meaningAll members

def meaningAll : List Completer → Meaning
  | [] => .stopped true
  | c :: rest => (meaning c).andThen (meaningAll rest)

end

end Completer

/-- What a producer at work still has to give. One that is done for only stops. -/
def Cursor.meaning (c : Cursor) : Meaning :=
  if c.phase = .finished then .stopped true else .ofScript c.producer.flavor.complete c.rest

mutual

def Stream.meaning : Stream → Meaning
  | .leaf p c => if p.exhausted then .stopped p.complete else c.meaning
  | .wrapped p inner => if p.exhausted then .stopped p.complete else inner.meaning
  | .limited p limit taken inner =>
    if p.exhausted then .stopped p.complete else inner.meaning.limit (limit - taken)
  | .chained p allComplete members =>
    if p.exhausted then .stopped p.complete
    else (Meaning.stopped allComplete).andThen members.meaning

def Members.meaning : Members → Meaning
  | .nil => .stopped true
  | .cons _ head tail => head.meaning.andThen tail.meaning

end

namespace Meaning

/-- What a pull may come to on a search that means `m`, if `rest` is what is left of the search
afterwards and `complete` what it then says of itself. A cancellation may come at any time. -/
def Gives (m : Meaning) (complete : Bool) (rest : Meaning) : Outcome → Prop
  | .item x => m = rest.cons x
  | .stop => m = stopped complete
  | .failed message => m = failed message
  | .cancelled => True

@[simp] theorem limit_stopped (n : Nat) (complete : Bool) :
    (stopped complete).limit n = stopped complete := rfl

@[simp] theorem limit_failed (n : Nat) (message : Text) :
    (failed message).limit n = failed message := rfl

@[simp] theorem limit_zero_cons (s : Suggestion) (m : Meaning) :
    (m.cons s).limit 0 = stopped false := rfl

@[simp] theorem limit_succ_cons (n : Nat) (s : Suggestion) (m : Meaning) :
    (m.cons s).limit (n + 1) = (m.limit n).cons s := by
  simp only [limit, cons, List.length_cons, Nat.add_lt_add_iff_right, List.take_succ_cons]
  split <;> rfl

@[simp] theorem cons_andThen (s : Suggestion) (m next : Meaning) :
    (m.cons s).andThen next = (m.andThen next).cons s := by
  obtain ⟨items, complete | message⟩ := m <;> rfl

@[simp] theorem stopped_andThen_cons (complete : Bool) (s : Suggestion) (next : Meaning) :
    (stopped complete).andThen (next.cons s) = ((stopped complete).andThen next).cons s := rfl

@[simp] theorem failed_andThen (message : Text) (next : Meaning) :
    (failed message).andThen next = failed message := rfl

@[simp] theorem stopped_true_andThen (next : Meaning) : (stopped true).andThen next = next := by
  obtain ⟨items, complete | message⟩ := next <;> rfl

@[simp] theorem stopped_andThen_stopped_andThen (a b : Bool) (next : Meaning) :
    (stopped a).andThen ((stopped b).andThen next) = (stopped (a && b)).andThen next := by
  obtain ⟨items, complete | message⟩ := next
  · simp [andThen, stopped, Finish.after, Bool.and_assoc]
  · rfl

end Meaning

theorem Producer.run_gives (p : Producer) (signals : Signals) (complete : Bool)
    (steps : List Step) :
    (Meaning.ofScript complete steps).Gives complete
      (.ofScript complete (p.run signals steps).rest) (p.run signals steps).halt.outcome := by
  fun_induction Producer.run p signals steps with
  | case1 => rfl
  | case2 => rfl
  | case3 => rfl
  | case4 signals rest r ih => exact ih
  | case5 signals rest r ih => exact ih
  | case6 => trivial
  | case7 signals rest h r ih => exact ih

theorem Cursor.advance_gives (c : Cursor) (signals : Signals) :
    c.meaning.Gives c.completeAtEnd (c.advance signals).cursor.meaning
      (c.advance signals).halt.outcome := by
  unfold advance
  split
  next h => simp [meaning, completeAtEnd, h, Halt.outcome, Meaning.Gives]
  next h =>
    have hrun := c.producer.run_gives signals c.producer.flavor.complete c.rest
    simp only [meaning, completeAtEnd]
    cases hr : (c.producer.run signals c.rest).halt <;>
      simp_all [Halt.outcome, phaseAfter, Meaning.Gives]

/-- The pull is one that a search with this meaning may come to. -/
def Pull.Follows (r : Pull) (m : Meaning) : Prop :=
  m.Gives r.stream.isComplete r.stream.meaning r.outcome

namespace Pull.Follows

variable {r : Pull} {m : Meaning}

theorem eq_cons (h : r.Follows m) {x : Suggestion} (ho : r.outcome = .item x) :
    m = r.stream.meaning.cons x := by
  rw [Pull.Follows, ho] at h
  exact h

theorem eq_stopped (h : r.Follows m) (ho : r.outcome = .stop) :
    m = .stopped r.stream.isComplete := by
  rw [Pull.Follows, ho] at h
  exact h

theorem eq_failed (h : r.Follows m) {message : Text} (ho : r.outcome = .failed message) :
    m = .failed message := by
  rw [Pull.Follows, ho] at h
  exact h

end Pull.Follows

def MembersPull.Follows (r : MembersPull) (m : Meaning) : Prop :=
  m.Gives r.allComplete ((Meaning.stopped r.allComplete).andThen r.members.meaning) r.outcome

namespace Stream

variable {p : Progress} {m : Meaning} {r : Pull}

theorem wrapPull_follows (hp : p.exhausted = false) (h : r.Follows m) :
    (wrapPull p r).Follows m := by
  obtain ⟨outcome, stream, signals, events⟩ := r
  cases outcome with
  | item x => simpa [Pull.Follows, Meaning.Gives, wrapPull, meaning, hp] using h
  | stop => exact h
  | failed message => exact h
  | cancelled => trivial

theorem limitPull_follows (hp : p.exhausted = false) (h : r.Follows m) (limit taken : Nat) :
    (limitPull p limit taken r).Follows (m.limit (limit - taken)) := by
  obtain ⟨outcome, stream, signals, events⟩ := r
  cases outcome with
  | item x =>
    obtain rfl : m = stream.meaning.cons x := h
    by_cases hle : limit ≤ taken
    -- One suggestion more than the limit allows: it is dropped, and something was left out.
    · simp only [limitPull, if_pos hle, Nat.sub_eq_zero_of_le hle, Meaning.limit_zero_cons]
      rfl
    · obtain ⟨k, hk⟩ : ∃ k, limit - taken = k + 1 := ⟨limit - taken - 1, by omega⟩
      have hk' : limit - (taken + 1) = k := by omega
      simp only [limitPull, if_neg hle, hk, Meaning.limit_succ_cons, Pull.Follows, Meaning.Gives,
        meaning, hp, hk', Bool.false_eq_true, if_false]
  | stop =>
    obtain rfl : m = .stopped stream.isComplete := h
    rw [Meaning.limit_stopped]
    rfl
  | failed message =>
    obtain rfl : m = .failed message := h
    rw [Meaning.limit_failed]
    rfl
  | cancelled => trivial

theorem chainPull_follows {r : MembersPull} (hp : p.exhausted = false) (h : r.Follows m) :
    (chainPull p r).Follows m := by
  obtain ⟨outcome, allComplete, members, signals, events⟩ := r
  cases outcome with
  | item x =>
    simpa [Pull.Follows, MembersPull.Follows, Meaning.Gives, chainPull, meaning, hp] using h
  | stop => exact h
  | failed message => exact h
  | cancelled => trivial

theorem leaf_pull_follows (hp : p.exhausted = false) (signals : Signals) (c : Cursor) :
    ((leaf p c).pull signals).Follows c.meaning := by
  have h := c.advance_gives signals
  simp only [pull, hp, Bool.false_eq_true, if_false]
  cases hh : (c.advance signals).halt <;>
    simp_all [Pull.Follows, Meaning.Gives, Halt.outcome, meaning, isComplete, progress]

theorem pull_of_exhausted {s : Stream} (h : s.progress.exhausted = true) (signals : Signals) :
    s.pull signals = ⟨.stop, s, signals, []⟩ := by
  cases s <;> exact if_pos h

theorem pull_leaf (hp : p.exhausted = false) (signals : Signals) (c : Cursor) :
    (leaf p c).pull signals =
      ⟨(c.advance signals).halt.outcome,
        leaf (if (c.advance signals).halt = .ended then ⟨true, c.completeAtEnd⟩ else p)
          (c.advance signals).cursor, (c.advance signals).signals, (c.advance signals).events⟩ := by
  simp [pull, hp]

theorem pull_wrapped (hp : p.exhausted = false) (signals : Signals) (inner : Stream) :
    (wrapped p inner).pull signals = wrapPull p (inner.pull signals) := by
  simp [pull, hp]

theorem pull_limited (hp : p.exhausted = false) (signals : Signals) (limit taken : Nat)
    (inner : Stream) : (limited p limit taken inner).pull signals =
      limitPull p limit taken (inner.pull signals) := by
  simp [pull, hp]

theorem pull_chained (hp : p.exhausted = false) (signals : Signals) (allComplete : Bool)
    (ms : Members) : (chained p allComplete ms).pull signals =
      chainPull p (pullMembers signals allComplete ms) := by
  simp [pull, hp]

theorem meaning_of_exhausted {s : Stream} (h : s.progress.exhausted = true) :
    s.meaning = .stopped s.isComplete := by
  cases s <;> exact if_pos h

mutual

theorem pull_follows (signals : Signals) (s : Stream) : (s.pull signals).Follows s.meaning := by
  -- An exhausted stream stops again whatever its parts have left, and so it is meant.
  by_cases hs : s.progress.exhausted = true
  · rw [pull_of_exhausted hs, meaning_of_exhausted hs]
    rfl
  · match s with
    | leaf p c =>
      have hp : p.exhausted = false := eq_false_of_ne_true hs
      simp only [meaning, hp, Bool.false_eq_true, if_false]
      exact leaf_pull_follows hp signals c
    | wrapped p inner =>
      have hp : p.exhausted = false := eq_false_of_ne_true hs
      simp only [pull, meaning, hp, Bool.false_eq_true, if_false]
      exact wrapPull_follows hp (pull_follows signals inner)
    | limited p limit taken inner =>
      have hp : p.exhausted = false := eq_false_of_ne_true hs
      simp only [pull, meaning, hp, Bool.false_eq_true, if_false]
      exact limitPull_follows hp (pull_follows signals inner) limit taken
    | chained p allComplete members =>
      have hp : p.exhausted = false := eq_false_of_ne_true hs
      simp only [pull, meaning, hp, Bool.false_eq_true, if_false]
      exact chainPull_follows hp (pullMembers_follows signals allComplete members)

/-- The members that stop on the way only add their verdicts. -/
theorem pullMembers_follows (signals : Signals) (allComplete : Bool) (ms : Members) :
    (pullMembers signals allComplete ms).Follows
      ((Meaning.stopped allComplete).andThen ms.meaning) := by
  match ms with
  | .nil => cases allComplete <;> rfl
  | .cons waiting head tail =>
    have hhead := pull_follows signals head
    rw [pullMembers, Members.meaning]
    cases ho : (head.pull signals).outcome with
    | stop =>
      -- The verdict of the head joins the earlier ones, and the tail is asked instead.
      rw [hhead.eq_stopped ho, Meaning.stopped_andThen_stopped_andThen]
      exact pullMembers_follows (head.pull signals).signals
        (allComplete && (head.pull signals).stream.isComplete) tail
    | item x =>
      rw [hhead.eq_cons ho, Meaning.cons_andThen]
      exact Meaning.stopped_andThen_cons _ _ _
    | failed message =>
      rw [hhead.eq_failed ho, Meaning.failed_andThen]
      rfl
    | cancelled => trivial

end

end Stream

theorem Meaning.ofScript_map_suggest (complete : Bool) (xs : List Suggestion) :
    ofScript complete (xs.map .suggest) = ⟨xs, .stopped complete⟩ := by
  induction xs with
  | nil => rfl
  | cons x xs ih => rw [List.map_cons, ofScript, ih]; rfl

theorem Producer.meaning_start_silent (source : Source) (offset : Int) (xs : List Suggestion) :
    ((Producer.silent xs).start source offset).stream.meaning = ⟨xs, .stopped true⟩ :=
  Meaning.ofScript_map_suggest true xs

namespace Completer

mutual

theorem meaning_start (source : Source) (offset : Int) (c : Completer) :
    (c.start source offset).stream.meaning = c.meaning source offset := by
  match c with
  | produced p => rfl
  | phpKeywords => exact Producer.meaning_start_silent source offset _
  | phpVariables => exact Producer.meaning_start_silent source offset _
  | empty => rfl
  | wrap inner => exact meaning_start source offset inner
  | limit n inner => exact congrArg (Meaning.limit n) (meaning_start source offset inner)
  | chain members =>
    rw [meaning, ← meaning_startAll source offset members]
    exact Meaning.stopped_true_andThen _

theorem meaning_startAll (source : Source) (offset : Int) (cs : List Completer) :
    (startAll source offset cs).meaning = meaningAll source offset cs := by
  match cs with
  | [] => rfl
  | c :: rest =>
    rw [startAll, Members.meaning, meaning_start source offset c,
      meaning_startAll source offset rest, meaningAll]

end

end Completer

namespace Meaning

/-- A reading of the search gave these suggestions and came to this finish; without a finish it was
cut short by a cancellation, and what it gave is only a first part. -/
def ReadAs (m : Meaning) (items : List Suggestion) : Option Finish → Prop
  | some finish => m = ⟨items, finish⟩
  | none => items <+: m.items

namespace ReadAs

variable {m : Meaning} {items : List Suggestion} {finish : Option Finish}

theorem cons (h : m.ReadAs items finish) (x : Suggestion) :
    (m.cons x).ReadAs (x :: items) finish := by
  cases finish with
  | some f => exact congrArg (Meaning.cons x) h
  | none => exact List.cons_prefix_cons.mpr ⟨rfl, h⟩

/-- However it ends, nothing is lost and nothing added on the way. -/
theorem isPrefix (h : m.ReadAs items finish) : items <+: m.items := by
  cases finish with
  | some f =>
    obtain rfl : m = ⟨items, f⟩ := h
    exact List.prefix_rfl
  | none => exact h

end ReadAs

end Meaning

/-- The finish that an outcome shows of a stream that then calls itself complete or not. -/
def Outcome.finish? (complete : Bool) : Outcome → Option Finish
  | .stop => some (.stopped complete)
  | .failed message => some (.failed message)
  | .item _ | .cancelled => none

namespace Stream

end Stream

end CompletionServer
