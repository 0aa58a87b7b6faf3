import CompletionServer.Proofs.Stream.Meaning

namespace CompletionServer

inductive Start.Ran (a : Start) : Stream → List Event → Prop
  | start : Ran a a.stream a.events
  | pull {s : Stream} {t : List Event} (signals : Signals) : Ran a s t →
    Ran a (s.pull signals).stream (t ++ (s.pull signals).events)
  | close {s : Stream} {t : List Event} : Ran a s t → Ran a s.close.1 (t ++ s.close.2)

/-- A started search has come to a stream that stopped when it was last pulled and has been closed
after that. -/
inductive Start.Retired (a : Start) : Stream → List Event → Prop
  | intro {s : Stream} {t : List Event} {signals : Signals} : a.Ran s t →
    (s.pull signals).outcome = .stop →
    Retired a (s.pull signals).stream.close.1
      (t ++ (s.pull signals).events ++ (s.pull signals).stream.close.2)

namespace Completer

def isLeaf : Completer → Bool
  | produced _ | phpKeywords | phpVariables | empty => true
  | wrap _ | limit _ _ | chain _ => false

variable (source : Source) (offset : Int)

mutual

/-- The events of a search that has come to a stream show every chain in it to be in order. -/
inductive Orderly : Completer → Stream → List Event → Prop
  | leaf {c : Completer} {p : Progress} {cursor : Cursor} {t : List Event} :
    c.isLeaf = true → Orderly c (.leaf p cursor) t
  | wrap {inner : Completer} {p : Progress} {s : Stream} {t : List Event} :
    Orderly inner s t → Orderly (.wrap inner) (.wrapped p s) t
  | limit {n taken : Nat} {inner : Completer} {p : Progress} {s : Stream} {t : List Event} :
    Orderly inner s t → Orderly (.limit n inner) (.limited p n taken s) t
  | chain {cs : List Completer} {p : Progress} {allComplete : Bool} {ms : Members}
    {t : List Event} :
    InTurn p.exhausted cs ms t → Orderly (.chain cs) (.chained p allComplete ms) t

/-- The events of a chain are those of its members one after the other, where every member that
others have followed has retired. The last one may be dropped while it is at work, but then the
chain is finished. -/
inductive InTurn : Bool → List Completer → Members → List Event → Prop
  | waiting {exhausted : Bool} {cs : List Completer} :
    InTurn exhausted cs (startAll source offset cs) []
  | playing {exhausted : Bool} {c : Completer} {cs : List Completer} {s : Stream}
    {t : List Event} : (c.start source offset).Ran s t → Orderly c s t →
    InTurn exhausted (c :: cs) (.cons none s (startAll source offset cs)) t
  | dropped {c : Completer} {cs : List Completer} {s : Stream} {t : List Event} :
    (c.start source offset).Ran s t → Orderly c s t →
    InTurn true (c :: cs) (startAll source offset cs) t
  | passed {exhausted : Bool} {c : Completer} {cs : List Completer} {s : Stream}
    {ms : Members} {t rest : List Event} :
    (c.start source offset).Retired s t → Orderly c s t → InTurn exhausted cs ms rest →
    InTurn exhausted (c :: cs) ms (t ++ rest)

end

variable {source : Source} {offset : Int}

theorem InTurn.finish {exhausted : Bool} {cs : List Completer} {ms : Members} {t : List Event}
    (h : InTurn source offset exhausted cs ms t) : InTurn source offset true cs ms t := by
  match h with
  | .waiting => exact .waiting
  | .playing hran hc => exact .playing hran hc
  | .dropped hran hc => exact .dropped hran hc
  | .passed hretired hc hrest => exact .passed hretired hc hrest.finish

theorem start_orderly (c : Completer) :
    Orderly source offset c (c.start source offset).stream (c.start source offset).events := by
  cases c with
  | produced p => exact .leaf rfl
  | phpKeywords => exact .leaf rfl
  | phpVariables => exact .leaf rfl
  | empty => exact .leaf rfl
  | wrap inner => exact .wrap (start_orderly inner)
  | limit n inner => exact .limit (start_orderly inner)
  | chain members => exact .chain .waiting

/-- The first member that is left in a chain stands for one of the searches in it, with the ones
behind it still waiting. Whatever is in order from this one on is in order as a whole. -/
theorem InTurn.head {exhausted : Bool} {cs : List Completer} {ms : Members} {t : List Event}
    {waiting : Option (List Event)} {head : Stream} {tail : Members}
    (h : InTurn source offset exhausted cs ms t) (hms : ms = .cons waiting head tail)
    (hlive : exhausted = false ∨ waiting = none) :
    ∃ c rest before t', t = before ++ t' ∧ tail = startAll source offset rest ∧
      (c.start source offset).Ran head (t' ++ waiting.getD []) ∧
      Orderly source offset c head (t' ++ waiting.getD []) ∧
      ∀ e ms u, InTurn source offset e (c :: rest) ms u →
        InTurn source offset e cs ms (before ++ u) := by
  match h with
  | @InTurn.waiting _ _ _ cs =>
    cases cs with
    | nil => cases hms
    | cons c rest =>
      cases hms
      exact ⟨c, rest, [], [], rfl, rfl, .start, start_orderly c, fun e ms u hu => hu⟩
  | @InTurn.playing _ _ _ c rest _ _ hran hc =>
    cases hms
    refine ⟨c, rest, [], t, rfl, rfl, ?_, ?_, fun e ms u hu => hu⟩
    · simpa using hran
    · simpa using hc
  | @InTurn.dropped _ _ _ rest _ _ hran hc =>
    cases rest with
    | nil => cases hms
    | cons c rest =>
      -- A finished chain has dropped its member, and the next one waits for good.
      cases hms
      simp at hlive
  | @InTurn.passed _ _ _ _ _ _ _ t' _ hretired hc hrest =>
    obtain ⟨c, rest, before, u, rfl, htail, hran, horder, hback⟩ := hrest.head hms hlive
    refine ⟨c, rest, t' ++ before, u, (List.append_assoc ..).symm, htail, hran, horder, ?_⟩
    intro e ms v hv
    rw [List.append_assoc]
    exact .passed hretired hc (hback e ms v hv)

theorem limitPull_orderly {inner : Completer} {n taken : Nat} {p : Progress}
    {t : List Event} {r : Pull}
    (hr : Orderly source offset inner r.stream (t ++ r.events))
    (hclose : Orderly source offset inner r.stream.close.1 (t ++ r.events ++ r.stream.close.2)) :
    Orderly source offset (.limit n inner) (Stream.limitPull p n taken r).stream
      (t ++ (Stream.limitPull p n taken r).events) := by
  unfold Stream.limitPull
  split
  · split
    · rw [← List.append_assoc]
      exact .limit hclose
    · exact .limit hr
  · exact .limit hr
  · exact .limit hr

theorem close_orderly {c : Completer} {s : Stream} {t : List Event}
    (h : Orderly source offset c s t) : Orderly source offset c s.close.1 (t ++ s.close.2) := by
  match s with
  | .leaf p cursor =>
    cases h with
    | leaf hc => exact .leaf hc
  | .wrapped p inner =>
    cases h with
    | wrap h => exact .wrap (close_orderly h)
  | .limited p n taken inner =>
    cases h with
    | limit h => exact .limit (close_orderly h)
  | .chained p allComplete .nil =>
    cases h with
    | chain h =>
      simp only [Stream.close, List.append_nil]
      exact .chain h.finish
  | .chained p allComplete (.cons none head tail) =>
    cases h with
    | chain h =>
      obtain ⟨c, rest, before, u, rfl, rfl, hran, hc, hback⟩ := h.head rfl (.inr rfl)
      -- The member at work is dropped, as the chain is finished with this.
      rw [Option.getD_none, List.append_nil] at hran hc
      rw [Stream.close, List.append_assoc]
      exact .chain (hback _ _ _ (.dropped hran.close (close_orderly hc)))
  | .chained p allComplete (.cons (some events) head tail) =>
    cases h with
    | chain h =>
      simp only [Stream.close, List.append_nil]
      exact .chain h.finish

mutual

theorem pull_orderly (signals : Signals) {c : Completer} {s : Stream} {t : List Event}
    (h : Orderly source offset c s t) :
    Orderly source offset c (s.pull signals).stream (t ++ (s.pull signals).events) := by
  by_cases hs : s.progress.exhausted = true
  · rw [Stream.pull_of_exhausted hs, List.append_nil]
    exact h
  · match s with
    | .leaf p cursor =>
      cases h with
      | leaf hc =>
        have hp : p.exhausted = false := eq_false_of_ne_true hs
        rw [Stream.pull_leaf hp]
        exact .leaf hc
    | .wrapped p inner =>
      have hp : p.exhausted = false := eq_false_of_ne_true hs
      rw [Stream.pull_wrapped hp]
      cases h with
      | wrap h => exact .wrap (pull_orderly signals h)
    | .limited p n taken inner =>
      have hp : p.exhausted = false := eq_false_of_ne_true hs
      rw [Stream.pull_limited hp]
      cases h with
      | limit h =>
        have hr := pull_orderly signals h
        exact limitPull_orderly hr (close_orderly hr)
    | .chained p allComplete members =>
      have hp : p.exhausted = false := eq_false_of_ne_true hs
      rw [Stream.pull_chained hp]
      cases h with
      | chain h =>
        rw [hp] at h
        exact .chain (pullMembers_inTurn signals allComplete h _)

theorem pullMembers_inTurn (signals : Signals) (allComplete : Bool) {cs : List Completer}
    {ms : Members} {t : List Event} (h : InTurn source offset false cs ms t) (exhausted : Bool) :
    InTurn source offset exhausted cs (Stream.pullMembers signals allComplete ms).members
      (t ++ (Stream.pullMembers signals allComplete ms).events) := by
  match ms with
  | .nil =>
    rw [Stream.pullMembers, List.append_nil]
    cases exhausted with
    | false => exact h
    | true => exact h.finish
  | .cons waiting head tail =>
    obtain ⟨c, rest, before, u, rfl, htail, hran, hc, hback⟩ := h.head rfl (.inl rfl)
    have hpulled := pull_orderly signals hc
    have hwaiting : InTurn source offset false rest tail [] := by
      rw [htail]
      exact .waiting
    rw [Stream.pullMembers]
    split
    -- The head retires and the next member has its turn.
    next hstop =>
      have ih := pullMembers_inTurn (head.pull signals).signals
        (allComplete && (head.pull signals).stream.isComplete) hwaiting exhausted
      have hturn := InTurn.passed (Start.Retired.intro hran hstop) (close_orderly hpulled) ih
      simpa only [List.append_assoc, List.nil_append] using hback _ _ _ hturn
    -- The head goes on playing, with all behind it still waiting.
    next hne =>
      have hturn : InTurn source offset exhausted (c :: rest) _ _ :=
        .playing (hran.pull signals) hpulled
      rw [← htail] at hturn
      simpa only [List.append_assoc, List.nil_append] using hback _ _ _ hturn

end

end Completer

theorem Start.Ran.orderly {source : Source} {offset : Int} {c : Completer} {s : Stream}
    {t : List Event} (h : (c.start source offset).Ran s t) : c.Orderly source offset s t := by
  induction h with
  | start => exact Completer.start_orderly c
  | pull signals _ ih => exact Completer.pull_orderly signals ih
  | close _ ih => exact Completer.close_orderly ih

end CompletionServer
