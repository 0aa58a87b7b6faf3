namespace CompletionServer

variable {α : Type u} {At : α → Nat → Nat → Prop} {n m : Nat} {as bs : List α}

/-- What a search from an offset on finds, where `At a start stop` says that `a` is matched from
`start` to `stop`. -/
inductive Found (At : α → Nat → Nat → Prop) : Nat → List α → Prop
  | nothing {n : Nat} : (∀ a start stop, n ≤ start → ¬At a start stop) → Found At n []
  | next {n start stop : Nat} {a : α} {rest : List α} : n ≤ start →
    (∀ b s e, n ≤ s → s < start → ¬At b s e) → At a start stop → Found At stop rest →
    Found At n (a :: rest)

namespace Found

/-- Where nothing begins, it makes no difference from where the search sets out. -/
theorem iff_of_nothing_between (hle : n ≤ m) (hno : ∀ a s e, n ≤ s → s < m → ¬At a s e) :
    Found At n as ↔ Found At m as := by
  constructor
  · intro h
    cases h with
    | nothing h => exact .nothing fun a s e hs => h a s e (Nat.le_trans hle hs)
    | @next _ start stop a rest hn hfirst ha hrest =>
      have hm : m ≤ start := by
        rcases Nat.lt_or_ge start m with hlt | hge
        · exact absurd ha (hno a start stop hn hlt)
        · exact hge
      exact .next hm (fun b s e hs => hfirst b s e (Nat.le_trans hle hs)) ha hrest
  · have hmore {k : Nat} (hfirst : ∀ b s e, m ≤ s → s < k → ¬At b s e) (b : α) (s e : Nat)
        (hs : n ≤ s) (hk : s < k) : ¬At b s e := by
      rcases Nat.lt_or_ge s m with hlt | hge
      · exact hno b s e hs hlt
      · exact hfirst b s e hge hk
    intro h
    cases h with
    | nothing h =>
      exact .nothing fun a s e hs => hmore (fun b s e hm _ => h b s e hm) a s e hs s.lt_succ_self
    | next hm hfirst ha hrest => exact .next (Nat.le_trans hle hm) (hmore hfirst) ha hrest

theorem unique (hat : ∀ {a b s e e'}, At a s e → At b s e' → a = b ∧ e = e') (h : Found At n as)
    (h' : Found At n bs) : as = bs := by
  induction h generalizing bs with
  | nothing h =>
    cases h' with
    | nothing => rfl
    | next hn _ ha => exact absurd ha (h _ _ _ hn)
  | @next n start stop a rest hn hfirst ha hrest ih =>
    cases h' with
    | nothing h' => exact absurd ha (h' _ _ _ hn)
    | @next _ start' stop' b rest' hn' hfirst' hb hrest' =>
      obtain rfl : start = start' := by
        rcases Nat.lt_trichotomy start start' with hlt | heq | hgt
        · exact absurd ha (hfirst' _ _ _ hn hlt)
        · exact heq
        · exact absurd hb (hfirst _ _ _ hn' hgt)
      obtain ⟨rfl, rfl⟩ := hat ha hb
      rw [ih hrest']

/-- A match before which nothing begins is found first. -/
theorem exists_eq_cons (hat : ∀ {a b s e e'}, At a s e → At b s e' → a = b ∧ e = e')
    (h : Found At n as) {a : α} {s e : Nat} (hn : n ≤ s) (ha : At a s e)
    (hno : ∀ b s' e', n ≤ s' → s' < s → ¬At b s' e') : ∃ rest, as = a :: rest := by
  cases h with
  | nothing h => exact absurd ha (h _ _ _ hn)
  | @next _ start stop b rest hn' hfirst hb _ =>
    rcases Nat.lt_trichotomy s start with hlt | rfl | hgt
    · exact absurd ha (hfirst _ _ _ hn hlt)
    · rw [(hat ha hb).1]
      exact ⟨rest, rfl⟩
    · exact absurd hb (hno _ _ _ hn' hgt)

theorem exists_at (hlt : ∀ {a s e}, At a s e → s < e) (h : Found At n as) {a : α} (ha : a ∈ as) :
    ∃ s e, n ≤ s ∧ At a s e := by
  induction h with
  | nothing => cases ha
  | next hn _ hb _ ih =>
    obtain rfl | ha := List.mem_cons.mp ha
    · exact ⟨_, _, hn, hb⟩
    · obtain ⟨s, e, hs, hat⟩ := ih ha
      exact ⟨s, e, Nat.le_trans hn (Nat.le_trans (Nat.le_of_lt (hlt hb)) hs), hat⟩

end Found

end CompletionServer
