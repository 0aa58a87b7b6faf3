import CompletionServer.Dictionary
import Mathlib.Data.List.Basic
import Mathlib.Data.List.Induction

namespace CompletionServer

/-- The keys are those that were named, in the order in which they were named first. -/
structure InFirstOrder (keys named : List Text) : Prop where
  mem_iff : ∀ key, key ∈ keys ↔ key ∈ named
  in_order : keys.Pairwise fun a b => named.idxOf a < named.idxOf b

/-- The last of the entries under a key gives it this value. -/
def GivesLast {α : Type u} (history : List (Text × α)) (key : Text) (value : α) : Prop :=
  ∃ before behind, history = before ++ (key, value) :: behind ∧ ∀ entry ∈ behind, entry.1 ≠ key

section

variable {keys named : List Text} {key : Text}

theorem InFirstOrder.nodup (h : InFirstOrder keys named) : keys.Nodup := by
  refine h.in_order.imp ?_
  rintro a b hlt rfl
  exact Nat.lt_irrefl _ hlt

theorem InFirstOrder.name_again (h : InFirstOrder keys named) (hkey : key ∈ keys) :
    InFirstOrder keys (named ++ [key]) where
  mem_iff k := by
    rw [h.mem_iff, List.mem_append, List.mem_singleton, iff_self_or]
    rintro rfl
    exact (h.mem_iff k).mp hkey
  in_order := by
    refine h.in_order.imp_of_mem fun {a b} ha hb hlt => ?_
    rw [List.idxOf_append_of_mem ((h.mem_iff a).mp ha),
      List.idxOf_append_of_mem ((h.mem_iff b).mp hb)]
    exact hlt

theorem InFirstOrder.name_new (h : InFirstOrder keys named) (hkey : key ∉ keys) :
    InFirstOrder (keys ++ [key]) (named ++ [key]) where
  mem_iff k := by rw [List.mem_append, List.mem_append, h.mem_iff]
  in_order := by
    -- The new key stands behind all that were named, and none of those moves.
    have hnew : key ∉ named := fun hmem => hkey ((h.mem_iff key).mpr hmem)
    have hold {k : Text} (hk : k ∈ keys) : (named ++ [key]).idxOf k = named.idxOf k :=
      List.idxOf_append_of_mem ((h.mem_iff k).mp hk)
    rw [List.pairwise_append]
    refine ⟨h.in_order.imp_of_mem fun ha hb hlt => ?_, List.pairwise_singleton _ _, ?_⟩
    · rw [hold ha, hold hb]
      exact hlt
    · intro a ha b hb
      obtain rfl := List.mem_singleton.mp hb
      rw [hold ha, List.idxOf_append_of_notMem hnew]
      exact Nat.lt_add_right _ (List.idxOf_lt_length_of_mem ((h.mem_iff a).mp ha))

end

/-- Read from its end, a history shows first what was given last. -/
theorem givesLast_iff_lookup_reverse {α : Type u} {history : List (Text × α)} {key : Text}
    {value : α} : GivesLast history key value ↔ history.reverse.lookup key = some value := by
  rw [List.lookup_eq_some_iff]
  constructor
  · rintro ⟨before, behind, rfl, hbehind⟩
    refine ⟨behind.reverse, before.reverse, by simp, fun entry hentry => ?_⟩
    exact bne_iff_ne.mpr (hbehind entry (List.mem_reverse.mp hentry)).symm
  · rintro ⟨behind, before, hhistory, hbehind⟩
    refine ⟨before.reverse, behind.reverse, ?_, fun entry hentry => ?_⟩
    · rw [← List.reverse_reverse history, hhistory]
      simp
    · exact (bne_iff_ne.mp (hbehind entry (List.mem_reverse.mp hentry))).symm

namespace Dictionary

variable {α : Type u} {d : Dictionary α} {history : List (Text × α)} {key : Text}

theorem keys_put (key : Text) (value : α) (entries : List (Text × α)) :
    (put key value entries).map Prod.fst =
      if key ∈ entries.map Prod.fst then entries.map Prod.fst
      else entries.map Prod.fst ++ [key] := by
  induction entries with
  | nil => rfl
  | cons entry rest ih =>
    obtain ⟨k, v⟩ := entry
    by_cases hk : k = key
    · simp [put, hk]
    · have hne : key ≠ k := Ne.symm hk
      simp only [put, if_neg hk, List.map_cons, ih, List.mem_cons, hne, false_or]
      split <;> rfl

theorem lookup_entry_cons (key other : Text) (value : α) (entries : List (Text × α)) :
    ((key, value) :: entries).lookup other =
      if other = key then some value else entries.lookup other := by
  rw [List.lookup_cons]
  by_cases h : other = key
  · rw [if_pos h, beq_iff_eq.mpr h]
  · rw [if_neg h, beq_false_of_ne h]

theorem lookup_put (key other : Text) (value : α) (entries : List (Text × α)) :
    (put key value entries).lookup other =
      if other = key then some value else entries.lookup other := by
  induction entries with
  | nil => exact lookup_entry_cons key other value []
  | cons entry rest ih =>
    obtain ⟨k, v⟩ := entry
    by_cases hk : k = key
    · subst hk
      rw [put, if_pos rfl, lookup_entry_cons, lookup_entry_cons]
      split <;> rfl
    · rw [put, if_neg hk, lookup_entry_cons, lookup_entry_cons, ih]
      by_cases ho : other = k
      · rw [if_pos ho, if_pos ho, if_neg (ho ▸ hk)]
      · rw [if_neg ho, if_neg ho]

theorem keys_insert (d : Dictionary α) (key : Text) (value : α) :
    (d.insert key value).keys = if key ∈ d.keys then d.keys else d.keys ++ [key] :=
  keys_put key value d.entries

theorem get?_insert (d : Dictionary α) (key other : Text) (value : α) :
    (d.insert key value).get? other = if other = key then some value else d.get? other :=
  lookup_put key other value d.entries

theorem contains_iff : d.contains key = true ↔ key ∈ d.keys := by
  simp [contains, keys]

theorem get?_eq_none_iff : d.get? key = none ↔ d.contains key = false := by
  rw [get?, List.lookup_eq_none_iff, contains, List.any_eq_false]
  refine forall₂_congr fun entry _ => ?_
  rw [bne_iff_ne, decide_eq_true_iff]
  exact ne_comm

/-- The dictionary holds what was entered, oldest first: each key in the place where it came first,
with the value that came last. -/
structure Records (d : Dictionary α) (history : List (Text × α)) : Prop where
  keys : InFirstOrder d.keys (history.map Prod.fst)
  get? : ∀ key value, d.get? key = some value ↔ GivesLast history key value

theorem Records.insert (h : d.Records history) (key : Text) (value : α) :
    (d.insert key value).Records (history ++ [(key, value)]) where
  keys := by
    rw [List.map_append, List.map_cons, List.map_nil, keys_insert]
    split
    case isTrue hkey => exact h.keys.name_again hkey
    case isFalse hkey => exact h.keys.name_new hkey
  get? other current := by
    rw [givesLast_iff_lookup_reverse, List.reverse_append, List.reverse_singleton,
      List.singleton_append, lookup_entry_cons, get?_insert]
    split
    case isTrue => rfl
    case isFalse => rw [h.get?, givesLast_iff_lookup_reverse]

theorem ofList_concat (entries : List (Text × α)) (key : Text) (value : α) :
    ofList (entries ++ [(key, value)]) = (ofList entries).insert key value := by
  rw [ofList, List.foldl_append]
  rfl

theorem records_ofList (entries : List (Text × α)) : (ofList entries).Records entries := by
  induction entries using List.reverseRecOn with
  | nil =>
    refine ⟨⟨fun _ => Iff.rfl, .nil⟩, fun key value => ?_⟩
    rw [givesLast_iff_lookup_reverse]
    rfl
  | append_singleton entries entry ih =>
    rw [ofList_concat]
    exact ih.insert entry.1 entry.2

end Dictionary

end CompletionServer
