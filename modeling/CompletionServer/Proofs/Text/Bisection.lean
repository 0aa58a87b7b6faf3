import CompletionServer.Text.LineTable

namespace CompletionServer

/-- The numbers before the first place are at most `x`, and those from the second one on are
greater. -/
structure Splits (xs : List Nat) (x lo hi : Nat) : Prop where
  lo_le_hi : lo ≤ hi
  hi_le_length : hi ≤ xs.length
  le_of_lt : ∀ i (h : i < xs.length), i < lo → xs[i] ≤ x
  lt_of_le : ∀ i (h : i < xs.length), hi ≤ i → x < xs[i]

variable {xs : List Nat} {x lo hi n : Nat}

/-- A number of the list that is at most `x` or greater decides for all on its side. -/
theorem Splits.bisectRight (hxs : xs.Pairwise (· < ·)) (h : Splits xs x lo hi) :
    Splits xs x (bisectRight xs x lo hi) (bisectRight xs x lo hi) := by
  have hmono : ∀ i j (hi : i < xs.length) (hj : j < xs.length), i < j → xs[i] < xs[j] :=
    List.pairwise_iff_getElem.mp hxs
  fun_induction CompletionServer.bisectRight xs x lo hi with
  | case1 lo hi hlt mid hmid ih =>
    have hlength : mid < xs.length := by have := h.hi_le_length; omega
    have hx : x < xs[mid] := by simpa [List.getElem?_eq_getElem hlength] using hmid
    -- The middle number is greater, and with it all behind it.
    refine ih ⟨by omega, by omega, h.le_of_lt, fun i hi hle => ?_⟩
    obtain rfl | hlt := Nat.eq_or_lt_of_le hle
    · exact hx
    · exact Nat.lt_trans hx (hmono mid i hlength hi hlt)
  | case2 lo hi hlt mid hmid ih =>
    have hlength : mid < xs.length := by have := h.hi_le_length; omega
    have hx : xs[mid] ≤ x := by simpa [List.getElem?_eq_getElem hlength] using hmid
    -- The middle number is at most `x`, and with it all before it.
    refine ih ⟨by omega, h.hi_le_length, fun i hi hle => ?_, h.lt_of_le⟩
    obtain rfl | hlt := Nat.eq_or_lt_of_le (Nat.le_of_lt_succ hle)
    · exact hx
    · exact Nat.le_of_lt (Nat.lt_of_lt_of_le (hmono i mid hi hlength hlt) hx)
  | case3 lo hi hlt =>
    obtain rfl : lo = hi := Nat.le_antisymm h.lo_le_hi (Nat.le_of_not_lt hlt)
    exact h

theorem Splits.takeWhile_eq (h : Splits xs x n n) : xs.takeWhile (· ≤ x) = xs.take n := by
  have hbefore : ∀ y ∈ xs.take n, decide (y ≤ x) = true := by
    intro y hy
    obtain ⟨i, hi, rfl⟩ := List.mem_take_iff_getElem.mp hy
    exact decide_eq_true (h.le_of_lt i (by omega) (by omega))
  have hbehind : (xs.drop n).takeWhile (· ≤ x) = [] := by
    obtain hn | hn := Nat.lt_or_ge n xs.length
    · rw [List.drop_eq_getElem_cons hn]
      exact List.takeWhile_cons_of_neg (by simpa using h.lt_of_le n hn (Nat.le_refl n))
    · rw [List.drop_eq_nil_of_le hn, List.takeWhile_nil]
  have hcut : (xs.take n ++ xs.drop n).takeWhile (· ≤ x) =
      xs.take n ++ (xs.drop n).takeWhile (· ≤ x) := List.takeWhile_append_of_pos hbefore
  rwa [List.take_append_drop, hbehind, List.append_nil] at hcut

/-- Halving finds as many numbers as a walk from the front does. -/
theorem bisectRight_eq_length_takeWhile (hxs : xs.Pairwise (· < ·)) (x : Nat) :
    bisectRight xs x 0 xs.length = (xs.takeWhile (· ≤ x)).length := by
  have hall : Splits xs x 0 xs.length :=
    ⟨Nat.zero_le _, Nat.le_refl _, fun _ _ h => absurd h (Nat.not_lt_zero _),
      fun _ hi hle => absurd hi (Nat.not_lt_of_le hle)⟩
  have hfound := hall.bisectRight hxs
  rw [hfound.takeWhile_eq, List.length_take, Nat.min_eq_left hfound.hi_le_length]

end CompletionServer
