import CompletionServer.Proofs.Text.Places
import Mathlib.Data.Nat.Count
import Mathlib.Data.Nat.Find

namespace CompletionServer

namespace Text

/-- A line break ends between the two parts. One that goes on behind the cut does not. -/
def EndsBreak (before after : Text) : Prop :=
  (∃ c ∈ before.getLast?, c.IsBreak) ∧ Separable before after

instance (before after : Text) : Decidable (Separable before after) :=
  inferInstanceAs (Decidable ¬(_ ∧ _))

instance (before after : Text) : Decidable (EndsBreak before after) :=
  inferInstanceAs (Decidable (_ ∧ _))

/-- A line break ends right before the code point with this index, or at the end of the text. -/
def BreakEndsAt (t : Text) (i : Nat) : Prop := EndsBreak (t.take i) (t.drop i)

instance (t : Text) : DecidablePred t.BreakEndsAt := fun _ =>
  inferInstanceAs (Decidable (EndsBreak _ _))

def breakCount (t : Text) : Nat := Nat.count t.BreakEndsAt (t.length + 1)

/-- Where the last line break ends, or the start of the text if there is none. -/
def lastBreakEnd (t : Text) : Nat := Nat.findGreatest t.BreakEndsAt t.length

/-- A cursor can stand before the code point with this index, at or before the byte offset. -/
def HasCursor (t : Text) (o : Int) (i : Nat) : Prop :=
  (utf8Length (t.take i) : Int) ≤ max 0 (min o t.utf8Length) ∧ Separable (t.take i) (t.drop i)

instance (t : Text) (o : Int) : DecidablePred (t.HasCursor o) := fun _ =>
  inferInstanceAs (Decidable (_ ∧ _))

def cursorIndex (t : Text) (o : Int) : Nat := Nat.findGreatest (t.HasCursor o) t.length

def plainPosition (t : Text) (o : Int) : Position :=
  let before : Text := t.take (t.cursorIndex o)
  ⟨before.breakCount, utf16Length (before.drop before.lastBreakEnd)⟩

variable {before after l rest : Text} {b : LineBreak}

theorem not_endsBreak_of_unbroken (h : before.Unbroken) (after : Text) :
    ¬EndsBreak before after := by
  rintro ⟨⟨c, hc, hbreak⟩, -⟩
  exact h c (List.mem_of_getLast? hc) hbreak

theorem endsBreak_append_break (l : Text) (hb : b.Fits rest) : EndsBreak (l ++ b.text) rest := by
  constructor
  · cases b <;> simp [LineBreak.text, CodePoint.IsBreak]
  · have hstart : Separable [] rest := by simp [Separable]
    have hcut := hstart.append_break (l := l) (b := b) hb
    rwa [List.append_nil] at hcut

theorem not_endsBreak_of_length_lt (hl : l.Unbroken) (h : l ++ b.text ++ rest = before ++ after)
    (hlt : before.length < (l ++ b.text).length) : ¬EndsBreak before after := by
  obtain ⟨behind, rfl, -⟩ | hfirst | htorn := cut_cases h
  · exact absurd hlt (by rw [List.length_append]; omega)
  · exact not_endsBreak_of_unbroken (fun c hc => hl c (hfirst.subset hc)) after
  · exact fun hends => htorn hends.2

theorem endsBreak_behind_break (hb : b.Fits (before ++ after)) (hne : before ≠ []) :
    EndsBreak (l ++ b.text ++ before) after ↔ EndsBreak before after := by
  have hlast : (l ++ b.text ++ before).getLast? = before.getLast? :=
    List.getLast?_append_of_ne_nil _ hne
  rw [EndsBreak, hlast]
  exact and_congr_right fun _ => ⟨separable_append_break, fun hs => hs.append_break hb⟩

theorem not_breakEndsAt_of_unbroken (hl : l.Unbroken) (i : Nat) : ¬l.BreakEndsAt i :=
  not_endsBreak_of_unbroken (fun c hc => hl c (List.mem_of_mem_take hc)) _

theorem not_breakEndsAt_zero (t : Text) : ¬t.BreakEndsAt 0 :=
  not_endsBreak_of_unbroken (List.forall_mem_nil _) _

theorem not_breakEndsAt_of_lt (hl : l.Unbroken) {i : Nat} (hi : i < (l ++ b.text).length) :
    ¬(l ++ b.text ++ rest).BreakEndsAt i := by
  apply not_endsBreak_of_length_lt hl (List.take_append_drop i _).symm
  rw [List.length_take]
  omega

theorem breakEndsAt_length (l : Text) (hb : b.Fits rest) :
    (l ++ b.text ++ rest).BreakEndsAt (l ++ b.text).length := by
  rw [BreakEndsAt, List.take_left, List.drop_left]
  exact endsBreak_append_break l hb

theorem breakEndsAt_add (hb : b.Fits rest) {i : Nat} (hi : i < rest.length) :
    (l ++ b.text ++ rest).BreakEndsAt ((l ++ b.text).length + (i + 1)) ↔
      rest.BreakEndsAt (i + 1) := by
  rw [BreakEndsAt, List.take_length_add_append, List.drop_length_add_append]
  apply endsBreak_behind_break
  · rwa [List.take_append_drop]
  · exact List.ne_nil_of_length_pos (by rw [List.length_take]; omega)

theorem breakCount_of_unbroken (hl : l.Unbroken) : l.breakCount = 0 :=
  Nat.count_iff_forall_not.mpr fun i _ => not_breakEndsAt_of_unbroken hl i

theorem breakCount_append_break (hl : l.Unbroken) (hb : b.Fits rest) :
    (l ++ b.text ++ rest).breakCount = rest.breakCount + 1 := by
  have hfirst : Nat.count (l ++ b.text ++ rest).BreakEndsAt (l ++ b.text).length = 0 :=
    Nat.count_iff_forall_not.mpr fun i hi => not_breakEndsAt_of_lt hl hi
  have hbehind : Nat.count
        (fun i => (l ++ b.text ++ rest).BreakEndsAt ((l ++ b.text).length + (i + 1))) rest.length =
      Nat.count (fun i => rest.BreakEndsAt (i + 1)) rest.length := by
    rw [Nat.count_eq_card_filter_range, Nat.count_eq_card_filter_range]
    exact congrArg Finset.card (Finset.filter_congr fun i hi =>
      breakEndsAt_add hb (Finset.mem_range.mp hi))
  rw [breakCount, List.length_append, Nat.add_assoc, Nat.count_add, hfirst, Nat.zero_add,
    Nat.count_succ', hbehind, Nat.add_zero, if_pos (breakEndsAt_length l hb), breakCount,
    Nat.count_succ', if_neg (not_breakEndsAt_zero rest)]

theorem lastBreakEnd_of_unbroken (hl : l.Unbroken) : l.lastBreakEnd = 0 :=
  Nat.findGreatest_eq_zero_iff.mpr fun i _ _ => not_breakEndsAt_of_unbroken hl i

theorem lastBreakEnd_append_break (l : Text) (hb : b.Fits rest) :
    (l ++ b.text ++ rest).lastBreakEnd = (l ++ b.text).length + rest.lastBreakEnd := by
  obtain ⟨hle, hends, hlast⟩ := Nat.findGreatest_eq_iff.mp (Eq.refl rest.lastBreakEnd)
  have hlen : (l ++ b.text ++ rest).length = (l ++ b.text).length + rest.length :=
    List.length_append
  rw [lastBreakEnd, Nat.findGreatest_eq_iff, hlen]
  refine ⟨Nat.add_le_add_left hle _, fun _ => ?_, ?_⟩
  · cases hend : rest.lastBreakEnd with
    | zero => exact breakEndsAt_length l hb
    | succ i =>
      rw [hend] at hle hends
      exact (breakEndsAt_add hb hle).mpr (hends (Nat.succ_ne_zero i))
  · intro j hj hjle
    obtain ⟨i, rfl⟩ : ∃ i, j = (l ++ b.text).length + (i + 1) :=
      ⟨j - (l ++ b.text).length - 1, by omega⟩
    rw [breakEndsAt_add hb (by omega)]
    exact hlast (by omega) (by omega)

theorem endPosition_eq (t : Text) :
    t.endPosition = ⟨t.breakCount, utf16Length (t.drop t.lastBreakEnd)⟩ := by
  induction t using induction_on_lines with
  | last l hl =>
    rw [endPosition_of_unbroken hl, breakCount_of_unbroken hl, lastBreakEnd_of_unbroken hl,
      List.drop_zero]
  | broken l b rest hl hb ih =>
    rw [endPosition_append_break hl hb, breakCount_append_break hl hb,
      lastBreakEnd_append_break l hb, List.drop_length_add_append, ih]

/-- No place is past the end of the text, so its length bounds none of them. -/
theorem HasOffset.le_clamp_iff {t : Text} {n : Nat} (h : t.HasOffset n) (o : Int) :
    (n : Int) ≤ max 0 (min o t.utf8Length) ↔ n ≤ o.toNat := by
  have := h.le_utf8Length
  omega

theorem hasCursor_cursorIndex (t : Text) (o : Int) : t.HasCursor o (t.cursorIndex o) := by
  apply Nat.findGreatest_spec (Nat.zero_le t.length)
  simp [HasCursor, Separable, utf8Length]

theorem isGreatest_cursorIndex (t : Text) (o : Int) :
    IsGreatest {n | t.HasOffset n ∧ n ≤ o.toNat} (utf8Length (t.take (t.cursorIndex o))) := by
  obtain ⟨hle, hseparable⟩ := t.hasCursor_cursorIndex o
  have hplace : t.HasOffset (utf8Length (t.take (t.cursorIndex o))) :=
    ⟨_, _, (List.take_append_drop _ t).symm, hseparable, rfl⟩
  constructor
  · exact ⟨hplace, (hplace.le_clamp_iff o).mp hle⟩
  · rintro n ⟨⟨before, after, rfl, hs, rfl⟩, hn⟩
    have hcursor : (before ++ after).HasCursor o before.length := by
      rw [HasCursor, List.take_left, List.drop_left]
      exact ⟨(HasOffset.le_clamp_iff ⟨before, after, rfl, hs, rfl⟩ o).mpr hn, hs⟩
    have hindex : before.length ≤ (before ++ after).cursorIndex o :=
      Nat.le_findGreatest (by rw [List.length_append]; omega) hcursor
    exact utf8Length_le_of_isPrefix
      (List.prefix_take_iff.mpr ⟨List.prefix_append before after, hindex⟩)

end Text

namespace LineTable

open Text

theorem positionOf_offsetOf_of_inRange {t : Text} {p : Position} (h : p.InRange t) :
    (ofText t).positionOf ((ofText t).offsetOf p) = p := by
  obtain ⟨⟨-, hle⟩, hmax⟩ := isGreatest_positionOf_offsetOf t p
  exact le_antisymm hle (hmax ⟨h, le_rfl⟩)

theorem positionOf_eq_endPosition_take (t : Text) (o : Int) :
    (ofText t).positionOf o = endPosition (t.take (t.cursorIndex o)) := by
  -- Both are the greatest place at or before the offset.
  have hplace : (ofText t).offsetOf ((ofText t).positionOf o.toNat) =
      utf8Length (t.take (t.cursorIndex o)) :=
    (isGreatest_offsetOf_positionOf t o.toNat).unique (t.isGreatest_cursorIndex o)
  have hcut := positionOf_eq_endPosition (t.hasCursor_cursorIndex o).2
  rw [List.take_append_drop] at hcut
  rw [← positionOf_toNat, ← positionOf_offsetOf_of_inRange (positionOf_inRange t o.toNat), hplace,
    hcut]

/-- The table gives every offset a position, and it is the one that is counted. The protocol accepts
that position in every text whose size it can count. -/
theorem positionOf_eq_plainPosition (t : Text) (ht : t.utf16Length ≤ Position.bound) (o : Int) :
    (ofText t).position? o = some (t.plainPosition o) ∧
      (ofText t).positionOf o = t.plainPosition o ∧
      Position.ofInts (t.plainPosition o).line (t.plainPosition o).character =
        .ok (t.plainPosition o) := by
  have heq : (ofText t).positionOf o = t.plainPosition o := by
    rw [positionOf_eq_endPosition_take, endPosition_eq, plainPosition]
  refine ⟨heq ▸ position?_ofText t o, heq, ?_⟩
  rw [← heq, ← positionOf_toNat]
  exact (positionOf_inRange t o.toNat).ofInts_eq_ok ht

/-- Between CR and LF, behind a CR that is a break of its own and a character of two units. -/
theorem positionOf_eq_plainPosition_inside_break :
    let t : Text := [.carriageReturn, .ofChar '😀', .carriageReturn, .lineFeed]
    t.utf16Length ≤ Position.bound ∧ t.plainPosition 6 = ⟨1, 2⟩ ∧
      (ofText t).position? 6 = some ⟨1, 2⟩ := by
  intro t
  have ht : t.utf16Length ≤ Position.bound := by decide
  have hplain : t.plainPosition 6 = ⟨1, 2⟩ := by decide
  exact ⟨ht, hplain, hplain ▸ (positionOf_eq_plainPosition t ht 6).1⟩

end LineTable

end CompletionServer
