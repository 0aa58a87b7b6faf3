import CompletionServer.Proofs.Text.Lines
import Mathlib.Data.Prod.Lex
import Mathlib.Order.Bounds.Basic

namespace CompletionServer

open Text

/-- The column stands behind some of the line's code points. -/
def Text.HasColumn (l : Text) (c : Nat) : Prop :=
  ∃ head : Text, head <+: l ∧ c = head.utf16Length

theorem Text.HasColumn.le_utf16Length {l : Text} {c : Nat} (h : l.HasColumn c) :
    c ≤ l.utf16Length := by
  obtain ⟨head, hh, rfl⟩ := h
  exact utf16Length_le_of_isPrefix hh

/-- The column that is found for a wish is the last one at or before it. -/
theorem Text.isGreatest_takeWithin (l : Text) (c : Nat) :
    IsGreatest {x | l.HasColumn x ∧ x ≤ c} (l.takeWithin CodePoint.utf16Width c).utf16Length := by
  constructor
  · refine ⟨⟨_, takeWithin_isPrefix _ _ _, rfl⟩, ?_⟩
    rw [utf16Length_eq_measure]
    exact measure_takeWithin_le _ _ _
  · rintro x ⟨⟨head, hh, rfl⟩, hx⟩
    rw [utf16Length_eq_measure] at hx
    exact utf16Length_le_of_isPrefix (isPrefix_takeWithin hh hx)

namespace Position

instance : LinearOrder Position :=
  LinearOrder.lift' (fun p => toLex (p.line, p.character)) fun p q h => by
    cases p
    cases q
    simpa using h

theorem le_iff {p q : Position} :
    p ≤ q ↔ p.line < q.line ∨ p.line = q.line ∧ p.character ≤ q.character :=
  Prod.Lex.toLex_le_toLex

/-- A cursor can stand there: in a line of the text, at a column of that line. -/
def InRange (t : Text) (q : Position) : Prop :=
  ∃ l, t.HasLine q.line l ∧ l.HasColumn q.character

variable {l rest : Text} {b : LineBreak} {n c : Nat}

theorem inRange_of_unbroken {q : Position} (hl : l.Unbroken) :
    InRange l q ↔ q.line = 0 ∧ l.HasColumn q.character := by
  simp [InRange, hasLine_of_unbroken hl]

theorem inRange_append_break_zero (hl : l.Unbroken) (hb : b.Fits rest) :
    InRange (l ++ b.text ++ rest) ⟨0, c⟩ ↔ l.HasColumn c := by
  simp only [InRange, hasLine_append_break hl hb]
  simp

theorem inRange_append_break_succ (hl : l.Unbroken) (hb : b.Fits rest) :
    InRange (l ++ b.text ++ rest) ⟨n + 1, c⟩ ↔ InRange rest ⟨n, c⟩ := by
  simp only [InRange, hasLine_append_break hl hb]
  simp

/-- Every line but the first costs a break, so the text bounds both coordinates. -/
theorem InRange.line_add_character_le {t : Text} {q : Position} (h : InRange t q) :
    q.line + q.character ≤ t.utf16Length := by
  obtain ⟨n, c⟩ := q
  induction t using induction_on_lines generalizing n with
  | last l hl =>
    obtain ⟨rfl, hc⟩ := (inRange_of_unbroken hl).mp h
    simpa using hc.le_utf16Length
  | broken l b rest hl hb ih =>
    have hpos := b.utf16Length_text_pos
    simp only [utf16Length_append]
    cases n with
    | zero =>
      have := ((inRange_append_break_zero hl hb).mp h).le_utf16Length
      omega
    | succ n =>
      have := ih n ((inRange_append_break_succ hl hb).mp h)
      dsimp only at this
      omega

theorem inRange_natCast {n : Nat} : inRange n = true ↔ n ≤ bound := by
  simp only [inRange, Bool.and_eq_true, decide_eq_true_eq]
  omega

theorem InRange.ofInts_eq_ok {t : Text} {q : Position} (h : InRange t q)
    (ht : t.utf16Length ≤ bound) : ofInts q.line q.character = .ok q := by
  have hle := h.line_add_character_le
  have hl : inRange q.line = true := inRange_natCast.mpr (by omega)
  have hc : inRange q.character = true := inRange_natCast.mpr (by omega)
  simp [ofInts, hl, hc]

theorem isGreatest_first_line {t l : Text} (h : ∀ x, InRange t ⟨0, x⟩ ↔ l.HasColumn x) (c : Nat) :
    IsGreatest {q | InRange t q ∧ q ≤ ⟨0, c⟩}
      ⟨0, (l.takeWithin CodePoint.utf16Width c).utf16Length⟩ := by
  obtain ⟨⟨hcol, hle⟩, hmax⟩ := l.isGreatest_takeWithin c
  constructor
  · exact ⟨(h _).mpr hcol, le_iff.mpr (.inr ⟨rfl, hle⟩)⟩
  · rintro ⟨n, x⟩ ⟨hq, hqc⟩
    obtain hlt | ⟨hn, hx⟩ := le_iff.mp hqc
    · exact absurd hlt (Nat.not_lt_zero n)
    · obtain rfl : n = 0 := hn
      exact le_iff.mpr (.inr ⟨rfl, hmax ⟨(h x).mp hq, hx⟩⟩)

end Position

namespace LineTable

open Position

variable {l rest : Text} {b : LineBreak}

/-- Inside one line nothing is lost on the way back, since the bytes of a leading part of the line
lead to that part again. -/
theorem positionOf_offsetOf_of_unbroken (hl : l.Unbroken) (c : Nat) :
    (ofText l).positionOf ((ofText l).offsetOf ⟨0, c⟩) =
      ⟨0, (l.takeWithin CodePoint.utf16Width c).utf16Length⟩ := by
  rw [offsetOf_of_unbroken_zero hl, positionOf_of_unbroken hl,
    takeWithin_utf8Length (takeWithin_isPrefix _ _ _)]

theorem positionOf_offsetOf_append_break_zero (hl : l.Unbroken) (hb : b.Fits rest) (c : Nat) :
    (ofText (l ++ b.text ++ rest)).positionOf ((ofText (l ++ b.text ++ rest)).offsetOf ⟨0, c⟩) =
      ⟨0, (l.takeWithin CodePoint.utf16Width c).utf16Length⟩ := by
  -- The break has bytes of its own, so even the end of the line is not in the next line.
  have hlt : (l.takeWithin CodePoint.utf16Width c).utf8Length < (l ++ b.text).utf8Length := by
    have := utf8Length_le_of_isPrefix (takeWithin_isPrefix CodePoint.utf16Width c l)
    have := b.utf8Length_text_pos
    rw [utf8Length_append]
    omega
  rw [offsetOf_append_break_zero hl hb, positionOf_append_break_lt hl hb hlt,
    takeWithin_utf8Length (takeWithin_isPrefix _ _ _)]

theorem isGreatest_positionOf_offsetOf (t : Text) (p : Position) :
    IsGreatest {q | q.InRange t ∧ q ≤ p} ((ofText t).positionOf ((ofText t).offsetOf p)) := by
  obtain ⟨n, c⟩ := p
  induction t using induction_on_lines generalizing n with
  | last l hl =>
    cases n with
    | zero =>
      rw [positionOf_offsetOf_of_unbroken hl]
      exact isGreatest_first_line (fun x => by simp [inRange_of_unbroken hl]) c
    | succ n =>
      -- Past the only line: the end of the text is the last place of all.
      rw [offsetOf_of_unbroken_succ hl, positionOf_of_unbroken hl,
        takeWithin_utf8Length List.prefix_rfl]
      constructor
      · exact ⟨(inRange_of_unbroken hl).mpr ⟨rfl, l, List.prefix_rfl, rfl⟩,
          le_iff.mpr (.inl (Nat.succ_pos n))⟩
      · rintro q ⟨hq, -⟩
        obtain ⟨h0, hcol⟩ := (inRange_of_unbroken hl).mp hq
        exact le_iff.mpr (.inr ⟨h0, hcol.le_utf16Length⟩)
  | broken l b rest hl hb ih =>
    cases n with
    | zero =>
      rw [positionOf_offsetOf_append_break_zero hl hb]
      exact isGreatest_first_line (fun x => inRange_append_break_zero hl hb) c
    | succ n =>
      -- Behind the first break all lines are one further on, which keeps their order.
      rw [offsetOf_append_break_succ hl hb, positionOf_append_break_add hl hb]
      obtain ⟨⟨hin, hle⟩, hmax⟩ := ih n
      constructor
      · refine ⟨(inRange_append_break_succ hl hb).mpr hin, le_iff.mpr ?_⟩
        simpa only [Nat.add_lt_add_iff_right, Nat.add_right_cancel_iff] using le_iff.mp hle
      · rintro ⟨m, x⟩ ⟨hq, hqp⟩
        cases m with
        | zero => exact le_iff.mpr (.inl (Nat.succ_pos _))
        | succ m =>
          have hqp' : (⟨m, x⟩ : Position) ≤ ⟨n, c⟩ := by
            simpa only [le_iff, Nat.add_lt_add_iff_right, Nat.add_right_cancel_iff] using hqp
          have := hmax ⟨(inRange_append_break_succ hl hb).mp hq, hqp'⟩
          simpa only [le_iff, Nat.add_lt_add_iff_right, Nat.add_right_cancel_iff] using this

/-- Turning a position into an offset and back gives the last place at or before it where a cursor
can stand, so the position itself if a cursor can stand there. The protocol accepts that place in
every text whose size it can count. -/
theorem positionOf_offsetOf_eq_floor (t : Text) (ht : t.utf16Length ≤ Position.bound)
    (p : Position) :
    let q := (ofText t).positionOf ((ofText t).offsetOf p)
    IsGreatest {r | r.InRange t ∧ r ≤ p} q ∧ (p.InRange t → q = p) ∧
      Position.ofInts q.line q.character = .ok q := by
  intro q
  have hq : IsGreatest {r | r.InRange t ∧ r ≤ p} q := isGreatest_positionOf_offsetOf t p
  refine ⟨hq, fun hp => ?_, hq.1.1.ofInts_eq_ok ht⟩
  exact le_antisymm hq.1.2 (hq.2 ⟨hp, le_rfl⟩)

/-- A wish to stand inside a surrogate pair moves back to the start of its character. -/
theorem positionOf_offsetOf_inside_pair :
    IsGreatest {r : Position | r.InRange [.ofChar 'a', .ofChar '😀', .carriageReturn, .lineFeed] ∧
      r ≤ ⟨0, 2⟩} ⟨0, 1⟩ := by
  let t : Text := [.ofChar 'a', .ofChar '😀', .carriageReturn, .lineFeed]
  have hfloor := (positionOf_offsetOf_eq_floor t (by decide) ⟨0, 2⟩).1
  have hplace : (ofText t).positionOf ((ofText t).offsetOf ⟨0, 2⟩) = ⟨0, 1⟩ := by
    rw [positionOf_eq_walk]
    decide
  rwa [hplace] at hfloor

end LineTable

end CompletionServer
