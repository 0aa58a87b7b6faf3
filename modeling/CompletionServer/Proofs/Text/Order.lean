import CompletionServer.Completion.Item
import CompletionServer.Proofs.Text.Places

namespace CompletionServer

namespace Text

theorem takeWithin_isPrefix_takeWithin (width : CodePoint → Nat) {m n : Nat} (h : m ≤ n)
    (t : Text) : t.takeWithin width m <+: t.takeWithin width n :=
  isPrefix_takeWithin (takeWithin_isPrefix width m t)
    (Nat.le_trans (measure_takeWithin_le width m t) h)

end Text

namespace LineTable

open Text Position

variable {l rest : Text} {b : LineBreak} {m n : Nat}

/-- Within one line the later offset reaches at least as many units. -/
theorem column_mono (l : Text) (h : m ≤ n) :
    (⟨0, (l.takeWithin CodePoint.utf8Width m).utf16Length⟩ : Position) ≤
      ⟨0, (l.takeWithin CodePoint.utf8Width n).utf16Length⟩ :=
  le_iff.mpr (.inr ⟨rfl, utf16Length_le_of_isPrefix (takeWithin_isPrefix_takeWithin _ h l)⟩)

theorem positionOf_natCast_mono (t : Text) (h : m ≤ n) :
    (ofText t).positionOf m ≤ (ofText t).positionOf n := by
  induction t using induction_on_lines generalizing m n with
  | last l hl =>
    rw [positionOf_of_unbroken hl, positionOf_of_unbroken hl]
    exact column_mono l h
  | broken l b rest hl hb ih =>
    obtain hn | hn := Nat.lt_or_ge n (l ++ b.text).utf8Length
    · rw [positionOf_append_break_lt hl hb hn,
        positionOf_append_break_lt hl hb (Nat.lt_of_le_of_lt h hn)]
      exact column_mono l h
    · obtain ⟨k, rfl⟩ := Nat.exists_eq_add_of_le hn
      rw [positionOf_append_break_add hl hb]
      obtain hm | hm := Nat.lt_or_ge m (l ++ b.text).utf8Length
      · rw [positionOf_append_break_lt hl hb hm]
        exact le_iff.mpr (.inl (Nat.succ_pos _))
      · obtain ⟨j, rfl⟩ := Nat.exists_eq_add_of_le hm
        rw [positionOf_append_break_add hl hb]
        have hle := le_iff.mp (ih (Nat.le_of_add_le_add_left h))
        simpa only [le_iff, Nat.add_lt_add_iff_right, Nat.add_right_cancel_iff] using hle

theorem positionOf_mono (t : Text) {a b : Int} (h : a ≤ b) :
    (ofText t).positionOf a ≤ (ofText t).positionOf b := by
  rw [← positionOf_toNat _ a, ← positionOf_toNat _ b]
  exact positionOf_natCast_mono t (Int.toNat_le_toNat h)

theorem offsetOf_first_le (hl : l.Unbroken) (hb : b.Fits rest) (c : Nat) :
    (ofText (l ++ b.text ++ rest)).offsetOf ⟨0, c⟩ ≤ (l ++ b.text).utf8Length := by
  rw [offsetOf_append_break_zero hl hb]
  exact utf8Length_le_of_isPrefix ((takeWithin_isPrefix _ c l).trans (List.prefix_append l b.text))

theorem offsetOf_mono (t : Text) {p q : Position} (h : p ≤ q) :
    (ofText t).offsetOf p ≤ (ofText t).offsetOf q := by
  obtain ⟨m, c⟩ := p
  obtain ⟨n, d⟩ := q
  have hcolumn (l : Text) (hcd : c ≤ d) : (l.takeWithin CodePoint.utf16Width c).utf8Length ≤
      (l.takeWithin CodePoint.utf16Width d).utf8Length :=
    utf8Length_le_of_isPrefix (takeWithin_isPrefix_takeWithin _ hcd l)
  induction t using induction_on_lines generalizing m n with
  | last l hl =>
    cases n with
    | zero =>
      obtain ⟨rfl, hcd⟩ : m = 0 ∧ c ≤ d := by simpa [le_iff] using h
      rw [offsetOf_of_unbroken_zero hl, offsetOf_of_unbroken_zero hl]
      exact hcolumn l hcd
    | succ n =>
      -- Past the only line is the end of the text, behind which nothing is.
      rw [offsetOf_of_unbroken_succ hl]
      exact (hasOffset_offsetOf l _).le_utf8Length
  | broken l b rest hl hb ih =>
    cases n with
    | zero =>
      obtain ⟨rfl, hcd⟩ : m = 0 ∧ c ≤ d := by simpa [le_iff] using h
      rw [offsetOf_append_break_zero hl hb, offsetOf_append_break_zero hl hb]
      exact hcolumn l hcd
    | succ n =>
      rw [offsetOf_append_break_succ hl hb]
      cases m with
      | zero => exact Nat.le_trans (offsetOf_first_le hl hb c) (Nat.le_add_right _ _)
      | succ m =>
        rw [offsetOf_append_break_succ hl hb]
        have hmn : (⟨m, c⟩ : Position) ≤ ⟨n, d⟩ := by
          simpa only [le_iff, Nat.add_lt_add_iff_right, Nat.add_right_cancel_iff] using h
        exact Nat.add_le_add_left (ih m n hmn) _

/-- Both conversions keep order, also between places that are moved for different reasons. So the
edit of an item never ends before it begins, however far its range reaches; and items have an edit
wherever edits are wanted and the suggestion has a range. The protocol accepts the edit's positions
in every text whose size it can count. -/
theorem conversions_keep_order (t : Text) (ht : t.utf16Length ≤ Position.bound) :
    let table := ofText t
    (∀ a b : Int, a ≤ b → table.positionOf a ≤ table.positionOf b) ∧
    (∀ p q : Position, p ≤ q → table.offsetOf p ≤ table.offsetOf q) ∧
    ∀ (options : ItemOptions) (s : Suggestion),
      (options.textEdits = true → s.range.isSome → (s.item options table).textEdit.isSome) ∧
      ∀ e, (s.item options table).textEdit = some e → e.start ≤ e.stop ∧
        Position.ofInts e.start.line e.start.character = .ok e.start ∧
        Position.ofInts e.stop.line e.stop.character = .ok e.stop := by
  intro table
  refine ⟨fun a b => positionOf_mono t, fun p q => offsetOf_mono t, fun options s => ⟨?_, ?_⟩⟩
  · intro hedits hrange
    simpa [Suggestion.item, Suggestion.textEdit, hedits] using hrange
  · intro e he
    have hedit : s.textEdit table = some e := by
      by_cases hedits : options.textEdits = true
      · simpa [Suggestion.item, hedits] using he
      · simp [Suggestion.item, hedits] at he
    obtain ⟨r, -, rfl⟩ := Option.map_eq_some_iff.mp hedit
    have haccept (o : Nat) := (positionOf_inRange t o).ofInts_eq_ok ht
    exact ⟨positionOf_mono t (Int.ofNat_le.mpr r.start_le_stop), haccept _, haccept _⟩

/-- The edit of a range from inside a character of four bytes to between CR and LF. -/
theorem conversions_keep_order_inside_break :
    let t : Text := [.ofChar 'a', .ofChar '😀', .carriageReturn, .lineFeed]
    let s : Suggestion := ⟨"b", none, none, none, none, some ⟨3, 6, by decide⟩⟩
    t.utf16Length ≤ Position.bound ∧
      ∃ e, (s.item { textEdits := true } (ofText t)).textEdit = some e ∧ e.start ≤ e.stop ∧
        e.start = ⟨0, 1⟩ ∧ e.stop = ⟨0, 3⟩ := by
  intro t s
  have ht : t.utf16Length ≤ Position.bound := by decide
  obtain ⟨hsome, hle⟩ := (conversions_keep_order t ht).2.2 { textEdits := true } s
  obtain ⟨e, he⟩ := Option.isSome_iff_exists.mp (hsome rfl rfl)
  have hedit : e = ⟨(ofText t).positionOf 3, (ofText t).positionOf 6, "b"⟩ :=
    (Option.some.inj he).symm
  rw [positionOf_eq_walk, positionOf_eq_walk] at hedit
  exact ⟨ht, e, he, (hle e he).1, by rw [hedit]; decide, by rw [hedit]; decide⟩

end LineTable

end CompletionServer
