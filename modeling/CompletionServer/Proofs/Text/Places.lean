import CompletionServer.Proofs.Text.RoundTrip

namespace CompletionServer

theorem LineBreak.text_eq_append {b : LineBreak} {s t : Text} (h : b.text = s ++ t) :
    s = [] ∨ t = [] ∨ s = [.carriageReturn] ∧ t = [.lineFeed] := by
  cases b <;> rcases s with _ | ⟨c, _ | ⟨d, s⟩⟩ <;> simp_all [LineBreak.text]

namespace Text

/-- A cursor can stand between the two parts: no CR LF pair is torn. -/
def Separable (before after : Text) : Prop :=
  ¬(before.getLast? = some .carriageReturn ∧ after.head? = some .lineFeed)

/-- A cursor can stand behind so many bytes of the text. -/
def HasOffset (t : Text) (n : Nat) : Prop :=
  ∃ before after : Text, t = before ++ after ∧ Separable before after ∧ n = before.utf8Length

def HasByteColumn (l : Text) (n : Nat) : Prop :=
  ∃ head : Text, head <+: l ∧ n = head.utf8Length

theorem takeWithin_utf16Length {s t : Text} (h : s <+: t) :
    t.takeWithin CodePoint.utf16Width s.utf16Length = s := by
  rw [utf16Length_eq_measure]
  exact takeWithin_measure CodePoint.utf16Width_pos h

theorem HasByteColumn.le_utf8Length {l : Text} {n : Nat} (h : l.HasByteColumn n) :
    n ≤ l.utf8Length := by
  obtain ⟨head, hh, rfl⟩ := h
  exact utf8Length_le_of_isPrefix hh

theorem HasOffset.le_utf8Length {t : Text} {n : Nat} (h : t.HasOffset n) : n ≤ t.utf8Length := by
  obtain ⟨before, after, rfl, -, rfl⟩ := h
  rw [utf8Length_append]
  exact Nat.le_add_right _ _

theorem isGreatest_byteColumn (l : Text) (n : Nat) :
    IsGreatest {x | l.HasByteColumn x ∧ x ≤ n} (l.takeWithin CodePoint.utf8Width n).utf8Length := by
  constructor
  · refine ⟨⟨_, takeWithin_isPrefix _ _ _, rfl⟩, ?_⟩
    rw [utf8Length_eq_measure]
    exact measure_takeWithin_le _ _ _
  · rintro x ⟨⟨head, hh, rfl⟩, hx⟩
    rw [utf8Length_eq_measure] at hx
    exact utf8Length_le_of_isPrefix (isPrefix_takeWithin hh hx)

theorem separable_of_unbroken {before : Text} (h : before.Unbroken) (after : Text) :
    Separable before after := by
  rintro ⟨hcr, -⟩
  exact h _ (List.mem_of_getLast? hcr) (.inr rfl)

variable {l rest before after : Text} {b : LineBreak}

/-- Behind a line and its break a cut tears a pair just if it does so in what follows. -/
theorem separable_append_break (h : Separable (l ++ b.text ++ before) after) :
    Separable before after := by
  rintro ⟨hcr, hlf⟩
  refine h ⟨?_, hlf⟩
  rw [List.getLast?_append, hcr]
  rfl

theorem Separable.append_break (h : Separable before after) (hb : b.Fits (before ++ after)) :
    Separable (l ++ b.text ++ before) after := by
  rintro ⟨hcr, hlf⟩
  cases before with
  | nil =>
    -- The cut is right behind the break, which is no CR where LF follows.
    cases b with
    | cr => exact hb rfl hlf
    | lf => simp [LineBreak.text, CodePoint.lineFeed, CodePoint.carriageReturn] at hcr
    | crlf => simp [LineBreak.text, CodePoint.lineFeed, CodePoint.carriageReturn] at hcr
  | cons c before =>
    exact h ⟨by simpa [List.getLast?_append, List.getLast?_cons] using hcr, hlf⟩

theorem separable_of_unbroken_middle {head word after : Text} (hw : word.Unbroken)
    (hs : Separable (head ++ word) after) : Separable head (word ++ after) := by
  rintro ⟨hcr, hlf⟩
  cases word with
  | nil => exact hs ⟨by simpa using hcr, hlf⟩
  | cons c word =>
    obtain rfl : c = .lineFeed := by simpa using hlf
    exact hw _ List.mem_cons_self (.inl rfl)

theorem hasOffset_of_unbroken {n : Nat} (hl : l.Unbroken) : l.HasOffset n ↔ l.HasByteColumn n := by
  constructor
  · rintro ⟨before, after, rfl, -, rfl⟩
    exact ⟨before, List.prefix_append _ _, rfl⟩
  · rintro ⟨head, ⟨tail, rfl⟩, rfl⟩
    have hhead : Unbroken head := fun c hc => hl c (List.mem_append_left _ hc)
    exact ⟨head, tail, rfl, separable_of_unbroken hhead tail, rfl⟩

/-- A cut is behind the first break or in the first line, or it tears a pair. -/
theorem cut_cases (h : l ++ b.text ++ rest = before ++ after) :
    (∃ behind : Text, before = l ++ b.text ++ behind ∧ rest = behind ++ after) ∨ before <+: l ∨
      ¬Separable before after := by
  obtain ⟨behind, rfl, rfl⟩ | ⟨left, hleft, rfl⟩ := List.append_eq_append_iff.mp h
  · exact .inl ⟨behind, rfl, rfl⟩
  · obtain ⟨part, rfl, hpart⟩ | ⟨tail, rfl, -⟩ := List.append_eq_append_iff.mp hleft
    · -- The cut is in the break: before it, behind it, or where it would tear a pair.
      obtain rfl | rfl | ⟨rfl, rfl⟩ := LineBreak.text_eq_append hpart
      · exact .inr (.inl (by simp))
      · exact .inl ⟨[], by rw [hpart, List.append_nil, List.append_nil], rfl⟩
      · exact .inr (.inr fun hs => hs ⟨by simp, rfl⟩)
    · exact .inr (.inl (List.prefix_append _ _))

theorem hasOffset_append_break {n : Nat} (hl : l.Unbroken) (hb : b.Fits rest) :
    HasOffset (l ++ b.text ++ rest) n ↔
      l.HasByteColumn n ∨ ∃ k, rest.HasOffset k ∧ n = (l ++ b.text).utf8Length + k := by
  constructor
  · rintro ⟨before, after, h, hs, rfl⟩
    obtain ⟨behind, rfl, rfl⟩ | hfirst | htorn := cut_cases h
    · refine .inr ⟨_, ⟨behind, after, rfl, separable_append_break hs, rfl⟩, ?_⟩
      exact utf8Length_append _ _
    · exact .inl ⟨before, hfirst, rfl⟩
    · exact absurd hs htorn
  · rintro (⟨head, ⟨tail, rfl⟩, rfl⟩ | ⟨k, ⟨before, after, rfl, hs, rfl⟩, rfl⟩)
    · have hhead : Unbroken head := fun c hc => hl c (List.mem_append_left _ hc)
      exact ⟨head, tail ++ b.text ++ rest, by simp, separable_of_unbroken hhead _, rfl⟩
    · refine ⟨l ++ b.text ++ before, after, by simp, hs.append_break hb, ?_⟩
      rw [utf8Length_append (l ++ b.text)]

/-- Where the text ends: its last line, and the units in that line. -/
def endPosition (t : Text) : Position :=
  match t.segments.getLast? with
  | none => ⟨0, 0⟩
  | some s => ⟨t.segments.length - 1, s.content.utf16Length⟩

theorem endPosition_of_unbroken (hl : l.Unbroken) : l.endPosition = ⟨0, l.utf16Length⟩ := by
  rw [endPosition, segments_of_unbroken hl]
  rfl

theorem endPosition_append_break (hl : l.Unbroken) (hb : b.Fits rest) :
    endPosition (l ++ b.text ++ rest) =
      ⟨rest.endPosition.line + 1, rest.endPosition.character⟩ := by
  obtain ⟨s, more, h⟩ := List.exists_cons_of_ne_nil rest.segments_ne_nil
  rw [endPosition, endPosition, segments_append_break hl hb, h, List.getLast?_cons_cons]
  cases hlast : (s :: more).getLast? with
  | none => simp at hlast
  | some last => rfl

theorem endPosition_append {head word : Text} (hw : word.Unbroken) :
    endPosition (head ++ word) =
      ⟨head.endPosition.line, head.endPosition.character + word.utf16Length⟩ := by
  induction head using induction_on_lines with
  | last l hl =>
    have hlw : Unbroken (l ++ word) := fun c hc => (List.mem_append.mp hc).elim (hl c) (hw c)
    rw [endPosition_of_unbroken hlw, endPosition_of_unbroken hl, utf16Length_append]
  | broken l b rest hl hb ih =>
    have hfits : b.Fits (rest ++ word) := by
      intro hcr hlf
      cases rest with
      | nil => exact hw _ (List.mem_of_head? hlf) (.inl rfl)
      | cons c rest => exact hb hcr hlf
    rw [List.append_assoc, endPosition_append_break hl hfits, endPosition_append_break hl hb, ih]

end Text

namespace LineTable

open Text Position

variable {l rest : Text} {b : LineBreak}

theorem positionOf_inRange (t : Text) (o : Nat) : ((ofText t).positionOf o).InRange t := by
  induction t using induction_on_lines generalizing o with
  | last l hl =>
    rw [positionOf_of_unbroken hl]
    exact (inRange_of_unbroken hl).mpr ⟨rfl, _, takeWithin_isPrefix _ _ _, rfl⟩
  | broken l b rest hl hb ih =>
    obtain ho | ho := Nat.lt_or_ge o (l ++ b.text).utf8Length
    · rw [positionOf_append_break_lt hl hb ho]
      exact (inRange_append_break_zero hl hb).mpr ⟨_, takeWithin_isPrefix _ _ _, rfl⟩
    · obtain ⟨k, rfl⟩ := Nat.exists_eq_add_of_le ho
      rw [positionOf_append_break_add hl hb]
      exact (inRange_append_break_succ hl hb).mpr (ih k)

/-- Whatever position is asked for, the offset found for it is a place. -/
theorem hasOffset_offsetOf (t : Text) (p : Position) : t.HasOffset ((ofText t).offsetOf p) := by
  obtain ⟨n, c⟩ := p
  induction t using induction_on_lines generalizing n with
  | last l hl =>
    rw [hasOffset_of_unbroken hl]
    cases n with
    | zero =>
      rw [offsetOf_of_unbroken_zero hl]
      exact ⟨_, takeWithin_isPrefix _ _ _, rfl⟩
    | succ n =>
      rw [offsetOf_of_unbroken_succ hl]
      exact ⟨l, List.prefix_rfl, rfl⟩
  | broken l b rest hl hb ih =>
    rw [hasOffset_append_break hl hb]
    cases n with
    | zero =>
      rw [offsetOf_append_break_zero hl hb]
      exact .inl ⟨_, takeWithin_isPrefix _ _ _, rfl⟩
    | succ n =>
      rw [offsetOf_append_break_succ hl hb]
      exact .inr ⟨_, ih n, rfl⟩

theorem offsetOf_positionOf_of_unbroken (hl : l.Unbroken) (o : Nat) :
    (ofText l).offsetOf ((ofText l).positionOf o) =
      (l.takeWithin CodePoint.utf8Width o).utf8Length := by
  rw [positionOf_of_unbroken hl, offsetOf_of_unbroken_zero hl,
    takeWithin_utf16Length (takeWithin_isPrefix _ _ _)]

theorem offsetOf_positionOf_append_break_lt (hl : l.Unbroken) (hb : b.Fits rest) {o : Nat}
    (ho : o < (l ++ b.text).utf8Length) :
    (ofText (l ++ b.text ++ rest)).offsetOf ((ofText (l ++ b.text ++ rest)).positionOf o) =
      (l.takeWithin CodePoint.utf8Width o).utf8Length := by
  rw [positionOf_append_break_lt hl hb ho, offsetOf_append_break_zero hl hb,
    takeWithin_utf16Length (takeWithin_isPrefix _ _ _)]

theorem offsetOf_positionOf_append_break_add (hl : l.Unbroken) (hb : b.Fits rest) (o : Nat) :
    (ofText (l ++ b.text ++ rest)).offsetOf
        ((ofText (l ++ b.text ++ rest)).positionOf ((l ++ b.text).utf8Length + o : Nat)) =
      (l ++ b.text).utf8Length + (ofText rest).offsetOf ((ofText rest).positionOf o) := by
  rw [positionOf_append_break_add hl hb, offsetOf_append_break_succ hl hb]

theorem isGreatest_offsetOf_positionOf (t : Text) (o : Nat) :
    IsGreatest {n | t.HasOffset n ∧ n ≤ o} ((ofText t).offsetOf ((ofText t).positionOf o)) := by
  induction t using induction_on_lines generalizing o with
  | last l hl =>
    simp only [offsetOf_positionOf_of_unbroken hl, hasOffset_of_unbroken hl]
    exact isGreatest_byteColumn l o
  | broken l b rest hl hb ih =>
    have hbreak : l.utf8Length < (l ++ b.text).utf8Length := by
      have := b.utf8Length_text_pos
      rw [utf8Length_append]
      omega
    obtain ho | ho := Nat.lt_or_ge o (l ++ b.text).utf8Length
    · -- The offset is in the first line or its break, so later places are out of reach.
      rw [offsetOf_positionOf_append_break_lt hl hb ho]
      obtain ⟨⟨hcol, hle⟩, hmax⟩ := isGreatest_byteColumn l o
      constructor
      · exact ⟨(hasOffset_append_break hl hb).mpr (.inl hcol), hle⟩
      · rintro n ⟨hn, hno⟩
        obtain hn | ⟨k, -, rfl⟩ := (hasOffset_append_break hl hb).mp hn
        · exact hmax ⟨hn, hno⟩
        · omega
    · -- Behind the break all places are further on by the same bytes; earlier ones are smaller.
      obtain ⟨k, rfl⟩ := Nat.exists_eq_add_of_le ho
      rw [offsetOf_positionOf_append_break_add hl hb]
      obtain ⟨⟨hin, hle⟩, hmax⟩ := ih k
      constructor
      · exact ⟨(hasOffset_append_break hl hb).mpr (.inr ⟨_, hin, rfl⟩),
          Nat.add_le_add_left hle _⟩
      · rintro n ⟨hn, hno⟩
        obtain hn | ⟨m, hm, rfl⟩ := (hasOffset_append_break hl hb).mp hn
        · have := hn.le_utf8Length
          omega
        · have := hmax ⟨hm, Nat.le_of_add_le_add_left hno⟩
          omega

theorem offsetOf_positionOf_of_hasOffset {t : Text} {n : Nat} (h : t.HasOffset n) :
    (ofText t).offsetOf ((ofText t).positionOf n) = n := by
  obtain ⟨⟨-, hle⟩, hmax⟩ := isGreatest_offsetOf_positionOf t n
  exact le_antisymm hle (hmax ⟨h, le_rfl⟩)

/-- A place has the position at which the text before it ends. -/
theorem positionOf_eq_endPosition {before after : Text} (hs : Separable before after) :
    (ofText (before ++ after)).positionOf before.utf8Length = before.endPosition := by
  induction before using induction_on_lines with
  | last l hl =>
    rw [endPosition_of_unbroken hl]
    -- The first line may go on behind the place, as far as the next break.
    obtain ht | ⟨tail, b, rest, htail, hb, rfl⟩ := unbroken_or_exists_break after
    · have hlt : Unbroken (l ++ after) := fun c hc => (List.mem_append.mp hc).elim (hl c) (ht c)
      rw [positionOf_of_unbroken hlt, takeWithin_utf8Length (List.prefix_append _ _)]
    · have hlt : Unbroken (l ++ tail) := fun c hc => (List.mem_append.mp hc).elim (hl c) (htail c)
      have hlen : l.utf8Length < (l ++ tail ++ b.text).utf8Length := by
        have := b.utf8Length_text_pos
        simp only [utf8Length_append]
        omega
      have := positionOf_append_break_lt hlt hb hlen
      rw [takeWithin_utf8Length (List.prefix_append _ _)] at this
      simpa only [List.append_assoc] using this
  | broken l b rest hl hb ih =>
    have hfits : b.Fits (rest ++ after) := by
      rintro rfl hlf
      cases rest with
      | nil => exact hs ⟨by simp [LineBreak.text], hlf⟩
      | cons c rest => exact hb rfl hlf
    have := positionOf_append_break_add hl hfits rest.utf8Length
    rw [ih (separable_append_break hs), ← utf8Length_append, ← List.append_assoc] at this
    rw [endPosition_append_break hl hb]
    exact this

theorem offsetOf_endPosition {before after : Text} (hs : Separable before after) :
    (ofText (before ++ after)).offsetOf before.endPosition = before.utf8Length := by
  rw [← positionOf_eq_endPosition hs]
  exact offsetOf_positionOf_of_hasOffset ⟨before, after, rfl, hs, rfl⟩

theorem positionOf_toNat (table : LineTable) (o : Int) :
    table.positionOf (o.toNat : Int) = table.positionOf o := by
  simp only [positionOf, position?, Int.toNat_natCast]

/-- Every offset has a position, and turning that back into an offset gives the last place at or
before the one that was asked for; outside the text, the first or the last place of all. So a place
comes back as it is, and only places come out of any position. The protocol accepts the position on
the way in every text whose size it can count. -/
theorem offsetOf_positionOf_eq_floor (t : Text) (ht : t.utf16Length ≤ Position.bound) (o : Int) :
    let table := ofText t
    let q := table.positionOf o
    table.position? o = some q ∧ Position.ofInts q.line q.character = .ok q ∧
    IsGreatest {n : Nat | t.HasOffset n ∧ (n : Int) ≤ max 0 (min o table.byteLength)}
      (table.offsetOf q) ∧
    (∀ n : Nat, t.HasOffset n → table.offsetOf (table.positionOf n) = n) ∧
    ∀ p, t.HasOffset (table.offsetOf p) := by
  intro table q
  have hq : q = table.positionOf (o.toNat : Int) := (table.positionOf_toNat o).symm
  refine ⟨position?_ofText t o, ?_, ?_, fun n => offsetOf_positionOf_of_hasOffset,
    hasOffset_offsetOf t⟩
  · rw [hq]
    exact (positionOf_inRange t o.toNat).ofInts_eq_ok ht
  · obtain ⟨⟨hin, hle⟩, hmax⟩ := isGreatest_offsetOf_positionOf t o.toNat
    rw [hq]
    -- No place is past the end of the text, so the bound by its length changes nothing.
    constructor
    · have hlen : table.offsetOf (table.positionOf (o.toNat : Int)) ≤ table.byteLength :=
        hin.le_utf8Length
      have hfloor : table.offsetOf (table.positionOf (o.toNat : Int)) ≤ o.toNat := hle
      refine ⟨hin, ?_⟩
      omega
    · rintro n ⟨hn, hno⟩
      exact hmax ⟨hn, by omega⟩

/-- An offset inside a character of four bytes moves back to its start, and one inside the CR LF
pair behind it to the end of the line. -/
theorem offsetOf_positionOf_inside_break :
    let t : Text := [.ofChar 'a', .ofChar '😀', .carriageReturn, .lineFeed]
    let places (o : Int) := {n : Nat | t.HasOffset n ∧ (n : Int) ≤ max 0 (min o 7)}
    t.utf16Length ≤ Position.bound ∧ IsGreatest (places 4) 1 ∧ IsGreatest (places 6) 5 := by
  intro t places
  have ht : t.utf16Length ≤ Position.bound := by decide
  have hcharacter : (ofText t).offsetOf ((ofText t).positionOf 4) = 1 := by
    rw [positionOf_eq_walk]
    decide
  have hbreak : (ofText t).offsetOf ((ofText t).positionOf 6) = 5 := by
    rw [positionOf_eq_walk]
    decide
  have hlength : (ofText t).byteLength = 7 := by decide
  have hplaces := fun o => (offsetOf_positionOf_eq_floor t ht o).2.2.1
  rw [hlength] at hplaces
  exact ⟨ht, hcharacter ▸ hplaces 4, hbreak ▸ hplaces 6⟩

end LineTable

end CompletionServer
