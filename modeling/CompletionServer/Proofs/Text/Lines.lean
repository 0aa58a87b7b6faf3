import CompletionServer.Proofs.Text.Bisection
import CompletionServer.Proofs.Text.Bytes

namespace CompletionServer

namespace CodePoint

def IsBreak (c : CodePoint) : Prop := c = .lineFeed ∨ c = .carriageReturn

instance : DecidablePred IsBreak := fun c => inferInstanceAs (Decidable (c = _ ∨ c = _))

end CodePoint

namespace LineBreak

/-- The break may stand before the text: CR alone is no break where LF follows. -/
def Fits (b : LineBreak) (rest : Text) : Prop :=
  b = .cr → rest.head? ≠ some .lineFeed

theorem utf8Length_text_pos (b : LineBreak) : 0 < b.text.utf8Length := by
  cases b <;> decide

theorem utf16Length_text_pos (b : LineBreak) : 0 < b.text.utf16Length := by
  cases b <;> decide

end LineBreak

namespace Text

def Unbroken (t : Text) : Prop := ∀ c ∈ t, ¬c.IsBreak

/-- The line with number `n`, counted from zero, has content `l`. -/
inductive HasLine : Text → Nat → Text → Prop
  | last {l : Text} : l.Unbroken → HasLine l 0 l
  | first {l rest : Text} {b : LineBreak} :
    l.Unbroken → b.Fits rest → HasLine (l ++ b.text ++ rest) 0 l
  | later {l rest m : Text} {b : LineBreak} {n : Nat} :
    l.Unbroken → b.Fits rest → HasLine rest n m → HasLine (l ++ b.text ++ rest) (n + 1) m

theorem exists_break_of_head {c : CodePoint} {t : Text} (hc : c.IsBreak) :
    ∃ (b : LineBreak) (rest : Text), b.Fits rest ∧ c :: t = b.text ++ rest := by
  obtain rfl | rfl := hc
  · exact ⟨.lf, t, by simp [LineBreak.Fits], rfl⟩
  · by_cases ht : t.head? = some .lineFeed
    · obtain ⟨u, rfl⟩ := List.head?_eq_some_iff.mp ht
      exact ⟨.crlf, u, by simp [LineBreak.Fits], rfl⟩
    · exact ⟨.cr, t, fun _ => ht, rfl⟩

theorem unbroken_or_exists_break (t : Text) :
    t.Unbroken ∨ ∃ (l : Text) (b : LineBreak) (rest : Text),
      l.Unbroken ∧ b.Fits rest ∧ t = l ++ b.text ++ rest := by
  induction t with
  | nil => exact .inl (List.forall_mem_nil _)
  | cons c t ih =>
    by_cases hc : c.IsBreak
    · obtain ⟨b, rest, hb, h⟩ := exists_break_of_head (t := t) hc
      exact .inr ⟨[], b, rest, List.forall_mem_nil _, hb, h⟩
    · obtain ht | ⟨l, b, rest, hl, hb, rfl⟩ := ih
      · exact .inl (List.forall_mem_cons.mpr ⟨hc, ht⟩)
      · exact .inr ⟨c :: l, b, rest, List.forall_mem_cons.mpr ⟨hc, hl⟩, hb, rfl⟩

@[elab_as_elim]
theorem induction_on_lines {motive : Text → Prop} (t : Text)
    (last : ∀ l : Text, l.Unbroken → motive l)
    (broken : ∀ (l : Text) (b : LineBreak) (rest : Text), l.Unbroken → b.Fits rest →
      motive rest → motive (l ++ b.text ++ rest)) : motive t := by
  -- By length: what follows a break is shorter, as no break is empty.
  induction h : t.length using Nat.strongRecOn generalizing t with
  | ind n ih =>
    obtain ht | ⟨l, b, rest, hl, hb, rfl⟩ := unbroken_or_exists_break t
    · exact last t ht
    · refine broken l b rest hl hb (ih rest.length ?_ rest rfl)
      have : 0 < b.text.length := by cases b <;> decide
      simp only [List.length_append] at h
      omega

theorem segments_cons_of_not_isBreak {c : CodePoint} {t : Text} (hc : ¬c.IsBreak) :
    segments (c :: t) = consContent c t.segments := by
  obtain ⟨hf, hr⟩ := not_or.mp hc
  cases t with
  | nil => simp [segments, consContent, hf, hr]
  | cons d t => simp [segments, hf, hr]

theorem segments_of_unbroken {l : Text} (hl : l.Unbroken) : l.segments = [⟨l, none⟩] := by
  induction l with
  | nil => rfl
  | cons c l ih =>
    obtain ⟨hc, hl⟩ := List.forall_mem_cons.mp hl
    rw [segments_cons_of_not_isBreak hc, ih hl]
    rfl

theorem segments_break {b : LineBreak} {rest : Text} (hb : b.Fits rest) :
    segments (b.text ++ rest) = ⟨[], some b⟩ :: rest.segments := by
  cases b with
  | lf => cases rest <;> simp [LineBreak.text, segments]
  | crlf => simp [LineBreak.text, segments, CodePoint.carriageReturn, CodePoint.lineFeed]
  | cr =>
    -- The only break that looks at what follows it.
    have h := hb rfl
    cases rest with
    | nil => decide
    | cons d rest =>
      have hd : d ≠ .lineFeed := by simpa using h
      simp [LineBreak.text, segments, CodePoint.carriageReturn, CodePoint.lineFeed] at hd ⊢
      simp [hd]

theorem segments_append_break {l rest : Text} {b : LineBreak} (hl : l.Unbroken)
    (hb : b.Fits rest) : segments (l ++ b.text ++ rest) = ⟨l, some b⟩ :: rest.segments := by
  induction l with
  | nil => exact segments_break hb
  | cons c l ih =>
    obtain ⟨hc, hl⟩ := List.forall_mem_cons.mp hl
    rw [List.cons_append, List.cons_append, segments_cons_of_not_isBreak hc, ih hl]
    rfl

theorem segments_ne_nil (t : Text) : t.segments ≠ [] := by
  induction t using induction_on_lines with
  | last l hl => simp [segments_of_unbroken hl]
  | broken l b rest hl hb ih => rw [segments_append_break hl hb]; exact List.cons_ne_nil _ _

theorem hasLine_iff {t : Text} {n : Nat} {l : Text} :
    t.HasLine n l ↔ ∃ s, t.segments[n]? = some s ∧ s.content = l := by
  constructor
  · intro h
    induction h with
    | last hl => exact ⟨_, by rw [segments_of_unbroken hl]; rfl, rfl⟩
    | first hl hb => exact ⟨_, by rw [segments_append_break hl hb]; rfl, rfl⟩
    | later hl hb _ ih => rw [segments_append_break hl hb]; exact ih
  · rintro ⟨s, hs, rfl⟩
    -- From the cut back to the lines, one line at a time.
    induction t using induction_on_lines generalizing n with
    | last l hl =>
      rw [segments_of_unbroken hl] at hs
      cases n with
      | zero =>
        obtain rfl : ⟨l, none⟩ = s := by simpa using hs
        exact .last hl
      | succ n => simp at hs
    | broken l b rest hl hb ih =>
      rw [segments_append_break hl hb] at hs
      cases n with
      | zero =>
        obtain rfl : ⟨l, some b⟩ = s := by simpa using hs
        exact .first hl hb
      | succ n => exact .later hl hb (ih (by simpa using hs))

theorem hasLine_of_unbroken {l m : Text} {n : Nat} (hl : l.Unbroken) :
    l.HasLine n m ↔ n = 0 ∧ m = l := by
  rw [hasLine_iff, segments_of_unbroken hl]
  cases n <;> simp [eq_comm]

theorem hasLine_append_break {l rest m : Text} {b : LineBreak} {n : Nat} (hl : l.Unbroken)
    (hb : b.Fits rest) :
    HasLine (l ++ b.text ++ rest) n m ↔ n = 0 ∧ m = l ∨ ∃ k, n = k + 1 ∧ rest.HasLine k m := by
  simp only [hasLine_iff, segments_append_break hl hb]
  cases n <;> simp [eq_comm]

end Text

/-- The line as it stands when the text is put before everything. -/
def Line.behind (t : Text) (l : Line) : Line :=
  ⟨l.content, t.length + l.start, t.utf8Length + l.byteStart⟩

namespace LineTable

open Text

theorem place_eq_map_behind (t : Text) (segments : List Segment) :
    place t.length t.utf8Length segments = (place 0 0 segments).map (Line.behind t) := by
  suffices ∀ s b, place (t.length + s) (t.utf8Length + b) segments =
      (place s b segments).map (Line.behind t) from this 0 0
  induction segments with
  | nil => simp [place]
  | cons x segments ih =>
    intro s b
    rw [place, place, List.map_cons, Nat.add_assoc, Nat.add_assoc, ih]
    rfl

@[simp] theorem byteLength_ofText (t : Text) : (ofText t).byteLength = t.utf8Length := rfl

variable {l rest : Text} {b : LineBreak}

theorem lines_of_unbroken (hl : l.Unbroken) : (ofText l).lines = [⟨l, 0, 0⟩] := by
  rw [ofText, segments_of_unbroken hl]
  rfl

theorem lines_append_break (hl : l.Unbroken) (hb : b.Fits rest) :
    (ofText (l ++ b.text ++ rest)).lines =
      ⟨l, 0, 0⟩ :: (ofText rest).lines.map (Line.behind (l ++ b.text)) := by
  rw [ofText, segments_append_break hl hb, place, ofText, ← place_eq_map_behind]
  simp [Segment.text]

theorem exists_lines_eq_cons (t : Text) :
    ∃ content xs, (ofText t).lines = ⟨content, 0, 0⟩ :: xs := by
  obtain ⟨s, rest, h⟩ := List.exists_cons_of_ne_nil t.segments_ne_nil
  exact ⟨_, _, by rw [ofText, h, place]⟩

theorem offsetOf_of_unbroken_zero (hl : l.Unbroken) (c : Nat) :
    (ofText l).offsetOf ⟨0, c⟩ = (l.takeWithin CodePoint.utf16Width c).utf8Length := by
  simp [offsetOf, lines_of_unbroken hl]

theorem offsetOf_of_unbroken_succ (hl : l.Unbroken) (n c : Nat) :
    (ofText l).offsetOf ⟨n + 1, c⟩ = l.utf8Length := by
  simp [offsetOf, lines_of_unbroken hl]

theorem offsetOf_append_break_zero (hl : l.Unbroken) (hb : b.Fits rest) (c : Nat) :
    (ofText (l ++ b.text ++ rest)).offsetOf ⟨0, c⟩ =
      (l.takeWithin CodePoint.utf16Width c).utf8Length := by
  simp only [offsetOf, lines_append_break hl hb, List.getElem?_cons_zero, Nat.zero_add]

theorem offsetOf_append_break_succ (hl : l.Unbroken) (hb : b.Fits rest) (n c : Nat) :
    (ofText (l ++ b.text ++ rest)).offsetOf ⟨n + 1, c⟩ =
      (l ++ b.text).utf8Length + (ofText rest).offsetOf ⟨n, c⟩ := by
  simp only [offsetOf, lines_append_break hl hb, List.getElem?_cons_succ, List.getElem?_map]
  cases (ofText rest).lines[n]? with
  | none => exact utf8Length_append _ _
  | some x => exact Nat.add_assoc _ _ _

/-- No two lines begin at the same byte, as every break has bytes of its own. -/
theorem pairwise_byteStarts (t : Text) : (ofText t).byteStarts.Pairwise (· < ·) := by
  induction t using induction_on_lines with
  | last l hl => simp [byteStarts, lines_of_unbroken hl]
  | broken l b rest hl hb ih =>
    have hlater (x : Line) : (x.behind (l ++ b.text)).byteStart =
        (l ++ b.text).utf8Length + x.byteStart := rfl
    rw [byteStarts, List.pairwise_map] at ih ⊢
    rw [lines_append_break hl hb, List.pairwise_cons, List.pairwise_map]
    constructor
    · intro x hx
      obtain ⟨y, -, rfl⟩ := List.mem_map.mp hx
      have hpos := b.utf8Length_text_pos
      rw [hlater, utf8Length_append]
      exact Nat.lt_add_right _ (Nat.lt_of_lt_of_le hpos (Nat.le_add_left _ _))
    · refine ih.imp fun hlt => ?_
      rw [hlater, hlater]
      omega

def linesUpTo (table : LineTable) (offset : Nat) : List Line :=
  table.lines.takeWhile (·.byteStart ≤ offset)

theorem bisectRight_byteStarts (t : Text) (o : Nat) :
    bisectRight (ofText t).byteStarts o 0 (ofText t).byteStarts.length =
      ((ofText t).linesUpTo o).length := by
  rw [bisectRight_eq_length_takeWhile (pairwise_byteStarts t), byteStarts, List.takeWhile_map,
    List.length_map]
  rfl

theorem linesUpTo_of_unbroken (hl : l.Unbroken) (o : Nat) :
    (ofText l).linesUpTo o = [⟨l, 0, 0⟩] := by
  simp [linesUpTo, lines_of_unbroken hl]

theorem linesUpTo_append_break_lt (hl : l.Unbroken) (hb : b.Fits rest) {o : Nat}
    (ho : o < (l ++ b.text).utf8Length) :
    (ofText (l ++ b.text ++ rest)).linesUpTo o = [⟨l, 0, 0⟩] := by
  obtain ⟨content, xs, h⟩ := exists_lines_eq_cons rest
  rw [linesUpTo, lines_append_break hl hb, h, List.map_cons, List.takeWhile_cons_of_pos (by simp),
    List.takeWhile_cons_of_neg (by simpa [Line.behind] using ho)]

theorem linesUpTo_append_break_add (hl : l.Unbroken) (hb : b.Fits rest) (o : Nat) :
    (ofText (l ++ b.text ++ rest)).linesUpTo ((l ++ b.text).utf8Length + o) =
      ⟨l, 0, 0⟩ :: ((ofText rest).linesUpTo o).map (Line.behind (l ++ b.text)) := by
  rw [linesUpTo, lines_append_break hl hb, List.takeWhile_cons_of_pos (by simp),
    List.takeWhile_map, linesUpTo]
  congr 3
  funext x
  simp [Line.behind]

theorem exists_linesUpTo_eq_append (t : Text) (o : Nat) :
    ∃ reached x, (ofText t).linesUpTo o = reached ++ [x] := by
  obtain ⟨content, xs, h⟩ := exists_lines_eq_cons t
  have hne : (ofText t).linesUpTo o ≠ [] := by simp [linesUpTo, h]
  exact ⟨_, _, (List.dropLast_concat_getLast hne).symm⟩

theorem position?_eq_of_linesUpTo {t : Text} {o : Int} {reached : List Line} {x : Line}
    (h : (ofText t).linesUpTo (min o.toNat t.utf8Length) = reached ++ [x]) :
    (ofText t).position? o =
      some ⟨reached.length, (x.content.takeWithin CodePoint.utf8Width
        (min o.toNat t.utf8Length - x.byteStart)).utf16Length⟩ := by
  have hline : bisectRight (ofText t).byteStarts (min o.toNat t.utf8Length) 0
      (ofText t).byteStarts.length - 1 = reached.length := by
    rw [bisectRight_byteStarts, h, List.length_append, List.length_singleton, Nat.add_sub_cancel]
  -- The lines reached are the first ones of the table, so the last of them has this index.
  have hlast : (ofText t).lines[reached.length]? = some x := by
    obtain ⟨later, hlater⟩ := List.takeWhile_prefix (l := (ofText t).lines)
      fun l => decide (l.byteStart ≤ min o.toNat t.utf8Length)
    rw [← hlater, ← linesUpTo, h, List.append_assoc]
    simp
  simp only [position?, byteLength_ofText, hline, hlast, Option.bind_some,
    decodeWide?_take_stepBack, Option.map_some]

/-- Decoding never fails, so the offset has the position that is decoded. -/
theorem position?_ofText (t : Text) (o : Int) :
    (ofText t).position? o = some ((ofText t).positionOf o) := by
  obtain ⟨reached, x, h⟩ := exists_linesUpTo_eq_append t (min o.toNat t.utf8Length)
  rw [positionOf, position?_eq_of_linesUpTo h, Option.getD_some]

/-- The search among the bytes finds what a walk over lines and code points does. -/
theorem positionOf_eq_walk (t : Text) (o : Int) :
    let reached := (ofText t).linesUpTo (min o.toNat t.utf8Length)
    (ofText t).positionOf o = ⟨reached.length - 1, utf16Length (reached.getLast?.elim [] fun x =>
      x.content.takeWithin CodePoint.utf8Width (min o.toNat t.utf8Length - x.byteStart))⟩ := by
  intro reached
  obtain ⟨earlier, x, h⟩ := exists_linesUpTo_eq_append t (min o.toNat t.utf8Length)
  have hreached : reached = earlier ++ [x] := h
  rw [positionOf, position?_eq_of_linesUpTo h, hreached]
  simp

theorem positionOf_eq_of_linesUpTo {t : Text} {o : Nat} {reached : List Line} {x : Line}
    (h : (ofText t).linesUpTo (min o t.utf8Length) = reached ++ [x]) :
    (ofText t).positionOf o =
      ⟨reached.length, (x.content.takeWithin CodePoint.utf8Width
        (min o t.utf8Length - x.byteStart)).utf16Length⟩ := by
  rw [positionOf, position?_eq_of_linesUpTo (o := o) h]
  rfl

theorem positionOf_of_unbroken (hl : l.Unbroken) (o : Nat) :
    (ofText l).positionOf o = ⟨0, (l.takeWithin CodePoint.utf8Width o).utf16Length⟩ := by
  have h : (ofText l).linesUpTo (min o l.utf8Length) = [] ++ [⟨l, 0, 0⟩] :=
    linesUpTo_of_unbroken hl _
  rw [positionOf_eq_of_linesUpTo h, List.length_nil, Nat.sub_zero]
  obtain ho | ho := Nat.le_total o l.utf8Length
  · rw [Nat.min_eq_left ho]
  · rw [Nat.min_eq_right ho, takeWithin_utf8Length List.prefix_rfl,
      takeWithin_of_measure_le (utf8Length_eq_measure l ▸ ho)]

theorem positionOf_append_break_lt (hl : l.Unbroken) (hb : b.Fits rest) {o : Nat}
    (ho : o < (l ++ b.text).utf8Length) :
    (ofText (l ++ b.text ++ rest)).positionOf o =
      ⟨0, (l.takeWithin CodePoint.utf8Width o).utf16Length⟩ := by
  have hmin : min o (l ++ b.text ++ rest).utf8Length = o := by
    rw [utf8Length_append]
    omega
  have h : (ofText (l ++ b.text ++ rest)).linesUpTo
      (min o (l ++ b.text ++ rest).utf8Length) = [] ++ [⟨l, 0, 0⟩] := by
    rw [hmin]
    exact linesUpTo_append_break_lt hl hb ho
  rw [positionOf_eq_of_linesUpTo h, hmin]
  rfl

theorem positionOf_append_break_add (hl : l.Unbroken) (hb : b.Fits rest) (o : Nat) :
    (ofText (l ++ b.text ++ rest)).positionOf ((l ++ b.text).utf8Length + o : Nat) =
      ⟨((ofText rest).positionOf o).line + 1, ((ofText rest).positionOf o).character⟩ := by
  obtain ⟨reached, x, h⟩ := exists_linesUpTo_eq_append rest (min o rest.utf8Length)
  have hmin : min ((l ++ b.text).utf8Length + o) (l ++ b.text ++ rest).utf8Length =
      (l ++ b.text).utf8Length + min o rest.utf8Length := by
    rw [utf8Length_append (l ++ b.text)]
    exact Nat.add_min_add_left ..
  have hmore := linesUpTo_append_break_add hl hb (min o rest.utf8Length)
  rw [h, List.map_append, ← List.cons_append, ← hmin] at hmore
  rw [positionOf_eq_of_linesUpTo h, positionOf_eq_of_linesUpTo hmore, hmin]
  simp [Line.behind, Nat.add_sub_add_left]

end LineTable

end CompletionServer
