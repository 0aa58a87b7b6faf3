import CompletionServer.Proofs.Text.Lines
import Mathlib.Data.List.Chain

namespace CompletionServer

namespace Text

def between (t : Text) (start stop : Nat) : Text := (t.take stop).drop start

theorem between_append_add (s t : Text) (i j : Nat) :
    between (s ++ t) (s.length + i) (s.length + j) = t.between i j := by
  rw [between, List.take_length_add_append, List.drop_length_add_append, between]

/-- The first texts in turn with the second ones, which stand in the gaps between them. -/
def interleave : List Text → List Text → Text
  | [], _ => []
  | l :: ls, [] => l ++ interleave ls []
  | l :: ls, g :: gs => l ++ g ++ interleave ls gs

end Text

namespace Line

/-- The line is a part of the text without a break, and begins where it says. -/
structure StandsIn (t : Text) (l : Line) : Prop where
  between_eq : t.between l.start l.stop = l.content
  byteStart_eq : l.byteStart = (Text.utf8 (t.take l.start)).length
  unbroken : l.content.Unbroken

/-- One break stands between two lines of the text, and none of it is left for the second line. -/
structure Precedes (t : Text) (l m : Line) : Prop where
  exists_break : ∃ b : LineBreak, t.between l.stop m.start = b.text ∧ b.Fits (t.drop m.start)
  lt_byteStart : l.byteStart + l.content.utf8.length < m.byteStart

variable {t : Text} {l m : Line}

theorem stop_behind (s : Text) (l : Line) : (l.behind s).stop = s.length + l.stop :=
  Nat.add_assoc ..

theorem StandsIn.behind (h : l.StandsIn t) (s : Text) : (l.behind s).StandsIn (s ++ t) := by
  refine ⟨?_, ?_, h.unbroken⟩
  · rw [stop_behind]
    exact (Text.between_append_add s t l.start l.stop).trans h.between_eq
  · show s.utf8Length + l.byteStart = (Text.utf8 ((s ++ t).take (s.length + l.start))).length
    rw [List.take_length_add_append, Text.length_utf8, Text.utf8Length_append, h.byteStart_eq,
      Text.length_utf8]

theorem Precedes.behind (h : l.Precedes t m) (s : Text) :
    (l.behind s).Precedes (s ++ t) (m.behind s) := by
  obtain ⟨b, hbetween, hfits⟩ := h.exists_break
  refine ⟨⟨b, ?_, ?_⟩, ?_⟩
  · rw [stop_behind]
    exact (Text.between_append_add s t l.stop m.start).trans hbetween
  · show b.Fits ((s ++ t).drop (s.length + m.start))
    rwa [List.drop_length_add_append]
  · have hlt := h.lt_byteStart
    show s.utf8Length + l.byteStart + l.content.utf8.length < s.utf8Length + m.byteStart
    omega

end Line

namespace LineTable

open Text

def gaps (table : LineTable) (t : Text) : List Text :=
  table.lines.zipWith (fun l m => t.between l.stop m.start) table.lines.tail

/-- The table says of a text how it falls into lines. -/
structure Describes (table : LineTable) (t : Text) : Prop where
  lines_ne_nil : table.lines ≠ []
  interleave_eq : interleave (table.lines.map Line.content) (table.gaps t) = t
  standsIn : ∀ l ∈ table.lines, l.StandsIn t
  precedes : table.lines.IsChain (Line.Precedes t)
  byteStarts_eq : table.byteStarts = table.lines.map fun l => (utf8 (t.take l.start)).length
  head?_byteStarts : table.byteStarts.head? = some 0
  increasing : table.byteStarts.Pairwise (· < ·)
  byteLength_eq : table.byteLength = t.utf8.length
  last_stops : ∀ l, table.lines.getLast? = some l →
    l.byteStart + l.content.utf8.length = table.byteLength

variable {l rest : Text} {b : LineBreak}

theorem gaps_append_break (hl : l.Unbroken) (hb : b.Fits rest) :
    (ofText (l ++ b.text ++ rest)).gaps (l ++ b.text ++ rest) =
      b.text :: (ofText rest).gaps rest := by
  obtain ⟨content, xs, h⟩ := exists_lines_eq_cons rest
  have hfirst :
      between (l ++ b.text ++ rest) (0 + l.length) ((l ++ b.text).length + 0) = b.text := by
    rw [between, Nat.zero_add, Nat.add_zero, List.take_left, List.drop_left]
  have hlater : ∀ x y : Line, between (l ++ b.text ++ rest) (x.behind (l ++ b.text)).stop
      (y.behind (l ++ b.text)).start = between rest x.stop y.start := by
    intro x y
    rw [Line.stop_behind]
    exact between_append_add ..
  rw [gaps, gaps, lines_append_break hl hb, List.tail_cons, h, List.map_cons,
    List.zipWith_cons_cons, List.tail_cons, ← List.map_cons, List.zipWith_map]
  simp only [hlater]
  exact congrArg (· :: _) hfirst

theorem interleave_gaps (t : Text) :
    interleave ((ofText t).lines.map Line.content) ((ofText t).gaps t) = t := by
  induction t using induction_on_lines with
  | last l hl => simp [gaps, lines_of_unbroken hl, interleave]
  | broken l b rest hl hb ih =>
    have hcontents : ((ofText rest).lines.map (Line.behind (l ++ b.text))).map Line.content =
        (ofText rest).lines.map Line.content := by
      rw [List.map_map]
      rfl
    rw [gaps_append_break hl hb, lines_append_break hl hb, List.map_cons, hcontents, interleave, ih]

theorem standsIn_of_mem_lines (t : Text) : ∀ x ∈ (ofText t).lines, x.StandsIn t := by
  induction t using induction_on_lines with
  | last l hl =>
    rw [lines_of_unbroken hl, List.forall_mem_singleton]
    exact ⟨by simp [between, Line.stop], rfl, hl⟩
  | broken l b rest hl hb ih =>
    rw [lines_append_break hl hb, List.forall_mem_cons]
    constructor
    · refine ⟨?_, rfl, hl⟩
      rw [between, Line.stop, List.append_assoc, Nat.zero_add, List.take_left, List.drop_zero]
    · intro x hx
      obtain ⟨y, hy, rfl⟩ := List.mem_map.mp hx
      exact (ih y hy).behind _

theorem first_precedes (hb : b.Fits rest) (content : Text) :
    Line.Precedes (l ++ b.text ++ rest) ⟨l, 0, 0⟩
      (Line.behind (l ++ b.text) ⟨content, 0, 0⟩) := by
  refine ⟨⟨b, ?_, ?_⟩, ?_⟩
  · show between (l ++ b.text ++ rest) (0 + l.length) ((l ++ b.text).length + 0) = b.text
    rw [between, Nat.zero_add, Nat.add_zero, List.take_left, List.drop_left]
  · show b.Fits ((l ++ b.text ++ rest).drop ((l ++ b.text).length + 0))
    rwa [Nat.add_zero, List.drop_left]
  · have hpos := b.utf8Length_text_pos
    show 0 + l.utf8.length < (l ++ b.text).utf8Length + 0
    rw [length_utf8, utf8Length_append]
    omega

theorem isChain_lines (t : Text) : (ofText t).lines.IsChain (Line.Precedes t) := by
  induction t using induction_on_lines with
  | last l hl =>
    rw [lines_of_unbroken hl]
    exact .singleton _
  | broken l b rest hl hb ih =>
    obtain ⟨content, xs, h⟩ := exists_lines_eq_cons rest
    have hlater := List.isChain_map_of_isChain (Line.behind (l ++ b.text))
      (fun x y hxy => Line.Precedes.behind hxy (l ++ b.text)) ih
    rw [h] at hlater
    rw [lines_append_break hl hb, h]
    exact List.isChain_cons_cons.mpr ⟨first_precedes hb content, hlater⟩

theorem last_line_stops (t : Text) : ∀ x, (ofText t).lines.getLast? = some x →
    x.byteStart + x.content.utf8.length = t.utf8.length := by
  induction t using induction_on_lines with
  | last l hl =>
    rw [lines_of_unbroken hl]
    rintro x hx
    obtain rfl := Option.some.inj hx
    exact Nat.zero_add _
  | broken l b rest hl hb ih =>
    intro x hx
    obtain ⟨content, xs, h⟩ := exists_lines_eq_cons rest
    rw [lines_append_break hl hb, ← List.singleton_append,
      List.getLast?_append_of_ne_nil _ (by simp [h]), List.getLast?_map] at hx
    obtain ⟨y, hy, rfl⟩ := Option.map_eq_some_iff.mp hx
    have hstop := ih y hy
    show (l ++ b.text).utf8Length + y.byteStart + y.content.utf8.length = _
    rw [Nat.add_assoc, hstop, length_utf8, length_utf8, ← utf8Length_append]

/-- The table of a text describes it. -/
theorem ofText_describes (t : Text) : (ofText t).Describes t := by
  obtain ⟨content, xs, h⟩ := exists_lines_eq_cons t
  have hstands := standsIn_of_mem_lines t
  have hchain := isChain_lines t
  refine ⟨?_, interleave_gaps t, hstands, hchain, ?_, ?_, ?_, ?_, ?_⟩
  · rw [h]
    exact List.cons_ne_nil _ _
  · exact List.map_congr_left fun x hx => (hstands x hx).byteStart_eq
  · rw [byteStarts, h]
    rfl
  · exact pairwise_byteStarts t
  · rw [byteLength_ofText, length_utf8]
  · rw [byteLength_ofText, ← length_utf8]
    exact last_line_stops t

end LineTable

end CompletionServer
