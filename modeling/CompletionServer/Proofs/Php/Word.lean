import CompletionServer.Php.Word
import CompletionServer.Proofs.Text.Places
import CompletionServer.Proofs.Text.Runs

namespace CompletionServer

namespace Php

theorem isLabelByte_of_le {b : UInt8} (h : 0x80 ≤ b) : isLabelByte b = true := by
  simp [isLabelByte, isLabelStart, h]

theorem isLabelByte_of_isLabelStart {b : UInt8} (h : isLabelStart b = true) :
    isLabelByte b = true := by
  rw [isLabelByte, h, Bool.true_or]

/-- The bytes make up a label: label bytes, the first of which can begin one. -/
structure IsLabel (name : List UInt8) : Prop where
  begins : name.head?.any isLabelStart = true
  isLabelByte_of_mem : ∀ b ∈ name, isLabelByte b = true

instance (name : List UInt8) : Decidable (IsLabel name) :=
  decidable_of_iff (name.head?.any isLabelStart = true ∧ name.all isLabelByte = true)
    ⟨fun h => ⟨h.1, List.all_eq_true.mp h.2⟩,
      fun h => ⟨h.begins, List.all_eq_true.mpr h.isLabelByte_of_mem⟩⟩

theorem IsLabel.exists_cons {name : List UInt8} (h : IsLabel name) :
    ∃ b rest, name = b :: rest ∧ isLabelStart b = true := by
  cases name with
  | nil => exact absurd h.begins Bool.false_ne_true
  | cons b rest => exact ⟨b, rest, rfl, h.begins⟩

theorem isLabel_takeWhile {bytes : List UInt8} (h : bytes.head?.any isLabelStart = true) :
    IsLabel (bytes.takeWhile isLabelByte) := by
  refine ⟨?_, fun b hb => List.mem_takeWhile_imp hb⟩
  cases bytes with
  | nil => exact h
  | cons b rest =>
    rw [List.takeWhile_cons_of_pos (isLabelByte_of_isLabelStart h)]
    exact h

/-- The bytes of the range are those of a word, which does not go on before it. -/
structure IsWord (data : List UInt8) (start stop : Nat) : Prop where
  start_le_stop : start ≤ stop
  stop_le_length : stop ≤ data.length
  isLabelByte_of_mem : ∀ b ∈ (data.take stop).drop start, isLabelByte b = true
  maximal : ∀ b, (data.take start).getLast? = some b → isLabelByte b = false

theorem clampOffset_eq (data : List UInt8) (offset : Int) :
    (clampOffset data offset : Int) = max 0 (min offset data.length) := by
  rw [clampOffset]
  omega

theorem wordStart_eq_length_rdropWhile (data : List UInt8) (offset : Int) :
    wordStart data offset =
      ((data.take (clampOffset data offset)).rdropWhile isLabelByte).length := by
  have hstop : clampOffset data offset ≤ data.length := Nat.min_le_right _ _
  have hlen := congrArg List.length (List.rdropWhile_append_rtakeWhile (p := isLabelByte)
    (l := data.take (clampOffset data offset)))
  have htake : ((before data (clampOffset data offset)).takeWhile isLabelByte).length =
      ((data.take (clampOffset data offset)).rtakeWhile isLabelByte).length := by
    rw [List.rtakeWhile, List.length_reverse, before]
  rw [List.length_append, List.length_take, Nat.min_eq_left hstop] at hlen
  rw [wordStart, htake]
  omega

theorem take_wordStart (data : List UInt8) (offset : Int) :
    data.take (wordStart data offset) =
      (data.take (clampOffset data offset)).rdropWhile isLabelByte := by
  have hprefix := (List.rdropWhile_prefix isLabelByte (data.take (clampOffset data offset))).trans
    (List.take_prefix _ _)
  rw [wordStart_eq_length_rdropWhile]
  exact (List.prefix_iff_eq_take.mp hprefix).symm

theorem drop_wordStart (data : List UInt8) (offset : Int) :
    (data.take (clampOffset data offset)).drop (wordStart data offset) =
      (data.take (clampOffset data offset)).rtakeWhile isLabelByte := by
  have hdrop : ((data.take (clampOffset data offset)).rdropWhile isLabelByte ++
      (data.take (clampOffset data offset)).rtakeWhile isLabelByte).drop (wordStart data offset) =
      (data.take (clampOffset data offset)).rtakeWhile isLabelByte :=
    List.drop_left' (wordStart_eq_length_rdropWhile data offset).symm
  rwa [List.rdropWhile_append_rtakeWhile] at hdrop

theorem isWord_wordStart (data : List UInt8) (offset : Int) :
    IsWord data (wordStart data offset) (clampOffset data offset) := by
  refine ⟨wordStart_le_clampOffset data offset, Nat.min_le_right _ _, ?_, ?_⟩
  · intro b hb
    rw [drop_wordStart] at hb
    exact List.mem_rtakeWhile_imp hb
  · intro b hb
    rw [take_wordStart] at hb
    exact eq_false_of_getLast?_rdropWhile hb

end Php

theorem CodePoint.isLabelByte_utf8_or_singleton (c : CodePoint) :
    (∀ b ∈ c.utf8, Php.isLabelByte b = true) ∨
      c.val < 0x80 ∧ c.utf8 = [.ofNat c.val] := by
  have hc := c.val_lt
  by_cases h1 : c.val < 0x80
  · exact .inr ⟨h1, by simp [utf8, h1]⟩
  · left
    intro b hb
    apply Php.isLabelByte_of_le
    rw [UInt8.le_iff_toNat_le]
    unfold utf8 at hb
    rw [if_neg h1] at hb
    split at hb
    · simp only [List.mem_cons, List.not_mem_nil, or_false] at hb
      rcases hb with rfl | rfl <;> simp <;> omega
    · split at hb
      · simp only [List.mem_cons, List.not_mem_nil, or_false] at hb
        rcases hb with rfl | rfl | rfl <;> simp <;> omega
      · simp only [List.mem_cons, List.not_mem_nil, or_false] at hb
        rcases hb with rfl | rfl | rfl | rfl <;> simp <;> omega

theorem CodePoint.val_eq_of_utf8_eq {c : CodePoint} {b : UInt8} (h : c.utf8 = [b]) :
    c.val = b.toNat := by
  have hlen := congrArg List.length h
  rw [length_utf8, utf8Width, List.length_singleton] at hlen
  have hascii : c.val < 0x80 := by
    by_contra hge
    rw [if_neg hge] at hlen
    split at hlen
    · cases hlen
    · split at hlen <;> cases hlen
  rw [utf8, if_pos hascii, List.singleton_inj] at h
  rw [← h, UInt8.toNat_ofNat']
  omega

namespace Text

open Php

theorem exists_append_word (t : Text) :
    ∃ head word : Text, t = head ++ word ∧ t.utf8.rdropWhile isLabelByte = head.utf8 ∧
      t.utf8.rtakeWhile isLabelByte = word.utf8 := by
  induction t using List.reverseRecOn with
  | nil => exact ⟨[], [], rfl, rfl, rfl⟩
  | append_singleton t c ih =>
    by_cases hc : ∀ b ∈ c.utf8, isLabelByte b = true
    · obtain ⟨head, word, rfl, hhead, hword⟩ := ih
      have hrev : ∀ b ∈ c.utf8.reverse, isLabelByte b = true := by simpa using hc
      refine ⟨head, word ++ [c], by simp, ?_, ?_⟩
      · rw [utf8_concat, ← hhead, List.rdropWhile, List.reverse_append,
          List.dropWhile_append_of_pos hrev]
        rfl
      · rw [utf8_concat, utf8_concat, List.rtakeWhile, List.reverse_append,
          List.takeWhile_append_of_pos hrev, List.reverse_append, List.reverse_reverse]
        exact congrArg (· ++ c.utf8) hword
    · -- A code point with a byte of another kind has no other bytes, so the word ends behind it.
      obtain hall | ⟨-, hone⟩ := c.isLabelByte_utf8_or_singleton
      · exact absurd hall hc
      · have hbyte : ¬isLabelByte (.ofNat c.val) = true := by simpa [hone] using hc
        refine ⟨t ++ [c], [], by simp, ?_, ?_⟩
        · rw [utf8_concat, hone, List.rdropWhile_concat_neg _ _ _ hbyte]
        · rw [utf8_concat, hone, List.rtakeWhile_concat_neg _ _ _ hbyte]
          rfl

/-- However many bytes are taken, they are some code points and perhaps the start of another one,
which has label bytes only. -/
theorem exists_take_utf8 (t : Text) (n : Nat) : ∃ (front rest : Text) (part : List UInt8),
    t = front ++ rest ∧ t.utf8.take n = front.utf8 ++ part ∧ ∀ b ∈ part, isLabelByte b = true := by
  induction t generalizing n with
  | nil => exact ⟨[], [], [], rfl, by simp [utf8], by simp⟩
  | cons c t ih =>
    rw [utf8_cons]
    by_cases hn : n < c.utf8.length
    · rw [List.take_append_of_le_length (Nat.le_of_lt hn)]
      obtain hall | ⟨-, hone⟩ := c.isLabelByte_utf8_or_singleton
      · exact ⟨[], c :: t, _, rfl, rfl, fun b hb => hall b (List.mem_of_mem_take hb)⟩
      · obtain rfl : n = 0 := by
          rw [hone, List.length_singleton] at hn
          omega
        exact ⟨[], c :: t, [], rfl, rfl, by simp⟩
    · obtain ⟨front, rest, part, rfl, htake, hpart⟩ := ih (n - c.utf8.length)
      refine ⟨c :: front, rest, part, rfl, ?_, hpart⟩
      rw [List.take_append, List.take_of_length_le (by omega), htake, utf8_cons, List.append_assoc]

theorem unbroken_of_isLabelByte {t : Text} (h : ∀ b ∈ t.utf8, isLabelByte b = true) :
    t.Unbroken := by
  rintro c hc (rfl | rfl)
  · exact absurd (h 0x0A (List.mem_flatMap.mpr ⟨_, hc, by decide⟩)) (by decide)
  · exact absurd (h 0x0D (List.mem_flatMap.mpr ⟨_, hc, by decide⟩)) (by decide)

theorem clampOffset_utf8Length (before after : Text) :
    clampOffset (utf8 (before ++ after)) before.utf8Length = before.utf8Length := by
  rw [clampOffset, length_utf8, utf8Length_append, Int.toNat_natCast]
  exact Nat.min_eq_left (Nat.le_add_right _ _)

/-- At a place of the text the word begins at a place of the same line. -/
theorem exists_wordStart_eq (before after : Text) :
    ∃ head word : Text, before = head ++ word ∧ word.Unbroken ∧
      wordStart (utf8 (before ++ after)) before.utf8Length = head.utf8Length := by
  obtain ⟨head, word, hcut, hhead, hword⟩ := before.exists_append_word
  refine ⟨head, word, hcut, unbroken_of_isLabelByte ?_, ?_⟩
  · rw [← hword]
    intro b hb
    exact List.mem_rtakeWhile_imp hb
  · rw [wordStart_eq_length_rdropWhile, clampOffset_utf8Length, take_utf8_append, hhead,
      length_utf8]

theorem exists_wordStart_eq_length (t : Text) (offset : Int) :
    ∃ head rest : Text, t = head ++ rest ∧ wordStart t.utf8 offset = head.utf8.length := by
  obtain ⟨front, rest, part, rfl, htake, hpart⟩ := t.exists_take_utf8 (clampOffset t.utf8 offset)
  obtain ⟨head, word, rfl, hhead, -⟩ := front.exists_append_word
  have hrev : ∀ b ∈ part.reverse, isLabelByte b = true := by simpa using hpart
  refine ⟨head, word ++ rest, List.append_assoc .., ?_⟩
  rw [wordStart_eq_length_rdropWhile, htake, ← hhead, List.rdropWhile, List.reverse_append,
    List.dropWhile_append_of_pos hrev]
  rfl

/-- A byte that no label has is a code point by itself. -/
theorem exists_append_cons_of_getElem? {t : Text} {i : Nat} {b : UInt8}
    (h : t.utf8[i]? = some b) (hb : isLabelByte b = false) :
    ∃ (front : Text) (c : CodePoint) (rest : Text),
      t = front ++ c :: rest ∧ front.utf8Length = i ∧ c.utf8 = [b] := by
  induction t generalizing i with
  | nil => simp [utf8] at h
  | cons c t ih =>
    rw [utf8_cons] at h
    by_cases hi : i < c.utf8.length
    · rw [List.getElem?_append_left hi] at h
      have hmem : b ∈ c.utf8 := List.mem_of_getElem? h
      obtain hall | ⟨-, hone⟩ := c.isLabelByte_utf8_or_singleton
      · rw [hall b hmem] at hb
        cases hb
      · obtain rfl : i = 0 := by
          rw [hone, List.length_singleton] at hi
          omega
        rw [hone, List.mem_singleton] at hmem
        exact ⟨[], c, t, rfl, rfl, by rw [hone, hmem]⟩
    · rw [List.getElem?_append_right (Nat.le_of_not_lt hi)] at h
      obtain ⟨front, d, rest, rfl, hfront, hd⟩ := ih h
      refine ⟨c :: front, d, rest, rfl, ?_, hd⟩
      rw [utf8Length, hfront, ← CodePoint.length_utf8]
      omega

theorem exists_mem_of_mem_utf8 {t : Text} {b : UInt8} (h : b ∈ t.utf8)
    (hb : isLabelByte b = false) : ∃ c ∈ t, c.val = b.toNat := by
  obtain ⟨i, hi⟩ := List.mem_iff_getElem?.mp h
  obtain ⟨front, c, rest, rfl, -, hc⟩ := exists_append_cons_of_getElem? hi hb
  exact ⟨c, by simp, c.val_eq_of_utf8_eq hc⟩

theorem eq_append_dollar {t : Text} (h : t.utf8.getLast? = some dollar) :
    ∃ front : Text, t = front ++ [.ofChar '$'] := by
  obtain rfl | ⟨front, c, rfl⟩ := List.eq_nil_or_concat t
  · simp [utf8] at h
  · have hlast : c.utf8.getLast? = some dollar := by
      have hne : c.utf8 ≠ [] := by
        rw [ne_eq, ← List.length_eq_zero_iff, CodePoint.length_utf8]
        exact Nat.pos_iff_ne_zero.mp c.utf8Width_pos
      simpa [utf8_append, utf8, List.getLast?_append, List.getLast?_eq_getLast_of_ne_nil hne]
        using h
    obtain hall | ⟨hascii, hone⟩ := c.isLabelByte_utf8_or_singleton
    · exact absurd (hall dollar (List.mem_of_getLast? hlast)) (by decide)
    · have hbyte : UInt8.ofNat c.val = dollar := by simpa [hone] using hlast
      have hval : c.val = 0x24 := by
        have := congrArg UInt8.toNat hbyte
        simp [dollar] at this
        omega
      obtain ⟨val, hlt⟩ := c
      obtain rfl : val = 0x24 := hval
      exact ⟨front, by simp [CodePoint.ofChar]⟩

end Text

namespace Php

/-- The word that ends at an offset goes back as far as there are label bytes, and no further. In
the bytes of a text it begins between two code points, also if the offset lies inside one. -/
theorem wordStart_begins_word (data : List UInt8) (offset : Int) :
    (clampOffset data offset : Int) = max 0 (min offset data.length) ∧
    wordStart data offset ≤ clampOffset data offset ∧
    (∀ b ∈ (data.take (clampOffset data offset)).drop (wordStart data offset),
      isLabelByte b = true) ∧
    (wordStart data offset = 0 ∨
      ∃ b, data[wordStart data offset - 1]? = some b ∧ isLabelByte b = false) ∧
    ∀ t : Text, data = t.utf8 →
      ∃ head rest : Text, t = head ++ rest ∧ wordStart data offset = head.utf8.length := by
  have hword := isWord_wordStart data offset
  refine ⟨clampOffset_eq data offset, hword.start_le_stop, hword.isLabelByte_of_mem, ?_, ?_⟩
  · by_cases hzero : wordStart data offset = 0
    · exact .inl hzero
    · right
      have hstart := hword.start_le_stop.trans hword.stop_le_length
      obtain ⟨b, hb⟩ : ∃ b, data[wordStart data offset - 1]? = some b :=
        ⟨_, List.getElem?_eq_getElem (by omega)⟩
      have hlast : (data.take (wordStart data offset)).getLast? = some b := by
        rw [List.getLast?_take, if_neg hzero, hb, Option.some_or]
      exact ⟨b, hb, hword.maximal b hlast⟩
  · rintro t rfl
    exact t.exists_wordStart_eq_length offset

/-- The offset lies in the middle of the last character, behind the two bytes of the word that come
before it. -/
theorem wordStart_begins_word_inside_umlaut :
    0xC3 ∈ ((Text.utf8 "$aü").take 3).drop 1 ∧ isLabelByte 0xC3 = true ∧
      ∃ head rest : Text, Text.ofString "$aü" = head ++ rest ∧ 1 = head.utf8.length := by
  have hstart : wordStart (Text.utf8 "$aü") 3 = 1 := by decide
  obtain ⟨-, -, hlabel, -, hplace⟩ := wordStart_begins_word (Text.utf8 "$aü") 3
  have hmem : 0xC3 ∈ ((Text.utf8 "$aü").take (clampOffset (Text.utf8 "$aü") 3)).drop
      (wordStart (Text.utf8 "$aü") 3) := by decide
  rw [← hstart]
  exact ⟨hmem, hlabel 0xC3 hmem, hplace _ rfl⟩

end Php

end CompletionServer
