import CompletionServer.Proofs.Text.Decoding
import CompletionServer.Proofs.Text.Width

namespace CompletionServer

namespace Utf8

theorem isContinuation_ofNat :
    ∀ n < 256, (isContinuation (.ofNat n) = true ↔ 0x80 ≤ n ∧ n < 0xC0) := by
  decide +kernel

theorem isContinuation_ofNat_add {x : Nat} (hx : x < 64) :
    isContinuation (.ofNat (0x80 + x)) = true :=
  (isContinuation_ofNat _ (by omega)).mpr (by omega)

theorem isContinuation_ofNat_eq_false {n : Nat} (hn : n < 256) (h : n < 0x80 ∨ 0xC0 ≤ n) :
    isContinuation (.ofNat n) = false := by
  rw [← Bool.not_eq_true, isContinuation_ofNat n hn]
  omega

variable {data front rest : List UInt8}

theorem stepBack_eq_zero {n : Nat} (h : ∀ k < n, data[k + 1]?.any isContinuation = true) :
    stepBack data n = 0 := by
  induction n with
  | zero => rfl
  | succ n ih =>
    rw [stepBack, if_pos (h n (Nat.lt_succ_self n))]
    exact ih fun k hk => h k (Nat.lt_succ_of_lt hk)

/-- Where a sequence begins, nothing is stepped over any more. -/
theorem stepBack_append_add (h : rest.head?.any isContinuation = false) (n : Nat) :
    stepBack (front ++ rest) (front.length + n) = front.length + stepBack rest n := by
  induction n with
  | zero =>
    cases front with
    | nil => rfl
    | cons b front =>
      -- The loop looks at the first byte of the rest and stops.
      have hbyte : (b :: front ++ rest)[front.length + 1]? = rest.head? := by
        rw [List.cons_append, List.getElem?_cons_succ, List.getElem?_append_right (Nat.le_refl _),
          Nat.sub_self, List.head?_eq_getElem?]
      rw [List.length_cons, Nat.add_zero, stepBack, stepBack, hbyte, h]
      rfl
  | succ n ih =>
    have hbyte : (front ++ rest)[front.length + n + 1]? = rest[n + 1]? := by
      rw [List.getElem?_append_right (by omega)]
      congr 1
      omega
    rw [← Nat.add_assoc, stepBack, stepBack, hbyte, ih]
    split
    · rfl
    · rfl

end Utf8

namespace CodePoint

open Utf8

variable {c : CodePoint}

theorem ofNat_eq {n : Nat} (h : n = c.val) : ofNat n = c := by
  subst h
  exact dif_pos c.val_lt

/-- The first byte begins a sequence and the others continue it. -/
theorem exists_utf8_eq_cons (c : CodePoint) : ∃ lead tail, c.utf8 = lead :: tail ∧
    isContinuation lead = false ∧ ∀ b ∈ tail, isContinuation b = true := by
  have hlt := c.val_lt
  have hlast : isContinuation (.ofNat (0x80 + c.val % 64)) = true :=
    isContinuation_ofNat_add (by omega)
  unfold utf8
  split
  · exact ⟨_, _, rfl, isContinuation_ofNat_eq_false (by omega) (by omega), by simp⟩
  split
  · exact ⟨_, _, rfl, isContinuation_ofNat_eq_false (by omega) (by omega),
      List.forall_mem_singleton.mpr hlast⟩
  split
  · exact ⟨_, _, rfl, isContinuation_ofNat_eq_false (by omega) (by omega),
      List.forall_mem_cons.mpr ⟨isContinuation_ofNat_add (by omega),
        List.forall_mem_singleton.mpr hlast⟩⟩
  · exact ⟨_, _, rfl, isContinuation_ofNat_eq_false (by omega) (by omega),
      List.forall_mem_cons.mpr ⟨isContinuation_ofNat_add (by omega),
        List.forall_mem_cons.mpr ⟨isContinuation_ofNat_add (by omega),
          List.forall_mem_singleton.mpr hlast⟩⟩⟩

theorem decodeWideFrom_utf8_append (c : CodePoint) (rest : List UInt8) :
    decodeWideFrom none (c.utf8 ++ rest) = (decodeWideFrom none rest).map (c :: ·) := by
  obtain hascii | hwide := Nat.lt_or_ge c.val 0x80
  · have hscalar : c.isSurrogate = false := by
      rw [← Bool.not_eq_true, isSurrogate_iff]
      omega
    rw [utf8_of_ascii hascii, List.singleton_append, decodeWideFrom,
      classifyWide_of_ne (ofNat_ne_lead_of_lt (by omega) (by omega)), classify_ascii hascii]
    dsimp only
    rw [ofChar_ofNat_val hscalar]
  · obtain ⟨lead, tail, p, hutf8, hlead, hspells, -⟩ := exists_spells_utf8 hwide
    have hread := hspells.decodeWideFrom_append rest
    rw [ofNat_eq rfl] at hread
    rw [hutf8, List.cons_append, decodeWideFrom, hlead]
    exact hread

end CodePoint

namespace Text

open Utf8

theorem utf8_cons (c : CodePoint) (t : Text) : utf8 (c :: t) = c.utf8 ++ utf8 t :=
  List.flatMap_cons

theorem utf8_append (s t : Text) : utf8 (s ++ t) = utf8 s ++ utf8 t :=
  List.flatMap_append

theorem utf8_concat (t : Text) (c : CodePoint) : utf8 (t ++ [c]) = utf8 t ++ c.utf8 := by
  rw [utf8_append]
  exact congrArg (utf8 t ++ ·) (List.append_nil c.utf8)

theorem take_utf8_append (s t : Text) : (utf8 (s ++ t)).take s.utf8Length = s.utf8 := by
  rw [utf8_append, ← length_utf8]
  exact List.take_left

theorem drop_utf8_append (s t : Text) : (utf8 (s ++ t)).drop s.utf8Length = t.utf8 := by
  rw [utf8_append, ← length_utf8]
  exact List.drop_left

theorem head?_utf8 (t : Text) : t.utf8.head?.any isContinuation = false := by
  cases t with
  | nil => rfl
  | cons c t =>
    obtain ⟨lead, tail, hc, hlead, -⟩ := c.exists_utf8_eq_cons
    rw [utf8_cons, hc]
    exact hlead

theorem decodeWide?_utf8 (t : Text) : decodeWide? t.utf8 = some t := by
  induction t with
  | nil => rfl
  | cons c t ih =>
    rw [decodeWide?, utf8_cons, c.decodeWideFrom_utf8_append]
    exact congrArg (Option.map (c :: ·)) ih

/-- Stepping back over bytes stops where so many bytes hold whole code points only. -/
theorem stepBack_utf8 (t : Text) {n : Nat} (hn : n ≤ t.utf8Length) :
    stepBack t.utf8 n = (t.takeWithin CodePoint.utf8Width n).utf8Length := by
  induction t generalizing n with
  | nil =>
    obtain rfl : n = 0 := Nat.le_zero.mp hn
    rfl
  | cons c t ih =>
    rw [utf8_cons, takeWithin]
    split
    case isTrue hc =>
      obtain ⟨m, rfl⟩ := Nat.exists_eq_add_of_le hc
      rw [utf8Length] at hn
      rw [← c.length_utf8, stepBack_append_add (head?_utf8 t), ih (by omega), utf8Length,
        c.length_utf8, Nat.add_sub_cancel_left]
    case isFalse hc =>
      -- The offset is inside the first code point, and all bytes back to its first continue it.
      obtain ⟨lead, tail, hutf8, -, htail⟩ := c.exists_utf8_eq_cons
      have hlen := c.length_utf8
      rw [hutf8, List.length_cons] at hlen
      apply stepBack_eq_zero
      intro k hk
      have hbyte : k < tail.length := by omega
      rw [hutf8, List.cons_append, List.getElem?_cons_succ, List.getElem?_append_left hbyte,
        List.getElem?_eq_getElem hbyte]
      exact htail _ (List.getElem_mem hbyte)

/-- The bytes up to an offset, stepped back and decoded, are the code points that fit in. -/
theorem decodeWide?_take_stepBack (t : Text) (n : Nat) :
    decodeWide? (t.utf8.take (stepBack t.utf8 (min n t.utf8.length))) =
      some (t.takeWithin CodePoint.utf8Width n) := by
  have hwithin : t.takeWithin CodePoint.utf8Width (min n t.utf8Length) =
      t.takeWithin CodePoint.utf8Width n := by
    obtain hn | hn := Nat.le_total n t.utf8Length
    · rw [Nat.min_eq_left hn]
    · rw [Nat.min_eq_right hn, takeWithin_utf8Length List.prefix_rfl,
        takeWithin_of_measure_le (utf8Length_eq_measure t ▸ hn)]
  obtain ⟨tail, htail⟩ := takeWithin_isPrefix CodePoint.utf8Width n t
  have htake := take_utf8_append (t.takeWithin CodePoint.utf8Width n) tail
  rw [htail] at htake
  rw [length_utf8, stepBack_utf8 t (Nat.min_le_right _ _), hwithin, htake, decodeWide?_utf8]

end Text

end CompletionServer
