import CompletionServer.Text.Utf8
import Mathlib.Tactic.IntervalCases

namespace CompletionServer

namespace Utf8

theorem classify_ascii {n : Nat} (h : n < 0x80) : classify (.ofNat n) = .char (.ofNat n) := by
  have hn : (UInt8.ofNat n).toNat = n := by rw [UInt8.toNat_ofNat']; omega
  have hb : UInt8.ofNat n < 0x80 := by rw [UInt8.lt_iff_toNat_lt, hn]; exact h
  rw [classify, if_pos hb, hn]

theorem classify_lead_two {q : Nat} (hlow : 2 ≤ q) (hhigh : q < 32) :
    classify (.ofNat (0xC0 + q)) = .lead ⟨q, 1, 0x80, 0xBF⟩ := by
  interval_cases q <;> rfl

theorem classify_lead_three {q : Nat} (h : q < 16) :
    classify (.ofNat (0xE0 + q)) =
      .lead ⟨q, 2, if q = 0 then 0xA0 else 0x80, if q = 13 then 0x9F else 0xBF⟩ := by
  interval_cases q <;> rfl

theorem classify_lead_four {q : Nat} (h : q ≤ 4) :
    classify (.ofNat (0xF0 + q)) =
      .lead ⟨q, 3, if q = 0 then 0x90 else 0x80, if q = 4 then 0x8F else 0xBF⟩ := by
  interval_cases q <;> rfl

theorem classify_continuation {x : Nat} (h : x < 64) :
    classify (.ofNat (0x80 + x)) = .invalid := by
  interval_cases x <;> rfl

variable {bits due x : Nat} {low high : UInt8}

theorem decodeFrom_continuation (hx : x < 64) (hlow : low.toNat ≤ 0x80 + x)
    (hhigh : 0x80 + x ≤ high.toNat) (rest : List UInt8) :
    decodeFrom (some ⟨bits, due, low, high⟩) (.ofNat (0x80 + x) :: rest) =
      if due ≤ 1 then some (.ofNat (bits * 64 + x)) :: decodeFrom none rest
      else decodeFrom (some ⟨bits * 64 + x, due - 1, 0x80, 0xBF⟩) rest := by
  have hb : (UInt8.ofNat (0x80 + x)).toNat = 0x80 + x := by rw [UInt8.toNat_ofNat']; omega
  have hbits : (0x80 + x) % 64 = x := by omega
  rw [decodeFrom, if_pos ⟨by rwa [UInt8.le_iff_toNat_le, hb], by rwa [UInt8.le_iff_toNat_le, hb]⟩,
    hb, hbits]

theorem decodeFrom_continuation_of_high_lt (hx : x < 64) (hhigh : high.toNat < 0x80 + x)
    (rest : List UInt8) :
    decodeFrom (some ⟨bits, due, low, high⟩) (.ofNat (0x80 + x) :: rest) =
      none :: none :: decodeFrom none rest := by
  have hb : (UInt8.ofNat (0x80 + x)).toNat = 0x80 + x := by rw [UInt8.toNat_ofNat']; omega
  have hout : ¬(low ≤ .ofNat (0x80 + x) ∧ UInt8.ofNat (0x80 + x) ≤ high) := by
    rw [UInt8.le_iff_toNat_le, UInt8.le_iff_toNat_le, hb]
    omega
  rw [decodeFrom, if_neg hout, classify_continuation hx]

/-- The bounds behind a lead byte leave just one of the two to be checked. -/
theorem toNat_low_le {P : Prop} [Decidable P] {b : UInt8} (h : P → b.toNat ≤ 0x80 + x) :
    (if P then b else 0x80).toNat ≤ 0x80 + x := by
  split
  case isTrue hP => exact h hP
  case isFalse => exact Nat.le_add_right _ _

theorem le_toNat_high {P : Prop} [Decidable P] {b : UInt8} (hx : x < 64)
    (h : P → 0x80 + x ≤ b.toNat) : 0x80 + x ≤ (if P then b else 0xBF).toNat := by
  split
  case isTrue hP => exact h hP
  case isFalse => exact Nat.add_le_add_left (Nat.le_of_lt_succ hx) 0x80

theorem classifyWide_of_ne {b : UInt8} (h : b ≠ 0xED) : classifyWide b = classify b :=
  if_neg h

theorem classifyWide_lead_three {q : Nat} (h : q < 16) :
    classifyWide (.ofNat (0xE0 + q)) = .lead ⟨q, 2, if q = 0 then 0xA0 else 0x80, 0xBF⟩ := by
  interval_cases q <;> rfl

theorem ofNat_ne_lead_of_lt {n : Nat} (hn : n < 256) (h : n ≠ 0xED) : UInt8.ofNat n ≠ 0xED := by
  intro heq
  have := congrArg UInt8.toNat heq
  rw [UInt8.toNat_ofNat'] at this
  simp at this
  omega

theorem decodeWideFrom_continuation (hx : x < 64) (hlow : low.toNat ≤ 0x80 + x)
    (hhigh : 0x80 + x ≤ high.toNat) (rest : List UInt8) :
    decodeWideFrom (some ⟨bits, due, low, high⟩) (.ofNat (0x80 + x) :: rest) =
      if due ≤ 1 then (decodeWideFrom none rest).map (.ofNat (bits * 64 + x) :: ·)
      else decodeWideFrom (some ⟨bits * 64 + x, due - 1, 0x80, 0xBF⟩) rest := by
  have hb : (UInt8.ofNat (0x80 + x)).toNat = 0x80 + x := by rw [UInt8.toNat_ofNat']; omega
  have hbits : (0x80 + x) % 64 = x := by omega
  rw [decodeWideFrom,
    if_pos ⟨by rwa [UInt8.le_iff_toNat_le, hb], by rwa [UInt8.le_iff_toNat_le, hb]⟩, hb, hbits]

/-- The bytes are those that a sequence still needs, and it then spells the number. -/
inductive Pending.Spells : Pending → List UInt8 → Nat → Prop
  | last {bits x : Nat} {low high : UInt8} : x < 64 → low.toNat ≤ 0x80 + x →
    0x80 + x ≤ high.toNat → Spells ⟨bits, 1, low, high⟩ [.ofNat (0x80 + x)] (bits * 64 + x)
  | more {bits due x n : Nat} {low high : UInt8} {tail : List UInt8} : x < 64 →
    low.toNat ≤ 0x80 + x → 0x80 + x ≤ high.toNat →
    Spells ⟨bits * 64 + x, due + 1, 0x80, 0xBF⟩ tail n →
    Spells ⟨bits, due + 2, low, high⟩ (.ofNat (0x80 + x) :: tail) n

namespace Pending.Spells

variable {p : Pending} {tail : List UInt8} {n : Nat}

theorem decodeFrom_append (h : p.Spells tail n) (rest : List UInt8) :
    decodeFrom (some p) (tail ++ rest) = some (.ofNat n) :: decodeFrom none rest := by
  induction h with
  | last hx hlow hhigh =>
    rw [List.singleton_append, decodeFrom_continuation hx hlow hhigh, if_pos (Nat.le_refl 1)]
  | more hx hlow hhigh _ ih =>
    rw [List.cons_append, decodeFrom_continuation hx hlow hhigh, if_neg (by omega)]
    exact ih

theorem decodeWideFrom_append (h : p.Spells tail n) (rest : List UInt8) :
    decodeWideFrom (some p) (tail ++ rest) = (decodeWideFrom none rest).map (.ofNat n :: ·) := by
  induction h with
  | last hx hlow hhigh =>
    rw [List.singleton_append, decodeWideFrom_continuation hx hlow hhigh,
      if_pos (Nat.le_refl 1)]
  | more hx hlow hhigh _ ih =>
    rw [List.cons_append, decodeWideFrom_continuation hx hlow hhigh, if_neg (by omega)]
    exact ih

end Pending.Spells

end Utf8

namespace CodePoint

open Utf8

variable {c : CodePoint}

theorem isSurrogate_iff : c.isSurrogate = true ↔ 0xD800 ≤ c.val ∧ c.val ≤ 0xDFFF := by
  simp [isSurrogate]

/-- Beyond ASCII a code point is a lead byte and what it announces. Only the bounds that keep lone
surrogates out are not met by every code point. -/
theorem exists_spells_utf8 (hc : 0x80 ≤ c.val) : ∃ lead tail p, c.utf8 = lead :: tail ∧
    classifyWide lead = .lead p ∧ p.Spells tail c.val ∧
    (c.isSurrogate = false → ∃ q, classify lead = .lead q ∧ q.Spells tail c.val) := by
  have hlt := c.val_lt
  have hlast (bits : Nat) :
      Pending.Spells ⟨bits, 1, 0x80, 0xBF⟩ [.ofNat (0x80 + c.val % 64)] (bits * 64 + c.val % 64) :=
    .last (by omega) (by simp) (by simp; omega)
  unfold utf8
  rw [if_neg (by omega)]
  split
  case isTrue h1 =>
    have hspells := hlast (c.val / 64)
    rw [show c.val / 64 * 64 + c.val % 64 = c.val by omega] at hspells
    have hlead := classify_lead_two (q := c.val / 64) (by omega) (by omega)
    have hsame := classifyWide_of_ne
      (ofNat_ne_lead_of_lt (n := 0xC0 + c.val / 64) (by omega) (by omega))
    exact ⟨_, _, _, rfl, hsame.trans hlead, hspells, fun _ => ⟨_, hlead, hspells⟩⟩
  split
  case isTrue h1 h2 =>
    have hrest := hlast (c.val / 4096 * 64 + c.val / 64 % 64)
    rw [show (c.val / 4096 * 64 + c.val / 64 % 64) * 64 + c.val % 64 = c.val by omega] at hrest
    refine ⟨_, _, _, rfl, classifyWide_lead_three (by omega), ?_, fun hscalar => ?_⟩
    · exact .more (by omega) (toNat_low_le (by simp; omega)) (by simp; omega) hrest
    · -- Behind the lead byte of the surrogates, only theirs are the greater second bytes.
      rw [← Bool.not_eq_true, isSurrogate_iff] at hscalar
      exact ⟨_, classify_lead_three (by omega), .more (by omega) (toNat_low_le (by simp; omega))
        (le_toNat_high (by omega) (by simp; omega)) hrest⟩
  case isFalse h1 h2 =>
    have hrest := hlast ((c.val / 262144 * 64 + c.val / 4096 % 64) * 64 + c.val / 64 % 64)
    rw [show ((c.val / 262144 * 64 + c.val / 4096 % 64) * 64 + c.val / 64 % 64) * 64 +
      c.val % 64 = c.val by omega] at hrest
    have hmiddle : Pending.Spells ⟨c.val / 262144 * 64 + c.val / 4096 % 64, 2, 0x80, 0xBF⟩
        [.ofNat (0x80 + c.val / 64 % 64), .ofNat (0x80 + c.val % 64)] c.val :=
      .more (by omega) (by simp) (by simp; omega) hrest
    obtain ⟨q, hlead, hspells⟩ : ∃ q, classify (.ofNat (0xF0 + c.val / 262144)) = .lead q ∧
        q.Spells (.ofNat (0x80 + c.val / 4096 % 64) :: _) c.val :=
      ⟨_, classify_lead_four (by omega), .more (by omega) (toNat_low_le (by simp; omega))
        (le_toNat_high (by omega) (by simp; omega)) hmiddle⟩
    have hsame := classifyWide_of_ne
      (ofNat_ne_lead_of_lt (n := 0xF0 + c.val / 262144) (by omega) (by omega))
    exact ⟨_, _, q, rfl, hsame.trans hlead, hspells, fun _ => ⟨q, hlead, hspells⟩⟩

theorem utf8_of_ascii (hc : c.val < 0x80) : c.utf8 = [.ofNat c.val] :=
  if_pos hc

theorem decodeFrom_utf8_append (hc : c.isSurrogate = false) (rest : List UInt8) :
    decodeFrom none (c.utf8 ++ rest) = some (.ofNat c.val) :: decodeFrom none rest := by
  obtain hascii | hwide := Nat.lt_or_ge c.val 0x80
  · rw [utf8_of_ascii hascii, List.singleton_append, decodeFrom, classify_ascii hascii]
  · obtain ⟨lead, tail, -, hutf8, -, -, hnarrow⟩ := exists_spells_utf8 hwide
    obtain ⟨p, hlead, hspells⟩ := hnarrow hc
    rw [hutf8, List.cons_append, decodeFrom, hlead]
    exact hspells.decodeFrom_append rest

theorem decodeFrom_utf8_append_of_isSurrogate (hc : c.isSurrogate = true) (rest : List UInt8) :
    decodeFrom none (c.utf8 ++ rest) = none :: none :: none :: decodeFrom none rest := by
  obtain ⟨hlow, hhigh⟩ := isSurrogate_iff.mp hc
  have hlead : c.val / 4096 = 13 := by omega
  rw [utf8, if_neg (by omega), if_neg (by omega), if_pos (by omega), List.cons_append,
    List.cons_append, List.singleton_append, decodeFrom, classify_lead_three (by omega)]
  dsimp only
  rw [decodeFrom_continuation_of_high_lt (by omega) (by rw [if_pos hlead]; simp; omega),
    decodeFrom, classify_continuation (by omega)]

/-- What is shown of a code point once it has been encoded and decoded. -/
def shown (c : CodePoint) : Text :=
  if c.isSurrogate then List.replicate 3 (.ofChar '\uFFFD') else [c]

theorem ofChar_ofNat_val (hc : c.isSurrogate = false) : ofChar (.ofNat c.val) = c := by
  have hlt := c.val_lt
  have hvalid : c.val.isValidChar := by
    have hscalar : ¬(0xD800 ≤ c.val ∧ c.val ≤ 0xDFFF) := by
      rw [← isSurrogate_iff, hc]
      exact Bool.false_ne_true
    unfold Nat.isValidChar
    omega
  obtain ⟨val, hval⟩ := c
  have hchar : (Char.ofNat val).toNat = val := by
    rw [Char.ofNat, dif_pos hvalid]
    rfl
  simp only [ofChar, hchar]

end CodePoint

namespace Utf8

open CodePoint

theorem decodeLossy_utf8_append (c : CodePoint) (rest : List UInt8) :
    decodeLossy (c.utf8 ++ rest) = c.shown ++ decodeLossy rest := by
  rw [decodeLossy, shown]
  cases hc : c.isSurrogate with
  | false =>
    rw [decodeFrom_utf8_append hc, List.map_cons, Option.getD_some, Text.ofChars, List.map_cons,
      ofChar_ofNat_val hc]
    rfl
  | true =>
    rw [decodeFrom_utf8_append_of_isSurrogate hc]
    rfl

theorem decodeLossy_utf8 (t : Text) : decodeLossy t.utf8 = t.flatMap shown := by
  induction t with
  | nil => rfl
  | cons c t ih =>
    exact (decodeLossy_utf8_append c (Text.utf8 t)).trans (congrArg (c.shown ++ ·) ih)

/-- Text without lone surrogates is decoded as it was. -/
theorem decodeLossy_utf8_of_not_isSurrogate {t : Text} (ht : ∀ c ∈ t, c.isSurrogate = false) :
    decodeLossy t.utf8 = t := by
  rw [decodeLossy_utf8]
  induction t with
  | nil => rfl
  | cons c t ih =>
    obtain ⟨hc, ht⟩ := List.forall_mem_cons.mp ht
    rw [List.flatMap_cons, ih ht, shown, hc]
    rfl

/-- No lone surrogate is decoded, and what is new is U+FFFD. -/
theorem mem_decodeLossy_utf8 {c : CodePoint} {t : Text} (h : c ∈ decodeLossy t.utf8) :
    c.isSurrogate = false ∧ (c ∈ t ∨ c = .ofChar '\uFFFD') := by
  rw [decodeLossy_utf8] at h
  obtain ⟨d, hd, hc⟩ := List.mem_flatMap.mp h
  rw [shown] at hc
  split at hc
  case isTrue =>
    obtain rfl := List.eq_of_mem_replicate hc
    exact ⟨by decide, .inr rfl⟩
  case isFalse hsurrogate =>
    obtain rfl := List.mem_singleton.mp hc
    exact ⟨eq_false_of_ne_true hsurrogate, .inl hd⟩

end Utf8

end CompletionServer
