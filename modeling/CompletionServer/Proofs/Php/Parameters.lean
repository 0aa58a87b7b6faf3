import CompletionServer.Php.Parameters
import CompletionServer.Proofs.Text.Runs

namespace CompletionServer

namespace Blank

variable {c : CodePoint} {t : Text}

theorem mem_of_mem_strip (h : c ∈ strip t) : c ∈ t := by
  have hback := List.mem_reverse.mp ((List.dropWhile_suffix isBlank).subset (List.mem_reverse.mp h))
  exact (List.dropWhile_suffix isBlank).subset hback

theorem mem_dropWhile_isBlank (h : c ∈ t) (hc : isBlank c = false) : c ∈ t.dropWhile isBlank := by
  rw [← List.takeWhile_append_dropWhile (p := isBlank) (l := t)] at h
  obtain h | h := List.mem_append.mp h
  · rw [List.mem_takeWhile_imp h] at hc
    cases hc
  · exact h

theorem mem_strip_of_mem (h : c ∈ t) (hc : isBlank c = false) : c ∈ strip t :=
  List.mem_reverse.mpr (mem_dropWhile_isBlank
    (List.mem_reverse.mpr (mem_dropWhile_isBlank h hc)) hc)

theorem not_isBlank_of_isSurrogate (h : c.isSurrogate = true) : isBlank c = false := by
  simp only [CodePoint.isSurrogate, Bool.and_eq_true, decide_eq_true_eq] at h
  simp [isBlank]
  omega

end Blank

namespace Php

variable {c : CodePoint} {t piece : Text} {depth : Int}

theorem mem_of_mem_consPiece {ps : List Text} {d : CodePoint} (hp : piece ∈ consPiece d ps)
    (hc : c ∈ piece) : c = d ∨ ∃ p ∈ ps, c ∈ p := by
  cases ps with
  | nil =>
    obtain rfl := List.mem_singleton.mp hp
    exact .inl (List.mem_singleton.mp hc)
  | cons p ps =>
    obtain rfl | hp := List.mem_cons.mp hp
    · obtain rfl | hc := List.mem_cons.mp hc
      · exact .inl rfl
      · exact .inr ⟨p, List.mem_cons_self, hc⟩
    · exact .inr ⟨piece, List.mem_cons_of_mem _ hp, hc⟩

theorem exists_mem_consPiece {ps : List Text} {d : CodePoint} (h : c = d ∨ ∃ p ∈ ps, c ∈ p) :
    ∃ p ∈ consPiece d ps, c ∈ p := by
  cases ps with
  | nil =>
    obtain rfl | ⟨p, hp, -⟩ := h
    · exact ⟨[c], List.mem_singleton_self _, List.mem_singleton_self _⟩
    · cases hp
  | cons q ps =>
    obtain rfl | ⟨p, hp, hc⟩ := h
    · exact ⟨c :: q, List.mem_cons_self, List.mem_cons_self⟩
    · obtain rfl | hp := List.mem_cons.mp hp
      · exact ⟨d :: p, List.mem_cons_self, List.mem_cons_of_mem _ hc⟩
      · exact ⟨p, List.mem_cons_of_mem _ hp, hc⟩

theorem mem_of_mem_pieces (hp : piece ∈ pieces depth t) (hc : c ∈ piece) : c ∈ t := by
  induction t generalizing depth piece with
  | nil =>
    obtain rfl := List.mem_singleton.mp hp
    exact hc
  | cons d t ih =>
    have hcons {depth : Int} (hp : piece ∈ consPiece d (pieces depth t)) : c ∈ d :: t := by
      obtain rfl | ⟨p, hp, hc⟩ := mem_of_mem_consPiece hp hc
      · exact List.mem_cons_self
      · exact List.mem_cons_of_mem _ (ih hp hc)
    rw [pieces] at hp
    split at hp
    · exact hcons hp
    split at hp
    · exact hcons hp
    split at hp
    · obtain rfl | hp := List.mem_cons.mp hp
      · cases hc
      · exact List.mem_cons_of_mem _ (ih hp hc)
    · exact hcons hp

theorem exists_mem_pieces (h : c ∈ t) (hc : c ≠ .ofChar ',') (depth : Int) :
    ∃ p ∈ pieces depth t, c ∈ p := by
  induction t generalizing depth with
  | nil => cases h
  | cons d t ih =>
    have hcons (depth : Int) : ∃ p ∈ consPiece d (pieces depth t), c ∈ p := by
      apply exists_mem_consPiece
      obtain rfl | h := List.mem_cons.mp h
      · exact .inl rfl
      · exact .inr (ih h depth)
    rw [pieces]
    split
    · exact hcons _
    split
    · exact hcons _
    split
    · rename_i hcomma
      obtain rfl | h := List.mem_cons.mp h
      · exact absurd hcomma.1 hc
      · obtain ⟨p, hp, hc⟩ := ih h depth
        exact ⟨p, List.mem_cons_of_mem _ hp, hc⟩
    · exact hcons _

theorem mem_of_mem_splitParameters (hp : piece ∈ splitParameters t) (hc : c ∈ piece) : c ∈ t := by
  obtain ⟨p, hpieces, rfl⟩ := List.mem_map.mp (List.mem_of_mem_filter hp)
  exact mem_of_mem_pieces hpieces (Blank.mem_of_mem_strip hc)

theorem exists_mem_splitParameters (h : c ∈ t) (hcomma : c ≠ .ofChar ',')
    (hblank : Blank.isBlank c = false) : ∃ p ∈ splitParameters t, c ∈ p := by
  obtain ⟨p, hp, hc⟩ := exists_mem_pieces h hcomma 0
  have hstrip := Blank.mem_strip_of_mem hc hblank
  refine ⟨Blank.strip p, List.mem_filter.mpr ⟨List.mem_map_of_mem hp, ?_⟩, hstrip⟩
  rw [Bool.not_eq_true', List.isEmpty_eq_false_iff]
  exact List.ne_nil_of_mem hstrip

end Php

end CompletionServer
