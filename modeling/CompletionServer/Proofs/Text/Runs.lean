import Mathlib.Data.List.DropRight

namespace CompletionServer

variable {α : Type u} {p : α → Bool} {l r : List α} {a : α}

theorem takeWhile_append_stop (hl : ∀ a ∈ l, p a = true)
    (hr : ∀ a, r.head? = some a → p a = false) : (l ++ r).takeWhile p = l := by
  rw [List.takeWhile_append_of_pos hl]
  cases r with
  | nil => rw [List.takeWhile_nil, List.append_nil]
  | cons a r =>
    rw [List.takeWhile_cons_of_neg (by rw [hr a rfl]; exact Bool.false_ne_true), List.append_nil]

theorem dropWhile_append_stop (hl : ∀ a ∈ l, p a = true)
    (hr : ∀ a, r.head? = some a → p a = false) : (l ++ r).dropWhile p = r := by
  have hcut := List.takeWhile_append_dropWhile (p := p) (l := l ++ r)
  rw [takeWhile_append_stop hl hr] at hcut
  exact List.append_cancel_left hcut

theorem rdropWhile_append_stop (hl : ∀ a, l.getLast? = some a → p a = false)
    (hr : ∀ a ∈ r, p a = true) : (l ++ r).rdropWhile p = l := by
  have hl' : ∀ a, l.reverse.head? = some a → p a = false := by rwa [List.head?_reverse]
  have hr' : ∀ a ∈ r.reverse, p a = true := fun a ha => hr a (List.mem_reverse.mp ha)
  rw [List.rdropWhile, List.reverse_append, dropWhile_append_stop hr' hl', List.reverse_reverse]

theorem rtakeWhile_append_stop (hl : ∀ a, l.getLast? = some a → p a = false)
    (hr : ∀ a ∈ r, p a = true) : (l ++ r).rtakeWhile p = r := by
  have hcut := List.rdropWhile_append_rtakeWhile (p := p) (l := l ++ r)
  rw [rdropWhile_append_stop hl hr] at hcut
  exact List.append_cancel_left hcut

theorem takeWhile_append_drop (p : α → Bool) (l : List α) :
    l.takeWhile p ++ l.drop (l.takeWhile p).length = l :=
  List.prefix_iff_eq_append.mp (List.takeWhile_prefix p)

theorem eq_false_of_head?_dropWhile (h : (l.dropWhile p).head? = some a) : p a = false := by
  have hnot := List.head?_dropWhile_not p l
  rwa [h] at hnot

theorem eq_false_of_head?_drop_takeWhile
    (h : (l.drop (l.takeWhile p).length).head? = some a) : p a = false := by
  have hcut : l.takeWhile p ++ l.drop (l.takeWhile p).length = l.takeWhile p ++ l.dropWhile p := by
    rw [takeWhile_append_drop, List.takeWhile_append_dropWhile]
  rw [List.append_cancel_left hcut] at h
  exact eq_false_of_head?_dropWhile h

theorem eq_false_of_getLast?_rdropWhile (h : (l.rdropWhile p).getLast? = some a) :
    p a = false := by
  rw [List.rdropWhile, List.getLast?_reverse] at h
  exact eq_false_of_head?_dropWhile h

end CompletionServer
