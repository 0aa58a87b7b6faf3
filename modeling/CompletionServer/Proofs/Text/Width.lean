import CompletionServer.Text.CodePoint

namespace CompletionServer

namespace Text

def measure (width : CodePoint → Nat) : Text → Nat
  | [] => 0
  | c :: rest => width c + measure width rest

theorem utf8Length_eq_measure (t : Text) : t.utf8Length = t.measure CodePoint.utf8Width := by
  induction t with
  | nil => rfl
  | cons c t ih => rw [utf8Length, measure, ih]

theorem utf16Length_eq_measure (t : Text) : t.utf16Length = t.measure CodePoint.utf16Width := by
  induction t with
  | nil => rfl
  | cons c t ih => rw [utf16Length, measure, ih]

theorem measure_append (width : CodePoint → Nat) (s t : Text) :
    measure width (s ++ t) = s.measure width + t.measure width := by
  induction s with
  | nil => simp [measure]
  | cons c s ih => rw [List.cons_append, measure, measure, ih, Nat.add_assoc]

@[simp] theorem utf8Length_append (s t : Text) :
    (s ++ t).utf8Length = s.utf8Length + t.utf8Length := by
  simp only [utf8Length_eq_measure, measure_append]

@[simp] theorem utf16Length_append (s t : Text) :
    (s ++ t).utf16Length = s.utf16Length + t.utf16Length := by
  simp only [utf16Length_eq_measure, measure_append]

variable {width : CodePoint → Nat} {s t : Text} {n : Nat}

theorem takeWithin_isPrefix (width : CodePoint → Nat) (n : Nat) (t : Text) :
    t.takeWithin width n <+: t := by
  induction t generalizing n with
  | nil => exact List.prefix_rfl
  | cons c t ih =>
    unfold takeWithin
    split
    · exact List.cons_prefix_cons.mpr ⟨rfl, ih _⟩
    · exact List.nil_prefix

theorem measure_takeWithin_le (width : CodePoint → Nat) (n : Nat) (t : Text) :
    (t.takeWithin width n).measure width ≤ n := by
  induction t generalizing n with
  | nil => exact Nat.zero_le _
  | cons c t ih =>
    unfold takeWithin
    split
    · have := ih (n - width c)
      rw [measure]
      omega
    · exact Nat.zero_le _

theorem isPrefix_takeWithin (hs : s <+: t) (hn : s.measure width ≤ n) :
    s <+: t.takeWithin width n := by
  induction s generalizing t n with
  | nil => exact List.nil_prefix
  | cons c s ih =>
    obtain ⟨u, rfl⟩ := hs
    rw [measure] at hn
    rw [List.cons_append, takeWithin, if_pos (by omega)]
    exact List.cons_prefix_cons.mpr ⟨rfl, ih ⟨u, rfl⟩ (by omega)⟩

theorem measure_le_of_isPrefix (h : s <+: t) : s.measure width ≤ t.measure width := by
  obtain ⟨u, rfl⟩ := h
  rw [measure_append]
  exact Nat.le_add_right _ _

theorem takeWithin_of_measure_le (h : t.measure width ≤ n) : t.takeWithin width n = t :=
  (takeWithin_isPrefix width n t).eq_of_length_le (isPrefix_takeWithin List.prefix_rfl h).length_le

/-- No proper extension of a leading part has the same measure, as every code point counts. -/
theorem takeWithin_measure (hw : ∀ c, 0 < width c) (h : s <+: t) :
    t.takeWithin width (s.measure width) = s := by
  induction s generalizing t with
  | nil =>
    cases t with
    | nil => rfl
    | cons c t => exact if_neg (Nat.not_le_of_lt (hw c))
  | cons c s ih =>
    obtain ⟨u, rfl⟩ := h
    rw [List.cons_append, takeWithin, measure, if_pos (by omega), Nat.add_sub_cancel_left]
    exact congrArg (c :: ·) (ih ⟨u, rfl⟩)

theorem takeWithin_utf8Length (h : s <+: t) :
    t.takeWithin CodePoint.utf8Width s.utf8Length = s := by
  rw [utf8Length_eq_measure]
  exact takeWithin_measure CodePoint.utf8Width_pos h

theorem utf8Length_le_of_isPrefix (h : s <+: t) : s.utf8Length ≤ t.utf8Length := by
  simpa only [utf8Length_eq_measure] using measure_le_of_isPrefix h

theorem utf16Length_le_of_isPrefix (h : s <+: t) : s.utf16Length ≤ t.utf16Length := by
  simpa only [utf16Length_eq_measure] using measure_le_of_isPrefix h

end Text

end CompletionServer
