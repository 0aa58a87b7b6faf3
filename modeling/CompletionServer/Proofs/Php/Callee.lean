import CompletionServer.Proofs.Php.Declaration

namespace CompletionServer.Php

/-- White space aside, the bytes end in a run of label bytes, and the callee is what is left of the
run without its leading digits. -/
inductive EndsInCallee (callee : List UInt8) : List UInt8 → Prop
  | intro {front digits after : List UInt8} :
    (∀ b, front.getLast? = some b → isLabelByte b = false) → (∀ b ∈ digits, isDigit b = true) →
    IsLabel callee → AllSpace after → EndsInCallee callee (front ++ (digits ++ (callee ++ after)))

def EndsInLabel (bytes front label : List UInt8) : Prop :=
  ∃ after, IsLabel label ∧ AllSpace after ∧ bytes = front ++ (label ++ after)

/-- Of all labels that reach up to the end, it is the one that begins first. -/
def EndsInFirstLabel (bytes callee : List UInt8) : Prop :=
  ∃ front, EndsInLabel bytes front callee ∧
    ∀ front' label, EndsInLabel bytes front' label → front.length ≤ front'.length

theorem isLabelStart_of_not_isDigit {b : UInt8} (h : isLabelByte b = true)
    (hd : isDigit b = false) : isLabelStart b = true := by
  rwa [isLabelByte, hd, Bool.or_false] at h

theorem not_isDigit_of_isLabelStart {b : UInt8} (h : isLabelStart b = true) :
    isDigit b = false := by
  simp only [isLabelStart, Bool.or_eq_true, Bool.and_eq_true, decide_eq_true_eq, beq_iff_eq,
    UInt8.le_iff_toNat_le, ← UInt8.toNat_inj] at h
  simp only [isDigit, Bool.and_eq_false_iff, decide_eq_false_iff_not, UInt8.le_iff_toNat_le]
  simp at h ⊢
  omega

section Run

variable {front digits run label callee after : List UInt8}

theorem isLabel_dropWhile_isDigit (hrun : ∀ b ∈ run, isLabelByte b = true)
    (hne : run.dropWhile isDigit ≠ []) : IsLabel (run.dropWhile isDigit) := by
  obtain ⟨b, name, hname⟩ := List.exists_cons_of_ne_nil hne
  have hmem : ∀ c ∈ run.dropWhile isDigit, isLabelByte c = true :=
    fun c hc => hrun c ((List.dropWhile_suffix isDigit).subset hc)
  have hb : isDigit b = false := eq_false_of_head?_dropWhile (by rw [hname, List.head?_cons])
  refine ⟨?_, hmem⟩
  rw [hname] at hmem ⊢
  exact isLabelStart_of_not_isDigit (hmem b List.mem_cons_self) hb

theorem endsInCallee_of_run (front : List UInt8) (hrun : ∀ b ∈ run, isLabelByte b = true)
    (hne : run.dropWhile isDigit ≠ []) (hafter : AllSpace after) :
    EndsInCallee (run.dropWhile isDigit) (front.rdropWhile isLabelByte ++ (run ++ after)) := by
  have hcut : run ++ after = run.takeWhile isDigit ++ (run.dropWhile isDigit ++ after) := by
    rw [← List.append_assoc, List.takeWhile_append_dropWhile]
  rw [hcut]
  exact .intro (fun b hb => eq_false_of_getLast?_rdropWhile hb)
    (fun b hb => List.mem_takeWhile_imp hb) (isLabel_dropWhile_isDigit hrun hne) hafter

theorem rdropWhile_isSpace_append (hlabel : IsLabel label) (hafter : AllSpace after)
    (front : List UInt8) : (front ++ (label ++ after)).rdropWhile isSpace = front ++ label := by
  rw [← List.append_assoc]
  refine rdropWhile_append_stop (fun b hb => ?_) hafter
  have hne : label ≠ [] := by
    obtain ⟨b, rest, rfl, -⟩ := hlabel.exists_cons
    exact List.cons_ne_nil b rest
  rw [List.getLast?_append_of_ne_nil _ hne] at hb
  exact not_isSpace_of_isLabelByte (hlabel.isLabelByte_of_mem b (List.mem_of_getLast? hb))

theorem isLabelByte_of_mem_digits_append (hdigits : ∀ b ∈ digits, isDigit b = true)
    (hlabel : IsLabel label) {b : UInt8} (hb : b ∈ digits ++ label) : isLabelByte b = true := by
  obtain hb | hb := List.mem_append.mp hb
  · rw [isLabelByte, hdigits b hb, Bool.or_true]
  · exact hlabel.isLabelByte_of_mem b hb

end Run

variable {bytes front label callee : List UInt8}

theorem callee?_eq (bytes : List UInt8) : callee? bytes =
    match ((bytes.rdropWhile isSpace).rtakeWhile isLabelByte).dropWhile isDigit with
    | [] => none
    | name => some name := by
  rw [List.rdropWhile, List.rtakeWhile, List.reverse_reverse]
  rfl

theorem EndsInCallee.callee?_eq_some (h : EndsInCallee callee bytes) :
    callee? bytes = some callee := by
  obtain @⟨front, digits, after, hfront, hdigits, hcallee, hafter⟩ := h
  have hspace := rdropWhile_isSpace_append hcallee hafter (front ++ digits)
  rw [List.append_assoc, List.append_assoc] at hspace
  rw [callee?_eq, hspace, rtakeWhile_append_stop hfront fun b hb =>
    isLabelByte_of_mem_digits_append hdigits hcallee hb]
  obtain ⟨b, rest, rfl, hb⟩ := hcallee.exists_cons
  have hfirst : ∀ c, (b :: rest).head? = some c → isDigit c = false := by
    intro c hc
    obtain rfl := Option.some.inj hc
    exact not_isDigit_of_isLabelStart hb
  rw [dropWhile_append_stop hdigits hfirst]

theorem endsInCallee_of_callee? (h : callee? bytes = some callee) :
    EndsInCallee callee bytes := by
  have hspace := List.rdropWhile_append_rtakeWhile (p := isSpace) (l := bytes)
  have hrun := List.rdropWhile_append_rtakeWhile (p := isLabelByte) (l := bytes.rdropWhile isSpace)
  rw [callee?_eq] at h
  split at h
  · cases h
  · rename_i hne
    obtain rfl := Option.some.inj h
    have hends := endsInCallee_of_run (bytes.rdropWhile isSpace)
      (fun b hb => List.mem_rtakeWhile_imp hb) hne
      fun b (hb : b ∈ bytes.rtakeWhile isSpace) => List.mem_rtakeWhile_imp hb
    rwa [← List.append_assoc, hrun, hspace] at hends

theorem callee?_eq_some_iff : callee? bytes = some callee ↔ EndsInCallee callee bytes :=
  ⟨endsInCallee_of_callee?, EndsInCallee.callee?_eq_some⟩

/-- Bytes that end in the head of a declaration end in the declared name. -/
theorem IsHead.endsInCallee {name head : List UInt8} (h : IsHead name head) (front : List UInt8) :
    EndsInCallee name (front ++ head) := by
  obtain @⟨gap, after, hgap, hname, hafter⟩ := h
  have hne : gap ≠ [] := by
    obtain ⟨b, hb, -⟩ := hgap.exists_isSpace
    exact List.ne_nil_of_mem hb
  have hcut : front ++ (functionWord ++ (gap ++ (name ++ after))) =
      front ++ functionWord ++ gap ++ ([] ++ (name ++ after)) := by simp
  rw [hcut]
  refine .intro (fun b hb => ?_) (by simp) hname hafter
  rw [List.getLast?_append_of_ne_nil _ hne] at hb
  exact hgap.not_isLabelByte (List.mem_of_getLast? hb)

theorem EndsInFirstLabel.unique {callee' : List UInt8} (h : EndsInFirstLabel bytes callee)
    (h' : EndsInFirstLabel bytes callee') : callee = callee' := by
  obtain ⟨front, hends, hfirst⟩ := h
  obtain ⟨front', hends', hfirst'⟩ := h'
  have hlen := Nat.le_antisymm (hfirst _ _ hends') (hfirst' _ _ hends)
  obtain ⟨after, hlabel, hafter, rfl⟩ := hends
  obtain ⟨after', hlabel', hafter', hcut⟩ := hends'
  have hstop {s : List UInt8} (hs : AllSpace s) (b : UInt8) (hb : s.head? = some b) :
      isLabelByte b = false := not_isLabelByte_of_isSpace (hs b (List.mem_of_head? hb))
  have hsame := (List.append_inj hcut hlen).2
  rw [← takeWhile_append_stop hlabel.isLabelByte_of_mem (hstop hafter), hsame,
    takeWhile_append_stop hlabel'.isLabelByte_of_mem (hstop hafter')]

end CompletionServer.Php
