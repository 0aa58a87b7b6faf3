import CompletionServer.Php.Signature
import CompletionServer.Proofs.Text.Runs

namespace CompletionServer

namespace Blank

theorem exists_eq_append_strip (t : Text) : ∃ front back : Text, t = front ++ strip t ++ back ∧
    (∀ c ∈ front, isBlank c = true) ∧ ∀ c ∈ back, isBlank c = true := by
  refine ⟨t.takeWhile isBlank, (t.dropWhile isBlank).rtakeWhile isBlank, ?_,
    fun c => List.mem_takeWhile_imp, fun c => List.mem_rtakeWhile_imp⟩
  have hback : strip t ++ (t.dropWhile isBlank).rtakeWhile isBlank = t.dropWhile isBlank :=
    List.rdropWhile_append_rtakeWhile
  rw [List.append_assoc, hback, List.takeWhile_append_dropWhile]

theorem strip_cons_of_isBlank {c : CodePoint} (hc : isBlank c = true) (t : Text) :
    strip (c :: t) = strip t := by
  rw [strip, List.dropWhile_cons_of_pos hc, strip]

theorem eq_false_of_head?_strip {c : CodePoint} {t : Text} (h : (strip t).head? = some c) :
    isBlank c = false := by
  obtain ⟨back, hback⟩ : strip t <+: t.dropWhile isBlank := List.rdropWhile_prefix isBlank _
  have hhead : (t.dropWhile isBlank).head? = some c := by
    rw [← hback, List.head?_append, h]
    rfl
  exact eq_false_of_head?_dropWhile hhead

theorem strip_strip (t : Text) : strip (strip t) = strip t := by
  have hfront : (strip t).dropWhile isBlank = strip t :=
    dropWhile_append_stop (l := []) (List.forall_mem_nil _) fun c => eq_false_of_head?_strip
  have hback : (strip t).rdropWhile isBlank = strip t := List.rdropWhile_idempotent isBlank _
  rw [strip, hfront]
  exact hback

end Blank

theorem Text.join_cons_cons (separator t u : Text) (rest : List Text) :
    join separator (t :: u :: rest) = t ++ separator ++ join separator (u :: rest) :=
  rfl

namespace Php

def Level (t : Text) : Prop := t.countP isOpening = t.countP isClosing

instance : DecidablePred Level := fun t => inferInstanceAs (Decidable (t.countP _ = t.countP _))

/-- The code point with this index is a comma before which as many brackets are opened as closed. -/
def isTopLevelComma (t : Text) (place : CodePoint × Nat) : Bool :=
  place.1 = .ofChar ',' ∧ Level (t.take place.2)

def topLevelPieces (t : Text) : List Text :=
  (t.zipIdx.splitOnP (isTopLevelComma t)).map (·.map Prod.fst)

/-- How many more brackets are opened than closed. -/
def surplus (t : Text) : Int := t.countP isOpening - t.countP isClosing

/-- No comma of the text stands at depth zero if the text begins at the given depth. -/
def UncutFrom (depth : Int) (t : Text) : Prop :=
  ∀ before after, t = before ++ .ofChar ',' :: after → depth + surplus before ≠ 0

variable {c : CodePoint} {depth : Int} {p s t rest : Text}

theorem level_iff_surplus_eq_zero : Level t ↔ surplus t = 0 := by
  simp only [Level, surplus]
  omega

theorem surplus_append (s t : Text) : surplus (s ++ t) = surplus s + surplus t := by
  simp only [surplus, List.countP_append]
  omega

theorem surplus_cons (c : CodePoint) (t : Text) : surplus (c :: t) = surplus [c] + surplus t :=
  surplus_append [c] t

theorem surplus_singleton (c : CodePoint) :
    surplus [c] = (if isOpening c then 1 else 0) - if isClosing c then 1 else 0 := by
  simp only [surplus, List.countP_singleton]
  split <;> split <;> rfl

theorem isClosing_of_isOpening (hc : isOpening c = true) : isClosing c = false := by
  simp only [isOpening, Bool.or_eq_true, decide_eq_true_eq] at hc
  obtain (rfl | rfl) | rfl := hc <;> decide

theorem ne_comma_of_isOpening (hc : isOpening c = true) : c ≠ .ofChar ',' := by
  rintro rfl
  exact absurd hc (by decide)

theorem ne_comma_of_isClosing (hc : isClosing c = true) : c ≠ .ofChar ',' := by
  rintro rfl
  exact absurd hc (by decide)

theorem surplus_singleton_of_isBlank (hc : Blank.isBlank c = true) : surplus [c] = 0 := by
  have hopening : ¬isOpening c = true := by
    simp only [isOpening, Bool.or_eq_true, decide_eq_true_eq]
    rintro ((rfl | rfl) | rfl) <;> exact absurd hc (by decide)
  have hclosing : ¬isClosing c = true := by
    simp only [isClosing, Bool.or_eq_true, decide_eq_true_eq]
    rintro ((rfl | rfl) | rfl) <;> exact absurd hc (by decide)
  rw [surplus_singleton, if_neg hopening, if_neg hclosing, Int.sub_zero]

theorem surplus_of_isBlank (h : ∀ c ∈ t, Blank.isBlank c = true) : surplus t = 0 := by
  induction t with
  | nil => rfl
  | cons c t ih =>
    obtain ⟨hc, ht⟩ := List.forall_mem_cons.mp h
    rw [surplus_cons, surplus_singleton_of_isBlank hc, ih ht, Int.add_zero]

theorem surplus_strip (t : Text) : surplus (Blank.strip t) = surplus t := by
  obtain ⟨front, back, ht, hfront, hback⟩ := Blank.exists_eq_append_strip t
  have h := congrArg surplus ht
  rw [surplus_append, surplus_append, surplus_of_isBlank hfront, surplus_of_isBlank hback] at h
  omega

theorem UncutFrom.strip (h : UncutFrom depth t) : UncutFrom depth (Blank.strip t) := by
  obtain ⟨front, back, ht, hfront, -⟩ := Blank.exists_eq_append_strip t
  intro before after hcut
  have hsurplus := h (front ++ before) (after ++ back) (by rw [ht, hcut]; simp)
  rwa [surplus_append, surplus_of_isBlank hfront, Int.zero_add] at hsurplus

theorem UncutFrom.of_cons (h : UncutFrom depth (c :: t)) : UncutFrom (depth + surplus [c]) t := by
  intro before after ht
  have hsurplus := h (c :: before) after (by rw [ht]; rfl)
  rwa [surplus_cons, ← Int.add_assoc] at hsurplus

theorem consPiece_eq_modifyHead {ps : List Text} (h : ps ≠ []) (c : CodePoint) :
    consPiece c ps = ps.modifyHead (c :: ·) := by
  cases ps with
  | nil => exact absurd rfl h
  | cons piece ps => rfl

theorem pieces_ne_nil (depth : Int) (t : Text) : pieces depth t ≠ [] := by
  have hcons (c : CodePoint) (ps : List Text) : consPiece c ps ≠ [] := by
    cases ps <;> exact List.cons_ne_nil _ _
  cases t with
  | nil => exact List.cons_ne_nil _ _
  | cons c t =>
    rw [pieces]
    split
    · exact hcons _ _
    split
    · exact hcons _ _
    split
    · exact List.cons_ne_nil _ _
    · exact hcons _ _

theorem pieces_cons (depth : Int) (c : CodePoint) (t : Text) :
    pieces depth (c :: t) =
      if c = .ofChar ',' ∧ depth = 0 then [] :: pieces 0 t
      else (pieces (depth + surplus [c]) t).modifyHead (c :: ·) := by
  rw [pieces, surplus_singleton]
  by_cases hopening : isOpening c = true
  · rw [if_pos hopening, if_pos hopening, isClosing_of_isOpening hopening,
      if_neg fun h => ne_comma_of_isOpening hopening h.1,
      consPiece_eq_modifyHead (pieces_ne_nil _ t)]
    rfl
  rw [if_neg hopening, if_neg hopening]
  by_cases hclosing : isClosing c = true
  · rw [if_pos hclosing, if_pos hclosing, if_neg fun h => ne_comma_of_isClosing hclosing h.1,
      consPiece_eq_modifyHead (pieces_ne_nil _ t)]
    rfl
  rw [if_neg hclosing, if_neg hclosing, Int.sub_zero, Int.add_zero,
    consPiece_eq_modifyHead (pieces_ne_nil _ t)]
  split
  next h => rw [h.2]
  next => rfl

/-- What has no comma at depth zero stays in one piece. -/
theorem pieces_append (h : UncutFrom depth p) (t : Text) :
    pieces depth (p ++ t) = (pieces (depth + surplus p) t).modifyHead (p ++ ·) := by
  induction p generalizing depth with
  | nil =>
    obtain ⟨piece, ps, hps⟩ := List.exists_cons_of_ne_nil (pieces_ne_nil depth t)
    simp [surplus, hps]
  | cons c p ih =>
    have hc : ¬(c = .ofChar ',' ∧ depth = 0) := by
      rintro ⟨rfl, hdepth⟩
      -- A comma at the front would be one at depth zero.
      exact h [] p rfl (by simpa [surplus] using hdepth)
    rw [List.cons_append, pieces_cons, if_neg hc, ih h.of_cons, List.modifyHead_modifyHead,
      Int.add_assoc, ← surplus_cons]
    rfl

theorem isTopLevelComma_iff (before t : Text) (c : CodePoint) :
    isTopLevelComma (before ++ c :: t) (c, before.length) = true ↔
      c = .ofChar ',' ∧ surplus before = 0 := by
  rw [isTopLevelComma, List.take_left, decide_eq_true_eq, level_iff_surplus_eq_zero]

/-- The cutter's depth accounts for all that it has read. -/
theorem pieces_eq_splitOnP (before t : Text) :
    pieces (surplus before) t =
      ((t.zipIdx before.length).splitOnP (isTopLevelComma (before ++ t))).map
        (·.map Prod.fst) := by
  induction t generalizing before with
  | nil => rfl
  | cons c t ih =>
    -- The induction moves a code point from the text to what has been read.
    have ih := ih (before ++ [c])
    rw [List.append_assoc, List.singleton_append, List.length_append, List.length_singleton,
      surplus_append] at ih
    rw [pieces_cons, List.zipIdx_cons, List.splitOnP_cons_eq_if_modifyHead]
    by_cases hcut : c = .ofChar ',' ∧ surplus before = 0
    · rw [if_pos hcut, if_pos ((isTopLevelComma_iff before t c).mpr hcut), List.map_cons, ← ih]
      obtain ⟨rfl, hbefore⟩ := hcut
      rw [hbefore]
      rfl
    · rw [if_neg hcut, if_neg (mt (isTopLevelComma_iff before t c).mp hcut), ih]
      cases (t.zipIdx (before.length + 1)).splitOnP (isTopLevelComma (before ++ c :: t)) <;> rfl

theorem pieces_eq_topLevelPieces (t : Text) : pieces 0 t = topLevelPieces t :=
  pieces_eq_splitOnP [] t

abbrev Uncut (t : Text) : Prop := UncutFrom 0 t

theorem uncut_or_exists_comma (t : Text) :
    Uncut t ∨ ∃ p rest : Text, Uncut p ∧ Level p ∧ t = p ++ .ofChar ',' :: rest := by
  -- From the right end, so that the comma that is found is the first.
  induction t using List.reverseRecOn with
  | nil => exact .inl fun before after h => by simp at h
  | append_singleton t c ih =>
    obtain ht | ⟨p, rest, hp, hlevel, rfl⟩ := ih
    · by_cases hcut : c = .ofChar ',' ∧ Level t
      · exact .inr ⟨t, [], ht, hcut.2, by rw [hcut.1]⟩
      · refine .inl fun before after h => ?_
        obtain rfl | ⟨after, d, rfl⟩ := List.eq_nil_or_concat after
        · obtain ⟨rfl, hc⟩ := List.append_inj' h rfl
          obtain rfl := List.singleton_inj.mp hc
          rw [Int.zero_add]
          exact fun hzero => hcut ⟨rfl, level_iff_surplus_eq_zero.mpr hzero⟩
        · rw [List.concat_eq_append, ← List.cons_append, ← List.append_assoc] at h
          exact ht before after (List.append_inj' h rfl).1
    · exact .inr ⟨p, rest ++ [c], hp, hlevel, by simp⟩

@[elab_as_elim]
theorem induction_on_commas {motive : Text → Prop} (t : Text)
    (uncut : ∀ p : Text, Uncut p → motive p)
    (comma : ∀ p rest : Text, Uncut p → Level p → motive rest →
      motive (p ++ .ofChar ',' :: rest)) : motive t := by
  -- By length: what follows a comma is shorter.
  induction h : t.length using Nat.strongRecOn generalizing t with
  | ind n ih =>
    obtain ht | ⟨p, rest, hp, hlevel, rfl⟩ := uncut_or_exists_comma t
    · exact uncut t ht
    · refine comma p rest hp hlevel (ih rest.length ?_ rest rfl)
      simp only [List.length_append, List.length_cons] at h
      omega

def parameter (piece : Text) : List Text := [Blank.strip piece].filter (!·.isEmpty)

theorem parameter_cases (p : Text) : parameter p = [] ∨ parameter p = [Blank.strip p] := by
  rw [parameter, List.filter_singleton]
  cases (Blank.strip p).isEmpty
  · exact .inr rfl
  · exact .inl rfl

theorem parameter_strip (p : Text) : parameter (Blank.strip p) = parameter p := by
  rw [parameter, Blank.strip_strip, parameter]

theorem splitParameters_of_uncut (hp : Uncut p) : splitParameters p = parameter p := by
  have hpieces := pieces_append hp []
  rw [List.append_nil] at hpieces
  rw [splitParameters, hpieces]
  simp [pieces, parameter]

theorem splitParameters_append_comma (hp : Uncut p) (hlevel : Level p) (rest : Text) :
    splitParameters (p ++ .ofChar ',' :: rest) = parameter p ++ splitParameters rest := by
  rw [splitParameters, pieces_append hp, Int.zero_add, level_iff_surplus_eq_zero.mp hlevel,
    pieces_cons, if_pos ⟨rfl, rfl⟩, List.modifyHead_cons, List.append_nil, splitParameters,
    parameter, ← List.filter_append]
  rfl

theorem splitParameters_cons_of_isBlank (hc : Blank.isBlank c = true) (t : Text) :
    splitParameters (c :: t) = splitParameters t := by
  have hcomma : ¬(c = .ofChar ',' ∧ (0 : Int) = 0) := by
    rintro ⟨rfl, -⟩
    exact absurd hc (by decide)
  obtain ⟨piece, ps, hps⟩ := List.exists_cons_of_ne_nil (pieces_ne_nil 0 t)
  rw [splitParameters, splitParameters, pieces_cons, if_neg hcomma, surplus_singleton_of_isBlank hc,
    Int.add_zero, hps, List.modifyHead_cons, List.map_cons, List.map_cons,
    Blank.strip_cons_of_isBlank hc]

theorem splitParameters_join_splitParameters (t : Text) :
    splitParameters (Text.join ", " (splitParameters t)) = splitParameters t := by
  have halone {p : Text} (hp : Uncut p) : splitParameters (Blank.strip p) = parameter p := by
    rw [splitParameters_of_uncut hp.strip, parameter_strip]
  induction t using induction_on_commas with
  | uncut p hp =>
    rw [splitParameters_of_uncut hp]
    obtain hnone | hone := parameter_cases p
    · rw [hnone]
      rfl
    · rw [hone, Text.join, halone hp, hone]
  | comma p rest hp hlevel ih =>
    rw [splitParameters_append_comma hp hlevel]
    obtain hnone | hone := parameter_cases p
    · rw [hnone, List.nil_append, ih]
    · cases hrest : splitParameters rest with
      | nil => rw [hone, List.append_nil, Text.join, halone hp, hone]
      | cons q qs =>
        -- The comma between the two stands outside all brackets, as the stripped piece is level.
        have hstrip : Level (Blank.strip p) := by
          rw [level_iff_surplus_eq_zero, surplus_strip, ← level_iff_surplus_eq_zero]
          exact hlevel
        have hblank : splitParameters (.ofChar ' ' :: Text.join ", " (q :: qs)) = q :: qs := by
          rw [splitParameters_cons_of_isBlank (by decide), ← hrest, ih]
        have hjoin : Text.join ", " (Blank.strip p :: q :: qs) =
            Blank.strip p ++ .ofChar ',' :: .ofChar ' ' :: Text.join ", " (q :: qs) := by
          rw [Text.join_cons_cons, List.append_assoc]
          rfl
        rw [hone, List.singleton_append, hjoin, splitParameters_append_comma hp.strip hstrip,
          parameter_strip, hone, hblank, List.singleton_append]

/-- Parameters are what is left of the pieces between the commas outside all brackets, and to write
them down one after the other and split them again gives the same parameters. So the text between
the parentheses of a signature's label splits into the signature's parameters. -/
theorem splitParameters_cuts_stably (t : Text) :
    splitParameters t = ((topLevelPieces t).map Blank.strip).filter (!·.isEmpty) ∧
    splitParameters (Text.join ", " (splitParameters t)) = splitParameters t ∧
    ∀ d : Declaration, ∃ shown : Text,
      d.signature.label =
        Utf8.decodeLossy d.name ++ "(" ++ shown ++ ")" ++ d.returnText ∧
      d.signature.parameters = some (splitParameters shown) := by
  refine ⟨by rw [← pieces_eq_topLevelPieces, splitParameters],
    splitParameters_join_splitParameters t, fun d => ⟨Text.join ", " d.parameterNames, rfl, ?_⟩⟩
  rw [Declaration.parameterNames, splitParameters_join_splitParameters]
  rfl

/-- A surplus of closing brackets keeps the commas behind it from cutting. -/
example : splitParameters "a), b, c" = ["a), b, c"] := by decide

end Php

end CompletionServer
