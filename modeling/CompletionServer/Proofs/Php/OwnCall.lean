import CompletionServer.Proofs.Php.Parameters
import CompletionServer.Proofs.Php.Signature
import CompletionServer.Proofs.Text.Decoding

namespace CompletionServer.Php

section Line

variable {front label : List UInt8}

theorem not_endsInHead_of_line (hlabel : IsLabel label) :
    ¬EndsInHead (front ++ 0x7D :: 0x0A :: label) := by
  rintro ⟨before, head, name, hcut, -, hhead⟩
  have hbrace : 0x7D ∉ head := by
    intro hmem
    obtain h | h | h := hhead.mem_cases hmem
    · exact absurd h (by decide)
    · exact absurd h (by decide)
    · exact absurd h (by decide)
  have hfirst := hhead.head?_eq
  -- So the head begins behind the brace, and behind the line break as it begins with a letter.
  obtain ⟨more, rfl, hmore⟩ | ⟨more, -, rfl⟩ := List.append_eq_append_iff.mp hcut
  · rcases more with _ | ⟨b, _ | ⟨c, more⟩⟩
    · rw [List.nil_append] at hmore
      rw [← hmore] at hfirst
      cases hfirst
    · rw [List.singleton_append] at hmore
      rw [← (List.cons.inj hmore).2] at hfirst
      cases hfirst
    · obtain ⟨b, hb, hspace⟩ := hhead.exists_isSpace
      have hmem : b ∈ label := by
        rw [(List.cons.inj (List.cons.inj hmore).2).2]
        exact List.mem_append_right _ hb
      rw [not_isSpace_of_isLabelByte (hlabel.isLabelByte_of_mem b hmem)] at hspace
      cases hspace
  · exact hbrace (List.mem_append_right _ List.mem_cons_self)

theorem enclosingCall_of_line (leading : List UInt8) :
    enclosingCall (leading ++ [0x28]) (leading ++ [0x28]).length = some ⟨leading.length, 0⟩ := by
  have hlen : leading.reverse.length = leading.length := List.length_reverse
  rw [enclosingCall, List.take_length, List.reverse_append, ← hlen]
  rfl

theorem calls_of_line {leading : List UInt8} (hlabel : IsLabel label)
    (hleading : leading = front ++ 0x7D :: 0x0A :: label) :
    Calls (leading ++ [0x28]) (leading ++ [0x28]).length ⟨leading.length, 0⟩ label := by
  have hclamp : clampOffset (leading ++ [0x28]) (leading ++ [0x28]).length =
      (leading ++ [0x28]).length := by
    rw [clampOffset, Int.toNat_natCast, Nat.min_self]
  refine ⟨?_, ?_, ?_⟩
  · rw [hclamp, enclosingCall_of_line]
  · rw [List.take_left, hleading]
    exact not_endsInHead_of_line hlabel
  · have hcut : leading = (front ++ [0x7D, 0x0A]) ++ ([] ++ (label ++ [])) := by simp [hleading]
    rw [List.take_left, hcut]
    refine .intro (fun b hb => ?_) (by simp) hlabel (fun b hb => absurd hb List.not_mem_nil)
    obtain rfl : 0x0A = b := by simpa using hb
    decide

end Line

def ownCall (name parameters : Text) : Text :=
  "<?php\nfunction " ++ name ++ "(" ++ parameters ++ ") \x7b\x7d\n" ++ name ++ "("

def upToClosing (parameters : Text) : Text :=
  parameters.takeWhile (· ≠ .ofChar ')')

variable {name : Text}

theorem utf8_ownCall (name parameters : Text) : (ownCall name parameters).utf8 =
    ascii "<?php\n" ++ ((functionWord ++ ([0x20] ++ (Text.utf8 name ++ []))) ++
      0x28 :: (Text.utf8 parameters ++ 0x29 :: ([0x20, 0x7B, 0x7D, 0x0A] ++
        (Text.utf8 name ++ [0x28])))) := by
  have hopen : Text.utf8 (Text.ofString "<?php\nfunction ") =
    ascii "<?php\n" ++ (functionWord ++ [0x20]) := by decide
  have hparen : Text.utf8 (Text.ofString "(") = [0x28] := by decide
  have hclose : Text.utf8 (Text.ofString ") \x7b\x7d\n") = [0x29, 0x20, 0x7B, 0x7D, 0x0A] := by
    decide
  simp only [ownCall, Text.utf8_append, hopen, hparen, hclose, List.append_assoc,
    List.cons_append, List.nil_append, List.append_nil]

theorem not_mem_utf8_upToClosing (parameters : Text) :
    0x29 ∉ Text.utf8 (upToClosing parameters) := by
  intro hmem
  obtain ⟨⟨val, hval⟩, hc, hparen⟩ := Text.exists_mem_of_mem_utf8 hmem (by decide)
  obtain rfl : val = 0x29 := hparen
  simpa [CodePoint.ofChar] using List.mem_takeWhile_imp hc

/-- The bytes of the list end, for a declaration, where a parenthesis closes. -/
theorem exists_utf8_upToClosing (parameters : Text) (rest : List UInt8) :
    ∃ behind, Text.utf8 parameters ++ 0x29 :: rest =
      Text.utf8 (upToClosing parameters) ++ 0x29 :: behind := by
  have hcut := List.takeWhile_append_dropWhile (p := (· ≠ CodePoint.ofChar ')')) (l := parameters)
  cases hbehind : parameters.dropWhile (· ≠ .ofChar ')') with
  | nil =>
    rw [hbehind, List.append_nil] at hcut
    exact ⟨rest, by rw [upToClosing, hcut]⟩
  | cons c behind =>
    have hc := eq_false_of_head?_dropWhile (congrArg List.head? hbehind)
    obtain rfl : c = .ofChar ')' := by simpa using hc
    have hparen : CodePoint.utf8 (.ofChar ')') = [0x29] := by decide
    rw [hbehind] at hcut
    refine ⟨Text.utf8 behind ++ 0x29 :: rest, ?_⟩
    rw [← hcut, Text.utf8_append, Text.utf8_cons, hparen, upToClosing, hcut]
    simp

theorem declared?_ownCall (hname : IsLabel name.utf8) (parameters : Text) : ∃ d,
    declared? (ownCall name parameters).utf8 name.utf8 = some d ∧
      d.parameters = (upToClosing parameters).utf8 := by
  have hhead : IsHead name.utf8 (functionWord ++ ([0x20] ++ (Text.utf8 name ++ []))) :=
    .intro (.plain (by decide) (by decide)) hname
      fun b hb => absurd hb List.not_mem_nil
  obtain ⟨behind, hbehind⟩ := exists_utf8_upToClosing parameters
    ([0x20, 0x7B, 0x7D, 0x0A] ++ (Text.utf8 name ++ [0x28]))
  obtain ⟨type, tail, after, rfl, hd⟩ :=
    exists_isDeclaration hhead (not_mem_utf8_upToClosing parameters) behind
  have hat := hd.declaredAt (ascii "<?php\n") (by decide)
  have hdata := utf8_ownCall name parameters
  rw [hbehind] at hdata
  simp only [List.append_assoc, List.cons_append] at hat hdata
  rw [← hdata] at hat
  -- Nothing is declared before, as the opening tag has no letter that a declaration begins with.
  have hfirst : ∀ d s e, 0 ≤ s → s < 6 → ¬DeclaredAt (ownCall name parameters).utf8 d s e := by
    intro d s e _ hs hd
    have hstart := hd.getElem?_start
    rw [hdata, List.getElem?_append_left hs] at hstart
    exact absurd hstart ((by decide : ∀ s < 6, (ascii "<?php\n")[s]? ≠ some 0x66) s hs)
  obtain ⟨rest, hrest⟩ := (found_declarations_iff.mpr rfl).exists_eq_cons
    (fun hd hd' => hd.unique hd') (Nat.zero_le 6) hat hfirst
  have hnone : ∀ e ∈ ([] : List Declaration), foldCase e.name ≠ foldCase name.utf8 :=
    fun _ he => absurd he List.not_mem_nil
  exact ⟨_, declared?_eq_some_iff.mpr ⟨rfl, [], rest, hrest, hnone⟩, rfl⟩

theorem exists_calls_ownCall (hname : IsLabel name.utf8) (parameters : Text) : ∃ paren,
    Calls (ownCall name parameters).utf8 (ownCall name parameters).utf8.length ⟨paren, 0⟩
      name.utf8 := by
  have hcut : (ownCall name parameters).utf8 = (ascii "<?php\n" ++ (functionWord ++ 0x20 ::
      (name.utf8 ++ 0x28 :: (parameters.utf8 ++ [0x29, 0x20, 0x7B]))) ++
        0x7D :: 0x0A :: name.utf8) ++ [0x28] := by
    rw [utf8_ownCall]
    simp
  rw [hcut]
  exact ⟨_, calls_of_line hname rfl⟩

theorem splitParameters_upToClosing_eq_iff (parameters : Text) :
    splitParameters (Utf8.decodeLossy (upToClosing parameters).utf8) = splitParameters parameters ↔
      ∀ c ∈ parameters, c ≠ .ofChar ')' ∧ c.isSurrogate = false := by
  constructor
  · intro h
    -- What no piece can show is not there, unless it is a comma or blank.
    have hshown {c : CodePoint} (hc : c ∈ parameters) (hcomma : c ≠ .ofChar ',')
        (hblank : Blank.isBlank c = false) :
        c.isSurrogate = false ∧ (c ∈ upToClosing parameters ∨ c = .ofChar '\uFFFD') := by
      obtain ⟨p, hp, hmem⟩ := exists_mem_splitParameters hc hcomma hblank
      rw [← h] at hp
      exact Utf8.mem_decodeLossy_utf8 (mem_of_mem_splitParameters hp hmem)
    intro c hc
    constructor
    · rintro rfl
      obtain ⟨-, hmem | hnew⟩ := hshown hc (by decide) (by decide)
      · simpa using List.mem_takeWhile_imp hmem
      · exact absurd hnew (by decide)
    · by_contra hsurrogate
      rw [Bool.not_eq_false] at hsurrogate
      have hcomma : c ≠ .ofChar ',' := by
        rintro rfl
        exact absurd hsurrogate (by decide)
      have hkept := (hshown hc hcomma (Blank.not_isBlank_of_isSurrogate hsurrogate)).1
      rw [hsurrogate] at hkept
      cases hkept
  · intro h
    have hall : upToClosing parameters = parameters :=
      List.takeWhile_eq_self_iff.mpr fun c hc => decide_eq_true (h c hc).1
    rw [hall, Utf8.decodeLossy_utf8_of_not_isSurrogate fun c hc => (h c hc).2]

/-- Help for a call of a function declared right before has the parameters up to the first closing
parenthesis. These are all of them just if none closes among them, and no surrogate is alone. -/
theorem signatureHelp_ownCall (name parameters : Text) (hname : IsLabel name.utf8) :
    ∃ label shown,
      signatureHelp (ownCall name parameters).utf8 (ownCall name parameters).utf8.length =
        some ⟨[⟨label, some shown⟩], some 0, if shown = [] then none else some 0⟩ ∧
      shown = splitParameters (Utf8.decodeLossy (upToClosing parameters).utf8) ∧
      (shown = splitParameters parameters ↔
        ∀ c ∈ parameters, c ≠ .ofChar ')' ∧ c.isSurrogate = false) := by
  obtain ⟨paren, hcalls⟩ := exists_calls_ownCall hname parameters
  obtain ⟨d, hd, hparameters⟩ := declared?_ownCall hname parameters
  have hshown : d.parameterNames =
      splitParameters (Utf8.decodeLossy (upToClosing parameters).utf8) := by
    rw [Declaration.parameterNames, hparameters]
  refine ⟨d.signature.label, d.parameterNames, ?_, hshown, ?_⟩
  · rw [signatureHelp_of_calls hcalls, hd, Option.map_some, activeParameter_eq, Nat.zero_min]
    rfl
  · rw [hshown]
    exact splitParameters_upToClosing_eq_iff parameters

theorem signatureHelp_ownCall_twoParameters :
    ∃ label, signatureHelp (ownCall "f" "$a, $b = [1, 2]").utf8
      (ownCall "f" "$a, $b = [1, 2]").utf8.length =
        some ⟨[⟨label, some ["$a", "$b = [1, 2]"]⟩], some 0, some 0⟩ := by
  have hname : IsLabel (Text.utf8 (Text.ofString "f")) := by decide
  obtain ⟨label, shown, hhelp, -, hall⟩ := signatureHelp_ownCall "f" "$a, $b = [1, 2]" hname
  have hshown : shown = ["$a", "$b = [1, 2]"] := (hall.mpr (by decide)).trans (by decide)
  rw [hshown] at hhelp
  exact ⟨label, hhelp⟩

/-- A text in which every bracket that opens is closed again, by one of its own kind. -/
inductive Balanced : Text → Prop
  | nil : Balanced []
  | plain {c : CodePoint} {t : Text} : isOpening c = false → isClosing c = false → Balanced t →
    Balanced (c :: t)
  | bracketed {opening closing : CodePoint} {s t : Text} :
    (opening, closing) ∈ [(.ofChar '(', .ofChar ')'), (.ofChar '[', .ofChar ']'),
      (CodePoint.ofChar '\x7b', CodePoint.ofChar '\x7d')] →
    Balanced s → Balanced t → Balanced (opening :: (s ++ closing :: t))

theorem Balanced.append {s t : Text} (hs : Balanced s) (ht : Balanced t) : Balanced (s ++ t) := by
  induction hs with
  | nil => exact ht
  | plain hopening hclosing _ ih => exact .plain hopening hclosing ih
  | bracketed hkind hs _ _ ih =>
    rw [List.cons_append, List.append_assoc, List.cons_append]
    exact .bracketed hkind hs ih

theorem balanced_of_plain {t : Text} (h : ∀ c ∈ t, isOpening c = false ∧ isClosing c = false) :
    Balanced t := by
  induction t with
  | nil => exact .nil
  | cons c t ih =>
    obtain ⟨hc, ht⟩ := List.forall_mem_cons.mp h
    exact .plain hc.1 hc.2 (ih ht)

/-- A default value with a call in it hides the rest of the parameters, and its own end. There is
no quote in the list, and nothing that a comment could begin with. -/
theorem signatureHelp_ownCall_cuts_default : IsLabel (Text.utf8 (Text.ofString "f")) ∧
    Balanced (Text.ofString "$a = g(1), $b") ∧
    (∀ c ∈ Text.ofString "$a = g(1), $b", c.val ∉ [0x22, 0x27, 0x60, 0x23, 0x2F]) ∧
    signatureHelp (ownCall "f" "$a = g(1), $b").utf8 (ownCall "f" "$a = g(1), $b").utf8.length =
      some ⟨[⟨"f($a = g(1)", some ["$a = g(1"]⟩], some 0, some 0⟩ ∧
    splitParameters "$a = g(1), $b" = ["$a = g(1)", "$b"] := by
  have hlist : Text.ofString "$a = g(1), $b" = Text.ofString "$a = g" ++
      (.ofChar '(' :: (Text.ofString "1" ++ .ofChar ')' :: Text.ofString ", $b")) := by decide
  refine ⟨by decide, ?_, by decide, by decide, by decide⟩
  rw [hlist]
  exact (balanced_of_plain (by decide)).append
    (.bracketed (by simp) (balanced_of_plain (by decide)) (balanced_of_plain (by decide)))

end CompletionServer.Php
