import CompletionServer.Php.Declaration
import CompletionServer.Proofs.Php.Word
import CompletionServer.Proofs.Text.Search

namespace CompletionServer.Php

def AllSpace (bytes : List UInt8) : Prop := ∀ b ∈ bytes, isSpace b = true

instance (bytes : List UInt8) : Decidable (AllSpace bytes) :=
  decidable_of_iff (bytes.all isSpace = true) List.all_eq_true

/-- What stands between `function` and a name: white space, and perhaps an ampersand in it. -/
inductive IsGap : List UInt8 → Prop
  | plain {s : List UInt8} : s ≠ [] → AllSpace s → IsGap s
  | ampersand {s t : List UInt8} : s ≠ [] → AllSpace s → AllSpace t → IsGap (s ++ 0x26 :: t)

/-- The word `function`, a name, and white space after it. -/
inductive IsHead (name : List UInt8) : List UInt8 → Prop
  | intro {gap after : List UInt8} : IsGap gap → IsLabel name → AllSpace after →
    IsHead name (functionWord ++ (gap ++ (name ++ after)))

/-- The bytes end in the head of a declaration, with no letter right before it. -/
def EndsInHead (bytes : List UInt8) : Prop :=
  ∃ front head name : List UInt8, bytes = front ++ head ∧ atBoundary front.getLast? = true ∧
    IsHead name head

/-- A colon and a type, with white space before each. -/
inductive IsReturnType (text : List UInt8) : List UInt8 → Prop
  | intro {s t : List UInt8} : AllSpace s → AllSpace t → text ≠ [] →
    (∀ b ∈ text, isTypeByte b = true) → IsReturnType text (s ++ 0x3A :: (t ++ text))

/-- The return type that a declaration has in front of other bytes: as long as it goes, and none if
those bytes do not begin with one. -/
inductive IsReturnPart (after : List UInt8) : Option (List UInt8) → List UInt8 → Prop
  | typed {text tail : List UInt8} : IsReturnType text tail →
    (∀ b, after.head? = some b → isTypeByte b = false) → IsReturnPart after (some text) tail
  | untyped : (∀ text tail, tail <+: after → ¬IsReturnType text tail) → IsReturnPart after none []

/-- The bytes are a declaration in front of other bytes. Its parameter list goes up to the first
closing parenthesis. -/
inductive IsDeclaration (after : List UInt8) : Declaration → List UInt8 → Prop
  | intro {name head parameters tail : List UInt8} {type : Option (List UInt8)} :
    IsHead name head → 0x29 ∉ parameters → IsReturnPart after type tail →
    IsDeclaration after ⟨head.length, name, parameters, type⟩
      (head ++ 0x28 :: (parameters ++ 0x29 :: tail))

section Bytes

variable {b : UInt8}

theorem not_isLabelByte_of_isSpace (h : isSpace b = true) : isLabelByte b = false := by
  simp only [isSpace, Bool.or_eq_true, Bool.and_eq_true, decide_eq_true_eq, beq_iff_eq,
    UInt8.le_iff_toNat_le, ← UInt8.toNat_inj] at h
  simp only [isLabelByte, isLabelStart, isDigit, Bool.or_eq_false_iff, Bool.and_eq_false_iff,
    decide_eq_false_iff_not, beq_eq_false_iff_ne, ne_eq, UInt8.le_iff_toNat_le,
    ← UInt8.toNat_inj]
  simp at h ⊢
  omega

theorem not_isSpace_of_isLabelByte (h : isLabelByte b = true) : isSpace b = false := by
  by_contra hs
  rw [not_isLabelByte_of_isSpace (eq_true_of_ne_false hs)] at h
  cases h

theorem not_isSpace_of_isTypeByte (h : isTypeByte b = true) : isSpace b = false := by
  simp only [isTypeByte, isWordByte, Bool.or_eq_true, Bool.and_eq_true, beq_iff_eq] at h
  obtain (((⟨h, -⟩ | rfl) | rfl) | rfl) | rfl := h
  · exact not_isSpace_of_isLabelByte h
  all_goals decide

theorem ne_of_isLabelByte {c : UInt8} (hc : isLabelByte c = false) (h : isLabelByte b = true) :
    b ≠ c := by
  rintro rfl
  rw [hc] at h
  cases h

end Bytes

section Spaces

variable {s rest bytes gap : List UInt8}

theorem allSpace_takeWhile (bytes : List UInt8) : AllSpace (bytes.takeWhile isSpace) :=
  fun _ hb => List.mem_takeWhile_imp hb

theorem spaces_append (hs : AllSpace s) (hrest : ∀ b, rest.head? = some b → isSpace b = false) :
    spaces (s ++ rest) = s.length := by
  rw [spaces, takeWhile_append_stop hs hrest]

theorem eq_append_drop_spaces (bytes : List UInt8) :
    bytes = bytes.takeWhile isSpace ++ bytes.drop (spaces bytes) :=
  (takeWhile_append_drop isSpace bytes).symm

theorem gap?_append (hg : IsGap gap) (hrest : rest.head?.any isLabelStart = true) :
    gap? (gap ++ rest) = some gap.length := by
  obtain ⟨b, rest, rfl⟩ : ∃ b r, rest = b :: r := by
    cases rest with
    | nil => exact absurd hrest Bool.false_ne_true
    | cons b r => exact ⟨b, r, rfl⟩
  have hb := isLabelByte_of_isLabelStart hrest
  have hstop : ∀ c, (b :: rest).head? = some c → isSpace c = false := by
    rintro c hc
    obtain rfl := Option.some.inj hc
    exact not_isSpace_of_isLabelByte hb
  have hamp := ne_of_isLabelByte (c := 0x26) (by decide) hb
  cases hg with
  | plain hne hs =>
    rw [gap?, spaces_append hs hstop, List.drop_left]
    simp [hne, hamp]
  | @ampersand s t hne hs ht =>
    have hfirst : spaces (s ++ 0x26 :: t ++ b :: rest) = s.length := by
      rw [List.append_assoc]
      refine spaces_append hs fun c hc => ?_
      obtain rfl : 0x26 = c := by simpa using hc
      decide
    rw [gap?, hfirst, List.append_assoc, List.drop_left]
    simp only [List.length_eq_zero_iff, hne, if_false, List.cons_append, spaces_append ht hstop,
      List.length_append, List.length_cons]
    congr 1
    omega

theorem exists_gap_of_gap? {n : Nat} (h : gap? bytes = some n) :
    ∃ gap, IsGap gap ∧ gap.length = n ∧ bytes = gap ++ bytes.drop n := by
  have hcut := eq_append_drop_spaces bytes
  have hs := allSpace_takeWhile bytes
  rw [gap?] at h
  split at h
  · cases h
  · rename_i hne
    have hnil : bytes.takeWhile isSpace ≠ [] := fun h0 => hne (by rw [spaces, h0]; rfl)
    split at h
    · rename_i rest hrest
      obtain rfl := Option.some.inj h
      refine ⟨_, .ampersand hnil hs (allSpace_takeWhile rest), ?_, ?_⟩
      · rw [List.length_append, List.length_cons, ← spaces, ← spaces]
        omega
      · have hdrop : bytes.drop (spaces bytes + 1 + spaces rest) = rest.drop (spaces rest) := by
          rw [← List.drop_drop, ← List.drop_drop, hrest, List.drop_one, List.tail_cons]
        rw [hdrop, List.append_assoc, List.cons_append, ← eq_append_drop_spaces, ← hrest]
        exact hcut
    · obtain rfl := Option.some.inj h
      exact ⟨_, .plain hnil hs, rfl, hcut⟩

end Spaces

section Head

variable {name head rest bytes : List UInt8}

theorem head?_append (h : IsHead name head)
    (hrest : ∀ b, rest.head? = some b → isSpace b = false ∧ isLabelByte b = false) :
    head? (head ++ rest) = some ⟨name, head.length, rest⟩ := by
  obtain @⟨gap, after, hgap, hname, hafter⟩ := h
  have hbegins : (name ++ (after ++ rest)).head?.any isLabelStart = true := by
    obtain ⟨b, r, rfl, hb⟩ := hname.exists_cons
    exact hb
  have hstop : ∀ b, (after ++ rest).head? = some b → isLabelByte b = false := by
    intro b hb
    cases after with
    | nil => exact (hrest b hb).2
    | cons c after =>
      obtain rfl := Option.some.inj hb
      exact not_isLabelByte_of_isSpace (hafter c List.mem_cons_self)
  have hprefix :
      functionWord.isPrefixOf (functionWord ++ (gap ++ (name ++ (after ++ rest)))) = true :=
    List.isPrefixOf_iff_prefix.mpr (List.prefix_append _ _)
  have hnamed : (functionWord ++ (gap ++ (name ++ (after ++ rest)))).drop
      (functionWord.length + gap.length) = name ++ (after ++ rest) := by
    rw [← List.drop_drop, List.drop_left, List.drop_left]
  simp only [List.append_assoc, head?, hprefix, if_true, List.drop_left, gap?_append hgap hbegins,
    hnamed, hbegins, takeWhile_append_stop hname.isLabelByte_of_mem hstop,
    spaces_append hafter fun b hb => (hrest b hb).1, List.length_append, Nat.add_assoc]

theorem exists_isHead_of_head? {h : Head} (hh : head? bytes = some h) :
    ∃ head, IsHead h.name head ∧ head.length = h.length ∧ bytes = head ++ h.rest := by
  rw [head?] at hh
  split at hh
  case isFalse => cases hh
  case isTrue hprefix =>
    obtain ⟨behind, rfl⟩ := List.isPrefixOf_iff_prefix.mp hprefix
    rw [List.drop_left] at hh
    split at hh
    · cases hh
    · rename_i n hn
      obtain ⟨gap, hgap, rfl, hbehind⟩ := exists_gap_of_gap? hn
      rw [← List.drop_drop, List.drop_left] at hh
      dsimp only at hh
      split at hh
      case isFalse => cases hh
      case isTrue hbegins =>
        obtain rfl := Option.some.inj hh
        have hname := isLabel_takeWhile hbegins
        -- The name, then the white space after it, then the rest.
        generalize behind.drop gap.length = named at hbehind hname ⊢
        have hcut : named = named.takeWhile isLabelByte ++
            named.drop (named.takeWhile isLabelByte).length :=
          (takeWhile_append_drop isLabelByte named).symm
        generalize named.takeWhile isLabelByte = name at hcut hname ⊢
        refine ⟨_, .intro hgap hname (allSpace_takeWhile (named.drop name.length)), ?_, ?_⟩
        · simp only [List.length_append, spaces, Nat.add_assoc]
        · simp only [List.append_assoc, ← eq_append_drop_spaces, ← hcut, ← hbehind]

theorem IsGap.mem_cases {gap : List UInt8} (h : IsGap gap) {b : UInt8} (hb : b ∈ gap) :
    isSpace b = true ∨ b = 0x26 := by
  cases h with
  | plain _ hs => exact .inl (hs b hb)
  | ampersand _ hs ht =>
    obtain hb | hb := List.mem_append.mp hb
    · exact .inl (hs b hb)
    · obtain rfl | hb := List.mem_cons.mp hb
      · exact .inr rfl
      · exact .inl (ht b hb)

theorem IsGap.not_isLabelByte {gap : List UInt8} (h : IsGap gap) {b : UInt8} (hb : b ∈ gap) :
    isLabelByte b = false := by
  obtain hs | rfl := h.mem_cases hb
  · exact not_isLabelByte_of_isSpace hs
  · decide

/-- Besides letters, digits and the like a head has white space and ampersands only. -/
theorem IsHead.mem_cases (h : IsHead name head) {b : UInt8} (hb : b ∈ head) :
    isLabelByte b = true ∨ isSpace b = true ∨ b = 0x26 := by
  obtain @⟨gap, after, hgap, hname, hafter⟩ := h
  simp only [List.mem_append] at hb
  obtain hb | hb | hb | hb := hb
  · exact .inl ((by decide : IsLabel functionWord).isLabelByte_of_mem b hb)
  · exact .inr (hgap.mem_cases hb)
  · exact .inl (hname.isLabelByte_of_mem b hb)
  · exact .inr (.inl (hafter b hb))

theorem IsHead.head?_eq (h : IsHead name head) : head.head? = some 0x66 := by
  cases h
  rfl

theorem IsGap.exists_isSpace {gap : List UInt8} (h : IsGap gap) : ∃ b ∈ gap, isSpace b = true := by
  cases h with
  | plain hne hs =>
    obtain ⟨b, hb⟩ := List.exists_mem_of_ne_nil _ hne
    exact ⟨b, hb, hs b hb⟩
  | ampersand hne hs _ =>
    obtain ⟨b, hb⟩ := List.exists_mem_of_ne_nil _ hne
    exact ⟨b, List.mem_append_left _ hb, hs b hb⟩

theorem IsHead.exists_isSpace (h : IsHead name head) : ∃ b ∈ head, isSpace b = true := by
  obtain @⟨gap, after, hgap, -, -⟩ := h
  obtain ⟨b, hb, hspace⟩ := hgap.exists_isSpace
  exact ⟨b, List.mem_append_right _ (List.mem_append_left _ hb), hspace⟩

end Head

section ReturnType

variable {text tail after bytes : List UInt8}

theorem returnType?_append (h : IsReturnType text tail)
    (hafter : ∀ b, after.head? = some b → isTypeByte b = false) :
    returnType? (tail ++ after) = some ⟨text, tail.length⟩ := by
  obtain @⟨s, t, hs, ht, hne, htext⟩ := h
  have hcolon : ∀ b, (0x3A :: (t ++ (text ++ after))).head? = some b → isSpace b = false := by
    intro b hb
    obtain rfl := Option.some.inj hb
    decide
  have hstop : ∀ b, (text ++ after).head? = some b → isSpace b = false := by
    intro b hb
    cases text with
    | nil => exact absurd rfl hne
    | cons c text =>
      obtain rfl := Option.some.inj hb
      exact not_isSpace_of_isTypeByte (htext c List.mem_cons_self)
  simp only [List.append_assoc, List.cons_append, returnType?, spaces_append hs hcolon,
    List.drop_left, spaces_append ht hstop, takeWhile_append_stop htext hafter,
    List.isEmpty_eq_false_iff.mpr hne, Bool.false_eq_true, if_false, List.length_append,
    List.length_cons]
  congr 2
  omega

theorem exists_isReturnType_of_returnType? {r : ReturnType} (h : returnType? bytes = some r) :
    ∃ tail after, IsReturnType r.text tail ∧ tail.length = r.length ∧ bytes = tail ++ after ∧
      ∀ b, after.head? = some b → isTypeByte b = false := by
  have hcut := eq_append_drop_spaces bytes
  have hs := allSpace_takeWhile bytes
  simp only [returnType?] at h
  split at h
  · rename_i behind hbehind
    have hinner := eq_append_drop_spaces behind
    split at h
    · cases h
    · rename_i hne
      obtain rfl := Option.some.inj h
      generalize behind.drop (spaces behind) = typed at hinner hne ⊢
      have htyped := takeWhile_append_drop isTypeByte typed
      refine ⟨_, typed.drop (typed.takeWhile isTypeByte).length,
        .intro hs (allSpace_takeWhile behind) (by simpa using hne)
          fun b hb => List.mem_takeWhile_imp hb, ?_, ?_,
        fun b hb => eq_false_of_head?_drop_takeWhile hb⟩
      · simp only [List.length_append, List.length_cons, spaces]
        omega
      · simp only [List.append_assoc, List.cons_append, htyped, ← hinner, ← hbehind]
        exact hcut
  · cases h

/-- A type that can be read at all can be read as far as it goes. -/
theorem returnType?_eq_none_iff :
    returnType? bytes = none ↔ ∀ text tail, tail <+: bytes → ¬IsReturnType text tail := by
  constructor
  · rintro h text tail ⟨after, rfl⟩ @⟨s, t, hs, ht, hne, htext⟩
    have hafter := takeWhile_append_drop isTypeByte after
    have hlonger : IsReturnType (text ++ after.takeWhile isTypeByte)
        (s ++ 0x3A :: (t ++ (text ++ after.takeWhile isTypeByte))) := by
      refine .intro hs ht (List.append_ne_nil_of_left_ne_nil hne _) fun b hb => ?_
      obtain hb | hb := List.mem_append.mp hb
      · exact htext b hb
      · exact List.mem_takeWhile_imp hb
    have hend : ∀ b, (after.drop (after.takeWhile isTypeByte).length).head? = some b →
        isTypeByte b = false := fun b hb => eq_false_of_head?_drop_takeWhile hb
    have hread := returnType?_append hlonger hend
    simp only [List.append_assoc, List.cons_append, hafter] at hread h
    rw [hread] at h
    cases h
  · intro h
    cases hr : returnType? bytes with
    | none => rfl
    | some r =>
      obtain ⟨tail, after, htype, -, rfl, -⟩ := exists_isReturnType_of_returnType? hr
      exact absurd htype (h _ _ (List.prefix_append _ _))

end ReturnType

section Declaration

variable {d : Declaration} {bytes after : List UInt8}

theorem declaration?_append (h : IsDeclaration after d bytes) :
    declaration? (bytes ++ after) = some (d, bytes.length) := by
  obtain @⟨name, head, parameters, tail, type, hhead, hparameters, htype⟩ := h
  have hparen : ∀ b, (0x28 :: (parameters ++ 0x29 :: (tail ++ after))).head? = some b →
      isSpace b = false ∧ isLabelByte b = false := by
    intro b hb
    obtain rfl := Option.some.inj hb
    decide
  have hinside : ∀ b ∈ parameters, decide (b ≠ 0x29) = true := by
    intro b hb
    rw [decide_eq_true_iff]
    rintro rfl
    exact hparameters hb
  have hclose : ∀ b, (0x29 :: (tail ++ after)).head? = some b → decide (b ≠ 0x29) = false := by
    intro b hb
    obtain rfl := Option.some.inj hb
    decide
  simp only [List.append_assoc, List.cons_append, declaration?, head?_append hhead hparen,
    takeWhile_append_stop hinside hclose, List.drop_left, List.length_append, List.length_cons]
  -- What follows decides whether there is a return type, so both kinds are read back apart.
  cases htype with
  | typed htype hafter =>
    rw [returnType?_append htype hafter]
    dsimp only
    congr 2
    omega
  | untyped hnone =>
    rw [List.nil_append, returnType?_eq_none_iff.mpr hnone]
    dsimp only
    congr 2

theorem exists_isDeclaration {name head parameters : List UInt8} (hhead : IsHead name head)
    (hparameters : 0x29 ∉ parameters) (behind : List UInt8) : ∃ type tail after,
      behind = tail ++ after ∧ IsDeclaration after ⟨head.length, name, parameters, type⟩
        (head ++ 0x28 :: (parameters ++ 0x29 :: tail)) := by
  cases hread : returnType? behind with
  | none =>
    exact ⟨none, [], behind, rfl,
      .intro hhead hparameters (.untyped (returnType?_eq_none_iff.mp hread))⟩
  | some type =>
    obtain ⟨tail, after, htype, -, hcut, hafter⟩ := exists_isReturnType_of_returnType? hread
    exact ⟨some type.text, tail, after, hcut, .intro hhead hparameters (.typed htype hafter)⟩

theorem exists_list_of_declaration? {length : Nat} (h : declaration? bytes = some (d, length)) :
    ∃ name head parameters behind : List UInt8, IsHead name head ∧ 0x29 ∉ parameters ∧
      bytes = head ++ 0x28 :: (parameters ++ 0x29 :: behind) := by
  rw [declaration?] at h
  split at h
  · cases h
  · rename_i head hhead
    obtain ⟨front, hfront, -, rfl⟩ := exists_isHead_of_head? hhead
    split at h
    · rename_i inside hinside
      have hcut := takeWhile_append_drop (· ≠ 0x29) inside
      have hparameters : 0x29 ∉ inside.takeWhile (· ≠ 0x29) := by
        intro hmem
        simpa using List.mem_takeWhile_imp hmem
      dsimp only at h
      split at h
      · rename_i b behind hbehind
        obtain rfl : b = 0x29 := by
          have hb := eq_false_of_head?_drop_takeWhile (congrArg List.head? hbehind)
          simpa using hb
        rw [hbehind] at hcut
        exact ⟨head.name, front, _, behind, hfront, hparameters, by rw [hinside, hcut]⟩
      · cases h
    · cases h

theorem exists_isDeclaration_of_declaration? {length : Nat}
    (h : declaration? bytes = some (d, length)) :
    ∃ decl after, IsDeclaration after d decl ∧ decl.length = length ∧ bytes = decl ++ after := by
  obtain ⟨name, head, parameters, behind, hhead, hparameters, rfl⟩ := exists_list_of_declaration? h
  obtain ⟨type, tail, after, rfl, hd⟩ := exists_isDeclaration hhead hparameters behind
  have hcut : head ++ 0x28 :: (parameters ++ 0x29 :: (tail ++ after)) =
      head ++ 0x28 :: (parameters ++ 0x29 :: tail) ++ after := by simp
  -- The reader accepts this declaration, so it is the one that it has read.
  rw [hcut, declaration?_append hd] at h
  obtain ⟨rfl, rfl⟩ := Prod.mk.inj (Option.some.inj h)
  exact ⟨_, after, hd, rfl, hcut⟩

theorem declaration?_eq_some_iff {length : Nat} : declaration? bytes = some (d, length) ↔
    ∃ decl after, IsDeclaration after d decl ∧ decl.length = length ∧ bytes = decl ++ after := by
  constructor
  · exact exists_isDeclaration_of_declaration?
  · rintro ⟨decl, after, hd, rfl, rfl⟩
    exact declaration?_append hd

theorem IsDeclaration.length_pos (h : IsDeclaration after d bytes) : 0 < bytes.length := by
  cases h
  rw [List.length_append, List.length_cons]
  omega

def Declaration.shift (d : Declaration) (start : Nat) : Declaration :=
  { d with paren := start + d.paren }

/-- A declaration takes up the bytes of a document between two offsets. -/
def DeclaredAt (data : List UInt8) (d : Declaration) (start stop : Nat) : Prop :=
  atBoundary (data.take start).getLast? = true ∧ ∃ (e : Declaration) (decl after : List UInt8),
    data.drop start = decl ++ after ∧ IsDeclaration after e decl ∧ d = e.shift start ∧
      stop = start + decl.length

variable {data : List UInt8} {start stop : Nat}

theorem declaredAt_iff : DeclaredAt data d start stop ↔
    atBoundary (data.take start).getLast? = true ∧ ∃ e length,
      declaration? (data.drop start) = some (e, length) ∧ d = e.shift start ∧
        stop = start + length := by
  refine and_congr_right fun _ => ?_
  simp only [declaration?_eq_some_iff]
  constructor
  · rintro ⟨e, decl, after, hcut, he, hd, hstop⟩
    exact ⟨e, _, ⟨decl, after, he, rfl, hcut⟩, hd, hstop⟩
  · rintro ⟨e, _, ⟨decl, after, he, rfl, hcut⟩, hd, hstop⟩
    exact ⟨e, decl, after, hcut, he, hd, hstop⟩

theorem IsDeclaration.declaredAt (h : IsDeclaration after d bytes) (front : List UInt8)
    (hfront : atBoundary front.getLast? = true) :
    DeclaredAt (front ++ (bytes ++ after)) (d.shift front.length) front.length
      (front.length + bytes.length) := by
  refine ⟨?_, d, bytes, after, ?_, h, rfl, rfl⟩
  · rwa [List.take_left]
  · rw [List.drop_left]

/-- At most one declaration begins at an offset. -/
theorem DeclaredAt.unique {d' : Declaration} {stop' : Nat} (h : DeclaredAt data d start stop)
    (h' : DeclaredAt data d' start stop') : d = d' ∧ stop = stop' := by
  obtain ⟨-, e, length, he, rfl, rfl⟩ := declaredAt_iff.mp h
  obtain ⟨-, e', length', he', rfl, rfl⟩ := declaredAt_iff.mp h'
  obtain ⟨rfl, rfl⟩ := Prod.mk.inj (Option.some.inj (he.symm.trans he'))
  exact ⟨rfl, rfl⟩

theorem DeclaredAt.exists_head (h : DeclaredAt data d start stop) : ∃ head,
    IsHead d.name head ∧ data.take d.paren = data.take start ++ head ∧
      data[d.paren]? = some 0x28 := by
  obtain ⟨-, e, decl, after, hcut, he, rfl, -⟩ := h
  obtain @⟨name, head, parameters, tail, type, hhead, -, -⟩ := he
  refine ⟨head, hhead, ?_, ?_⟩
  · show data.take (start + head.length) = _
    rw [List.take_add, hcut, List.append_assoc, List.take_left]
  · show data[start + head.length]? = _
    rw [← List.getElem?_drop, hcut, List.append_assoc, List.getElem?_append_right (Nat.le_refl _),
      Nat.sub_self]
    rfl

theorem DeclaredAt.start_lt_stop (h : DeclaredAt data d start stop) : start < stop := by
  obtain ⟨-, e, decl, after, -, he, -, rfl⟩ := h
  have hpos := he.length_pos
  omega

theorem DeclaredAt.getElem?_start (h : DeclaredAt data d start stop) :
    data[start]? = some 0x66 := by
  obtain ⟨-, e, decl, after, hcut, he, -, -⟩ := h
  obtain ⟨hhead, -, -⟩ := he
  rw [← List.head?_drop, hcut, List.append_assoc, List.head?_append, hhead.head?_eq, Option.some_or]

theorem getLast?_take_succ {b : UInt8} {rest : List UInt8} (h : data.drop start = b :: rest) :
    (data.take (start + 1)).getLast? = some b := by
  rw [List.take_add, h, List.getLast?_append]
  rfl

/-- What is found behind an offset where the last declaration ended, when so many bytes of it are
still to be skipped. -/
theorem found_declarationsFrom {previous : Option UInt8} {skip : Nat}
    (h : data.drop start = bytes) (hprevious : (data.take start).getLast? = previous)
    (hstop : stop = start + skip) :
    Found (DeclaredAt data) stop (declarationsFrom previous start skip bytes) := by
  induction bytes generalizing start stop previous skip with
  | nil =>
    refine .nothing fun d s e hs hd => ?_
    obtain ⟨-, e, length, he, -⟩ := declaredAt_iff.mp hd
    have hlen := List.drop_eq_nil_iff.mp h
    rw [List.drop_eq_nil_iff.mpr (by omega)] at he
    cases he
  | cons b rest ih =>
    have hrest : data.drop (start + 1) = rest := by rw [← List.drop_drop, h]; rfl
    have hb := getLast?_take_succ h
    rw [declarationsFrom]
    split
    case isTrue hskip => exact ih hrest hb (by omega)
    -- The search has come to a byte that may begin a declaration.
    case isFalse hskip =>
      obtain rfl : stop = start := by omega
      split
      · rename_i d length hd
        obtain ⟨hboundary, hd⟩ := Option.ite_none_right_eq_some.mp hd
        have hat : DeclaredAt data (d.shift stop) stop (stop + length) :=
          declaredAt_iff.mpr ⟨by rwa [hprevious], d, length, by rwa [h], rfl, rfl⟩
        obtain ⟨decl, after, hdecl, rfl, -⟩ := exists_isDeclaration_of_declaration? hd
        have hpos := hdecl.length_pos
        exact .next (Nat.le_refl _) (fun _ s e hs hlt => absurd hs (Nat.not_le_of_lt hlt)) hat
          (ih hrest hb (by omega))
      · rename_i hnone
        refine (Found.iff_of_nothing_between (Nat.le_succ _) ?_).mpr (ih hrest hb rfl)
        intro d s e hs hlt hd
        obtain rfl : s = stop := by omega
        obtain ⟨hboundary, d', length, hd', -⟩ := declaredAt_iff.mp hd
        rw [hprevious] at hboundary
        rw [if_pos hboundary, ← h, hd'] at hnone
        cases hnone

/-- The declarations of a document are those that a search through it finds, and no others. -/
theorem found_declarations_iff {ds : List Declaration} :
    Found (DeclaredAt data) 0 ds ↔ ds = declarations data := by
  have hfound : Found (DeclaredAt data) 0 (declarations data) :=
    found_declarationsFrom rfl rfl rfl
  constructor
  · exact fun h => h.unique (fun hd hd' => hd.unique hd') hfound
  · rintro rfl
    exact hfound

end Declaration

section Endings

variable {bytes name : List UInt8}

theorem head?_any_isEmpty_iff :
    (head? bytes).any (·.rest.isEmpty) = true ↔ ∃ name, IsHead name bytes := by
  constructor
  · intro h
    obtain ⟨head, hhead, hrest⟩ := (Option.any_eq_true _ _).mp h
    obtain ⟨front, hfront, -, hcut⟩ := exists_isHead_of_head? hhead
    rw [List.isEmpty_iff.mp hrest, List.append_nil] at hcut
    exact ⟨head.name, hcut ▸ hfront⟩
  · rintro ⟨name, h⟩
    have hend : ∀ b, ([] : List UInt8).head? = some b →
        isSpace b = false ∧ isLabelByte b = false := by
      simp
    have hread := head?_append h hend
    rw [List.append_nil] at hread
    rw [hread]
    rfl

theorem getLast?_cons_or (b : UInt8) (front : List UInt8) (previous : Option UInt8) :
    (b :: front).getLast?.or previous = front.getLast?.or (some b) := by
  rw [List.getLast?_cons, Option.some_or]
  cases front.getLast? <;> rfl

theorem endsInHead_iff_of_previous (previous : Option UInt8) :
    endsInHead previous bytes = true ↔ ∃ front head name : List UInt8, bytes = front ++ head ∧
      atBoundary (front.getLast?.or previous) = true ∧ IsHead name head := by
  induction bytes generalizing previous with
  | nil =>
    refine iff_of_false Bool.false_ne_true ?_
    rintro ⟨front, head, name, h, -, @⟨gap, after, -, -, -⟩⟩
    simp [functionWord, ascii] at h
  | cons b rest ih =>
    rw [endsInHead, Bool.or_eq_true, ih, Bool.and_eq_true, head?_any_isEmpty_iff]
    constructor
    · rintro (⟨hboundary, name, hhead⟩ | ⟨front, head, name, rfl, hboundary, hhead⟩)
      · exact ⟨[], b :: rest, name, rfl, hboundary, hhead⟩
      · exact ⟨b :: front, head, name, rfl, by rwa [getLast?_cons_or], hhead⟩
    · rintro ⟨front, head, name, hcut, hboundary, hhead⟩
      cases front with
      | nil => exact .inl ⟨hboundary, name, hcut ▸ hhead⟩
      | cons c front =>
        obtain ⟨rfl, rfl⟩ := List.cons.inj hcut
        exact .inr ⟨front, head, name, rfl, by rwa [getLast?_cons_or] at hboundary, hhead⟩

theorem endsInHead_iff : endsInHead none bytes = true ↔ EndsInHead bytes := by
  rw [endsInHead_iff_of_previous]
  simp only [Option.or_none]
  rfl

end Endings

end CompletionServer.Php
