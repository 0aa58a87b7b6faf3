import CompletionServer.Php.Signature
import CompletionServer.Proofs.Php.Callee

namespace CompletionServer.Php

/-- A function's name stands before the parenthesis around the cursor, and that parenthesis does
not open the parameter list of a declaration. -/
structure Calls (data : List UInt8) (offset : Int) (call : Call) (callee : List UInt8) :
    Prop where
  enclosingCall_eq : enclosingCall data (clampOffset data offset) = some call
  not_endsInHead : ¬EndsInHead (data.take call.paren)
  endsInCallee : EndsInCallee callee (data.take call.paren)

variable {data callee : List UInt8} {offset : Int} {call : Call} {d : Declaration}

theorem declared?_eq_some_iff : declared? data callee = some d ↔
    foldCase d.name = foldCase callee ∧ ∃ earlier later,
      declarations data = earlier ++ d :: later ∧
        ∀ e ∈ earlier, foldCase e.name ≠ foldCase callee := by
  rw [declared?, List.find?_eq_some_iff_append]
  simp

theorem exists_declared?_eq_some_iff : (∃ d, declared? data callee = some d) ↔
    ∃ d ∈ declarations data, foldCase d.name = foldCase callee := by
  rw [← Option.isSome_iff_exists, declared?, List.find?_isSome]
  simp

theorem signatureHelp_of_calls (h : Calls data offset call callee) :
    signatureHelp data offset = (declared? data callee).map fun d =>
      ⟨[d.signature], some 0, activeParameter call.commas d.parameterNames⟩ := by
  have hhead : endsInHead none (data.take call.paren) = false :=
    eq_false_of_ne_true fun h' => h.not_endsInHead (endsInHead_iff.mp h')
  simp only [signatureHelp, h.enclosingCall_eq, hhead, callee?_eq_some_iff.mpr h.endsInCallee,
    Option.bind_eq_bind, Option.bind_some, Bool.false_eq_true, if_false]
  cases declared? data callee <;> rfl

theorem activeParameter_eq (commas : Nat) (parameters : List Text) :
    activeParameter commas parameters =
      if parameters = [] then none else some (min commas (parameters.length - 1)) := by
  simp [activeParameter]

theorem DeclaredAt.endsInHead {start stop : Nat} (h : DeclaredAt data d start stop) :
    EndsInHead (data.take d.paren) := by
  obtain ⟨head, hhead, htake, -⟩ := h.exists_head
  exact ⟨data.take start, head, d.name, htake, h.1, hhead⟩

theorem signatureHelp_of_endsInHead
    (hcall : enclosingCall data (clampOffset data offset) = some call)
    (h : EndsInHead (data.take call.paren)) : signatureHelp data offset = none := by
  have hhead : endsInHead none (data.take call.paren) = true :=
    endsInHead_iff.mpr h
  simp only [signatureHelp, hcall, hhead, Option.bind_eq_bind, Option.bind_some, if_true]

/-- In the parameter list of a declaration itself there is no help, wherever in the document the
declaration stands. It is the head that keeps it away: the declared name stands before the
parenthesis like the name of a function that is called, and a declaration is found for it. -/
theorem signatureHelp_inside_declaration (data : List UInt8) :
    (∀ d start stop, DeclaredAt data d start stop → ∀ offset commas,
      enclosingCall data (clampOffset data offset) = some ⟨d.paren, commas⟩ →
        signatureHelp data offset = none) ∧
    (∀ ds, Found (DeclaredAt data) 0 ds ↔ ds = declarations data) ∧
    ∀ d ∈ declarations data, (∃ start stop, DeclaredAt data d start stop) ∧
      data[d.paren]? = some 0x28 ∧ EndsInCallee d.name (data.take d.paren) ∧
      ∃ e, declared? data d.name = some e := by
  refine ⟨?_, fun ds => found_declarations_iff, ?_⟩
  · intro d start stop hd offset commas hcall
    exact signatureHelp_of_endsInHead hcall hd.endsInHead
  · intro d hd
    obtain ⟨start, stop, -, hat⟩ := (found_declarations_iff.mpr rfl).exists_at
      DeclaredAt.start_lt_stop hd
    obtain ⟨head, hhead, htake, hparen⟩ := hat.exists_head
    refine ⟨⟨start, stop, hat⟩, hparen, ?_, exists_declared?_eq_some_iff.mpr ⟨d, hd, rfl⟩⟩
    rw [htake]
    exact hhead.endsInCallee _

def declaredTwice : List UInt8 := ascii "function f($a) {}\nfunction & F ($b, $c) {}"

/-- The cursor stands behind the comma of the second list; the first declaration is not shown. -/
theorem signatureHelp_inside_declaredTwice :
    enclosingCall declaredTwice (clampOffset declaredTwice 37) = some ⟨31, 1⟩ ∧
      declared? declaredTwice (ascii "F") = some ⟨10, ascii "f", ascii "$a", none⟩ ∧
      signatureHelp declaredTwice 37 = none := by
  have hcall : enclosingCall declaredTwice (clampOffset declaredTwice 37) = some ⟨31, 1⟩ := by
    decide
  have hd : ⟨31, ascii "F", ascii "$b, $c", none⟩ ∈ declarations declaredTwice := by decide
  obtain ⟨hnone, -, hdeclared⟩ := signatureHelp_inside_declaration declaredTwice
  obtain ⟨⟨start, stop, hat⟩, -⟩ := hdeclared _ hd
  exact ⟨hcall, by decide, hnone _ start stop hat 37 1 hcall⟩

end CompletionServer.Php
