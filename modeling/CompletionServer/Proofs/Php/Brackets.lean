import CompletionServer.Php.Call
import Mathlib.Data.List.Induction

namespace CompletionServer.Php

/-- An open bracket, where it stands, and what has been read between it and the brackets inside. -/
structure Frame where
  opening : UInt8
  index : Nat
  commas : Nat
  semicolon : Bool

namespace Frame

def addCommas (n : Nat) (f : Frame) : Frame := { f with commas := f.commas + n }

def addSemicolon (f : Frame) : Frame := { f with semicolon := true }

/-- The stack after one more byte. A closing bracket takes the top frame away, of whatever kind. -/
def step (stack : List Frame) (index : Nat) (b : UInt8) : List Frame :=
  if isOpeningByte b then ⟨b, index, 0, false⟩ :: stack
  else if isClosingByte b then stack.tail
  else if b = 0x2C then stack.modifyHead (addCommas 1)
  else if b = 0x3B then stack.modifyHead addSemicolon
  else stack

def stackFrom (stack : List Frame) (index : Nat) : List UInt8 → List Frame
  | [] => stack
  | b :: rest => stackFrom (step stack index b) (index + 1) rest

/-- The brackets that the bytes leave open, the last one first. -/
def stack (data : List UInt8) : List Frame :=
  stackFrom [] 0 data

/-- The call that a stack stands for. Array literals without a semicolon are passed over. -/
def call? : List Frame → Option Call
  | [] => none
  | f :: below =>
    if f.opening = 0x5B ∧ f.semicolon = false then call? below
    else if f.opening = 0x28 ∧ f.semicolon = false then some ⟨f.index, f.commas⟩
    else none

theorem stackFrom_append (frames : List Frame) (index : Nat) (data more : List UInt8) :
    stackFrom frames index (data ++ more) =
      stackFrom (stackFrom frames index data) (index + data.length) more := by
  induction data generalizing frames index with
  | nil => rfl
  | cons b data ih => rw [List.cons_append, stackFrom, ih, stackFrom, List.length_cons,
      Nat.add_assoc, Nat.add_comm 1]

theorem stack_concat (data : List UInt8) (b : UInt8) :
    stack (data ++ [b]) = step (stack data) data.length b := by
  rw [stack, stackFrom_append, Nat.zero_add]
  rfl

theorem modifyHead_addCommas_zero (frames : List Frame) :
    frames.modifyHead (addCommas 0) = frames := by
  cases frames <;> rfl

theorem modifyHead_addCommas_addCommas (frames : List Frame) (m n : Nat) :
    (frames.modifyHead (addCommas m)).modifyHead (addCommas n) =
      frames.modifyHead (addCommas (n + m)) := by
  cases frames with
  | nil => rfl
  | cons f below => simp [addCommas, Nat.add_comm, Nat.add_left_comm]

theorem call?_addSemicolon (frames : List Frame) (n : Nat) :
    call? ((frames.modifyHead addSemicolon).modifyHead (addCommas n)) = none := by
  cases frames with
  | nil => rfl
  | cons f below => simp [call?, addCommas, addSemicolon]

theorem call?_cons_addCommas (b : UInt8) (index commas : Nat) (below : List Frame) :
    call? (addCommas commas ⟨b, index, 0, false⟩ :: below) =
      if b = 0x28 then some ⟨index, commas⟩ else if b = 0x5B then call? below else none := by
  by_cases hparen : b = 0x28
  · simp [call?, addCommas, hparen]
  · simp [call?, addCommas, hparen]

theorem not_isOpeningByte_of_isClosingByte {b : UInt8} (h : isClosingByte b = true) :
    isOpeningByte b = false := by
  simp only [isClosingByte, Bool.or_eq_true, beq_iff_eq] at h
  obtain (rfl | rfl) | rfl := h <;> decide

/-- The invariant of the walk: its counters are an account of the stack that the bytes still to be
walked over leave. -/
theorem walkBack_reverse (data : List UInt8) (depth commas : Nat) :
    walkBack depth commas data.reverse =
      call? (((stack data).drop depth).modifyHead (addCommas commas)) := by
  induction data using List.reverseRecOn generalizing depth commas with
  | nil => simp [walkBack, stack, stackFrom, call?]
  | append_singleton data b ih =>
    rw [List.reverse_append, List.reverse_singleton, List.singleton_append, walkBack, stack_concat,
      step, List.length_reverse]
    by_cases hclosing : isClosingByte b = true
    · rw [if_pos hclosing, if_pos hclosing, not_isOpeningByte_of_isClosingByte hclosing,
        if_neg Bool.false_ne_true, ih, ← List.drop_one, List.drop_drop, Nat.add_comm 1]
    rw [if_neg hclosing, if_neg hclosing]
    by_cases hopening : isOpeningByte b = true
    · rw [if_pos hopening, if_pos hopening]
      cases depth with
      | zero =>
        rw [if_neg (Nat.lt_irrefl 0), List.drop_zero, List.modifyHead_cons, call?_cons_addCommas,
          ih, List.drop_zero, modifyHead_addCommas_zero]
      | succ depth => rw [if_pos depth.succ_pos, ih, List.drop_succ_cons, Nat.succ_sub_one]
    rw [if_neg hopening, if_neg hopening]
    -- A comma or a semicolon goes to the top frame, which counts at depth zero only.
    by_cases hcomma : b = 0x2C
    · rw [if_pos hcomma]
      cases depth with
      | zero => rw [if_pos ⟨rfl, hcomma⟩, ih, List.drop_zero, List.drop_zero,
          modifyHead_addCommas_addCommas]
      | succ depth =>
        rw [if_neg (by simp), if_neg (by simp), ih, List.drop_modifyHead_of_pos depth.succ_pos]
    rw [if_neg (by simp [hcomma]), if_neg hcomma]
    by_cases hsemicolon : b = 0x3B
    · rw [if_pos hsemicolon]
      cases depth with
      | zero => rw [if_pos ⟨rfl, hsemicolon⟩, List.drop_zero, call?_addSemicolon]
      | succ depth => rw [if_neg (by simp), ih, List.drop_modifyHead_of_pos depth.succ_pos]
    · rw [if_neg (by simp [hsemicolon]), if_neg hsemicolon, ih]

end Frame

/-- The brackets that are open before the cursor tell the call around it. -/
theorem enclosingCall_eq_call?_stack (data : List UInt8) (offset : Nat) :
    enclosingCall data offset = Frame.call? (Frame.stack (data.take offset)) := by
  rw [enclosingCall, Frame.walkBack_reverse, List.drop_zero, Frame.modifyHead_addCommas_zero]

/-- In `f(g(],` the inner parenthesis is closed by a bracket of another kind. -/
example : enclosingCall [0x66, 0x28, 0x67, 0x28, 0x5D, 0x2C] 6 = some ⟨1, 1⟩ := by decide

end CompletionServer.Php
