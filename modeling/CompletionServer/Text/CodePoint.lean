namespace CompletionServer

structure CodePoint where
  val : Nat
  val_lt : val < 0x110000
deriving DecidableEq

namespace CodePoint

def ofChar (c : Char) : CodePoint :=
  ⟨c.toNat, by
    have := c.valid
    simp only [UInt32.isValidChar, Nat.isValidChar] at this
    grind [Char.toNat]⟩

/-- Numbers beyond the last code point become the replacement character. -/
def ofNat (n : Nat) : CodePoint :=
  if h : n < 0x110000 then ⟨n, h⟩ else .ofChar '\uFFFD'

/-- Half of a surrogate pair, which standing alone is no character. -/
def isSurrogate (c : CodePoint) : Bool := 0xD800 ≤ c.val && c.val ≤ 0xDFFF

/-- The character itself, or U+FFFD for a lone surrogate. -/
def toChar (c : CodePoint) : Char :=
  if c.isSurrogate then '\uFFFD' else .ofNat c.val

def lineFeed : CodePoint := ⟨0x0A, by decide⟩

def carriageReturn : CodePoint := ⟨0x0D, by decide⟩

/-- Code points beyond the basic plane take a surrogate pair; a lone surrogate is one unit. -/
def utf16Width (c : CodePoint) : Nat :=
  if c.val < 0x10000 then 1 else 2

def utf8Width (c : CodePoint) : Nat :=
  if c.val < 0x80 then 1
  else if c.val < 0x800 then 2
  else if c.val < 0x10000 then 3
  else 4

/-- The UTF-8 scheme applied to every code point; a lone surrogate gets its three bytes. -/
def utf8 (c : CodePoint) : List UInt8 :=
  if c.val < 0x80 then [.ofNat c.val]
  else if c.val < 0x800 then [.ofNat (0xC0 + c.val / 64), .ofNat (0x80 + c.val % 64)]
  else if c.val < 0x10000 then
    [.ofNat (0xE0 + c.val / 4096), .ofNat (0x80 + c.val / 64 % 64), .ofNat (0x80 + c.val % 64)]
  else
    [.ofNat (0xF0 + c.val / 262144), .ofNat (0x80 + c.val / 4096 % 64),
      .ofNat (0x80 + c.val / 64 % 64), .ofNat (0x80 + c.val % 64)]

theorem utf16Width_pos (c : CodePoint) : 0 < c.utf16Width := by
  unfold utf16Width; split <;> decide

theorem utf8Width_pos (c : CodePoint) : 0 < c.utf8Width := by
  unfold utf8Width; repeat' split
  all_goals decide

@[simp] theorem length_utf8 (c : CodePoint) : c.utf8.length = c.utf8Width := by
  unfold utf8 utf8Width; repeat' split
  all_goals rfl

end CodePoint

abbrev Text := List CodePoint

namespace Text

def ofChars (cs : List Char) : Text := cs.map .ofChar

def ofString (s : String) : Text := ofChars s.toList

instance : Coe String Text := ⟨ofString⟩

def ofInt (n : Int) : Text := ofString (toString n)

def toChars (t : Text) : List Char := t.map CodePoint.toChar

def toLossyString (t : Text) : String := .ofList t.toChars

def join (separator : Text) : List Text → Text
  | [] => []
  | [t] => t
  | t :: rest => t ++ separator ++ join separator rest

def utf8 (t : Text) : List UInt8 :=
  t.flatMap CodePoint.utf8

def utf8Length : Text → Nat
  | [] => 0
  | c :: rest => c.utf8Width + utf8Length rest

def utf16Length : Text → Nat
  | [] => 0
  | c :: rest => c.utf16Width + utf16Length rest

/-- The longest leading part whose total width stays within the budget. -/
def takeWithin (width : CodePoint → Nat) : Nat → Text → Text
  | _, [] => []
  | budget, c :: rest =>
    if width c ≤ budget then c :: takeWithin width (budget - width c) rest else []

@[simp] theorem length_utf8 (t : Text) : (utf8 t).length = utf8Length t := by
  induction t with
  | nil => rfl
  | cons c rest ih => simp_all [utf8, utf8Length]

end Text

/-- The pieces between the occurrences of a mark, empty ones included. -/
def cutAt {α : Type u} [DecidableEq α] (mark : α) : List α → List (List α)
  | [] => [[]]
  | a :: rest =>
    if a = mark then [] :: cutAt mark rest
    else
      match cutAt mark rest with
      | [] => [[a]]
      | piece :: pieces => (a :: piece) :: pieces

namespace Blank

/-- White space of Unicode, and the four information separators. -/
def isBlank (c : CodePoint) : Bool :=
  let n := c.val
  (0x09 ≤ n && n ≤ 0x0D) || (0x1C ≤ n && n ≤ 0x20) || n == 0x85 || n == 0xA0 || n == 0x1680 ||
    (0x2000 ≤ n && n ≤ 0x200A) || n == 0x2028 || n == 0x2029 || n == 0x202F || n == 0x205F ||
    n == 0x3000

def strip (t : Text) : Text :=
  (((t.dropWhile isBlank).reverse).dropWhile isBlank).reverse

end Blank

end CompletionServer
