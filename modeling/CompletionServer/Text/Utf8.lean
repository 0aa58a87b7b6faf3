import CompletionServer.Text.CodePoint

namespace CompletionServer.Digits

def hex? (c : Char) : Option Nat :=
  if '0' ≤ c ∧ c ≤ '9' then some (c.toNat - 0x30)
  else if 'a' ≤ c ∧ c ≤ 'f' then some (c.toNat - 0x61 + 10)
  else if 'A' ≤ c ∧ c ≤ 'F' then some (c.toNat - 0x41 + 10)
  else none

def value (ds : List Char) : Nat :=
  ds.foldl (fun n c => n * 10 + (c.toNat - 0x30)) 0

def hexValue? (ds : List Char) : Option Nat :=
  ds.foldlM (fun n c => (hex? c).map (n * 16 + ·)) 0

def padHex (width n : Nat) : List Char :=
  let digits := Nat.toDigits 16 n
  List.replicate (width - digits.length) '0' ++ digits

end CompletionServer.Digits

namespace CompletionServer.Utf8

/-- A sequence under way: the bits read so far, the bytes still due and the bounds on the next
one. -/
structure Pending where
  bits : Nat
  due : Nat
  low : UInt8
  high : UInt8

inductive Opening where
  | char (c : Char)
  | lead (p : Pending)
  | invalid

/-- What a byte at the start of a sequence announces. Overlong forms, surrogates and values beyond
U+10FFFF are kept out by the bounds on the second byte. -/
def classify (b : UInt8) : Opening :=
  if b < 0x80 then .char (.ofNat b.toNat)
  else if 0xC2 ≤ b ∧ b ≤ 0xDF then .lead ⟨b.toNat % 32, 1, 0x80, 0xBF⟩
  else if b = 0xE0 then .lead ⟨0, 2, 0xA0, 0xBF⟩
  else if b = 0xED then .lead ⟨13, 2, 0x80, 0x9F⟩
  else if 0xE1 ≤ b ∧ b ≤ 0xEF then .lead ⟨b.toNat % 16, 2, 0x80, 0xBF⟩
  else if b = 0xF0 then .lead ⟨0, 3, 0x90, 0xBF⟩
  else if 0xF1 ≤ b ∧ b ≤ 0xF3 then .lead ⟨b.toNat % 8, 3, 0x80, 0xBF⟩
  else if b = 0xF4 then .lead ⟨4, 3, 0x80, 0x8F⟩
  else .invalid

/-- The characters of a byte string, with `none` for each ill-formed stretch. -/
def decodeFrom : Option Pending → List UInt8 → List (Option Char)
  | none, [] => []
  | some _, [] => [none]
  | none, b :: rest =>
    match classify b with
    | .char c => some c :: decodeFrom none rest
    | .lead p => decodeFrom (some p) rest
    | .invalid => none :: decodeFrom none rest
  | some p, b :: rest =>
    if p.low ≤ b ∧ b ≤ p.high then
      let bits := p.bits * 64 + b.toNat % 64
      if p.due ≤ 1 then some (.ofNat bits) :: decodeFrom none rest
      else decodeFrom (some ⟨bits, p.due - 1, 0x80, 0xBF⟩) rest
    else
      match classify b with
      | .char c => none :: some c :: decodeFrom none rest
      | .lead q => none :: decodeFrom (some q) rest
      | .invalid => none :: none :: decodeFrom none rest

/-- Well-formed input only. -/
def decode? (bytes : List UInt8) : Option (List Char) :=
  (decodeFrom none bytes).mapM id

/-- Each ill-formed stretch becomes the replacement character. -/
def decodeLossy (bytes : List UInt8) : Text :=
  .ofChars ((decodeFrom none bytes).map (·.getD '\uFFFD'))

/-- As `classify`, but the three bytes of a lone surrogate are a sequence as well. -/
def classifyWide (b : UInt8) : Opening :=
  if b = 0xED then .lead ⟨13, 2, 0x80, 0xBF⟩ else classify b

def decodeWideFrom : Option Pending → List UInt8 → Option Text
  | none, [] => some []
  | some _, [] => none
  | none, b :: rest =>
    match classifyWide b with
    | .char c => (decodeWideFrom none rest).map (.ofChar c :: ·)
    | .lead p => decodeWideFrom (some p) rest
    | .invalid => none
  | some p, b :: rest =>
    if p.low ≤ b ∧ b ≤ p.high then
      let bits := p.bits * 64 + b.toNat % 64
      if p.due ≤ 1 then (decodeWideFrom none rest).map (.ofNat bits :: ·)
      else decodeWideFrom (some ⟨bits, p.due - 1, 0x80, 0xBF⟩) rest
    else none

/-- Text with its lone surrogates, from input that is well-formed apart from them. -/
def decodeWide? (bytes : List UInt8) : Option Text :=
  decodeWideFrom none bytes

def isContinuation (b : UInt8) : Bool := b &&& 0xC0 == 0x80

/-- Steps back over continuation bytes. The offset behind the last byte is left as it is. -/
def stepBack (data : List UInt8) : Nat → Nat
  | 0 => 0
  | k + 1 => if data[k + 1]?.any isContinuation then stepBack data k else k + 1

inductive Reason where
  | startByte
  | continuationByte
  | endOfData
deriving DecidableEq

namespace Reason

def text : Reason → String
  | startByte => "invalid start byte"
  | continuationByte => "invalid continuation byte"
  | endOfData => "unexpected end of data"

end Reason

/-- The first ill-formed stretch: where it begins and ends, its first byte and what is wrong. -/
structure Fault where
  start : Nat
  stop : Nat
  first : UInt8
  reason : Reason
deriving DecidableEq

namespace Fault

def message (f : Fault) : String :=
  let place :=
    if f.stop ≤ f.start + 1 then
      "byte 0x" ++ .ofList (Digits.padHex 2 f.first.toNat) ++ s!" in position {f.start}"
    else s!"bytes in position {f.start}-{f.stop - 1}"
  "'utf-8' codec can't decode " ++ place ++ ": " ++ f.reason.text

def rebase (f : Fault) (origin : Nat) : Fault :=
  { f with start := f.start - origin, stop := f.stop - origin }

end Fault

/-- A sequence under way, where it began and with which byte. -/
structure Begun where
  pending : Pending
  start : Nat
  first : UInt8

def faultFrom : Option Begun → Nat → List UInt8 → Option Fault
  | none, _, [] => none
  | some s, index, [] => some ⟨s.start, index, s.first, .endOfData⟩
  | none, index, b :: rest =>
    match classify b with
    | .char _ => faultFrom none (index + 1) rest
    | .lead p => faultFrom (some ⟨p, index, b⟩) (index + 1) rest
    | .invalid => some ⟨index, index + 1, b, .startByte⟩
  | some s, index, b :: rest =>
    if s.pending.low ≤ b ∧ b ≤ s.pending.high then
      if s.pending.due ≤ 1 then faultFrom none (index + 1) rest
      else
        faultFrom (some { s with pending := ⟨0, s.pending.due - 1, 0x80, 0xBF⟩ }) (index + 1) rest
    else some ⟨s.start, index, s.first, .continuationByte⟩

def fault? (bytes : List UInt8) : Option Fault :=
  faultFrom none 0 bytes

end CompletionServer.Utf8
