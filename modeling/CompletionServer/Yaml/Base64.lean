import CompletionServer.Text.CodePoint

namespace CompletionServer.Yaml.Base64

def bits? (c : Char) : Option Nat :=
  if 'A' ≤ c ∧ c ≤ 'Z' then some (c.toNat - 'A'.toNat)
  else if 'a' ≤ c ∧ c ≤ 'z' then some (c.toNat - 'a'.toNat + 26)
  else if '0' ≤ c ∧ c ≤ '9' then some (c.toNat - '0'.toNat + 52)
  else if c = '+' then some 62
  else if c = '/' then some 63
  else none

/-- Reads on with so many characters of a group of four behind it and the bits that they left over.
Padding that completes a group ends the text; padding anywhere else does not count. -/
def decodeFrom (filled held pads : Nat) : List Char → Option (List UInt8)
  | [] => if filled = 0 then some [] else none
  | c :: rest =>
    if c = '=' then
      if 2 ≤ filled ∧ 4 ≤ filled + pads + 1 then some []
      else decodeFrom filled held (if 2 ≤ filled then pads + 1 else pads) rest
    else
      match bits? c with
      | none => decodeFrom filled held pads rest
      | some b =>
        match filled with
        | 0 => decodeFrom 1 b 0 rest
        | 1 => (decodeFrom 2 (b % 16) 0 rest).map (.ofNat (held * 4 + b / 16) :: ·)
        | 2 => (decodeFrom 3 (b % 4) 0 rest).map (.ofNat (held * 16 + b / 4) :: ·)
        | _ => (decodeFrom 0 0 0 rest).map (.ofNat (held * 64 + b) :: ·)

/-- ASCII text only, with complete groups. -/
def decode? (t : Text) : Option (List UInt8) :=
  if t.all (·.val < 0x80) then decodeFrom 0 0 0 t.toChars else none

end CompletionServer.Yaml.Base64
