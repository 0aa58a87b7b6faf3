import CompletionServer.Text.Utf8

namespace CompletionServer.Uri

/-- A number up to 255 without leading zeros. -/
def isOctet (cs : List Char) : Bool :=
  !cs.isEmpty && cs.all Char.isDigit && cs.length ≤ 3 && (cs = ['0'] || cs.head? ≠ some '0') &&
    Digits.value cs ≤ 255

def isIPv4 (cs : List Char) : Bool :=
  let octets := cutAt '.' cs
  octets.length == 4 && octets.all isOctet

def isGroup (cs : List Char) : Bool :=
  !cs.isEmpty && cs.length ≤ 4 && cs.all fun c => (Digits.hex? c).isSome

/-- The groups of an address: an address of four numbers at the end takes the place of two. -/
def groups? (cs : List Char) : Option (List (List Char)) :=
  let pieces := cutAt ':' cs
  let last := pieces.getLast?.getD []
  if pieces.length < 3 then none
  else if last.contains '.' then
    if isIPv4 last then some (pieces.dropLast ++ [['0'], ['0']]) else none
  else some pieces

/-- Groups on one side of a gap. The end that faces outwards may be empty if it is all there is. -/
def besideGap (pieces : List (List Char)) : List (List Char) :=
  if pieces = [[]] then [] else pieces

/-- A gap stands for at least one group. -/
def withGap (before after : List (List Char)) : Bool :=
  let groups := besideGap before ++ besideGap after
  groups.length < 8 && groups.all isGroup

/-- Eight groups, of which a gap between two colons may leave some out, and perhaps a zone. -/
def isIPv6 (cs : List Char) : Bool :=
  let address := cs.takeWhile (· ≠ '%')
  let zone := cs.dropWhile (· ≠ '%')
  let zoneFits := zone.isEmpty || (2 ≤ zone.length && !zone.tail.contains '%')
  zoneFits &&
    match groups? address with
    | none => false
    | some groups =>
      let inner := groups.tail.dropLast
      let before := inner.takeWhile (!·.isEmpty)
      if before.length = inner.length then groups.length == 8 && groups.all isGroup
      else withGap (groups.take (before.length + 1)) (groups.drop (before.length + 2))

def isFutureAddress (cs : List Char) : Bool :=
  let digits := cs.tail.takeWhile (· ≠ '.')
  !digits.isEmpty && digits.all (fun c => (Digits.hex? c).isSome) &&
    1 < (cs.tail.dropWhile (· ≠ '.')).length

inductive HostFault where
  | misplacedBracket
  | futureAddress
  | noAddress (host : Text)
  | shortAddress
  | ambiguous (host : Text)
deriving DecidableEq

/-- Only a long numeric address, or one of a kind yet to come, stands in brackets. -/
def checkBracketed (host : Text) : Except HostFault Unit :=
  let cs := host.toChars
  if cs.head? = some 'v' then
    if isFutureAddress cs then .ok () else .error .futureAddress
  else if isIPv4 cs then .error .shortAddress
  else if isIPv6 cs then .ok ()
  else .error (.noAddress host)

/-- Characters that are compatible with a delimiter, such as the fullwidth solidus. -/
def isDelimiterAlike (c : CodePoint) : Bool :=
  [0x2047, 0x2048, 0x2049, 0x2100, 0x2101, 0x2105, 0x2106, 0x2A74, 0xFE13, 0xFE16, 0xFE55, 0xFE56,
    0xFE5F, 0xFE6B, 0xFF03, 0xFF0F, 0xFF1A, 0xFF1F, 0xFF20].contains c.val

/-- What follows the last `@`: a name and a password before it are not looked at. -/
def withoutUser (host : Text) : Text :=
  (host.reverse.takeWhile (· ≠ .ofChar '@')).reverse

/-- The text between the first brackets. Nothing stands before them, and behind them only what a
colon begins. -/
def betweenBrackets (host : Text) : Except HostFault Text :=
  let inner := (host.drop 1).takeWhile (· ≠ .ofChar ']')
  let behind := ((host.drop 1).dropWhile (· ≠ .ofChar ']')).drop 1
  if host.head? ≠ some (.ofChar '[') then .error .misplacedBracket
  else if !behind.isEmpty && behind.head? ≠ some (.ofChar ':') then .error .misplacedBracket
  else .ok inner

/-- The address that a host with brackets is taken for. Where the brackets belong to the user, it
ends at the first colon. -/
def bracketed (host : Text) : Except HostFault Text :=
  let place := withoutUser host
  if place.contains (.ofChar '[') then betweenBrackets place
  else .ok (place.takeWhile (· ≠ .ofChar ':'))

def checkHost (host : Text) : Except HostFault Unit := do
  let opened := host.contains (.ofChar '[')
  if opened != host.contains (.ofChar ']') then throw .misplacedBracket
  if opened then checkBracketed (← bracketed host)
  if host.any isDelimiterAlike then throw (.ambiguous host)

end CompletionServer.Uri
