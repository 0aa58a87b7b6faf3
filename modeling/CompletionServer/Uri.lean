import CompletionServer.Text.Utf8
import CompletionServer.Uri.Host
import CompletionServer.Value.Display

namespace CompletionServer.Uri

/-- The bytes that an ASCII text with percent escapes stands for; what is no escape stands for
itself. -/
def unescape : List Char → List UInt8
  | '%' :: a :: b :: rest =>
    match Digits.hex? a, Digits.hex? b with
    | some m, some n => .ofNat (m * 16 + n) :: unescape rest
    | _, _ => 0x25 :: unescape (a :: b :: rest)
  | c :: rest => .ofNat c.toNat :: unescape rest
  | [] => []

/-- The run of ASCII so far, last character first, and what follows it. -/
def decodeFrom (run : List Char) : Text → Text
  | [] => Utf8.decodeLossy (unescape run.reverse)
  | c :: rest =>
    if c.val < 0x80 then decodeFrom (c.toChar :: run) rest
    else Utf8.decodeLossy (unescape run.reverse) ++ c :: decodeFrom [] rest

/-- Decodes percent escapes. Those that spell no UTF-8 become replacement characters, and what is
not ASCII stays. -/
def decode (t : Text) : Text := decodeFrom [] t

structure Parts where
  scheme : List Char
  host : Text
  path : Text

def isSchemeChar (c : Char) : Bool :=
  c.isAlphanum || c = '+' || c = '-' || c = '.'

/-- A scheme in lower case, and what follows its colon. -/
def splitScheme (t : Text) : List Char × Text :=
  let scheme := Text.toChars (t.takeWhile (· ≠ .ofChar ':'))
  let rest := t.dropWhile (· ≠ .ofChar ':')
  if !rest.isEmpty && scheme.head?.any Char.isAlpha && scheme.all isSchemeChar then
    (scheme.map Char.toLower, rest.drop 1)
  else ([], t)

def isHostEnd (c : CodePoint) : Bool :=
  c = .ofChar '/' || c = .ofChar '?' || c = .ofChar '#'

def splitHost (t : Text) : Text × Text :=
  if t.take 2 = Text.ofString "//" then
    ((t.drop 2).takeWhile (!isHostEnd ·), (t.drop 2).dropWhile (!isHostEnd ·))
  else ([], t)

def isLineEnd (c : CodePoint) : Bool :=
  c = .ofChar '\t' || c = .ofChar '\r' || c = .ofChar '\n'

/-- Leading blanks and line ends anywhere do not count; query and fragment are dropped. -/
def parse (t : Text) : Except HostFault Parts := do
  let t := (t.dropWhile (·.val ≤ 0x20)).filter (!isLineEnd ·)
  let (scheme, rest) := splitScheme t
  let (host, rest) := splitHost rest
  checkHost host
  return ⟨scheme, host, rest.takeWhile fun c => !(c = .ofChar '?' || c = .ofChar '#')⟩

/-- A drive letter loses the slash before it. -/
def dropDriveSlash (path : Text) : Text :=
  match path with
  | slash :: letter :: colon :: rest =>
    if slash = .ofChar '/' && letter.toChar.isAlpha && colon = .ofChar ':' then
      .ofChar letter.toChar.toLower :: colon :: rest
    else path
  | _ => path

/-- The path of a file address; other addresses have none. -/
def filePath? (t : Text) : Except HostFault (Option Text) := do
  let parts ← parse t
  if parts.scheme ≠ "file".toList then return none
  let host := decode parts.host
  let path := decode parts.path
  if host.isEmpty || path.isEmpty then return some (dropDriveSlash path)
  return some ("//" ++ host ++ path)

end CompletionServer.Uri

namespace CompletionServer.Uri.HostFault

def message : HostFault → Text
  | misplacedBracket => "Invalid IPv6 URL"
  | futureAddress => "IPvFuture address is invalid"
  | noAddress host => Value.quoted host ++ " does not appear to be an IPv4 or IPv6 address"
  | shortAddress => "An IPv4 address cannot be in brackets"
  | ambiguous host =>
    "netloc '" ++ host ++ "' contains invalid characters under NFKC normalization"

end CompletionServer.Uri.HostFault
