import CompletionServer.Files.Tree
import CompletionServer.Text.Utf8
import CompletionServer.Uri
import CompletionServer.Yaml.Convert

namespace CompletionServer

inductive Crash where
  | undecodable (f : Utf8.Fault)
  | conversion (e : Yaml.ConversionError)
  | nesting
  | path (e : PathError)
  | file (e : FileError) (path : Path)
  | host (e : Uri.HostFault)
  | noPath
  | longInteger
deriving DecidableEq

namespace FileError

def message (e : FileError) (path : Path) : Text :=
  s!"[Errno {e.code}] {e.description}: " ++ Value.quoted path.render

end FileError

namespace PathError

def message : PathError → Text
  | surrogate c position =>
    "'utf-8' codec can't encode character " ++ Value.quoted [c] ++ " in position " ++
      s!"{position}: surrogates not allowed"
  | nullByte => "embedded null byte"

end PathError

namespace Yaml.ConversionError

/-- The kind of error that a client is told. -/
def kind : ConversionError → String
  | integer .. | longInteger _ | double _ | calendar _ => "ValueError"
  | hugeFactor => "OverflowError"
  | truth _ => "KeyError"
  | noDigits => "IndexError"
  | notTimestamp => "AttributeError"
  | timestampMapping => "TypeError"
  | codePoint n => if n < 0x80000000 then "ValueError" else "OverflowError"

end Yaml.ConversionError

namespace Crash

def kind : Crash → String
  | undecodable _ => "UnicodeDecodeError"
  | conversion e => e.kind
  | nesting => "RecursionError"
  | path (.surrogate ..) => "UnicodeEncodeError"
  | file .. => "OSError"
  | noPath => "TypeError"
  | path .nullByte | host _ | longInteger => "ValueError"

def message : Crash → Text
  | undecodable f => f.message
  | conversion e => e.message
  | nesting => "maximum recursion depth exceeded"
  | path e => e.message
  | file e place => e.message place
  | host e => e.message
  | noPath => "expected str, bytes or os.PathLike object, not NoneType"
  | longInteger =>
    s!"Exceeds the limit ({Numeral.mostDigits} digits) for integer string conversion; " ++
      "use sys.set_int_max_str_digits() to increase the limit"

end Crash

end CompletionServer
