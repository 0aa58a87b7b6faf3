import CompletionServer.Text.Utf8
import CompletionServer.Yaml.Convert

namespace CompletionServer.Yaml

inductive Directive where
  | version (major minor : Nat)
  | handle (handle uri : String)
  | reserved
deriving DecidableEq

inductive Token where
  | directive (d : Directive)
  | documentStart
  | documentEnd
  | listStart
  | mappingStart
  | blockEnd
  | flowListStart
  | flowListEnd
  | flowMappingStart
  | flowMappingEnd
  | entry
  | comma
  | key
  | value
  | alias (name : String)
  | anchor (name : String)
  | tag (handle : Option String) (suffix : String)
  | scalar (text : Text) (plain : Bool)
deriving DecidableEq

/-- Why a text does not yield a value. Up to `severalDocuments` it is not a document; the rest are
files that are not text, scalars that cannot be converted and documents that nest too deeply. -/
inductive Fault where
  | unprintable (c : Char)
  | malformed (index : Nat)
  | unexpected (t : Option Token)
  | incompatible (major : Nat)
  | repeatedDirective
  | undefinedHandle (handle : String)
  | undefinedAlias (name : String)
  | repeatedAnchor (name : String)
  | unknownTag (tag : Tag)
  | unfitTag (tag : Tag)
  | collectionAsKey
  | unfitMerge
  | severalDocuments
  | undecodable (f : Utf8.Fault)
  | conversion (e : ConversionError)
  | tooDeep
deriving DecidableEq

def isBreak (c : Char) : Bool :=
  c = '\n' || c = '\x85' || c = '\u2028' || c = '\u2029'

def isBlank (c : Char) : Bool :=
  c = ' ' || c = '\t'

/-- The end of the text, a line break or a space. -/
def endsWord (c : Option Char) : Bool :=
  c.all fun c => c = ' ' || isBreak c

/-- The end of the text, a line break, a space or a tab. -/
def endsIndicator (c : Option Char) : Bool :=
  c.all fun c => isBlank c || isBreak c

def endsLine (c : Option Char) : Bool :=
  c.all isBreak

/-- Tab, line breaks and the characters that can be shown. -/
def isPrintable (c : Char) : Bool :=
  let n := c.toNat
  n = 0x09 || n = 0x0A || n = 0x0D || (0x20 ≤ n && n ≤ 0x7E) || n = 0x85 ||
    (0xA0 ≤ n && n ≤ 0xD7FF) || (0xE000 ≤ n && n ≤ 0xFFFD) || 0x10000 ≤ n

/-- A line that separates documents starts here. -/
def startsSeparator (mark : Char) : List Char → Bool
  | a :: b :: c :: rest => a = mark && b = mark && c = mark && endsIndicator rest.head?
  | _ => false

def startsAnySeparator (cs : List Char) : Bool :=
  startsSeparator '-' cs || startsSeparator '.' cs

end CompletionServer.Yaml
