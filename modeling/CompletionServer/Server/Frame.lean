import CompletionServer.Json.Reader
import CompletionServer.Json.Writer
import CompletionServer.Text.CodePoint
import CompletionServer.Text.Utf8

namespace CompletionServer.Frame

def lengthField : List Char := "content-length".toList

/-- The length that a header line gives, if it is the line for it. -/
def length? (line : String) : Option Nat :=
  let cs := line.toList
  let name := cs.takeWhile (· ≠ ':')
  if name.map Char.toLower = lengthField then
    let digits := (cs.drop (name.length + 1)).filter fun c => !Json.isBlank c
    if digits.isEmpty || !digits.all Char.isDigit then none else some (Digits.value digits)
  else none

def isBlankLine (line : String) : Bool :=
  line.toList.all Json.isBlank

def read? (bytes : List UInt8) : Option Value := do
  Json.read? (.ofList (← Utf8.decode? bytes))

def write (v : Value) : String :=
  let body := Json.write v
  s!"Content-Length: {body.utf8ByteSize}\r\n\r\n" ++ body

end CompletionServer.Frame
