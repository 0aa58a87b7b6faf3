import CompletionServer.Text.Utf8

namespace CompletionServer

/-- What can be read of a text file, and what is wrong with it after that. -/
structure Decoded where
  text : List Char
  fault : Option Utf8.Fault

namespace Decoded

/-- The bytes that are decoded at a time. -/
def chunkSize : Nat := 8192

/-- The characters that are handed on at a time. -/
def blockSize : Nat := 4096

def normalizeLines : List Char → List Char
  | '\r' :: '\n' :: rest => '\n' :: normalizeLines rest
  | '\r' :: rest => '\n' :: normalizeLines rest
  | c :: rest => c :: normalizeLines rest
  | [] => []

/-- The whole blocks of a text that ends before its time. -/
def wholeBlocks (text : List Char) : List Char :=
  text.take (text.length / blockSize * blockSize)

/-- Where the chunk begins in which a fault is found. A character that is cut by the end of a chunk
belongs to the next one, and what is left at the end of the data makes a chunk of its own. -/
def origin (bytes : List UInt8) (f : Utf8.Fault) : Nat :=
  match f.reason with
  | .endOfData => f.start
  | _ =>
    let found := if f.reason = .startByte then f.start else f.stop
    let edge := found / chunkSize * chunkSize
    if f.start ≤ edge then f.start
    else if bytes[edge]?.any Utf8.isContinuation then
      edge - 1 - ((bytes.take edge).reverse.takeWhile Utf8.isContinuation).length
    else edge

def ofBytes (bytes : List UInt8) : Decoded :=
  match Utf8.fault? bytes with
  | none => ⟨normalizeLines ((Utf8.decode? bytes).getD []), none⟩
  | some f =>
    let start := origin bytes f
    let text := normalizeLines ((Utf8.decode? (bytes.take start)).getD [])
    ⟨wholeBlocks text, some (f.rebase start)⟩

end Decoded

end CompletionServer
