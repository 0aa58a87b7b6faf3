import CompletionServer.Text.Position
import CompletionServer.Text.Utf8

namespace CompletionServer

inductive LineBreak where
  | lf
  | cr
  | crlf
deriving DecidableEq

namespace LineBreak

def text : LineBreak → Text
  | lf => [.lineFeed]
  | cr => [.carriageReturn]
  | crlf => [.carriageReturn, .lineFeed]

end LineBreak

/-- A line's content and the break that ends it; only the last line has none. -/
structure Segment where
  content : Text
  ending : Option LineBreak
deriving DecidableEq

namespace Segment

def text (s : Segment) : Text :=
  s.content ++ (s.ending.map LineBreak.text).getD []

end Segment

namespace Text

def consContent (c : CodePoint) : List Segment → List Segment
  | [] => [⟨[c], none⟩]
  | s :: rest => ⟨c :: s.content, s.ending⟩ :: rest

/-- Cuts a text at its line breaks; CR followed by LF is one break. -/
def segments : Text → List Segment
  | [] => [⟨[], none⟩]
  | [c] =>
    if c = .lineFeed then [⟨[], some .lf⟩, ⟨[], none⟩]
    else if c = .carriageReturn then [⟨[], some .cr⟩, ⟨[], none⟩]
    else [⟨[c], none⟩]
  | c :: d :: rest =>
    if c = .lineFeed then ⟨[], some .lf⟩ :: segments (d :: rest)
    else if c = .carriageReturn then
      if d = .lineFeed then ⟨[], some .crlf⟩ :: segments rest
      else ⟨[], some .cr⟩ :: segments (d :: rest)
    else consContent c (segments (d :: rest))

end Text

/-- A line with its place in the text, counted in code points and in UTF-8 bytes. -/
structure Line where
  content : Text
  start : Nat
  byteStart : Nat
deriving DecidableEq

namespace Line

def stop (l : Line) : Nat := l.start + l.content.length

end Line

/-- Between two places of an ascending list, the one up to which its numbers are at most `x`. -/
def bisectRight (xs : List Nat) (x lo hi : Nat) : Nat :=
  if lo < hi then
    let mid := (lo + hi) / 2
    if xs[mid]?.any (x < ·) then bisectRight xs x lo mid else bisectRight xs x (mid + 1) hi
  else lo
termination_by hi - lo

structure LineTable where
  lines : List Line
  byteLength : Nat
deriving DecidableEq

namespace LineTable

def place : Nat → Nat → List Segment → List Line
  | _, _, [] => []
  | start, byteStart, s :: rest =>
    ⟨s.content, start, byteStart⟩ ::
      place (start + s.text.length) (byteStart + s.text.utf8Length) rest

def ofText (t : Text) : LineTable :=
  ⟨place 0 0 t.segments, t.utf8Length⟩

def byteStarts (table : LineTable) : List Nat :=
  table.lines.map Line.byteStart

def offsetOf (table : LineTable) (p : Position) : Nat :=
  match table.lines[p.line]? with
  | none => table.byteLength
  | some l => l.byteStart + (l.content.takeWithin CodePoint.utf16Width p.character).utf8Length

/-- The bytes of the line are cut at the start of a character and decoded again. -/
def position? (table : LineTable) (offset : Int) : Option Position :=
  let offset := min offset.toNat table.byteLength
  let line := bisectRight table.byteStarts offset 0 table.byteStarts.length - 1
  table.lines[line]?.bind fun l =>
    let data := l.content.utf8
    -- Between CR and LF the offset lies behind the line's content.
    let column := Utf8.stepBack data (min (offset - l.byteStart) data.length)
    (Utf8.decodeWide? (data.take column)).map fun head => ⟨line, head.utf16Length⟩

/-- The start of the text where decoding fails, which it never does for the table of a text. -/
def positionOf (table : LineTable) (offset : Int) : Position :=
  (table.position? offset).getD ⟨0, 0⟩

end LineTable

end CompletionServer
