import CompletionServer.Server.Frame
import CompletionServer.Server.Wire

namespace CompletionServer.CommandLine

/-- The length announced by a header, or none when the input has ended. -/
partial def readHeader (input : IO.FS.Stream) (length : Nat) : IO (Option Nat) := do
  let line ← input.getLine
  if line.isEmpty then return none
  if Frame.isBlankLine line then return some length
  readHeader input ((Frame.length? line).getD length)

partial def readBody (input : IO.FS.Stream) (due : Nat) (read : ByteArray) : IO ByteArray := do
  if due = 0 then return read
  let bytes ← input.read (.ofNat due)
  if bytes.isEmpty then return read
  readBody input (due - bytes.size) (read ++ bytes)

/-- The settings files that a search from a folder can come upon, and those that it may not
read. -/
def settingsFiles (root : Path) : IO FileTree := do
  let mut tree := FileTree.empty
  for folder in root.ancestors do
    let path := folder.child Settings.fileName
    try
      let bytes ← IO.FS.readBinFile (Text.toLossyString path.render)
      tree := { tree with files := (path.parts, bytes.toList) :: tree.files }
    catch e =>
      match e with
      | .permissionDenied .. => tree := { tree with denied := path.parts :: tree.denied }
      | _ => pure ()
  return tree

def filesFor (m : Value) : IO FileTree :=
  match Server.rootPath? ((m.field "params").field "rootUri").str? with
  | .ok (some root) => settingsFiles root
  | _ => return .empty

partial def serve (input output : IO.FS.Stream) (c : Wire.Connection) : IO Unit := do
  let some length ← readHeader input 0 | return
  let body ← readBody input length .empty
  match Frame.read? body.toList with
  | none => serve input output c
  | some m =>
    if (m.field "method").str? = some (Text.ofString "exit") then return
    let (c, out) := c.receive (← filesFor m) m
    for o in out do
      output.putStr (Frame.write o.message)
    output.flush
    serve input output c

end CompletionServer.CommandLine

def main : IO Unit := do
  let debug ← IO.getEnv "DEBUG"
  for notice in CompletionServer.Wire.startupNotices debug do
    IO.eprintln notice
  CompletionServer.CommandLine.serve (← IO.getStdin) (← IO.getStdout) {}
