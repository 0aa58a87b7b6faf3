import CompletionServer.Files.Path

namespace CompletionServer

/-- Files with their bytes, files that nobody may read, and folders that need not hold any. -/
structure FileTree where
  files : List (List Text × List UInt8)
  folders : List (List Text)
  denied : List (List Text) := []

inductive FileError where
  | missing
  | denied
  | notFolder
  | isFolder
  | nameTooLong
deriving DecidableEq

namespace FileError

def code : FileError → Nat
  | missing => 2
  | denied => 13
  | notFolder => 20
  | isFolder => 21
  | nameTooLong => 36

def description : FileError → String
  | missing => "No such file or directory"
  | denied => "Permission denied"
  | notFolder => "Not a directory"
  | isFolder => "Is a directory"
  | nameTooLong => "File name too long"

end FileError

inductive FileEntry where
  | file (content : List UInt8)
  | denied
  | folder

def FileEntry.isFile : FileEntry → Bool
  | file _ | denied => true
  | folder => false

namespace FileTree

/-- Of two files at one place the later one counts. -/
def file? (t : FileTree) (parts : List Text) : Option (List UInt8) :=
  t.files.reverse.lookup parts

def isFolder (t : FileTree) (parts : List Text) : Bool :=
  parts.isEmpty || t.folders.any (parts.isPrefixOf ·) || t.files.any (parts.isPrefixOf ·.1) ||
    t.denied.any (parts.isPrefixOf ·)

def entry? (t : FileTree) (parts : List Text) : Option FileEntry :=
  if t.denied.contains parts then some .denied
  else
    match t.file? parts with
    | some content => some (.file content)
    | none => if t.isFolder parts then some .folder else none

def longestName : Nat := 255

def longestPath : Nat := 4095

/-- Follows names from a folder; two dots lead back to the folder above. -/
def walk (t : FileTree) (here : List Text) : List Text → Except FileError (List Text)
  | [] => .ok here
  | name :: rest =>
    match t.entry? here with
    | some .folder =>
      if longestName < Path.nameLength name then .error .nameTooLong
      else walk t (if name = Text.ofString ".." then here.dropLast else here ++ [name]) rest
    | some _ => .error .notFolder
    | none => .error .missing

def empty : FileTree := { files := [], folders := [] }

/-- The tree that a path starts from. Two slashes at the front lead to the root as one does, and a
path without any starts where there is nothing. -/
def treeOf (t : FileTree) (p : Path) : FileTree :=
  match p.anchor with
  | .root | .doubleRoot => t
  | .relative => empty

def lookUp (t : FileTree) (p : Path) : Except FileError FileEntry :=
  if longestPath < Path.nameLength p.render then .error .nameTooLong
  else do
    let t := t.treeOf p
    match t.entry? (← t.walk [] p.parts) with
    | some entry => .ok entry
    | none => .error .missing

def read (t : FileTree) (p : Path) : Except FileError (List UInt8) := do
  match ← t.lookUp p with
  | .file content => .ok content
  | .denied => .error .denied
  | .folder => .error .isFolder

/-- Whether there is a file at a path, which need not be one that can be read. A name that is too
long is an error even here; a path that no file can have is not. -/
def isFile (t : FileTree) (p : Path) : Except FileError Bool :=
  match p.check with
  | .error _ => .ok false
  | .ok _ =>
    match t.lookUp p with
    | .ok entry => .ok entry.isFile
    | .error .nameTooLong => .error .nameTooLong
    | .error _ => .ok false

end FileTree

end CompletionServer
