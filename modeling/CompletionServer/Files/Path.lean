import CompletionServer.Text.CodePoint

namespace CompletionServer

inductive Anchor where
  | relative
  | root
  | doubleRoot
deriving DecidableEq

structure Path where
  anchor : Anchor
  parts : List Text
deriving DecidableEq

namespace Path

def slash : CodePoint := .ofChar '/'

/-- Exactly two leading slashes are an anchor of their own. -/
def anchorOf (t : Text) : Anchor :=
  match (t.takeWhile (· = slash)).length with
  | 0 => .relative
  | 2 => .doubleRoot
  | _ => .root

def ofText (t : Text) : Path :=
  ⟨anchorOf t, (cutAt slash t).filter fun part => part ≠ [] ∧ part ≠ Text.ofString "."⟩

def render (p : Path) : Text :=
  let names := Text.join "/" p.parts
  match p.anchor with
  | .root => "/" ++ names
  | .doubleRoot => "//" ++ names
  | .relative => if p.parts.isEmpty then "." else names

def child (p : Path) (name : Text) : Path := { p with parts := p.parts ++ [name] }

def leadingParts : List Text → List (List Text)
  | [] => [[]]
  | part :: rest => [] :: (leadingParts rest).map (part :: ·)

/-- The path itself, then every folder above it. -/
def ancestors (p : Path) : List Path :=
  (leadingParts p.parts).reverse.map fun parts => { p with parts := parts }

/-- A low surrogate of the stretch that stands for a byte which is no text. -/
def isBareByte (c : CodePoint) : Bool := 0xDC80 ≤ c.val && c.val ≤ 0xDCFF

/-- The bytes that a name takes in a file system. -/
def nameLength : Text → Nat
  | [] => 0
  | c :: rest => (if isBareByte c then 1 else c.utf8Width) + nameLength rest

end Path

/-- Why no file system can have a file under a path. -/
inductive PathError where
  | surrogate (c : CodePoint) (position : Nat)
  | nullByte
deriving DecidableEq

namespace Path

def isUnencodable (c : CodePoint) : Bool := c.isSurrogate && !isBareByte c

def check (p : Path) : Except PathError Unit :=
  let t := p.render
  match t.find? isUnencodable with
  | some c => .error (.surrogate c (t.takeWhile (!isUnencodable ·)).length)
  | none => if t.any (·.val = 0) then .error .nullByte else .ok ()

end Path

end CompletionServer
