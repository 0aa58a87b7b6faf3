import CompletionServer.Php.Call
import CompletionServer.Php.Declaration
import CompletionServer.Php.Parameters
import CompletionServer.Signature
import CompletionServer.Text.Utf8

namespace CompletionServer.Php

def lowerByte (b : UInt8) : UInt8 :=
  if 0x41 ≤ b ∧ b ≤ 0x5A then b + 0x20 else b

def foldCase (name : List UInt8) : List UInt8 :=
  name.map lowerByte

namespace Declaration

def parameterNames (d : Declaration) : List Text :=
  splitParameters (Utf8.decodeLossy d.parameters)

def returnText (d : Declaration) : Text :=
  match d.returnType with
  | some type => ": " ++ Utf8.decodeLossy type
  | none => []

def signature (d : Declaration) : Signature where
  label :=
    Utf8.decodeLossy d.name ++ "(" ++ Text.join ", " d.parameterNames ++ ")" ++ d.returnText
  parameters := some d.parameterNames

end Declaration

/-- Function names are compared without regard to ASCII case, and the first declaration wins. -/
def declared? (data callee : List UInt8) : Option Declaration :=
  (declarations data).find? fun d => foldCase d.name == foldCase callee

/-- The last parameter stays active however many commas follow. -/
def activeParameter (commas : Nat) (parameters : List Text) : Option Nat :=
  if parameters.isEmpty then none else some (min commas (parameters.length - 1))

def signatureHelp (data : List UInt8) (offset : Int) : Option Help := do
  let call ← enclosingCall data (clampOffset data offset)
  let leading := data.take call.paren
  if endsInHead none leading then none
  else
    let callee ← callee? leading
    let d ← declared? data callee
    some ⟨[d.signature], some 0, activeParameter call.commas d.parameterNames⟩

end CompletionServer.Php
