import CompletionServer.Text.CodePoint

namespace CompletionServer

structure Signature where
  label : Text
  parameters : Option (List Text)
deriving DecidableEq

structure Help where
  signatures : List Signature
  activeSignature : Option Nat
  activeParameter : Option Nat
deriving DecidableEq

namespace Help

def ofLabel (label : Text) : Help := ⟨[⟨label, none⟩], none, none⟩

end Help

end CompletionServer
