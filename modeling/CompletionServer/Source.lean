import CompletionServer.Text.CodePoint

namespace CompletionServer

structure Source where
  uri : Text
  text : Text
  language : Text
deriving DecidableEq

namespace Source

def data (s : Source) : List UInt8 := s.text.utf8

end Source

end CompletionServer
