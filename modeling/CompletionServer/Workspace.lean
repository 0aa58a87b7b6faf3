import CompletionServer.Dictionary
import CompletionServer.Text.CodePoint

namespace CompletionServer

/-- An open document under the address that the editor gave it. -/
structure Document where
  uri : Text
  text : Text
  language : Option Text

namespace Document

/-- An empty language counts as none. -/
def languageOr (d : Document) (default : Text) : Text :=
  match d.language with
  | some l => if l.isEmpty then default else l
  | none => default

end Document

abbrev Workspace := Dictionary Document

end CompletionServer
