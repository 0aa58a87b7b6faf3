import CompletionServer.Completion.Service
import CompletionServer.Php.Signature

namespace CompletionServer

/-- Sources of signature help: the declarations of a PHP document, or a label given beforehand. -/
inductive Helper where
  | php
  | fixed (label : Option Text)
deriving DecidableEq

structure HelperCall where
  source : Source
  offset : Nat

namespace Helper

def help (source : Source) (offset : Nat) : Helper → Option Help
  | php => Php.signatureHelp source.data offset
  | fixed label => label.map Help.ofLabel

def calls (source : Source) (offset : Nat) : Helper → List HelperCall
  | php => []
  | fixed _ => [⟨source, offset⟩]

end Helper

structure HelpService where
  helpers : Dictionary Helper
  defaultLanguage : Text

structure HelpReport where
  result : Except Failure (Option Help)
  calls : List HelperCall

namespace HelpService

/-- A language without a helper gets no help. -/
def help (service : HelpService) (workspace : Workspace) (place : Place) : HelpReport :=
  match workspace.get? place.uri with
  | none => ⟨.error (.documentNotFound place.uri), []⟩
  | some document =>
    let language := document.languageOr service.defaultLanguage
    match service.helpers.get? language with
    | none => ⟨.ok none, []⟩
    | some helper =>
      let source := ⟨document.uri, document.text, language⟩
      let offset := (LineTable.ofText document.text).offsetOf place.position
      ⟨.ok (helper.help source offset), helper.calls source offset⟩

end HelpService

end CompletionServer
