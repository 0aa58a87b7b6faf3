import CompletionServer.Suggestion
import CompletionServer.Text.LineTable

namespace CompletionServer

inductive InsertFormat where
  | plainText
  | snippet
deriving DecidableEq

def InsertFormat.code : InsertFormat → Nat
  | plainText => 1
  | snippet => 2

structure TextEdit where
  start : Position
  stop : Position
  newText : Text
deriving DecidableEq

structure Item where
  label : Text
  kind : Option Nat := none
  detail : Option Text := none
  documentation : Option Text := none
  insertText : Option Text := none
  insertFormat : Option InsertFormat := none
  textEdit : Option TextEdit := none
deriving DecidableEq

structure CompletionList where
  isIncomplete : Bool
  items : List Item
deriving DecidableEq

namespace SuggestionType

def itemKind : SuggestionType → Nat
  | method => 2
  | function => 3
  | constructor => 4
  | field => 5
  | var => 6
  | cls => 7
  | interface => 8
  | module => 9
  | property => 10
  | unit => 11
  | value => 12
  | enum => 13
  | keyword => 14
  | snippet => 15
  | color => 16
  | file => 17
  | reference => 18
  | constant => 21

end SuggestionType

def textKind : Nat := 1

/-- A third party's name counts if it is the name of a known type. -/
def itemKind : Option Classification → Nat
  | none => textKind
  | some (.known t) => t.itemKind
  | some (.named t) => ((SuggestionType.ofName? t).map SuggestionType.itemKind).getD textKind

structure ItemOptions where
  snippets : Bool := false
  textEdits : Bool := false
  trimDollar : Bool := false
deriving DecidableEq

namespace Suggestion

def textEdit (table : LineTable) (s : Suggestion) : Option TextEdit :=
  s.range.map fun r => ⟨table.positionOf r.start, table.positionOf r.stop, s.name⟩

/-- The snippet to insert, if snippets are wanted and it is not empty. -/
def usableSnippet? (options : ItemOptions) (s : Suggestion) : Option Text :=
  if options.snippets then s.snippet.filter (!·.isEmpty) else none

def item (options : ItemOptions) (table : LineTable) (s : Suggestion) : Item where
  label := s.label options.trimDollar
  kind := some (itemKind s.type)
  detail := s.short
  documentation := s.doc
  insertText := some ((s.usableSnippet? options).getD (s.label options.trimDollar))
  insertFormat := some (if (s.usableSnippet? options).isSome then .snippet else .plainText)
  textEdit := if options.textEdits then s.textEdit table else none

end Suggestion

end CompletionServer
