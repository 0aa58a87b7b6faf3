import CompletionServer.Php.Keyword
import CompletionServer.Php.Variable
import CompletionServer.Stream.Basic

namespace CompletionServer

inductive Completer where
  | produced (p : Producer)
  | phpKeywords
  | phpVariables
  | empty
  | wrap (inner : Completer)
  | limit (n : Nat) (inner : Completer)
  | chain (members : List Completer)
deriving Inhabited

structure Start where
  stream : Stream
  events : List Event

def Producer.start (source : Source) (offset : Int) (p : Producer) : Start :=
  ⟨.leaf {} (.ofProducer p), p.note (.opened source offset)⟩

namespace Completer

mutual

/-- Starts a search. The members of a chain are started when their turn comes. -/
def start (source : Source) (offset : Int) : Completer → Start
  | produced p => p.start source offset
  | phpKeywords => (Producer.silent (Php.keywordSuggestions source.data offset)).start source offset
  | phpVariables =>
    (Producer.silent (Php.variableSuggestions source.data offset)).start source offset
  | empty => (Producer.silent []).start source offset
  | wrap inner =>
    let s := start source offset inner
    { s with stream := .wrapped {} s.stream }
  | limit n inner =>
    let s := start source offset inner
    { s with stream := .limited {} n 0 s.stream }
  | chain members => ⟨.chained {} true (startAll source offset members), []⟩

def startAll (source : Source) (offset : Int) : List Completer → Members
  | [] => .nil
  | c :: rest =>
    let s := start source offset c
    .cons (some s.events) s.stream (startAll source offset rest)

end

structure NegativeLimit where
  limit : Int
deriving DecidableEq

def NegativeLimit.message (e : NegativeLimit) : String :=
  s!"Suggestion limit must not be negative, got {e.limit}"

def limit? (n : Int) (inner : Completer) : Except NegativeLimit Completer :=
  if n < 0 then .error ⟨n⟩ else .ok (limit n.toNat inner)

/-- Variables, then keywords, with at most `cap` suggestions if there is a cap. -/
def php (cap : Option Nat) : Completer :=
  let all := chain [phpVariables, phpKeywords]
  match cap with
  | none => all
  | some n => limit n all

end Completer

end CompletionServer
