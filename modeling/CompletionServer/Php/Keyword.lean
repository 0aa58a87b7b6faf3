import CompletionServer.Php.Word
import CompletionServer.Suggestion

namespace CompletionServer.Php

def keywords : List String :=
  ["abstract", "and", "array", "as", "break", "callable", "case", "catch", "class", "clone",
    "const", "continue", "declare", "default", "do", "echo", "else", "elseif", "empty", "enum",
    "extends", "final", "finally", "fn", "for", "foreach", "function", "global", "goto", "if",
    "implements", "include", "include_once", "instanceof", "insteadof", "interface", "isset",
    "list", "match", "namespace", "new", "or", "print", "private", "protected", "public",
    "readonly", "require", "require_once", "return", "static", "switch", "throw", "trait", "try",
    "unset", "use", "var", "while", "xor", "yield"]

/-- Templates of the control structures, with numbered placeholders. -/
def keywordSnippets : List (String × String) :=
  [("class", "class $\x7b1:Name\x7d\n\x7b\n\t$0\n\x7d"),
    ("for", "for ($\x7b1:\\$i\x7d = 0; $\x7b1:\\$i\x7d < $\x7b2:\\$count\x7d; " ++
      "$\x7b1:\\$i\x7d++) \x7b\n\t$0\n\x7d"),
    ("foreach", "foreach ($\x7b1:\\$items\x7d as $\x7b2:\\$item\x7d) \x7b\n\t$0\n\x7d"),
    ("function", "function $\x7b1:name\x7d($\x7b2\x7d): $\x7b3:void\x7d\n\x7b\n\t$0\n\x7d"),
    ("if", "if ($\x7b1:condition\x7d) \x7b\n\t$0\n\x7d"),
    ("match", "match ($\x7b1:\\$value\x7d) \x7b\n\t$0\n\x7d"),
    ("switch", "switch ($\x7b1:\\$value\x7d) \x7b\n\t$0\n\x7d"),
    ("try", "try \x7b\n\t$1\n\x7d catch ($\x7b2:\\Throwable\x7d $\x7b3:\\$e\x7d) \x7b\n\t$0\n\x7d"),
    ("while", "while ($\x7b1:condition\x7d) \x7b\n\t$0\n\x7d")]

def keywordSuggestion (range : ByteRange) (keyword : String) : Suggestion where
  name := keyword
  type := some (.known .keyword)
  short := some "PHP keyword"
  doc := none
  snippet := (keywordSnippets.lookup keyword).map Text.ofString
  range := some range

def keywordSuggestions (data : List UInt8) (offset : Int) : List Suggestion :=
  let start := wordStart data offset
  if precededBy data start [ascii "->", ascii "::", [dollar]] then []
  else
    keywords.map (keywordSuggestion
      ⟨start, clampOffset data offset, wordStart_le_clampOffset data offset⟩)

end CompletionServer.Php
