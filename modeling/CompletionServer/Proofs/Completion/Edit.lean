import CompletionServer.Proofs.Completion.Answer
import CompletionServer.Proofs.Php.Word
import CompletionServer.Proofs.Registry
import CompletionServer.Server.Basic
import Mathlib

namespace CompletionServer

open Text LineTable

/-- An editor that applies the edit to one text gets the other. -/
inductive TextEdit.Rewrites (e : TextEdit) : Text → Text → Prop
  | intro {before old after : Text} : Separable before (old ++ after) →
    Separable (before ++ old) after → e.start = before.endPosition →
    e.stop = endPosition (before ++ old) →
    Rewrites e (before ++ old ++ after) (before ++ e.newText ++ after)

structure TextEdit.Covers (t : Text) (r : ByteRange) (e : TextEdit) : Prop where
  line_eq : e.start.line = e.stop.line
  start_le_stop : e.start ≤ e.stop
  offsetOf_start : (ofText t).offsetOf e.start = r.start
  offsetOf_stop : (ofText t).offsetOf e.stop = r.stop
  applicable : ∃ u, e.Rewrites t u
  utf8_eq : ∀ u, e.Rewrites t u →
    utf8 u = t.utf8.take r.start ++ e.newText.utf8 ++ t.utf8.drop r.stop

/-- The offsets that the table finds for an edit's positions are where the editor cuts. -/
theorem TextEdit.Rewrites.utf8_eq {e : TextEdit} {t u : Text} (h : e.Rewrites t u) :
    u.utf8 = t.utf8.take ((ofText t).offsetOf e.start) ++ e.newText.utf8 ++
      t.utf8.drop ((ofText t).offsetOf e.stop) := by
  cases h with
  | @intro before old after hstart hstop hs he =>
    rw [he, offsetOf_endPosition hstop, drop_utf8_append, hs, List.append_assoc before old after,
      offsetOf_endPosition hstart, take_utf8_append]
    simp only [utf8_append]

/-- An edit between the ends of a stretch without breaks. -/
theorem TextEdit.covers_of_unbroken {head word after : Text} {r : ByteRange} {e : TextEdit}
    (hw : word.Unbroken) (hs : Separable (head ++ word) after)
    (hstart : r.start = head.utf8Length) (hstop : r.stop = utf8Length (head ++ word))
    (hes : e.start = (ofText (head ++ word ++ after)).positionOf r.start)
    (hee : e.stop = (ofText (head ++ word ++ after)).positionOf r.stop) :
    e.Covers (head ++ word ++ after) r := by
  have hs' := separable_of_unbroken_middle hw hs
  rw [hstop, positionOf_eq_endPosition hs] at hee
  rw [hstart, List.append_assoc, positionOf_eq_endPosition hs'] at hes
  have hos : (ofText (head ++ word ++ after)).offsetOf e.start = r.start := by
    rw [hes, hstart, List.append_assoc, offsetOf_endPosition hs']
  have hoe : (ofText (head ++ word ++ after)).offsetOf e.stop = r.stop := by
    rw [hee, hstop, offsetOf_endPosition hs]
  have hend : endPosition (head ++ word) = _ := endPosition_append hw
  refine ⟨?_, ?_, hos, hoe, ⟨_, .intro hs' hs hes hee⟩, ?_⟩
  · rw [hes, hee, hend]
  · rw [hes, hee, hend, Position.le_iff]
    exact .inr ⟨rfl, Nat.le_add_right _ _⟩
  · intro u hu
    rw [hu.utf8_eq, hos, hoe]

namespace Php

/-- The suggestion would replace the word that ends at the offset, for a variable together with the
dollar sign before it. -/
structure ReplacesWord (data : List UInt8) (stop : Nat) (s : Suggestion) (r : ByteRange) :
    Prop where
  range_eq : s.range = some r
  stop_eq : r.stop = stop
  word : if s.type = some (.known .var) then
      data[r.start]? = some dollar ∧ IsWord data (r.start + 1) stop
    else IsWord data r.start stop

theorem replacesWord_of_mem_keywordSuggestions {data : List UInt8} {offset : Int} {s : Suggestion}
    (h : s ∈ keywordSuggestions data offset) :
    ∃ r, ReplacesWord data (clampOffset data offset) s r ∧ r.start = wordStart data offset := by
  unfold keywordSuggestions at h
  dsimp only at h
  split at h
  · simp at h
  · obtain ⟨keyword, -, rfl⟩ := List.mem_map.mp h
    exact ⟨_, ⟨rfl, rfl, by simpa [keywordSuggestion] using isWord_wordStart data offset⟩, rfl⟩

theorem replacesWord_of_mem_variableSuggestions {data : List UInt8} {offset : Int} {s : Suggestion}
    (h : s ∈ variableSuggestions data offset) :
    ∃ r, ReplacesWord data (clampOffset data offset) s r ∧ r.start + 1 = wordStart data offset ∧
      (data.take (wordStart data offset)).getLast? = some dollar := by
  unfold variableSuggestions at h
  dsimp only at h
  split at h
  case isFalse => simp at h
  case isTrue hd =>
    obtain ⟨name, -, rfl⟩ := List.mem_map.mp h
    have hword := isWord_wordStart data offset
    have hpos : wordStart data offset ≠ 0 := by
      intro h0
      simp [before, h0] at hd
    have hbound := Nat.le_trans hword.start_le_stop hword.stop_le_length
    have hlt : wordStart data offset - 1 < data.length := by omega
    have hsucc : wordStart data offset - 1 + 1 = wordStart data offset := by omega
    rw [before, List.head?_reverse] at hd
    have hbyte : data[wordStart data offset - 1]? = some dollar := by
      simpa [List.getLast?_take, hpos, List.getElem?_eq_getElem hlt] using hd
    exact ⟨_, ⟨rfl, rfl, by simpa [variableSuggestion, hsucc] using ⟨hbyte, hword⟩⟩, hsucc, hd⟩

variable {before after : Text} {s : Suggestion}

theorem covers_of_mem_suggestions (hs : Separable before after)
    (h : s ∈ variableSuggestions (utf8 (before ++ after)) before.utf8Length ∨
      s ∈ keywordSuggestions (utf8 (before ++ after)) before.utf8Length) :
    ∃ r, ReplacesWord (utf8 (before ++ after)) before.utf8Length s r ∧
      ∀ e : TextEdit, e.start = (ofText (before ++ after)).positionOf r.start →
        e.stop = (ofText (before ++ after)).positionOf r.stop → e.Covers (before ++ after) r := by
  obtain ⟨head, word, rfl, hw, hstart⟩ := exists_wordStart_eq before after
  obtain hvar | hkey := h
  · obtain ⟨r, hr, hsucc, hdollar⟩ := replacesWord_of_mem_variableSuggestions hvar
    rw [clampOffset_utf8Length] at hr
    rw [hstart, List.append_assoc, take_utf8_append] at hdollar
    obtain ⟨front, rfl⟩ := eq_append_dollar hdollar
    -- The dollar sign is no break either, so the edit may begin before it.
    have hw' : Unbroken (.ofChar '$' :: word) := List.forall_mem_cons.mpr ⟨by decide, hw⟩
    have hfront : r.start = front.utf8Length := by
      rw [hstart, utf8Length_append] at hsucc
      exact Nat.succ.inj hsucc
    have hcut : front ++ [.ofChar '$'] ++ word = front ++ .ofChar '$' :: word := by simp
    rw [hcut] at hs hr ⊢
    exact ⟨r, hr, fun e => TextEdit.covers_of_unbroken hw' hs hfront hr.stop_eq⟩
  · obtain ⟨r, hr, hrs⟩ := replacesWord_of_mem_keywordSuggestions hkey
    rw [clampOffset_utf8Length] at hr
    exact ⟨r, hr, fun e => TextEdit.covers_of_unbroken hw hs (hrs.trans hstart) hr.stop_eq⟩

theorem exists_covers (t : Text) (p : Position)
    (h : s ∈ variableSuggestions t.utf8 ((ofText t).offsetOf p) ∨
      s ∈ keywordSuggestions t.utf8 ((ofText t).offsetOf p)) :
    ∃ r, ReplacesWord t.utf8 ((ofText t).offsetOf p) s r ∧
      ∀ e : TextEdit, e.start = (ofText t).positionOf r.start →
        e.stop = (ofText t).positionOf r.stop → e.Covers t r := by
  obtain ⟨before, after, rfl, hsep, hoffset⟩ := hasOffset_offsetOf t p
  rw [hoffset] at h ⊢
  exact covers_of_mem_suggestions hsep h

end Php

namespace Completer

variable {source : Source} {offset : Int} {cap : Option Nat}

theorem meaning_php_none :
    (php none).meaning source offset =
      ⟨Php.variableSuggestions source.data offset ++ Php.keywordSuggestions source.data offset,
        .stopped true⟩ := by
  simp [php, meaning, meaningAll, Meaning.andThen, Meaning.stopped, Finish.after]

theorem finish_meaning_php (cap : Option Nat) (source : Source) (offset : Int) :
    ∃ complete, ((php cap).meaning source offset).finish = .stopped complete := by
  cases cap with
  | none => exact ⟨true, by rw [meaning_php_none]⟩
  | some n =>
    change ∃ complete, (((php none).meaning source offset).limit n).finish = .stopped complete
    rw [meaning_php_none, Meaning.limit]
    split
    · exact ⟨false, rfl⟩
    · exact ⟨true, rfl⟩

theorem mem_of_mem_meaning_php {s : Suggestion}
    (h : s ∈ ((php cap).meaning source offset).items) :
    s ∈ Php.variableSuggestions source.data offset ∨
      s ∈ Php.keywordSuggestions source.data offset := by
  apply List.mem_append.mp
  cases cap with
  | none => rwa [meaning_php_none] at h
  | some n =>
    have hlimit : s ∈ (((php none).meaning source offset).limit n).items := h
    rw [meaning_php_none, Meaning.limit] at hlimit
    split at hlimit
    · exact List.mem_of_mem_take hlimit
    · exact hlimit

end Completer

namespace CompletionService

variable {service : CompletionService} {workspace : Workspace} {place : Place}
  {document : Document} {cap : Option Nat}

theorem exists_list_of_php (h : service.Serves workspace place document (.php cap))
    (signals : Signals) : ∃ list, (service.complete workspace place signals).result = .ok list := by
  cases hr : (service.complete workspace place signals).result with
  | ok list => exact ⟨list, rfl⟩
  | error e =>
    obtain ⟨message, -, hfail⟩ := finish_of_complete_error h hr
    obtain ⟨complete, hstop⟩ := Completer.finish_meaning_php cap (service.sourceOf document)
      ((ofText document.text).offsetOf place.position)
    rw [searchMeaning, hstop] at hfail
    cases hfail

/-- A PHP completion gives a list, and the edit of each of its items puts the suggestion's name
where the word before the cursor stands, for a variable with its dollar sign. The edit ends at the
cursor, stays in its line, and replaces the bytes of the suggestion's range and no others. -/
theorem complete_php_edits_word (h : service.Serves workspace place document (.php cap))
    (hedits : service.options.textEdits = true)
    (ht : document.text.utf16Length ≤ Position.bound) (signals : Signals) :
    let table := ofText document.text
    let cursor := table.offsetOf place.position
    ∃ list, (service.complete workspace place signals).result = .ok list ∧
      ∀ item ∈ list.items, ∃ (s : Suggestion) (r : ByteRange) (e : TextEdit),
        s ∈ (service.searchMeaning document (.php cap) place.position).items ∧
        item = service.itemIn document s ∧ item.textEdit = some e ∧ e.newText = s.name ∧
        e.stop = table.positionOf cursor ∧ e.Covers document.text r ∧
        Php.ReplacesWord document.text.utf8 cursor s r ∧
        Position.ofInts e.start.line e.start.character = .ok e.start ∧
        Position.ofInts e.stop.line e.stop.character = .ok e.stop := by
  intro table cursor
  obtain ⟨list, hlist⟩ := exists_list_of_php h signals
  refine ⟨list, hlist, fun item hitem => ?_⟩
  -- Every item comes from a suggestion of the search, and each of those covers the word.
  obtain ⟨k, -, hitems, -⟩ := exists_take_of_complete_ok h rfl hlist
  rw [hitems] at hitem
  obtain ⟨s, hs, rfl⟩ := List.mem_map.mp hitem
  have hmem := Completer.mem_of_mem_meaning_php (List.mem_of_mem_take hs)
  obtain ⟨r, hr, hcovers⟩ := Php.exists_covers document.text place.position hmem
  have hedit : (service.itemIn document s).textEdit =
      some ⟨table.positionOf r.start, table.positionOf r.stop, s.name⟩ := by
    simp [itemIn, Suggestion.item, hedits, Suggestion.textEdit, hr.range_eq, table]
  have haccept (o : Nat) := (positionOf_inRange document.text o).ofInts_eq_ok ht
  exact ⟨s, r, _, List.mem_of_mem_take hs, rfl, hedit, rfl, by rw [hr.stop_eq], hcovers _ rfl rfl,
    hr, haccept _, haccept _⟩

def capped : CompletionService :=
  ⟨Server.registryFor { limit := some 2 }, { textEdits := true }, Text.ofString "php"⟩

theorem serves_capped (t : Text) (position : Position) :
    capped.Serves (.ofList [([], ⟨[], t, none⟩)]) ⟨[], position⟩ ⟨[], t, none⟩ (.php (some 2)) :=
  ⟨rfl, (Registry.find_php _ _).trans (if_pos rfl)⟩

/-- A variable with a letter of two bytes that also occurs in another line. -/
def umlautTwice : Text :=
  [.ofChar '$', .ofChar 'ö', .carriageReturn, .lineFeed, .ofChar '$', .ofChar 'ö']

theorem complete_php_edits_umlautTwice :
    ∃ list, (capped.complete (.ofList [([], ⟨[], umlautTwice, none⟩)]) ⟨[], ⟨1, 9⟩⟩ {}).result =
      .ok list ∧ list.items.length = 1 ∧ ∀ item ∈ list.items, ∃ e, item.textEdit = some e ∧
        e.start.line = 1 ∧ e.stop = ⟨1, 2⟩ := by
  obtain ⟨list, hlist, hitems⟩ := complete_php_edits_word (serves_capped umlautTwice ⟨1, 9⟩) rfl
    (by decide) {}
  have hone : (capped.complete (.ofList [([], ⟨[], umlautTwice, none⟩)]) ⟨[], ⟨1, 9⟩⟩
      {}).result.map (·.items.length) = .ok 1 := by cbv
  rw [hlist] at hone
  refine ⟨list, hlist, Except.ok.inj hone, fun item hitem => ?_⟩
  obtain ⟨s, r, e, -, -, hedit, -, hstop, hcovers, -⟩ := hitems item hitem
  have hend : e.stop = ⟨1, 2⟩ := by
    rw [hstop, LineTable.positionOf_eq_walk]
    decide
  exact ⟨e, hedit, hcovers.line_eq.trans (congrArg Position.line hend), hend⟩

end CompletionService

end CompletionServer
