import CompletionServer.Proofs.Capability.Aggregate
import CompletionServer.Proofs.Completion.Undisturbed
import CompletionServer.Proofs.Registry
import CompletionServer.Proofs.Server.Session

namespace CompletionServer

namespace Value

/-- The value is found in nested mappings, under one name after the other. -/
def HasAt : Value → List String → Value → Prop
  | v, [], w => v = w
  | v, name :: path, w => ∃ u, v.field? name = some u ∧ HasAt u path w

theorem not_hasAt_null {path : List String} {w : Value} (h : w.truthy = true) :
    ¬HasAt .null path w := by
  cases path with
  | nil =>
    rintro rfl
    exact Bool.false_ne_true h
  | cons name path =>
    rintro ⟨u, hu, -⟩
    cases hu

theorem truthy_foldl_field_iff (v : Value) (path : List String) :
    (path.foldl field v).truthy = true ↔ ∃ w, v.HasAt path w ∧ w.truthy = true := by
  induction path generalizing v with
  | nil => simp [HasAt]
  | cons name path ih =>
    rw [List.foldl_cons, ih, field]
    cases hu : v.field? name with
    | none =>
      -- An absent field reads as null, in which nothing is found that counts as yes.
      have hnull : ¬∃ w, HasAt .null path w ∧ w.truthy = true := fun ⟨w, hw, h⟩ =>
        not_hasAt_null h hw
      simpa [HasAt, hu] using hnull
    | some u => simp [HasAt, hu]

end Value

theorem Server.supportsSnippets_iff {capabilities : Value} :
    supportsSnippets capabilities = true ↔ ∃ w, capabilities.HasAt
      ["textDocument", "completion", "completionItem", "snippetSupport"] w ∧ w.truthy = true :=
  capabilities.truthy_foldl_field_iff
    ["textDocument", "completion", "completionItem", "snippetSupport"]

namespace Suggestion

variable {options : ItemOptions} {table : LineTable} {s : Suggestion}

theorem snippets_of_insertFormat (h : (s.item options table).insertFormat = some .snippet) :
    options.snippets = true := by
  by_contra hs
  simp [item, usableSnippet?, hs] at h

theorem textEdits_of_textEdit (h : (s.item options table).textEdit.isSome) :
    options.textEdits = true := by
  by_contra ht
  simp [item, ht] at h

end Suggestion

/-- The list is one that these settings allow. -/
structure CompletionList.Respects (list : CompletionList) (config : Config) (snippets : Bool) :
    Prop where
  snippet : ∀ item ∈ list.items, item.insertFormat = some .snippet →
    config.snippets = true ∧ snippets = true
  textEdit : ∀ item ∈ list.items, item.textEdit.isSome → config.textEdits = true
  length_le : ∀ n, config.limit = some n → list.items.length ≤ n

theorem CompletionList.respects_nil (config : Config) (snippets : Bool) :
    CompletionList.Respects ⟨false, []⟩ config snippets where
  snippet _ h := absurd h List.not_mem_nil
  textEdit _ h := absurd h List.not_mem_nil
  length_le n _ := Nat.zero_le n

def CompletionService.ofSettings (config : Config) (snippets : Bool) : CompletionService where
  registry := .ofList [(Text.ofString "php", .php config.limit)]
  options := ⟨config.snippets && snippets, config.textEdits, config.trimDollar⟩
  defaultLanguage := config.defaultLanguage

namespace CompletionService

variable {config : Config} {snippets : Bool} {workspace : Workspace} {place : Place}

theorem serves_ofSettings {document : Document}
    (hd : workspace.get? place.uri = some document)
    (hl : document.languageOr config.defaultLanguage = Text.ofString "php") :
    (ofSettings config snippets).Serves workspace place document (.php config.limit) :=
  ⟨hd, (Registry.find_php _ _).trans (if_pos hl)⟩

theorem respects_of_serves {document : Document}
    (h : (ofSettings config snippets).Serves workspace place document (.php config.limit))
    {signals : Signals} {list : CompletionList}
    (hlist : ((ofSettings config snippets).complete workspace place signals).result = .ok list) :
    list.Respects config snippets := by
  obtain ⟨k, hk, hitems, -⟩ := exists_take_of_complete_ok h rfl hlist
  have hmem {item : Item} (hi : item ∈ list.items) :
      ∃ s : Suggestion, item = (ofSettings config snippets).itemIn document s := by
    rw [hitems] at hi
    obtain ⟨s, -, rfl⟩ := List.mem_map.mp hi
    exact ⟨s, rfl⟩
  refine ⟨?_, ?_, ?_⟩
  · intro item hi hsnippet
    obtain ⟨s, rfl⟩ := hmem hi
    exact Bool.and_eq_true_iff.mp (Suggestion.snippets_of_insertFormat hsnippet)
  · intro item hi hedit
    obtain ⟨s, rfl⟩ := hmem hi
    exact Suggestion.textEdits_of_textEdit hedit
  · intro n hn
    -- The search itself stops at the limit, so no first part of it is longer.
    have hm : (searchMeaning (ofSettings config snippets) document (.php config.limit)
        place.position).items.length ≤ n := by
      rw [searchMeaning, Completer.meaning_php, hn]
      simp
    rw [hitems, List.length_map, List.length_take]
    omega

theorem respects_of_request_ok {signals : Signals} {list : CompletionList}
    (h : ((ofSettings config snippets).request workspace place signals).result = .ok list) :
    list.Respects config snippets := by
  have hlist := Report.settle_eq_ok h
  cases hd : workspace.get? place.uri with
  | none => simp [complete, hd] at hlist
  | some document =>
    by_cases hl : document.languageOr config.defaultLanguage = Text.ofString "php"
    · exact respects_of_serves (serves_ofSettings hd hl) hlist
    · -- A language without a completer gets the empty list.
      have hfind : (ofSettings config snippets).registry.find
          (document.languageOr (ofSettings config snippets).defaultLanguage) = .error ⟨_⟩ :=
        (Registry.find_php _ _).trans (if_neg hl)
      simp only [complete, hd, hfind] at hlist
      obtain rfl := Except.ok.inj hlist
      exact CompletionList.respects_nil config snippets

end CompletionService

namespace Group

variable (service : CompletionService) (help : HelpService) (workspace : Workspace) (place : Place)
  (signals : Signals)

/-- Beside one search and help there is nothing else to ask for completions. -/
theorem report_completeAll :
    (completeAll workspace place signals [.completion service, .help help]).report =
      service.complete workspace place signals := by
  cases h : service.complete workspace place signals with
  | mk result after events logs =>
    cases result with
    | ok list => simp [completeAll, Capability.complete?, h, Except.map]
    | error e => simp [completeAll, Capability.complete?, h]

theorem report_complete {first second : Text} (hne : first ≠ second) :
    (complete ⟨.ofList [(first, .completion service), (second, .help help)], true⟩ workspace
      place signals).report = service.request workspace place signals := by
  have hvalues : (Dictionary.ofList [(first, Capability.completion service),
      (second, .help help)]).values = [.completion service, .help help] := by
    simp [Dictionary.ofList, Dictionary.insert, Dictionary.put, Dictionary.empty,
      Dictionary.values, hne]
  simp only [complete, hvalues]
  rw [report_completeAll, CompletionService.request]

end Group

namespace Server

variable {s : Server} {config : Config} {snippets : Bool}

theorem result_complete_of_group {g : Group} (h : s.group = some g) (place : Place)
    (coming : List Arrival) :
    (s.complete place coming).result =
      ((g.complete s.workspace place { freshSignals with coming }).report.result.map
        .completions).mapError completionError := by
  simp only [complete, h]
  split
  next list hlist => rw [hlist]; rfl
  next e he => rw [he]; rfl

theorem SetUp.result_complete (h : s.SetUp config snippets) (place : Place)
    (coming : List Arrival) :
    (s.complete place coming).result =
      (((CompletionService.ofSettings config snippets).request s.workspace place
        { freshSignals with coming }).result.map .completions).mapError completionError := by
  have hgroup : s.group = some
      ⟨.ofList [(Text.ofString "completion", .completion (.ofSettings config snippets)),
        (Text.ofString "signature_help", .help ⟨s.helpers, config.defaultLanguage⟩)], true⟩ := by
    rw [h.group_eq, h.registry_eq]
    rfl
  rw [result_complete_of_group hgroup, Group.report_complete _ _ _ _ _ (by decide)]

theorem SetUp.request_of_complete_ok (h : s.SetUp config snippets) {place : Place}
    {coming : List Arrival} {list : CompletionList}
    (hlist : (s.complete place coming).result = .ok (.completions list)) :
    ((CompletionService.ofSettings config snippets).request s.workspace place
      { freshSignals with coming }).result = .ok list := by
  rw [h.result_complete] at hlist
  cases hr : ((CompletionService.ofSettings config snippets).request s.workspace place
      { freshSignals with coming }).result with
  | ok answered =>
    rw [hr] at hlist
    cases hlist
    rfl
  | error e =>
    rw [hr] at hlist
    cases hlist

theorem undisturbed_freshSignals {coming : List Arrival} (h : ∀ a ∈ coming, a.task = false) :
    Signals.Undisturbed { freshSignals with coming } :=
  ⟨⟨rfl, rfl⟩, rfl, h⟩

end Server

namespace Session

/-- A completion in a session, by the settings that the last successful initialising decided on and
the snippet support that its client announced. Whatever came before and whoever cancels what: a list
holds snippets only if both the settings and the client want them, text edits only if the settings
want them, and no more items than the limit. In a PHP document a request whose task is not cancelled
is answered with the first candidates, as many as the limit allows, and the list is incomplete just
if there are more. -/
theorem completions_respect_settings (ts : List Turn) {tree : FileTree} {i : Initialization}
    {config : Config} (hi : (ofTurns ts).initialised? = some (tree, i))
    (hd : i.Decides tree config) (t : Turn) {place : Place} (ht : t.request = .complete place) :
    let s := (ofTurns ts).server
    let result := (s.answer t).response.result
    ∃ snippets : Bool, (snippets = true ↔ ∃ w, i.capabilities.HasAt
        ["textDocument", "completion", "completionItem", "snippetSupport"] w ∧ w.truthy = true) ∧
      (∀ list, result = .ok (.completions list) → list.Respects config snippets) ∧
      ∀ document, s.workspace.get? place.uri = some document →
        document.languageOr config.defaultLanguage = Text.ofString "php" →
        (∀ a ∈ t.coming, a.task = false) →
        let table := LineTable.ofText document.text
        let candidates := Php.candidates document.text.utf8 (table.offsetOf place.position)
        let options : ItemOptions :=
          ⟨config.snippets && snippets, config.textEdits, config.trimDollar⟩
        ∃ list, result = .ok (.completions list) ∧
          list.items = (candidates.take (config.limit.getD candidates.length)).map
            (Suggestion.item options table) ∧
          (list.isIncomplete = true ↔ ∃ n, config.limit = some n ∧ n < candidates.length) := by
  intro s result
  have hs : s.SetUp config (Server.supportsSnippets i.capabilities) := setUp_of_initialised hi hd
  have hanswer : result = (s.complete place t.coming).result := by
    simp only [result, Server.answer, Server.handle, ht]
  rw [hanswer]
  refine ⟨_, Server.supportsSnippets_iff, ?_, ?_⟩
  · intro list hlist
    exact CompletionService.respects_of_request_ok (hs.request_of_complete_ok hlist)
  · intro document hdocument hphp hcalm table candidates options
    have hserves : (CompletionService.ofSettings config
        (Server.supportsSnippets i.capabilities)).Serves s.workspace place document
        (.php config.limit) := CompletionService.serves_ofSettings hdocument hphp
    have hrequest := CompletionService.request_php_of_undisturbed hserves
      (Server.undisturbed_freshSignals hcalm)
    refine ⟨_, by rw [hs.result_complete, hrequest]; rfl, rfl, ?_⟩
    cases config.limit with
    | none => simp
    | some n => simp [candidates, table]

def emptyOpened : List Turn :=
  reinitialised ++ [⟨.empty, .openDocument ⟨"file:///ws/a.php", [], none⟩, []⟩]

/-- While the token of another request is cancelled, the answer holds three of the keywords. -/
theorem completions_respect_settings_emptyOpened :
    ∃ list, ((ofTurns emptyOpened).server.answer ⟨.empty, .complete ⟨"file:///ws/a.php", ⟨0, 0⟩⟩,
        [⟨true, false⟩]⟩).response.result = .ok (.completions list) ∧
      list.items.length = 3 ∧ list.isIncomplete = true ∧
      ∀ item ∈ list.items, item.insertFormat ≠ some .snippet := by
  have hd : (limiting "file:///ws" 3).Decides .empty { limit := some 3 } := .loaded rfl rfl
  have hi : (ofTurns emptyOpened).initialised? = some (.empty, limiting "file:///ws" 3) := rfl
  obtain ⟨snippets, hsnippets, hall, hphp⟩ := completions_respect_settings emptyOpened hi hd
    ⟨.empty, .complete ⟨"file:///ws/a.php", ⟨0, 0⟩⟩, [⟨true, false⟩]⟩ rfl
  obtain ⟨list, hlist, hitems, hincomplete⟩ := hphp ⟨"file:///ws/a.php", [], none⟩ rfl rfl (by simp)
  refine ⟨list, hlist, ?_, hincomplete.mpr ⟨3, rfl, by decide⟩, ?_⟩
  · rw [hitems, List.length_map, List.length_take]
    rfl
  · intro item hitem hsnippet
    obtain ⟨w, hw, htruthy⟩ := hsnippets.mp ((hall list hlist).snippet item hitem hsnippet).2
    exact Value.not_hasAt_null htruthy hw

end Session

end CompletionServer
