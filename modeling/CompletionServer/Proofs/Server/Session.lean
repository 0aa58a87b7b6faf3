import CompletionServer.Proofs.Server.Assigning

namespace CompletionServer

/-- A request, the files that the server finds at that time, and what others cancel during it. A
request that is withdrawn before it begins is no turn: it is not handled at all. -/
structure Turn where
  tree : FileTree
  request : Request
  coming : List Arrival := []

structure Exchange where
  turn : Turn
  response : Response

def Exchange.initialised? (e : Exchange) : Option (FileTree × Initialization) :=
  match e.turn.request, e.response.result with
  | .initialise i, .ok _ => some (e.turn.tree, i)
  | _, _ => none

def Request.isNotice : Request → Bool
  | openDocument _ | changeDocument _ _ | closeDocument _ => true
  | initialise _ | complete _ | help _ => false

/-- The settings that initialising comes to: what it loads, or the defaults if that is refused. -/
inductive Initialization.Decides (tree : FileTree) (i : Initialization) : Config → Prop
  | loaded {root : Option Path} {config : Config} : Server.rootPath? i.rootUri = .ok root →
    Settings.load tree root i.options = .ok config → Decides tree i config
  | refused {root : Option Path} {e : SettingsError} : Server.rootPath? i.rootUri = .ok root →
    Settings.load tree root i.options = .error (.settings e) → Decides tree i {}

theorem Initialization.Decides.unique {tree : FileTree} {i : Initialization} {c c' : Config}
    (h : i.Decides tree c) (h' : i.Decides tree c') : c = c' := by
  cases h with
  | loaded hroot hload =>
    cases h' with
    | loaded hroot' hload' => simp_all
    | refused hroot' hload' => simp_all
  | refused hroot hload =>
    cases h' with
    | loaded hroot' hload' => simp_all
    | refused hroot' hload' => rfl

namespace Server

/-- Everything that hangs on the settings goes by the same ones. -/
structure SetUp (s : Server) (config : Config) (snippets : Bool) : Prop where
  config_eq : s.config = config
  snippetSupport_eq : s.snippetSupport = snippets
  registry_eq : s.registry = .ofList [(Text.ofString "php", .php config.limit)]
  helpers_eq : s.helpers = .ofList [(Text.ofString "php", .php)]
  group_eq : s.group = some
    ⟨.ofList [(Text.ofString "completion", .completion ⟨s.registry,
        ⟨config.snippets && snippets, config.textEdits, config.trimDollar⟩,
        config.defaultLanguage⟩),
      (Text.ofString "signature_help", .help ⟨s.helpers, config.defaultLanguage⟩)], true⟩

theorem setUp_configured (s : Server) (config : Config) (snippets : Bool) :
    (s.configured config snippets).SetUp config snippets :=
  ⟨rfl, rfl, rfl, rfl, rfl⟩

/-- Initialising fails and changes nothing, or it puts in place what it decides. -/
theorem initialise_cases (tree : FileTree) (s : Server) (i : Initialization) :
    (∃ c, s.initialise tree i = (s, ⟨.error (.crash c), [], []⟩)) ∨
    ∃ config logs, i.Decides tree config ∧ s.initialise tree i =
      (s.configured config (supportsSnippets i.capabilities), ⟨.ok .done, [], logs⟩) := by
  cases hroot : rootPath? i.rootUri with
  | error c => exact .inl ⟨c, initialise_of_rootPath_error hroot s⟩
  | ok root =>
    have hs : s.initialise tree i = _ := initialise_of_rootPath hroot s
    cases hload : Settings.load tree root i.options with
    | ok config =>
      rw [settingsFor, hload] at hs
      exact .inr ⟨config, _, .loaded hroot hload, hs⟩
    | error e =>
      rw [settingsFor, hload] at hs
      cases e with
      | crash c => exact .inl ⟨c, hs⟩
      | settings e => exact .inr ⟨{}, _, .refused hroot hload, hs⟩

def answer (s : Server) (t : Turn) : Exchange :=
  ⟨t, (s.handle t.tree t.request t.coming).2⟩

def next (s : Server) (t : Turn) : Server :=
  (s.handle t.tree t.request t.coming).1

theorem handle_cases (s : Server) (t : Turn) :
    ((s.answer t).initialised? = none ∧
      s.next t = { s with workspace := (s.next t).workspace } ∧
      (t.request.isNotice = false → s.next t = s)) ∨
    ∃ i config, (s.answer t).initialised? = some (t.tree, i) ∧ i.Decides t.tree config ∧
      s.next t = s.configured config (supportsSnippets i.capabilities) := by
  obtain ⟨tree, request, coming⟩ := t
  cases request with
  | initialise i =>
    obtain ⟨c, hs⟩ | ⟨config, logs, hd, hs⟩ := initialise_cases tree s i
    · left
      simp [answer, next, handle, hs, Exchange.initialised?]
    · right
      exact ⟨i, config, by simp [answer, handle, hs, Exchange.initialised?], hd,
        by simp [next, handle, hs]⟩
  | openDocument d =>
    left
    refine ⟨rfl, ?_, by simp [Request.isNotice]⟩
    simp only [next, handle, openDocument]
    split <;> rfl
  | changeDocument uri text =>
    left
    refine ⟨rfl, ?_, by simp [Request.isNotice]⟩
    simp only [next, handle, changeDocument]
    split <;> rfl
  | closeDocument uri => exact .inl ⟨rfl, rfl, by simp [Request.isNotice]⟩
  | complete place => exact .inl ⟨rfl, rfl, fun _ => rfl⟩
  | help place => exact .inl ⟨rfl, rfl, fun _ => rfl⟩

variable {s : Server} {t : Turn}

theorem next_of_not_initialised (ht : (s.answer t).initialised? = none) :
    s.next t = { s with workspace := (s.next t).workspace } ∧
      (t.request.isNotice = false → s.next t = s) := by
  obtain ⟨-, hsame, hrest⟩ | ⟨i, config, hsome, -⟩ := s.handle_cases t
  · exact ⟨hsame, hrest⟩
  · rw [ht] at hsome
    cases hsome

theorem answer_complete_of_group_none (hg : s.group = none) {place : Place}
    (ht : t.request = .complete place) :
    (s.answer t).response = ⟨.ok (.completions ⟨false, []⟩), [], []⟩ := by
  simp only [answer, handle, ht, complete, hg]

theorem answer_help_of_group_none (hg : s.group = none) {place : Place}
    (ht : t.request = .help place) : (s.answer t).response = ⟨.ok (.help none), [], []⟩ := by
  simp only [answer, handle, ht, help, hg]

end Server

structure Session where
  server : Server := {}
  exchanges : List Exchange := []

namespace Session

def take (x : Session) (t : Turn) : Session :=
  ⟨x.server.next t, x.exchanges ++ [x.server.answer t]⟩

def ofTurns (ts : List Turn) : Session :=
  ts.foldl take {}

def initialised? (x : Session) : Option (FileTree × Initialization) :=
  (x.exchanges.filterMap Exchange.initialised?).getLast?

/-- The server is as new but for its documents, or as the last successful initialising made it. -/
def InForce (x : Session) : Prop :=
  match x.initialised? with
  | none => x.server = { workspace := x.server.workspace }
  | some (tree, i) => ∃ config, i.Decides tree config ∧
      x.server = x.server.configured config (Server.supportsSnippets i.capabilities)

theorem ofTurns_concat (ts : List Turn) (t : Turn) : ofTurns (ts ++ [t]) = (ofTurns ts).take t := by
  simp [ofTurns]

theorem initialised?_take (x : Session) (t : Turn) :
    (x.take t).initialised? = (x.server.answer t).initialised?.or x.initialised? := by
  cases h : (x.server.answer t).initialised? with
  | none => simp [initialised?, take, h]
  | some a => simp [initialised?, take, h]

/-- What is in force stays so until a request initialises the server again. -/
theorem InForce.take {x : Session} (h : x.InForce) (t : Turn) : (x.take t).InForce := by
  obtain ⟨hnone, hsame, -⟩ | ⟨i, config, hsome, hd, hserver⟩ := x.server.handle_cases t
  · rw [InForce, initialised?_take, hnone, Option.none_or]
    unfold InForce at h
    split at h
    next =>
      rw [Session.take, hsame, h]
    next tree i hi =>
      obtain ⟨config, hd, hserver⟩ := h
      refine ⟨config, hd, ?_⟩
      rw [Session.take, hsame, hserver]
      rfl
  · rw [InForce, initialised?_take, hsome, Option.some_or]
    refine ⟨config, hd, ?_⟩
    rw [Session.take, hserver]
    rfl

theorem inForce_ofTurns (ts : List Turn) : (ofTurns ts).InForce := by
  induction ts using List.reverseRecOn with
  | nil => rfl
  | append_singleton ts t ih =>
    rw [ofTurns_concat]
    exact ih.take t

theorem isSome_initialised?_iff (x : Session) :
    x.initialised?.isSome ↔ ∃ e ∈ x.exchanges, e.initialised?.isSome := by
  simp [initialised?]

variable {ts : List Turn}

theorem group_of_not_initialised (h : (ofTurns ts).initialised? = none) :
    (ofTurns ts).server.group = none := by
  have hforce := inForce_ofTurns ts
  rw [InForce, h] at hforce
  rw [hforce]

theorem exists_decides_of_initialised {tree : FileTree} {i : Initialization}
    (hi : (ofTurns ts).initialised? = some (tree, i)) : ∃ config, i.Decides tree config := by
  have hforce := inForce_ofTurns ts
  rw [InForce, hi] at hforce
  obtain ⟨config, hd, -⟩ := hforce
  exact ⟨config, hd⟩

theorem setUp_of_initialised {tree : FileTree} {i : Initialization}
    {config : Config} (hi : (ofTurns ts).initialised? = some (tree, i))
    (hd : i.Decides tree config) :
    (ofTurns ts).server.SetUp config (Server.supportsSnippets i.capabilities) := by
  have hforce := inForce_ofTurns ts
  rw [InForce, hi] at hforce
  obtain ⟨config', hd', hserver⟩ := hforce
  obtain rfl := hd.unique hd'
  rw [hserver]
  exact Server.setUp_configured _ _ _

theorem isSome_group_iff (ts : List Turn) :
    (ofTurns ts).server.group.isSome ↔ (ofTurns ts).initialised?.isSome := by
  cases hx : (ofTurns ts).initialised? with
  | none => simp [group_of_not_initialised hx]
  | some p =>
    obtain ⟨config, hd⟩ := exists_decides_of_initialised hx
    simp [(setUp_of_initialised hx hd).group_eq]

theorem turn_exchanges (ts : List Turn) : (ofTurns ts).exchanges.map (·.turn) = ts := by
  induction ts using List.reverseRecOn with
  | nil => rfl
  | append_singleton ts t ih =>
    rw [ofTurns_concat, take, List.map_append, ih]
    rfl

/-- Over any session the server has capabilities once a request to initialise it has succeeded, and
until then its answers are empty. What it then holds is what the last such request decided on, all
of it together. Whatever fails, and every request for a completion or for help, leaves the whole
server as it was, and a notice leaves all but the documents. That initialising never stops between
two of its assignments is part of this. -/
theorem server_goes_by_last_initialised (ts : List Turn) :
    let x := ofTurns ts
    x.exchanges.map (·.turn) = ts ∧
    (x.server.group.isSome ↔ ∃ e ∈ x.exchanges, e.initialised?.isSome) ∧
    (x.initialised? = none → ∀ t place,
      (t.request = .complete place →
        (x.server.answer t).response = ⟨.ok (.completions ⟨false, []⟩), [], []⟩) ∧
      (t.request = .help place → (x.server.answer t).response = ⟨.ok (.help none), [], []⟩)) ∧
    (∀ tree i, x.initialised? = some (tree, i) →
      ∃ config, (∀ c, i.Decides tree c ↔ c = config) ∧
        x.server.SetUp config (Server.supportsSnippets i.capabilities)) ∧
    (∀ t, (x.server.answer t).initialised? = none →
      (x.take t).server = { x.server with workspace := (x.take t).server.workspace } ∧
      (t.request.isNotice = false → (x.take t).server = x.server)) ∧
    ∀ tree i, ∃ outcome : Except Crash Unit,
      (Server.Assigning.initialise tree i).run.run (x.server, []) =
        (outcome.mapError .crash, (x.server.initialise tree i).1,
          (x.server.initialise tree i).2.logs) ∧
      (x.server.initialise tree i).2.result = (outcome.map fun _ => .done).mapError .crash := by
  intro x
  refine ⟨turn_exchanges ts, ?_, ?_, ?_, ?_, ?_⟩
  · rw [← isSome_initialised?_iff]
    exact isSome_group_iff ts
  · intro hx t place
    have hgroup : x.server.group = none := group_of_not_initialised hx
    exact ⟨Server.answer_complete_of_group_none hgroup, Server.answer_help_of_group_none hgroup⟩
  · intro tree i hx
    obtain ⟨config, hd⟩ := exists_decides_of_initialised hx
    have hunique (c : Config) : i.Decides tree c ↔ c = config :=
      ⟨fun hc => hc.unique hd, fun hc => hc ▸ hd⟩
    exact ⟨config, hunique, setUp_of_initialised hx hd⟩
  · intro t ht
    exact Server.next_of_not_initialised ht
  · intro tree i
    exact Server.Assigning.initialise_run tree i x.server

def limiting (uri : Text) (n : Nat) : Initialization where
  rootUri := some uri
  options := .object [("completion", .object [("limit", .int n)])]
  capabilities := .null

/-- A completion is asked for too early, and initialising again fails for want of a folder. -/
def reinitialised : List Turn :=
  [⟨.empty, .complete ⟨[], ⟨0, 0⟩⟩, []⟩, ⟨.empty, .initialise (limiting "file:///ws" 3), []⟩,
    ⟨.empty, .initialise (limiting "http://ws" 5), []⟩]

theorem reinitialised_keeps_limit :
    (ofTurns reinitialised).server.SetUp { limit := some 3 } false ∧
    (ofTurns reinitialised).server = (ofTurns (reinitialised.take 2)).server ∧
    (({} : Server).answer ⟨.empty, .complete ⟨[], ⟨0, 0⟩⟩, []⟩).response =
      ⟨.ok (.completions ⟨false, []⟩), [], []⟩ := by
  have hx : (ofTurns reinitialised).initialised? = some (.empty, limiting "file:///ws" 3) :=
    rfl
  have hd : (limiting "file:///ws" 3).Decides .empty { limit := some 3 } := .loaded rfl rfl
  refine ⟨?_, ?_, ?_⟩
  · obtain ⟨-, -, -, hset, -⟩ := server_goes_by_last_initialised reinitialised
    obtain ⟨config, hconfig, hs⟩ := hset _ _ hx
    obtain rfl := (hconfig _).mp hd
    exact hs
  · obtain ⟨-, -, -, -, hrest, -⟩ := server_goes_by_last_initialised (reinitialised.take 2)
    exact (hrest ⟨.empty, .initialise (limiting "http://ws" 5), []⟩ rfl).2 rfl
  · obtain ⟨-, -, hnone, -⟩ := server_goes_by_last_initialised []
    exact (hnone rfl ⟨.empty, .complete ⟨[], ⟨0, 0⟩⟩, []⟩ ⟨[], ⟨0, 0⟩⟩).1 rfl

end Session

end CompletionServer
