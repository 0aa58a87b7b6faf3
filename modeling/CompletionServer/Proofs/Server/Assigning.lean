import CompletionServer.Proofs.Server.Initialise

namespace CompletionServer

theorem Completer.limit?_natCast (n : Nat) (inner : Completer) :
    limit? n inner = .ok (limit n inner) := by
  have hn : ¬(n : Int) < 0 := by omega
  rw [limit?, if_neg hn, Int.toNat_natCast]

namespace Server

theorem initialise_of_rootPath_error {tree : FileTree} {i : Initialization} {c : Crash}
    (hroot : rootPath? i.rootUri = .error c) (s : Server) :
    s.initialise tree i = (s, ⟨.error (.crash c), [], []⟩) := by
  simp only [initialise, hroot]
  rfl

/-- What could stop initialising on its way. -/
inductive Interruption where
  | crash (c : Crash)
  | limit (e : Completer.NegativeLimit)

abbrev Assigning := ExceptT Interruption (StateM (Server × List LogMessage))

namespace Assigning

def assign (f : Server → Server) : Assigning Unit :=
  modify fun (s, logs) => (f s, logs)

def log (m : LogMessage) : Assigning Unit :=
  modify fun (s, logs) => (s, logs ++ [m])

def server : Assigning Server :=
  return (← get).1

/-- The folder is looked up before anything is assigned. -/
def root (i : Initialization) : Assigning (Option Path) :=
  match rootPath? i.rootUri with
  | .ok root => return root
  | .error c => throw (.crash c)

def settings (tree : FileTree) (root : Option Path) (options : Value) : Assigning Unit :=
  match Settings.load tree root options with
  | .ok config => assign fun s => { s with config := config }
  | .error (.settings e) => do
    log ⟨.error, e.message ++ "; using default settings"⟩
    assign fun s => { s with config := {} }
  | .error (.crash c) => throw (.crash c)

/-- The search for PHP refuses a negative limit. -/
def searches (limit : Option Nat) : Assigning (Registry Completer) := do
  let all := Completer.chain [.phpVariables, .phpKeywords]
  match limit with
  | none => return .ofList [(Text.ofString "php", all)]
  | some n =>
    match Completer.limit? n all with
    | .ok php => return .ofList [(Text.ofString "php", php)]
    | .error e => throw (.limit e)

/-- The services take what the server holds at that moment. -/
def services (s : Server) : Group where
  capabilities := .ofList
    [(Text.ofString "completion", .completion
        ⟨s.registry, itemOptions s.config s.snippetSupport, s.config.defaultLanguage⟩),
      (Text.ofString "signature_help", .help ⟨s.helpers, s.config.defaultLanguage⟩)]

def installation (capabilities : Value) : Assigning Unit := do
  if let some path := (← server).config.source then
    log ⟨.info, "Loaded settings from " ++ path.render⟩
  assign fun s => { s with snippetSupport := supportsSnippets capabilities }
  let registry ← searches (← server).config.limit
  assign fun s => { s with registry := registry }
  assign fun s => { s with helpers := .ofList [(Text.ofString "php", .php)] }
  assign fun s => { s with group := some (services s) }
  assign fun s => { s with group := s.group.map (·.register.1) }
  log ⟨.info, "Completion enabled for: " ++ Text.join ", " (← server).registry.languages⟩

/-- Initialising as a course of assignments, each of which takes effect at once. -/
def initialise (tree : FileTree) (i : Initialization) : Assigning Unit := do
  settings tree (← root i) i.options
  installation i.capabilities

theorem searches_eq (limit : Option Nat) :
    searches limit = return .ofList [(Text.ofString "php", .php limit)] := by
  cases limit with
  | none => rfl
  | some n => simp only [searches, Completer.limit?_natCast, Completer.php]

theorem installation_run (capabilities : Value) (s : Server) (logs : List LogMessage) :
    (installation capabilities).run.run (s, logs) =
      (.ok (), s.configured s.config (supportsSnippets capabilities),
        logs ++
          (s.config.source.toList.map fun p => ⟨.info, "Loaded settings from " ++ p.render⟩) ++
          [⟨.info, "Completion enabled for: " ++
            Text.join ", " (registryFor s.config).languages⟩]) := by
  simp only [installation, searches_eq]
  obtain ⟨⟨snippets, textEdits, trimDollar, limit, language, source⟩, registry, helpers, support,
    group, workspace⟩ := s
  cases source with
  | none => simp; rfl
  | some path => rfl

/-- Nothing but a crash before the first assignment stops initialising, and what the assignments
leave behind is put in place as if at once. -/
theorem initialise_run (tree : FileTree) (i : Initialization) (s : Server) :
    ∃ outcome : Except Crash Unit,
      (initialise tree i).run.run (s, []) =
        (outcome.mapError .crash, (s.initialise tree i).1, (s.initialise tree i).2.logs) ∧
      (s.initialise tree i).2.result = (outcome.map fun _ => .done).mapError .crash := by
  cases hroot : rootPath? i.rootUri with
  | error c =>
    -- The folder is looked up first, so nothing has been assigned yet.
    rw [initialise_of_rootPath_error hroot]
    refine ⟨.error c, ?_, rfl⟩
    rw [initialise, root, hroot]
    rfl
  | ok root =>
    cases hload : Settings.load tree root i.options with
    | ok config =>
      refine ⟨.ok (), ?_, by rw [initialise_of_rootPath hroot, settingsFor, hload]; rfl⟩
      rw [initialise_of_rootPath hroot, settingsFor, hload, initialise, Assigning.root, hroot,
        pure_bind, settings, hload]
      exact installation_run i.capabilities { s with config := config } []
    | error e =>
      cases e with
      | crash c =>
        -- The settings are loaded before they are assigned, so a crash changes nothing either.
        rw [initialise_of_load_crash hroot hload]
        refine ⟨.error c, ?_, rfl⟩
        rw [initialise, Assigning.root, hroot, pure_bind, settings, hload]
        rfl
      | settings e =>
        refine ⟨.ok (), ?_, by rw [initialise_of_rootPath hroot, settingsFor, hload]; rfl⟩
        rw [initialise_of_rootPath hroot, settingsFor, hload, initialise, Assigning.root, hroot,
          pure_bind, settings, hload]
        exact installation_run i.capabilities { s with config := {} } [_]

end Assigning

end Server

end CompletionServer
