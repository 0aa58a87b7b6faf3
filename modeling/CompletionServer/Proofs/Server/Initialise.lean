import CompletionServer.Proofs.Settings.Crash
import CompletionServer.Server.Basic
import Mathlib

namespace CompletionServer

namespace Server

/-- The server answers requests, on loaded settings or on the defaults and an error message that
says so. -/
structure Working (tree : FileTree) (root : Option Path) (i : Initialization)
    (after : Server × Response) : Prop where
  result_eq : after.2.result = .ok .done
  group_eq : after.1.group = some (standardGroup after.1.config (supportsSnippets i.capabilities))
  config_cases : Settings.load tree root i.options = .ok after.1.config ∨
    after.1.config = {} ∧ ∃ text : Text, after.2.logs.filter (·.severity = .error) =
      [⟨.error, text ++ "; using default settings"⟩]

variable {tree : FileTree} {root : Option Path} {i : Initialization}

theorem initialise_of_rootPath (hroot : rootPath? i.rootUri = .ok root) (s : Server) :
    s.initialise tree i =
      match settingsFor tree root i.options with
      | .error c => (s, ⟨.error (.crash c), [], []⟩)
      | .ok (config, logs) =>
        (s.configured config (supportsSnippets i.capabilities),
          ⟨.ok .done, [], logs ++ [⟨.info, "Completion enabled for: " ++
            Text.join ", " (registryFor config).languages⟩]⟩) := by
  simp only [initialise, hroot, bind, Except.bind]
  rfl

theorem initialise_of_load_crash (hroot : rootPath? i.rootUri = .ok root) {c : Crash}
    (hload : Settings.load tree root i.options = .error (.crash c)) (s : Server) :
    s.initialise tree i = (s, ⟨.error (.crash c), [], []⟩) := by
  rw [initialise_of_rootPath hroot, settingsFor, hload]

/-- A server works once it is initialised, unless loading its settings crashes. -/
theorem working_initialise_iff (hroot : rootPath? i.rootUri = .ok root) (s : Server) :
    Working tree root i (s.initialise tree i) ↔
      ¬ ∃ c, Settings.load tree root i.options = .error (.crash c) := by
  cases hload : Settings.load tree root i.options with
  | ok config =>
    have hconfig : (s.initialise tree i).1 =
        s.configured config (supportsSnippets i.capabilities) := by
      rw [initialise_of_rootPath hroot, settingsFor, hload]
    refine iff_of_true ⟨?_, ?_, .inl ?_⟩ (by simp)
    · rw [initialise_of_rootPath hroot, settingsFor, hload]
    · rw [hconfig, configured]
    · rw [hconfig, hload, configured]
  | error e =>
    cases e with
    | crash c =>
      refine iff_of_false (fun h => ?_) (by simp)
      have hresult := h.result_eq
      rw [initialise_of_load_crash hroot hload] at hresult
      cases hresult
    | settings e =>
      refine iff_of_true ⟨?_, ?_, .inr ⟨?_, e.message, ?_⟩⟩ (by simp) <;>
        rw [initialise_of_rootPath hroot, settingsFor, hload]
      · rfl
      · rfl
      · rfl

/-- Bytes that are no text, near the beginning of the settings file, leave the server as it was. -/
theorem initialise_of_fault {root path : Path} {bytes : List UInt8}
    (hroot : rootPath? i.rootUri = .ok (some root))
    (hfind : Settings.findFile tree root = .ok (some path)) (hbytes : tree.read path = .ok bytes)
    {f : Utf8.Fault} (hf : (Decoded.ofBytes bytes).fault = some f)
    (hshort : (Decoded.ofBytes bytes).text.length < Yaml.firstLook) (s : Server) :
    s.initialise tree i = (s, ⟨.error (.crash (.undecodable f)), [], []⟩) := by
  apply initialise_of_load_crash hroot
  have hdocument := Settings.document_of_parse_error (Settings.check_of_findFile hfind) hbytes
    (Settings.parse_of_fault hf hshort)
  rw [Settings.load_of_findFile hfind, Settings.loadFrom, hdocument]
  rfl

/-- Over a settings file whose text, once decoded, is a document or not one, a server works unless
the reader comes across bytes that are no text or a value is refused that cannot be shown. Bytes
that are no text are always come across near the beginning of a file, and then nothing changes. -/
theorem initialise_works_iff {root path : Path} {bytes : List UInt8}
    (hroot : rootPath? i.rootUri = .ok (some root))
    (hfind : Settings.findFile tree root = .ok (some path)) (hbytes : tree.read path = .ok bytes)
    (hyaml : ∀ f, Settings.parse bytes = .error f →
      f.isDocumentFault = true ∨ (Decoded.ofBytes bytes).fault.map .undecodable = some f)
    (s : Server) :
    (Working tree (some root) i (s.initialise tree i) ↔
      (¬ ∃ f, (Decoded.ofBytes bytes).fault = some f ∧
        Settings.parse bytes = .error (.undecodable f)) ∧
      ∀ e, Settings.Refuses tree path i.options e → e.isUnspeakable = false) ∧
    ∀ f, (Decoded.ofBytes bytes).fault = some f →
      (Decoded.ofBytes bytes).text.length < Yaml.firstLook →
      s.initialise tree i = (s, ⟨.error (.crash (.undecodable f)), [], []⟩) := by
  constructor
  · -- With the reader's own faults left out, what is no fault of the document is one of its bytes.
    have hfault : (∃ f, Settings.parse bytes = .error f ∧ f.isDocumentFault = false) ↔
        ∃ f, (Decoded.ofBytes bytes).fault = some f ∧
          Settings.parse bytes = .error (.undecodable f) := by
      constructor
      · rintro ⟨f, hf, hdoc⟩
        obtain htrue | hdecode := hyaml f hf
        · rw [hdoc] at htrue
          cases htrue
        · obtain ⟨g, hg, rfl⟩ := Option.map_eq_some_iff.mp hdecode
          exact ⟨g, hg, hf⟩
      · rintro ⟨f, -, hf⟩
        exact ⟨.undecodable f, hf, rfl⟩
    rw [working_initialise_iff hroot, Settings.load_crashes_iff hfind hbytes, hfault, not_or]
    simp
  · intro f hf hshort
    exact initialise_of_fault hroot hfind hbytes hf hshort s

def oneFile (bytes : List UInt8) : FileTree :=
  { files := [([Text.ofString "ws", Text.ofString Settings.fileName], bytes)], folders := [] }

def oneFolder : Path := .ofText "/ws"

def oneRequest : Initialization where
  rootUri := some "file:///ws"
  options := .object [("completion", .object [("limit", .int 3)])]
  capabilities := .null

theorem rootPath_oneRequest : rootPath? oneRequest.rootUri = .ok (some oneFolder) :=
  rfl

theorem findFile_oneFile (bytes : List UInt8) : Settings.findFile (oneFile bytes) oneFolder =
    .ok (some (oneFolder.child Settings.fileName)) := by
  cbv

theorem read_oneFile (bytes : List UInt8) :
    (oneFile bytes).read (oneFolder.child Settings.fileName) = .ok bytes := by
  cbv

theorem initialise_works_loneBracket :
    Settings.parse [0x5B] = .error (.unexpected none) ∧
      Working (oneFile [0x5B]) (some oneFolder) oneRequest
        (initialise (oneFile [0x5B]) {} oneRequest) := by
  have hparse : Settings.parse [0x5B] = .error (.unexpected none) := by cbv
  have hfault : (Decoded.ofBytes [0x5B]).fault = none := by cbv
  have hdocument := Settings.document_of_parse_error
    (Settings.check_of_findFile (findFile_oneFile [0x5B])) (read_oneFile [0x5B]) hparse
  have hyaml : ∀ f, Settings.parse [0x5B] = .error f → f.isDocumentFault = true ∨
      (Decoded.ofBytes [0x5B]).fault.map .undecodable = some f := by
    intro f hf
    obtain rfl := Except.error.inj (hparse.symm.trans hf)
    exact .inl rfl
  refine ⟨hparse, (initialise_works_iff rootPath_oneRequest (findFile_oneFile _) (read_oneFile _)
    hyaml {}).1.mpr ⟨?_, ?_⟩⟩
  · rintro ⟨f, hf, -⟩
    rw [hfault] at hf
    cases hf
  · intro e he
    cases he with
    | file hd he =>
      rw [hdocument] at hd
      cases hd
    | options hc he =>
      rw [Settings.loadFrom, hdocument] at hc
      cases hc

/-- A file of one byte that no text begins with leaves the server without capabilities. -/
theorem initialise_fails_loneByte :
    (∀ f, Settings.parse [0xFF] = .error f → f.isDocumentFault = true ∨
      (Decoded.ofBytes [0xFF]).fault.map .undecodable = some f) ∧
    (initialise (oneFile [0xFF]) {} oneRequest).1.group = none ∧
    (initialise (oneFile [0xFF]) {} oneRequest).2.logs = [] ∧
    ¬ Working (oneFile [0xFF]) (some oneFolder) oneRequest
      (initialise (oneFile [0xFF]) {} oneRequest) := by
  have hfault : (Decoded.ofBytes [0xFF]).fault = some ⟨0, 1, 0xFF, .startByte⟩ := by cbv
  have hshort : (Decoded.ofBytes [0xFF]).text.length < Yaml.firstLook := by cbv
  have hparse := Settings.parse_of_fault hfault hshort
  rw [initialise_of_fault rootPath_oneRequest (findFile_oneFile _) (read_oneFile _) hfault hshort]
  refine ⟨?_, rfl, rfl, ?_⟩
  · intro f hf
    obtain rfl := Except.error.inj (hparse.symm.trans hf)
    rw [hfault]
    exact .inr rfl
  · intro h
    cases h.result_eq

end Server

end CompletionServer
