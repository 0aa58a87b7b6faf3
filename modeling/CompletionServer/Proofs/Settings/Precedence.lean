import CompletionServer.Proofs.Server.Initialise
import CompletionServer.Proofs.Settings.Layers
import CompletionServer.Proofs.Settings.Nearest

namespace CompletionServer.Settings

def base (tree : FileTree) : Option Path → Except LoadError Config
  | some path => loadFrom tree path
  | none => .ok {}

/-- What the bytes of a valid settings file say of each field; without a file, nothing is said. -/
inductive FileGives (tree : FileTree) : Option Path → (SettingKey → Option Value) → Prop
  | noFile : FileGives tree none fun _ => none
  | file {path : Path} {bytes : List UInt8} {d : Yaml.Document} : tree.read path = .ok bytes →
    parse bytes = .ok d → d.HoldsSettings → Config.Acceptable d.settings →
    FileGives tree (some path) d.settings.setting?

/-- What is wrong with a settings file: it cannot be read, its bytes spell no document, or one with
something else at its top level, or one with settings that are refused. -/
inductive FileFails (tree : FileTree) : Option Path → LoadError → Prop
  | unread {path : Path} {e : FileError} : tree.read path = .error e →
    FileFails tree (some path) (.settings (.unreadable path e))
  | noDocument {path : Path} {bytes : List UInt8} {f : Yaml.Fault} : tree.read path = .ok bytes →
    parse bytes = .error f → FileFails tree (some path) (.ofFault path f)
  | noSettings {path : Path} {bytes : List UInt8} {d : Yaml.Document} :
    tree.read path = .ok bytes → parse bytes = .ok d → ¬d.HoldsSettings →
    FileFails tree (some path) (.settings (.topLevelNotMapping path))
  | refused {path : Path} {bytes : List UInt8} {d : Yaml.Document} {e : SettingsError} :
    tree.read path = .ok bytes → parse bytes = .ok d → d.HoldsSettings →
    Config.Refused d.settings e → FileFails tree (some path) (.ofRefusal e)

variable {tree : FileTree} {root found : Option Path} {path : Path} {options : Value}
  {file : SettingKey → Option Value} {e : LoadError}

theorem fileGives_or_fileFails (tree : FileTree) (found : Option Path) :
    (∃ file, FileGives tree found file) ∨ ∃ e, FileFails tree found e := by
  cases found with
  | none => exact .inl ⟨_, .noFile⟩
  | some path =>
    cases hbytes : tree.read path with
    | error e => exact .inr ⟨_, .unread hbytes⟩
    | ok bytes =>
      cases hparse : parse bytes with
      | error f => exact .inr ⟨_, .noDocument hbytes hparse⟩
      | ok d =>
        by_cases hholds : d.HoldsSettings
        · by_cases hacceptable : Config.Acceptable d.settings
          · exact .inl ⟨_, .file hbytes hparse hholds hacceptable⟩
          · obtain ⟨e, hrefused⟩ := not_forall_not.mp hacceptable
            exact .inr ⟨_, .refused hbytes hparse hholds hrefused⟩
        · exact .inr ⟨_, .noSettings hbytes hparse hholds⟩

theorem load_of_fileFor (hfor : FileFor tree root found) (hfree : ¬∃ r ∈ root, Blocked tree r)
    (options : Value) :
    load tree root options = base tree found >>= fun c => merge c options := by
  cases root with
  | none =>
    cases hfor
    rfl
  | some r =>
    have hfind := findFile_of_not_blocked hfor fun hblocked => hfree ⟨r, rfl, hblocked⟩
    rw [load, hfind]
    cases found <;> rfl

theorem load_of_blocked {r : Path} (hblocked : Blocked tree r) : ∃ path, ∀ options : Value,
    load tree (some r) options = .error (.crash (.file .nameTooLong path)) := by
  obtain ⟨folder, -, hfind⟩ := findFile_of_blocked hblocked
  refine ⟨place folder, fun options => ?_⟩
  rw [load, hfind]
  rfl

theorem loadFrom_of_document {d : Yaml.Document} (h : document tree path = .ok d) :
    loadFrom tree path =
      merge {} (ofDocument d) >>= fun c => .ok { c with source := some path } := by
  rw [loadFrom, h]
  rfl

theorem value_source (c : Config) (source : Option Path) (key : SettingKey) :
    Config.value { c with source := source } key = c.value key := by
  cases key <;> rfl

theorem check_of_fileFor (h : FileFor tree root (some path)) : path.check = .ok () := by
  cases h with
  | some hnearest => exact check_of_isFile hnearest.isFile

theorem base_of_fileGives (hfor : FileFor tree root found) (h : FileGives tree found file) :
    ∃ c, base tree found = .ok c ∧ c.source = found ∧
      ∀ key, c.value key = (file key).getD (Config.value {} key) := by
  cases h with
  | noFile => exact ⟨{}, rfl, rfl, fun _ => rfl⟩
  | @file path bytes d hbytes hparse hholds hacceptable =>
    have hdocument : document tree path = .ok d := by
      rw [document_of_parse_ok (check_of_fileFor hfor) hbytes hparse, if_pos hholds]
    have hknown : Config.Acceptable (ofDocument d) := fun e he =>
      hacceptable e (refused_ofDocument_iff.mp he)
    obtain ⟨c, -, hupdates⟩ := Config.merge_of_acceptable hknown {}
    have hmerge : merge {} (ofDocument d) = .ok c := merge_eq_ok_iff.mpr ⟨hknown, hupdates⟩
    refine ⟨{ c with source := some path }, ?_, rfl, fun key => ?_⟩
    · rw [base, loadFrom_of_document hdocument, hmerge]
      rfl
    · rw [value_source, hupdates.value_eq, setting?_ofDocument]

theorem base_of_document_error (h : document tree path = .error e) :
    base tree (some path) = .error e := by
  rw [base, loadFrom, h]
  rfl

theorem base_of_fileFails (hfor : FileFor tree root found) (h : FileFails tree found e) :
    base tree found = .error e := by
  cases h with
  | @unread path e hunread =>
    apply base_of_document_error
    rw [document, readFile, (check_of_fileFor hfor), hunread]
    rfl
  | noDocument hbytes hparse =>
    exact base_of_document_error (document_of_parse_error (check_of_fileFor hfor) hbytes hparse)
  | noSettings hbytes hparse hholds =>
    apply base_of_document_error
    rw [document_of_parse_ok (check_of_fileFor hfor) hbytes hparse, if_neg hholds]
  | @refused path bytes d e hbytes hparse hholds hrefused =>
    have hdocument : document tree path = .ok d := by
      rw [document_of_parse_ok (check_of_fileFor hfor) hbytes hparse, if_pos hholds]
    have hmerge : merge {} (ofDocument d) = .error (.ofRefusal e) :=
      merge_eq_error_iff.mpr ⟨e, refused_ofDocument_iff.mpr hrefused, rfl⟩
    rw [base, loadFrom_of_document hdocument, hmerge]
    rfl

theorem load_of_fileGives (hfor : FileFor tree root found) (hgives : FileGives tree found file)
    (hoptions : Config.Acceptable options) (hfree : ¬∃ r ∈ root, Blocked tree r) :
    ∃ c, load tree root options = .ok c ∧ c.source = found ∧
      ∀ key, c.value key =
        ((options.setting? key).or (file key)).getD (Config.value {} key) := by
  obtain ⟨c, hbase, hsource, hvalue⟩ := base_of_fileGives hfor hgives
  obtain ⟨c', -, hupdates⟩ := Config.merge_of_acceptable hoptions c
  refine ⟨c', ?_, hupdates.source_eq.trans hsource, fun key => ?_⟩
  · rw [load_of_fileFor hfor hfree, hbase]
    exact merge_eq_ok_iff.mpr ⟨hoptions, hupdates⟩
  · rw [hupdates.value_eq, hvalue]
    cases options.setting? key <;> rfl

/-- Each field is what the options say of it, or else the settings file, or else the default, just
if nothing blocks the way to the file; something that does fails every attempt. An invalid file
fails them in its own way whatever the options are. Settings on top of each other come to their
sections put together, and settings on top of themselves change nothing. -/
theorem load_layers (tree : FileTree) (root found : Option Path) (options : Value) (c : Config) :
    (∀ file, FileFor tree root found → FileGives tree found file → Config.Acceptable options →
      ((∃ c, load tree root options = .ok c ∧ c.source = found ∧
          ∀ key, c.value key =
            ((options.setting? key).or (file key)).getD (Config.value {} key)) ↔
        ¬∃ r ∈ root, Blocked tree r)) ∧
    ((∃ r ∈ root, Blocked tree r) → ∃ path, ∀ options : Value,
      load tree root options = .error (.crash (.file .nameTooLong path))) ∧
    (∀ e, FileFor tree root found → (¬∃ r ∈ root, Blocked tree r) → FileFails tree found e →
      ∀ options : Value, load tree root options = .error e) ∧
    ∀ a b : Value, Config.Acceptable a → Config.Acceptable b →
      (c.merge a >>= fun c' => c'.merge b) = c.merge (a.union b) ∧
      (c.merge a >>= fun c' => c'.merge a) = c.merge a := by
  have hblocks : (∃ r ∈ root, Blocked tree r) → ∃ path, ∀ options : Value,
      load tree root options = .error (.crash (.file .nameTooLong path)) := by
    rintro ⟨r, rfl, hblocked⟩
    exact load_of_blocked hblocked
  refine ⟨fun file hfor hgives hoptions => ⟨?_, load_of_fileGives hfor hgives hoptions⟩, hblocks,
    fun e hfor hfree hfails options => ?_,
    fun a b ha hb => ⟨Config.merge_merge ha hb c, Config.merge_self ha c⟩⟩
  · rintro ⟨c, hload, -⟩ hblocked
    obtain ⟨path, hfails⟩ := hblocks hblocked
    rw [hfails options] at hload
    cases hload
  · rw [load_of_fileFor hfor hfree, base_of_fileFails hfor hfails]
    rfl

/-- A file that sets the limit to one: `completion:` and, indented on a line of its own,
`limit: 1`. -/
def limitOne : List UInt8 :=
  [99, 111, 109, 112, 108, 101, 116, 105, 111, 110, 58, 10,
    32, 32, 108, 105, 109, 105, 116, 58, 32, 49, 10]

def limitOneTokens : List Yaml.Token :=
  [.mappingStart, .key, .scalar "completion" true, .value, .mappingStart, .key,
    .scalar "limit" true, .value, .scalar "1" true, .blockEnd, .blockEnd]

set_option maxRecDepth 4000 in
theorem scan_limitOne :
    Yaml.scan (Decoded.ofBytes limitOne).text none = ⟨limitOneTokens, none⟩ := by
  cbv

theorem fault_limitOne : (Decoded.ofBytes limitOne).fault = none := by
  cbv

theorem read_limitOne :
    ((Yaml.compose ⟨limitOneTokens, none⟩ >>= Yaml.Document.ofGraph).toOption.any fun d =>
      (Config.merge {} d.settings).toOption = some { limit := some 1 }) = true := by
  decide +kernel

theorem parse_limitOne :
    ∃ d, parse limitOne = .ok d ∧ Config.merge {} d.settings = .ok { limit := some 1 } := by
  have hparse : parse limitOne =
      Yaml.compose ⟨limitOneTokens, none⟩ >>= Yaml.Document.ofGraph := by
    rw [parse, fault_limitOne, Option.map_none, Yaml.Document.read, scan_limitOne]
  have hread := read_limitOne
  rw [← hparse] at hread
  cases hd : parse limitOne with
  | error f => simp [hd, Except.toOption] at hread
  | ok d =>
    rw [hd] at hread
    cases hmerge : Config.merge {} d.settings with
    | error e => simp [hmerge, Except.toOption] at hread
    | ok c =>
      have hc : c = { limit := some 1 } := by simpa [hmerge, Except.toOption] using hread
      exact ⟨d, rfl, by rw [hmerge, hc]⟩

abbrev limitOneTree : FileTree := Server.oneFile limitOne

theorem exists_mapping_of_merge {d : Yaml.Document} {c : Config}
    (h : Config.merge {} d.settings = .ok c) (hc : c ≠ {}) :
    ∃ entries, d.cell d.root = .mapping entries := by
  by_contra hnone
  have hfield : d.field? d.root "completion" = none := by
    unfold Yaml.Document.field?
    split
    · rename_i entries hcell
      exact absurd ⟨entries, hcell⟩ hnone
    · rfl
  rw [Yaml.Document.settings, hfield] at h
  exact hc (Except.ok.inj h).symm

def inside (name : Text) : Path := Server.oneFolder.child name

theorem eq_inside_of_above {name : Text} {folder : Path} (h : folder.Above (inside name))
    (hdepth : 1 < folder.parts.length) : folder = inside name := by
  have hlength : (inside name).parts.length = 2 := rfl
  have hle := h.2.length_le
  exact h.eq_of_length ⟨rfl, List.prefix_rfl⟩ (by omega)

theorem isFile_oneFolder : limitOneTree.isFile (place Server.oneFolder) = .ok true := by
  decide +kernel

theorem nearest_oneFolder {name : Text}
    (h : limitOneTree.isFile (place (inside name)) ≠ .ok true) :
    Nearest limitOneTree (inside name) Server.oneFolder where
  above := ⟨rfl, ⟨[name], rfl⟩⟩
  isFile := isFile_oneFolder
  greatest other hother hfile := by
    have hdepth : Server.oneFolder.parts.length = 1 := rfl
    by_contra hlt
    rw [eq_inside_of_above hother (by omega)] at hfile
    exact h hfile

theorem isFile_inside_app : limitOneTree.isFile (place (inside "app")) = .ok false := by
  decide +kernel

theorem not_blocked_inside_app : ¬Blocked limitOneTree (inside "app") := by
  rintro ⟨folder, habove, ⟨e, he⟩, hdeeper⟩
  have hlt := hdeeper Server.oneFolder ⟨rfl, ⟨["app"], rfl⟩⟩ isFile_oneFolder
  rw [eq_inside_of_above habove hlt, isFile_inside_app] at he
  cases he

theorem fileGives_limitOne : ∃ file, FileGives limitOneTree (some (place Server.oneFolder)) file ∧
    (file .limit).getD .null = .int 1 := by
  obtain ⟨d, hparse, hmerge⟩ := parse_limitOne
  obtain ⟨hacceptable, hupdates⟩ := Config.merge_eq_ok_iff.mp hmerge
  have hholds : d.HoldsSettings := .inr (exists_mapping_of_merge hmerge (by decide))
  exact ⟨_, .file (Server.read_oneFile limitOne) hparse hholds hacceptable,
    (hupdates.value_eq .limit).symm⟩

def noSnippets : Value := .object [("completion", .object [("snippets", .bool false)])]

/-- The limit in the file of the folder above and the options count together. -/
theorem load_layers_inside_app :
    ∃ c, load limitOneTree (some (inside "app")) noSnippets = .ok c ∧
      c.source = some (place Server.oneFolder) ∧ c.value .limit = .int 1 ∧
      c.value .snippets = .bool false := by
  obtain ⟨file, hgives, hlimit⟩ := fileGives_limitOne
  have hnofile : limitOneTree.isFile (place (inside "app")) ≠ .ok true := by
    rw [isFile_inside_app]
    exact nofun
  have hfree : ¬∃ r ∈ some (inside "app"), Blocked limitOneTree r := by
    rintro ⟨r, hr, hblocked⟩
    obtain rfl := Option.some.inj hr
    exact not_blocked_inside_app hblocked
  obtain ⟨hlayers, -⟩ := load_layers limitOneTree (some (inside "app"))
    (some (place Server.oneFolder)) noSnippets {}
  obtain ⟨c, hload, hsource, hvalue⟩ :=
    (hlayers file (.some (nearest_oneFolder hnofile)) hgives (by decide)).mpr hfree
  refine ⟨c, hload, hsource, ?_, by rw [hvalue]; rfl⟩
  rw [hvalue]
  exact hlimit

def longName : Text := List.replicate 256 (.ofChar 'a')

theorem isFile_inside_longName :
    limitOneTree.isFile (place (inside longName)) = .error .nameTooLong := by
  decide +kernel

theorem firstFile_of_error {e : FileError} (h : tree.isFile path = .error e) (rest : List Path) :
    firstFile tree (path :: rest) = .error (.file e path) := by
  rw [firstFile, h]

/-- From a folder with a name that is too long the file above it, valid as it is, is not reached. -/
theorem load_fails_inside_longName :
    FileFor limitOneTree (some (inside longName)) (some (place Server.oneFolder)) ∧
    (∃ file, FileGives limitOneTree (some (place Server.oneFolder)) file) ∧
    Config.Acceptable .null ∧
    load limitOneTree (some (inside longName)) .null =
      .error (.crash (.file .nameTooLong (place (inside longName)))) ∧
    ¬∃ c, load limitOneTree (some (inside longName)) .null = .ok c := by
  have hnofile : limitOneTree.isFile (place (inside longName)) ≠ .ok true := by
    rw [isFile_inside_longName]
    exact nofun
  obtain ⟨file, hgives, -⟩ := fileGives_limitOne
  have hancestors : (inside longName).ancestors =
      [inside longName, Server.oneFolder, ⟨.root, []⟩] := rfl
  have hfind : findFile limitOneTree (inside longName) =
      .error (.file .nameTooLong (place (inside longName))) := by
    rw [findFile, hancestors, List.map_cons]
    exact firstFile_of_error isFile_inside_longName _
  have hload : load limitOneTree (some (inside longName)) .null =
      .error (.crash (.file .nameTooLong (place (inside longName)))) := by
    rw [load, hfind]
    rfl
  refine ⟨.some (nearest_oneFolder hnofile), ⟨file, hgives⟩, by decide, hload, ?_⟩
  rintro ⟨c, hc⟩
  rw [hload] at hc
  cases hc

end CompletionServer.Settings
