import CompletionServer.Settings.Load

namespace CompletionServer

/-- The text is no document, or one without a value. -/
def Yaml.Fault.isDocumentFault : Yaml.Fault → Bool
  | undecodable _ | conversion _ | tooDeep => false
  | _ => true

/-- The top level is a mapping, or there is nothing at all. -/
def Yaml.Document.HoldsSettings (d : Yaml.Document) : Prop :=
  d.cell d.root = .scalar .null ∨ ∃ entries, d.cell d.root = .mapping entries

namespace LoadError

theorem ofFault_of_isDocumentFault {f : Yaml.Fault} (h : f.isDocumentFault = true) (path : Path) :
    ofFault path f = .settings (.unparsable path) := by
  cases f with
  | undecodable f => cases h
  | conversion e => cases h
  | tooDeep => cases h
  | _ => rfl

theorem ofFault_of_not_isDocumentFault {f : Yaml.Fault} (h : f.isDocumentFault = false)
    (path : Path) : ∃ c, ofFault path f = .crash c := by
  cases f with
  | undecodable f => exact ⟨_, rfl⟩
  | conversion e => exact ⟨_, rfl⟩
  | tooDeep => exact ⟨_, rfl⟩
  | _ => cases h

theorem bind_eq_error_iff {α β : Type} {x : Except LoadError α} {f : α → Except LoadError β}
    {e : LoadError} : x >>= f = .error e ↔ x = .error e ∨ ∃ a, x = .ok a ∧ f a = .error e := by
  cases x with
  | error e' => simp [bind, Except.bind]
  | ok a => simp [bind, Except.bind]

end LoadError

namespace Settings

def parse (bytes : List UInt8) : Except Yaml.Fault Yaml.Document :=
  Yaml.Document.read (Decoded.ofBytes bytes).text ((Decoded.ofBytes bytes).fault.map .undecodable)

/-- A value is refused that stands in the file, or else one of the options. -/
inductive Refuses (tree : FileTree) (path : Path) (options : Value) : SettingsError → Prop
  | file {d : Yaml.Document} {e : SettingsError} : document tree path = .ok d →
    Config.merge {} (ofDocument d) = .error e → Refuses tree path options e
  | options {c : Config} {e : SettingsError} : loadFrom tree path = .ok c →
    c.merge options = .error e → Refuses tree path options e

variable {tree : FileTree} {root path : Path} {bytes : List UInt8} {options : Value}

theorem isFile_of_firstFile {paths : List Path} (h : firstFile tree paths = .ok (some path)) :
    tree.isFile path = .ok true := by
  fun_induction firstFile tree paths with
  | case1 => cases h
  | case2 p rest hp =>
    obtain rfl : p = path := by simpa using h
    exact hp
  | case3 p rest hp ih => exact ih h
  | case4 p rest e hp => cases h

theorem check_of_isFile (h : tree.isFile path = .ok true) : path.check = .ok () := by
  unfold FileTree.isFile at h
  split at h
  · cases h
  · assumption

theorem check_of_findFile (h : findFile tree root = .ok (some path)) : path.check = .ok () :=
  check_of_isFile (isFile_of_firstFile h)

theorem readFile_of_check (hcheck : path.check = .ok ()) (hbytes : tree.read path = .ok bytes) :
    readFile tree path = .ok (.ofBytes bytes) := by
  rw [readFile, hcheck, hbytes]

theorem document_of_parse_error (hcheck : path.check = .ok ())
    (hbytes : tree.read path = .ok bytes) {f : Yaml.Fault} (hf : parse bytes = .error f) :
    document tree path = .error (.ofFault path f) := by
  rw [parse] at hf
  simp [document, readFile_of_check hcheck hbytes, hf, bind, Except.bind]

open Classical in
theorem document_of_parse_ok (hcheck : path.check = .ok ()) (hbytes : tree.read path = .ok bytes)
    {d : Yaml.Document} (hd : parse bytes = .ok d) :
    document tree path =
      if d.HoldsSettings then .ok d else .error (.settings (.topLevelNotMapping path)) := by
  rw [parse] at hd
  simp only [document, readFile_of_check hcheck hbytes, hd, bind, Except.bind]
  split
  next hcell => rw [if_pos (.inl hcell)]
  next entries hcell => rw [if_pos (.inr ⟨entries, hcell⟩)]
  next hnull hmapping =>
    rw [if_neg]
    rintro (hcell | ⟨entries, hcell⟩)
    · exact hnull hcell
    · exact hmapping entries hcell

theorem document_crashes_iff (hfind : findFile tree root = .ok (some path))
    (hbytes : tree.read path = .ok bytes) :
    (∃ c, document tree path = .error (.crash c)) ↔
      ∃ f, parse bytes = .error f ∧ f.isDocumentFault = false := by
  cases hp : parse bytes with
  | ok d =>
    rw [document_of_parse_ok (check_of_findFile hfind) hbytes hp]
    constructor
    · rintro ⟨c, hc⟩
      split at hc
      · cases hc
      · cases hc
    · rintro ⟨f, hf, -⟩
      cases hf
  | error f =>
    rw [document_of_parse_error (check_of_findFile hfind) hbytes hp]
    cases hf : f.isDocumentFault with
    | true => simp [LoadError.ofFault_of_isDocumentFault hf, hf]
    | false =>
      obtain ⟨c, hc⟩ := LoadError.ofFault_of_not_isDocumentFault hf path
      exact ⟨fun _ => ⟨f, rfl, hf⟩, fun _ => ⟨c, by rw [hc]⟩⟩

theorem merge_of_refused {c : Config} {v : Value} {e : SettingsError} (h : c.merge v = .error e) :
    merge c v = .error (.ofRefusal e) := by
  rw [merge, h]
  rfl

/-- Values crash just if they are refused and the refusal cannot be put into words. -/
theorem merge_crashes_iff {c : Config} {v : Value} :
    (∃ k, merge c v = .error (.crash k)) ↔
      ∃ e, c.merge v = .error e ∧ e.isUnspeakable = true := by
  cases hm : c.merge v with
  | ok c' =>
    have hmerge : merge c v = .ok c' := by
      rw [merge, hm]
      rfl
    simp [hmerge]
  | error e =>
    rw [merge_of_refused hm]
    cases he : e.isUnspeakable <;> simp [LoadError.ofRefusal, he]

theorem loadFrom_crashes_iff :
    (∃ k, loadFrom tree path = .error (.crash k)) ↔
      (∃ k, document tree path = .error (.crash k)) ∨
        ∃ d e, document tree path = .ok d ∧ Config.merge {} (ofDocument d) = .error e ∧
          e.isUnspeakable = true := by
  constructor
  · rintro ⟨k, hk⟩
    obtain hd | ⟨d, hd, hk⟩ := LoadError.bind_eq_error_iff.mp hk
    · exact .inl ⟨k, hd⟩
    · obtain hm | ⟨c, -, hc⟩ := LoadError.bind_eq_error_iff.mp hk
      · obtain ⟨e, he, hu⟩ := merge_crashes_iff.mp ⟨k, hm⟩
        exact .inr ⟨d, e, hd, he, hu⟩
      · cases hc
  · rintro (⟨k, hd⟩ | ⟨d, e, hd, he, hu⟩)
    · exact ⟨k, LoadError.bind_eq_error_iff.mpr (.inl hd)⟩
    · obtain ⟨k, hk⟩ := merge_crashes_iff.mpr ⟨e, he, hu⟩
      exact ⟨k, LoadError.bind_eq_error_iff.mpr (.inr ⟨d, hd,
        LoadError.bind_eq_error_iff.mpr (.inl hk)⟩)⟩

theorem load_of_findFile (hfind : findFile tree root = .ok (some path)) (options : Value) :
    load tree (some root) options = loadFrom tree path >>= fun c => merge c options := by
  rw [load, hfind]
  rfl

/-- Loading crashes just if the file holds no document for another reason than a fault of the
document, or if a value that cannot be shown is refused. -/
theorem load_crashes_iff (hfind : findFile tree root = .ok (some path))
    (hbytes : tree.read path = .ok bytes) :
    (∃ k, load tree (some root) options = .error (.crash k)) ↔
      (∃ f, parse bytes = .error f ∧ f.isDocumentFault = false) ∨
        ∃ e, Refuses tree path options e ∧ e.isUnspeakable = true := by
  rw [load_of_findFile hfind, ← document_crashes_iff hfind hbytes]
  constructor
  · rintro ⟨k, hk⟩
    -- Either loading the file crashes, or the options do on top of it.
    obtain hl | ⟨c, hc, hm⟩ := LoadError.bind_eq_error_iff.mp hk
    · obtain hd | ⟨d, e, hd, he, hu⟩ := loadFrom_crashes_iff.mp ⟨k, hl⟩
      · exact .inl hd
      · exact .inr ⟨e, .file hd he, hu⟩
    · obtain ⟨e, he, hu⟩ := merge_crashes_iff.mp ⟨k, hm⟩
      exact .inr ⟨e, .options hc he, hu⟩
  · rintro (hd | ⟨e, hr, hu⟩)
    · obtain ⟨k, hk⟩ := loadFrom_crashes_iff.mpr (.inl hd)
      exact ⟨k, LoadError.bind_eq_error_iff.mpr (.inl hk)⟩
    · cases hr with
      | file hd he =>
        obtain ⟨k, hk⟩ := loadFrom_crashes_iff.mpr (.inr ⟨_, e, hd, he, hu⟩)
        exact ⟨k, LoadError.bind_eq_error_iff.mpr (.inl hk)⟩
      | options hc he =>
        obtain ⟨k, hk⟩ := merge_crashes_iff.mpr ⟨e, he, hu⟩
        exact ⟨k, LoadError.bind_eq_error_iff.mpr (.inr ⟨_, hc, hk⟩)⟩

/-- The reader looks at two blocks of text before anything else, so an ill-formed stretch in them
is all that it finds. -/
theorem parse_of_fault {f : Utf8.Fault} (hf : (Decoded.ofBytes bytes).fault = some f)
    (hshort : (Decoded.ofBytes bytes).text.length < Yaml.firstLook) :
    parse bytes = .error (.undecodable f) := by
  have husable : Yaml.usable (Decoded.ofBytes bytes).text (some (.undecodable f)) =
      ([], some (.undecodable f)) := by
    simp [Yaml.usable, hshort]
  have hscan : Yaml.scan (Decoded.ofBytes bytes).text (some (.undecodable f)) =
      ⟨[], some (.undecodable f)⟩ := by
    simp [Yaml.scan, husable]
  rw [parse, hf, Option.map_some, Yaml.Document.read, hscan]
  rfl

end Settings

end CompletionServer
