import CompletionServer.Proofs.Settings.Crash
import Mathlib

namespace CompletionServer

namespace Path

/-- A folder on the way to a path, or the path itself. -/
def Above (folder path : Path) : Prop :=
  folder.anchor = path.anchor ∧ folder.parts <+: path.parts

variable {folder other path : Path}

theorem leadingParts_eq_inits (parts : List Text) : leadingParts parts = parts.inits := by
  induction parts with
  | nil => rfl
  | cons part rest ih => rw [leadingParts, ih, List.inits_cons]

theorem mem_ancestors_iff : folder ∈ path.ancestors ↔ folder.Above path := by
  simp only [ancestors, leadingParts_eq_inits, List.mem_map, List.mem_reverse, List.mem_inits]
  constructor
  · rintro ⟨parts, hparts, rfl⟩
    exact ⟨rfl, hparts⟩
  · rintro ⟨hanchor, hparts⟩
    exact ⟨folder.parts, hparts, by rw [← hanchor]⟩

theorem pairwise_length_inits (parts : List Text) :
    parts.inits.Pairwise fun a b => a.length < b.length := by
  induction parts with
  | nil => simp
  | cons part rest ih =>
    rw [List.inits_cons, List.pairwise_cons]
    refine ⟨?_, ?_⟩
    · intro parts hparts
      obtain ⟨tail, -, rfl⟩ := List.mem_map.mp hparts
      exact Nat.succ_pos _
    · rw [List.pairwise_map]
      exact ih.imp Nat.succ_lt_succ

/-- The deepest folders come first. -/
theorem pairwise_ancestors (path : Path) :
    path.ancestors.Pairwise fun a b => b.parts.length < a.parts.length := by
  rw [ancestors, leadingParts_eq_inits, List.pairwise_map, List.pairwise_reverse]
  exact pairwise_length_inits path.parts

/-- The folders above a path differ in depth. -/
theorem Above.eq_of_length (h : folder.Above path) (h' : other.Above path)
    (hlength : folder.parts.length = other.parts.length) : folder = other := by
  have hparts : folder.parts = other.parts := by
    rw [List.prefix_iff_eq_take.mp h.2, List.prefix_iff_eq_take.mp h'.2, hlength]
  have hanchor := h.1.trans h'.1.symm
  cases folder
  simp_all

end Path

namespace Settings

def place (folder : Path) : Path := folder.child fileName

/-- The deepest folder at or above a root with a settings file. -/
structure Nearest (tree : FileTree) (root folder : Path) : Prop where
  above : folder.Above root
  isFile : tree.isFile (place folder) = .ok true
  greatest : ∀ other : Path, other.Above root → tree.isFile (place other) = .ok true →
    other.parts.length ≤ folder.parts.length

/-- The settings file of a workspace, which may have no root. -/
inductive FileFor (tree : FileTree) : Option Path → Option Path → Prop
  | noRoot : FileFor tree none none
  | none {root : Path} : (∀ folder : Path, folder.Above root →
      tree.isFile (place folder) ≠ .ok true) → FileFor tree (some root) none
  | some {root folder : Path} : Nearest tree root folder →
    FileFor tree (some root) (some (place folder))

/-- A folder at or above a root has no place for a settings file, and no deeper one has the file. -/
def Blocked (tree : FileTree) (root : Path) : Prop :=
  ∃ folder : Path, folder.Above root ∧ (∃ e, tree.isFile (place folder) = .error e) ∧
    ∀ other : Path, other.Above root → tree.isFile (place other) = .ok true →
      other.parts.length < folder.parts.length

variable {tree : FileTree} {root folder : Path} {found : Option Path}

theorem firstFile_cases (tree : FileTree) {folders : List Path}
    (hdeep : folders.Pairwise fun a b => b.parts.length < a.parts.length) :
    (firstFile tree (folders.map place) = .ok none ∧
      ∀ folder ∈ folders, tree.isFile (place folder) = .ok false) ∨
    ∃ folder ∈ folders,
      (∀ other ∈ folders, folder.parts.length < other.parts.length →
        tree.isFile (place other) = .ok false) ∧
      (tree.isFile (place folder) = .ok true ∧
          firstFile tree (folders.map place) = .ok (some (place folder)) ∨
        ∃ e, tree.isFile (place folder) = .error e ∧
          firstFile tree (folders.map place) = .error (.file e (place folder))) := by
  induction folders with
  | nil => exact .inl ⟨rfl, nofun⟩
  | cons folder rest ih =>
    obtain ⟨hdeeper, hrest⟩ := List.pairwise_cons.mp hdeep
    -- The folder is the deepest, so none that is deeper is left to have the file.
    have hnone : ∀ other ∈ folder :: rest, folder.parts.length < other.parts.length →
        tree.isFile (place other) = .ok false := by
      intro other hother hlt
      obtain rfl | hother := List.mem_cons.mp hother
      · omega
      · have := hdeeper other hother
        omega
    rw [List.map_cons, firstFile]
    cases hfile : tree.isFile (place folder) with
    | error e => exact .inr ⟨folder, List.mem_cons_self, hnone, .inr ⟨e, hfile, rfl⟩⟩
    | ok b =>
      cases b with
      | true => exact .inr ⟨folder, List.mem_cons_self, hnone, .inl ⟨hfile, rfl⟩⟩
      | false =>
        obtain ⟨hfirst, hall⟩ | ⟨f, hf, hbefore, hends⟩ := ih hrest
        · exact .inl ⟨hfirst, List.forall_mem_cons.mpr ⟨hfile, hall⟩⟩
        · exact .inr ⟨f, List.mem_cons_of_mem _ hf,
            List.forall_mem_cons.mpr ⟨fun _ => hfile, hbefore⟩, hends⟩

theorem findFile_cases (tree : FileTree) (root : Path) :
    (findFile tree root = .ok none ∧
      ∀ folder : Path, folder.Above root → tree.isFile (place folder) = .ok false) ∨
    ∃ folder : Path, folder.Above root ∧
      (∀ other : Path, other.Above root → folder.parts.length < other.parts.length →
        tree.isFile (place other) = .ok false) ∧
      (tree.isFile (place folder) = .ok true ∧ findFile tree root = .ok (some (place folder)) ∨
        ∃ e, tree.isFile (place folder) = .error e ∧
          findFile tree root = .error (.file e (place folder))) := by
  obtain hnone | ⟨folder, hmem, hbefore, hends⟩ := firstFile_cases tree root.pairwise_ancestors
  · exact .inl ⟨hnone.1, fun folder h => hnone.2 folder (Path.mem_ancestors_iff.mpr h)⟩
  · exact .inr ⟨folder, Path.mem_ancestors_iff.mp hmem,
      fun other h => hbefore other (Path.mem_ancestors_iff.mpr h), hends⟩

theorem Nearest.unique {folder' : Path} (h : Nearest tree root folder)
    (h' : Nearest tree root folder') : folder = folder' :=
  h.above.eq_of_length h'.above
    (le_antisymm (h'.greatest folder h.above h.isFile) (h.greatest folder' h'.above h'.isFile))

theorem nearest_of_before (habove : folder.Above root)
    (hfile : tree.isFile (place folder) = .ok true)
    (hbefore : ∀ other : Path, other.Above root → folder.parts.length < other.parts.length →
      tree.isFile (place other) = .ok false) : Nearest tree root folder where
  above := habove
  isFile := hfile
  greatest other hother hother' := by
    by_contra hlt
    have hfalse := hbefore other hother (by omega)
    rw [hother'] at hfalse
    cases hfalse

theorem blocked_of_before {e : FileError} (habove : folder.Above root)
    (he : tree.isFile (place folder) = .error e)
    (hbefore : ∀ other : Path, other.Above root → folder.parts.length < other.parts.length →
      tree.isFile (place other) = .ok false) : Blocked tree root := by
  refine ⟨folder, habove, ⟨e, he⟩, fun other hother hfile => ?_⟩
  by_contra hle
  obtain heq | hlt : folder.parts.length = other.parts.length ∨
      folder.parts.length < other.parts.length := by omega
  · obtain rfl := habove.eq_of_length hother heq
    rw [hfile] at he
    cases he
  · have hfalse := hbefore other hother hlt
    rw [hfile] at hfalse
    cases hfalse

theorem findFile_of_not_blocked (hfor : FileFor tree (some root) found)
    (hblocked : ¬Blocked tree root) : findFile tree root = .ok found := by
  obtain ⟨hfind, hnone⟩ | ⟨folder, habove, hbefore, ⟨hfile, hfind⟩ | ⟨e, he, -⟩⟩ :=
    findFile_cases tree root
  · cases hfor with
    | none => exact hfind
    | some hnearest =>
      have hfile := hnearest.isFile
      rw [hnone _ hnearest.above] at hfile
      cases hfile
  · cases hfor with
    | none hno => exact absurd hfile (hno folder habove)
    | some hnearest => rw [hfind, (nearest_of_before habove hfile hbefore).unique hnearest]
  · exact absurd (blocked_of_before habove he hbefore) hblocked

/-- Nothing but a name that is too long stands in the way. -/
theorem eq_nameTooLong_of_isFile {path : Path} {e : FileError} (h : tree.isFile path = .error e) :
    e = .nameTooLong := by
  unfold FileTree.isFile at h
  split at h
  · cases h
  · split at h
    · cases h
    · exact (Except.error.inj h).symm
    · cases h

theorem findFile_of_blocked (hblocked : Blocked tree root) :
    ∃ folder : Path, folder.Above root ∧
      findFile tree root = .error (.file .nameTooLong (place folder)) := by
  obtain ⟨blocking, hblocking, ⟨e, he⟩, hdeeper⟩ := hblocked
  obtain ⟨-, hnone⟩ | ⟨folder, habove, hbefore, ⟨hfile, -⟩ | ⟨e', he', hfind⟩⟩ :=
    findFile_cases tree root
  · rw [hnone blocking hblocking] at he
    cases he
  · rw [hbefore blocking hblocking (hdeeper folder habove hfile)] at he
    cases he
  · rw [eq_nameTooLong_of_isFile he'] at hfind
    exact ⟨folder, habove, hfind⟩

def HasFileAt (tree : FileTree) (root : Path) (depth : Nat) : Prop :=
  ∃ folder : Path, folder.Above root ∧ tree.isFile (place folder) = .ok true ∧
    folder.parts.length = depth

open Classical in
theorem exists_nearest (habove : folder.Above root)
    (hfile : tree.isFile (place folder) = .ok true) : ∃ nearest, Nearest tree root nearest := by
  obtain ⟨nearest, hnearest, hnearestFile, hlength⟩ :
      HasFileAt tree root (Nat.findGreatest (HasFileAt tree root) root.parts.length) :=
    Nat.findGreatest_spec habove.2.length_le ⟨folder, habove, hfile, rfl⟩
  refine ⟨nearest, hnearest, hnearestFile, fun other hother hotherFile => ?_⟩
  rw [hlength]
  exact Nat.le_findGreatest hother.2.length_le ⟨other, hother, hotherFile, rfl⟩

theorem exists_fileFor (tree : FileTree) (root : Option Path) :
    ∃ found, FileFor tree root found := by
  cases root with
  | none => exact ⟨none, .noRoot⟩
  | some root =>
    by_cases h : ∃ folder : Path, folder.Above root ∧ tree.isFile (place folder) = .ok true
    · obtain ⟨folder, habove, hfile⟩ := h
      obtain ⟨nearest, hnearest⟩ := exists_nearest habove hfile
      exact ⟨_, .some hnearest⟩
    · exact ⟨none, .none fun folder habove hfile => h ⟨folder, habove, hfile⟩⟩

end Settings

end CompletionServer
