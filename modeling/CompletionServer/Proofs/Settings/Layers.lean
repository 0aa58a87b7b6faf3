import CompletionServer.Proofs.Settings.Merge
import CompletionServer.Settings.Load

namespace CompletionServer

namespace Value

variable {k v : Value} {l : List (Value × Value)} {entry : Value × Value}

def Distinct (l : List (Value × Value)) : Prop := l.Pairwise fun a b => sameKey a.1 b.1 = false

theorem eq_of_sameKey_str {s : Text} (h : sameKey (.str s) k = true) : k = .str s := by
  cases k with
  | str t => exact congrArg str (beq_iff_eq.mp h).symm
  | _ => cases h

theorem eq_str_of_sameKey {s : Text} (h : sameKey k (.str s) = true) : k = .str s := by
  cases k with
  | str t => exact congrArg str (beq_iff_eq.mp h)
  | _ => simp [sameKey, number?] at h

theorem sameKey_str_self (s : Text) : sameKey (.str s) (.str s) = true :=
  beq_self_eq_true s

/-- What is there after an entry came in: what was there before, or its value under its key or under
one that is the same. -/
theorem mem_insertEntry (h : entry ∈ insertEntry sameKey k v l) :
    entry ∈ l ∨ entry.2 = v ∧
      (entry.1 = k ∨ sameKey entry.1 k = true ∧ ∃ old ∈ l, old.1 = entry.1) := by
  induction l with
  | nil =>
    obtain rfl := List.mem_singleton.mp h
    exact .inr ⟨rfl, .inl rfl⟩
  | cons head rest ih =>
    rw [insertEntry] at h
    split at h
    · rename_i hsame
      obtain rfl | hrest := List.mem_cons.mp h
      · exact .inr ⟨rfl, .inr ⟨hsame, head, List.mem_cons_self, rfl⟩⟩
      · exact .inl (List.mem_cons_of_mem _ hrest)
    · obtain rfl | hrest := List.mem_cons.mp h
      · exact .inl List.mem_cons_self
      · obtain hrest | ⟨hv, hk | ⟨hsame, old, hold, hkey⟩⟩ := ih hrest
        · exact .inl (List.mem_cons_of_mem _ hrest)
        · exact .inr ⟨hv, .inl hk⟩
        · exact .inr ⟨hv, .inr ⟨hsame, old, List.mem_cons_of_mem _ hold, hkey⟩⟩

theorem distinct_insertEntry (h : Distinct l) : Distinct (insertEntry sameKey k v l) := by
  induction l with
  | nil => exact List.pairwise_singleton _ _
  | cons head rest ih =>
    obtain ⟨hhead, hrest⟩ := List.pairwise_cons.mp h
    rw [insertEntry]
    split
    · exact List.pairwise_cons.mpr ⟨hhead, hrest⟩
    · rename_i hdiffers
      refine List.pairwise_cons.mpr ⟨fun entry hentry => ?_, ih hrest⟩
      obtain hold | ⟨-, hk | ⟨-, old, hold, hkey⟩⟩ := mem_insertEntry hentry
      · exact hhead entry hold
      · rw [hk]
        exact Bool.eq_false_iff.mpr hdiffers
      · rw [← hkey]
        exact hhead old hold

theorem lookup_cons_self (s : Text) : lookup s ((.str s, v) :: l) = some v := by
  rw [lookup, if_pos rfl]

theorem lookup_cons_of_ne {s : Text} (h : k ≠ .str s) : lookup s ((k, v) :: l) = lookup s l := by
  cases k with
  | str t => rw [lookup, if_neg fun ht => h (congrArg str ht)]
  | _ => rfl

theorem lookup_eq_none_of_sameKey {s : Text} (h : ∀ entry ∈ l, sameKey (.str s) entry.1 = false) :
    lookup s l = none := by
  induction l with
  | nil => rfl
  | cons head rest ih =>
    obtain ⟨hhead, hrest⟩ := List.forall_mem_cons.mp h
    rw [lookup_cons_of_ne, ih hrest]
    intro hk
    simp [hk, sameKey] at hhead

theorem lookup_reverse (h : Distinct l) (name : Text) : lookup name l.reverse = lookup name l := by
  induction l with
  | nil => rfl
  | cons head rest ih =>
    obtain ⟨hhead, hrest⟩ := List.pairwise_cons.mp h
    obtain ⟨k, v⟩ := head
    rw [List.reverse_cons, lookup_append, ih hrest]
    by_cases hk : k = .str name
    · subst hk
      rw [lookup_eq_none_of_sameKey hhead, lookup_cons_self, lookup_cons_self]
      rfl
    · rw [lookup_cons_of_ne hk, lookup_cons_of_ne hk]
      exact Option.or_none

theorem lookup_insertEntry_self (s : Text) (v : Value) (l : List (Value × Value)) :
    lookup s (insertEntry sameKey (.str s) v l) = some v := by
  induction l with
  | nil => exact lookup_cons_self s
  | cons head rest ih =>
    rw [insertEntry]
    split
    · rename_i hsame
      rw [eq_str_of_sameKey hsame, lookup_cons_self]
    · rename_i hdiffers
      rw [lookup_cons_of_ne, ih]
      intro hk
      exact hdiffers (hk ▸ sameKey_str_self s)

theorem lookup_insertEntry_of_ne {s : Text} (hk : k ≠ .str s) (v : Value)
    (l : List (Value × Value)) : lookup s (insertEntry sameKey k v l) = lookup s l := by
  induction l with
  | nil => exact lookup_cons_of_ne hk
  | cons head rest ih =>
    obtain ⟨k', v'⟩ := head
    by_cases hk' : k' = .str s
    · subst hk'
      have hdiffers : ¬sameKey (.str s) k = true := fun h => hk (eq_of_sameKey_str h)
      rw [insertEntry, if_neg hdiffers, lookup_cons_self, lookup_cons_self]
    · rw [insertEntry]
      split
      · rw [lookup_cons_of_ne hk', lookup_cons_of_ne hk']
      · rw [lookup_cons_of_ne hk', lookup_cons_of_ne hk', ih]

/-- Putting entries together one by one keeps the keys apart. -/
theorem distinct_foldl_insertEntry (l done : List (Value × Value)) (h : Distinct done) :
    Distinct (l.foldl (fun done (k, v) => insertEntry sameKey k v done) done) := by
  induction l generalizing done with
  | nil => exact h
  | cons head rest ih => exact ih _ (distinct_insertEntry h)

theorem lookup_foldl_insertEntry (s : Text) (l done : List (Value × Value)) :
    lookup s (l.foldl (fun done (k, v) => insertEntry sameKey k v done) done) =
      (lookup s l.reverse).or (lookup s done) := by
  induction l generalizing done with
  | nil => rfl
  | cons head rest ih =>
    obtain ⟨k, v⟩ := head
    rw [List.foldl_cons, ih, List.reverse_cons, lookup_append, Option.or_assoc]
    by_cases hk : k = .str s
    · subst hk
      rw [lookup_insertEntry_self, lookup_cons_self]
      rfl
    · rw [lookup_insertEntry_of_ne hk, lookup_cons_of_ne hk]
      rfl

/-- One section with what two say; of a key in both, the later value counts. -/
def union (a b : Value) : Value :=
  .object [("completion", ofEntries (a.completionEntries ++ b.completionEntries))]

theorem setting?_union (a b : Value) (key : SettingKey) :
    (a.union b).setting? key = (b.setting? key).or (a.setting? key) := by
  have hentries : (a.union b).completionEntries =
      (a.completionEntries ++ b.completionEntries).foldl
        (fun done (k, v) => insertEntry sameKey k v done) [] := rfl
  rw [setting?, Config.given?, hentries, lookup_reverse (distinct_foldl_insertEntry _ [] .nil),
    lookup_foldl_insertEntry]
  exact Option.or_none.trans (Config.given?_append _ _ key)

end Value

namespace Config

variable {c : Config} {a b s : Value} {e : SettingsError} {l : List (Value × Value)}

theorem EntryRefused.of_sameKey {k k' v : Value} (h : EntryRefused (k', v) e)
    (hsame : Value.sameKey k' k = true) : EntryRefused (k, v) e := by
  obtain ⟨key, hkey, hrefuses⟩ := h
  rw [SettingKey.ofValue?_eq_some_iff] at hkey
  obtain rfl : k' = .str (Text.ofString key.name) := hkey
  exact ⟨key, SettingKey.ofValue?_eq_some_iff.mpr (Value.eq_of_sameKey_str hsame), hrefuses⟩

theorem not_entryRefused_foldl_insertEntry {done : List (Value × Value)}
    (hl : ∀ entry ∈ l, ∀ e, ¬EntryRefused entry e)
    (hdone : ∀ entry ∈ done, ∀ e, ¬EntryRefused entry e) :
    ∀ entry ∈ l.foldl (fun done (k, v) => Value.insertEntry Value.sameKey k v done) done,
      ∀ e, ¬EntryRefused entry e := by
  induction l generalizing done with
  | nil => exact hdone
  | cons head rest ih =>
    obtain ⟨hhead, hrest⟩ := List.forall_mem_cons.mp hl
    refine ih hrest fun entry hentry e he => ?_
    obtain hold | ⟨hv, hk | ⟨hsame, -⟩⟩ := Value.mem_insertEntry hentry
    · exact hdone entry hold e he
    · exact hhead e (Prod.ext hk hv ▸ he)
    · obtain ⟨k', v⟩ := entry
      obtain rfl : v = head.2 := hv
      exact hhead e (he.of_sameKey hsame)

theorem Acceptable.not_entryRefused (h : Acceptable s) :
    ∀ entry ∈ s.completionEntries, ∀ e, ¬EntryRefused entry e :=
  not_firstRefused_iff.mp fun e he => h e (.entry he)

theorem acceptable_section (hl : ∀ entry ∈ l, ∀ e, ¬EntryRefused entry e) :
    Acceptable (.object [("completion", .mapping l)]) :=
  acceptable_of_section (fun _ => ⟨_, rfl⟩) (fun _ => ⟨l, rfl⟩) (not_firstRefused_iff.mpr hl)

theorem acceptable_union (ha : Acceptable a) (hb : Acceptable b) : Acceptable (a.union b) := by
  refine acceptable_section (not_entryRefused_foldl_insertEntry ?_ (by simp))
  rintro entry hentry
  obtain h | h := List.mem_append.mp hentry
  · exact ha.not_entryRefused entry h
  · exact hb.not_entryRefused entry h

/-- Settings put in place one after the other come to their sections put together. -/
theorem merge_merge (ha : Acceptable a) (hb : Acceptable b) (c : Config) :
    (c.merge a >>= fun c' => c'.merge b) = c.merge (a.union b) := by
  obtain ⟨c₁, hc₁, hfirst⟩ := merge_of_acceptable ha c
  obtain ⟨c₂, hc₂, hsecond⟩ := merge_of_acceptable hb c₁
  -- Key by key the later settings count, which is what their union says.
  have hunion : c.Updates (a.union b).setting? c₂ :=
    (hfirst.trans hsecond).congr fun key => (Value.setting?_union a b key).symm
  rw [hc₁, merge_eq_ok_iff.mpr ⟨acceptable_union ha hb, hunion⟩]
  exact hc₂

/-- Putting the same settings in place twice changes nothing. -/
theorem merge_self (ha : Acceptable a) (c : Config) :
    (c.merge a >>= fun c' => c'.merge a) = c.merge a := by
  obtain ⟨c₁, hc₁, hfirst⟩ := merge_of_acceptable ha c
  have hagain : c₁.Updates a.setting? c₁ := by
    refine ⟨rfl, fun key => ?_⟩
    rw [hfirst.value_eq]
    cases a.setting? key <;> rfl
  rw [hc₁]
  exact merge_eq_ok_iff.mpr ⟨ha, hagain⟩

end Config

namespace Yaml.Document

def sectionValue (d : Document) (number : Nat) : Value :=
  match d.cell number with
  | .mapping entries => .mapping (entries.map fun (k, v) => (k, d.value v))
  | _ => d.outline number

/-- The settings in a document, unknown ones included. -/
def settings (d : Document) : Value :=
  match d.field? d.root "completion" with
  | some number => .object [("completion", d.sectionValue number)]
  | none => .mapping []

end Yaml.Document

namespace Settings

variable {d : Yaml.Document} {e : SettingsError}

def isKnown (entry : Value × Value) : Bool := (SettingKey.ofValue? entry.1).isSome

theorem not_entryRefused_of_unknown {entry : Value × Value} (h : ¬isKnown entry = true) :
    ¬Config.EntryRefused entry e := by
  rintro ⟨key, hkey, -⟩
  exact h (by rw [isKnown, hkey]; rfl)

theorem firstRefused_filter_isKnown {l : List (Value × Value)} :
    Config.FirstRefused (l.filter isKnown) e ↔ Config.FirstRefused l e := by
  induction l with
  | nil => rfl
  | cons entry rest ih =>
    by_cases hknown : isKnown entry = true
    · rw [List.filter_cons_of_pos hknown]
      constructor
      · rintro (⟨hentry⟩ | ⟨hentry, hrest⟩)
        · exact .here hentry
        · exact .later hentry (ih.mp hrest)
      · rintro (⟨hentry⟩ | ⟨hentry, hrest⟩)
        · exact .here hentry
        · exact .later hentry (ih.mpr hrest)
    · rw [List.filter_cons_of_neg hknown, ih]
      constructor
      · exact .later fun e => not_entryRefused_of_unknown hknown
      · -- An entry under another name is never refused, so the first that is comes later.
        rintro (⟨hentry⟩ | ⟨-, hrest⟩)
        · exact absurd hentry (not_entryRefused_of_unknown hknown)
        · exact hrest

theorem given?_filter_isKnown (l : List (Value × Value)) (key : SettingKey) :
    Config.given? (l.filter isKnown) key = Config.given? l key := by
  induction l with
  | nil => rfl
  | cons entry rest ih =>
    by_cases hknown : isKnown entry = true
    · rw [List.filter_cons_of_pos hknown, Config.given?_cons, ih, ← Config.given?_cons]
    · have hnone : Config.given? [entry] key = none := by
        rw [Config.given?_singleton, if_neg]
        intro hkey
        exact hknown (by rw [isKnown, hkey]; rfl)
      rw [List.filter_cons_of_neg hknown, Config.given?_cons entry rest, hnone, Option.or_none, ih]

theorem ofDocument_cases (d : Yaml.Document) :
    ofDocument d = d.settings ∨ ∃ entries,
      d.settings = .object [("completion", .mapping entries)] ∧
      ofDocument d = .object [("completion", .mapping (entries.filter isKnown))] := by
  unfold ofDocument Yaml.Document.settings
  cases d.field? d.root "completion" with
  | none => exact .inl rfl
  | some number =>
    simp only [knownSettings, Yaml.Document.sectionValue]
    cases d.cell number with
    | mapping entries =>
      refine .inr ⟨_, rfl, ?_⟩
      rw [List.filter_map]
      rfl
    | _ => exact .inl rfl

/-- Settings that are nothing but a section are refused for one of its entries. -/
theorem refused_section_iff {l : List (Value × Value)} :
    Config.Refused (.object [("completion", .mapping l)]) e ↔ Config.FirstRefused l e := by
  constructor
  · intro h
    cases h with
    | notMapping _ hne => exact absurd rfl (hne _)
    | sectionNotMapping _ hne => exact absurd rfl (hne l)
    | entry hfirst => exact hfirst
  · intro h
    exact .entry h

theorem refused_ofDocument_iff : Config.Refused (ofDocument d) e ↔ Config.Refused d.settings e := by
  obtain heq | ⟨entries, hsettings, hdocument⟩ := ofDocument_cases d
  · rw [heq]
  · rw [hsettings, hdocument, refused_section_iff, refused_section_iff, firstRefused_filter_isKnown]

theorem setting?_ofDocument (d : Yaml.Document) (key : SettingKey) :
    (ofDocument d).setting? key = d.settings.setting? key := by
  obtain heq | ⟨entries, hsettings, hdocument⟩ := ofDocument_cases d
  · rw [heq]
  · rw [hsettings, hdocument]
    exact given?_filter_isKnown entries key

end Settings

end CompletionServer
