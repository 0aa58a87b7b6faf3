import CompletionServer.Settings.Config

namespace CompletionServer

theorem Text.ofString_append (s t : String) : ofString (s ++ t) = ofString s ++ ofString t := by
  simp [ofString, ofChars]

theorem Value.lookup_append {α : Type} (name : Text) (entries later : List (Value × α)) :
    lookup name (entries ++ later) = (lookup name entries).or (lookup name later) := by
  fun_induction lookup name entries with
  | case1 => rfl
  | case2 v rest => simp [lookup]
  | case3 v rest s hs ih => simp [lookup, hs, ih]
  | case4 k v rest hk ih => simp [lookup, ih]

namespace SettingKey

/-- The types of the settings. A truth value is no number, and only a limit may be null. -/
inductive Fits : SettingKey → Value → Prop
  | snippets (b : Bool) : Fits snippets (.bool b)
  | textEdits (b : Bool) : Fits textEdits (.bool b)
  | trimDollar (b : Bool) : Fits trimDollar (.bool b)
  | noLimit : Fits limit .null
  | limit (n : Int) : Fits limit (.int n)
  | defaultLanguage (s : Text) : Fits defaultLanguage (.str s)

/-- A value is refused for its type, or a limit for its sign. -/
inductive Refuses : SettingKey → Value → SettingsError → Prop
  | unfit {key : SettingKey} {v : Value} : ¬Fits key v → Refuses key v (.invalid key v)
  | negative {n : Int} : n < 0 → Refuses limit (.int n) (.negativeLimit n)

def Accepts (key : SettingKey) (v : Value) : Prop := ∀ e, ¬Refuses key v e

variable {key : SettingKey} {v : Value} {e : SettingsError}

theorem Fits.limit_cases (h : Fits .limit v) : v = .null ∨ ∃ n, v = .int n := by
  cases h with
  | noLimit => exact .inl rfl
  | limit n => exact .inr ⟨n, rfl⟩

theorem Fits.accepts (h : Fits key v) (hsign : ∀ n, v = .int n → 0 ≤ n) : Accepts key v := by
  intro e he
  cases he with
  | unfit hfits => exact hfits h
  | @negative n hneg =>
    have hn := hsign n rfl
    omega

theorem Refuses.unique {e' : SettingsError} (h : Refuses key v e) (h' : Refuses key v e') :
    e = e' := by
  cases h with
  | unfit hfits =>
    cases h' with
    | unfit _ => rfl
    | @negative n _ => exact absurd (.limit n) hfits
  | @negative n _ =>
    cases h' with
    | unfit hfits => exact absurd (.limit n) hfits
    | negative _ => rfl

theorem Accepts.fits (h : Accepts key v) : Fits key v := by
  exact Classical.byContradiction fun hfits => h _ (.unfit hfits)

theorem Accepts.nonneg {n : Int} (h : Accepts limit (.int n)) : 0 ≤ n := by
  exact Int.not_lt.mp fun hneg => h _ (.negative hneg)

/-- A refusal says which setting it is about. -/
theorem Refuses.name_isInfix (h : Refuses key v e) :
    Text.ofString "completion." ++ Text.ofString key.name <:+: e.message := by
  cases h with
  | unfit hfits =>
    have hprefix : Text.ofString "Invalid value for completion." =
        Text.ofString "Invalid value for " ++ Text.ofString "completion." :=
      Text.ofString_append "Invalid value for " "completion."
    refine ⟨Text.ofString "Invalid value for ", Text.ofString ": " ++ Text.ofString v.display, ?_⟩
    simp only [SettingsError.message, hprefix, List.append_assoc]
  | @negative n hneg =>
    have hprefix : toString "completion.limit must not be negative, got " =
        "completion." ++ ("limit" ++ " must not be negative, got ") := rfl
    refine ⟨[], Text.ofString " must not be negative, got " ++ Text.ofString (toString n), ?_⟩
    simp only [SettingsError.message, hprefix, name, Text.ofString_append, List.append_assoc,
      List.nil_append]

theorem ofName?_eq_some_iff {t : Text} : ofName? t = some key ↔ t = Text.ofString key.name := by
  constructor
  · intro h
    have hname := List.find?_some h
    exact (of_decide_eq_true hname).symm
  · rintro rfl
    cases key <;> decide

theorem ofValue?_eq_some_iff : ofValue? v = some key ↔ v = .str (Text.ofString key.name) := by
  cases v <;> simp [ofValue?, ofName?_eq_some_iff]

end SettingKey

namespace Config

def value (c : Config) : SettingKey → Value
  | .snippets => .bool c.snippets
  | .textEdits => .bool c.textEdits
  | .trimDollar => .bool c.trimDollar
  | .limit => .ofOption (fun n : Nat => .int n) c.limit
  | .defaultLanguage => .str c.defaultLanguage

structure Updates (c : Config) (given : SettingKey → Option Value) (c' : Config) : Prop where
  source_eq : c'.source = c.source
  value_eq : ∀ key, c'.value key = (given key).getD (c.value key)

variable {c c' c'' : Config} {given later : SettingKey → Option Value}

theorem limit_eq_of_value_eq (h : c.value .limit = c'.value .limit) : c.limit = c'.limit := by
  simp only [value] at h
  cases hc : c.limit with
  | none => cases hc' : c'.limit <;> simp_all [Value.ofOption]
  | some n =>
    cases hc' : c'.limit with
    | none => simp_all [Value.ofOption]
    | some n' =>
      rw [hc, hc'] at h
      exact congrArg some (Int.ofNat.inj (Value.int.inj h))

theorem ext_value (hvalue : ∀ key, c.value key = c'.value key) (hsource : c.source = c'.source) :
    c = c' := by
  have hsnippets := hvalue .snippets
  have htextEdits := hvalue .textEdits
  have htrimDollar := hvalue .trimDollar
  have hlimit := limit_eq_of_value_eq (hvalue .limit)
  have hlanguage := hvalue .defaultLanguage
  obtain ⟨snippets, textEdits, trimDollar, limit, language, source⟩ := c
  simp_all [value]

namespace Updates

theorem refl (c : Config) : c.Updates (fun _ => none) c :=
  ⟨rfl, fun _ => rfl⟩

theorem unique (h : c.Updates given c') (h' : c.Updates given c'') : c' = c'' :=
  ext_value (fun key => (h.value_eq key).trans (h'.value_eq key).symm)
    (h.source_eq.trans h'.source_eq.symm)

/-- Of two updates the later one counts. -/
theorem trans (h : c.Updates given c') (h' : c'.Updates later c'') :
    c.Updates (fun key => (later key).or (given key)) c'' := by
  refine ⟨h'.source_eq.trans h.source_eq, fun key => ?_⟩
  rw [h'.value_eq, h.value_eq]
  cases later key <;> rfl

theorem congr (h : c.Updates given c') (heq : ∀ key, given key = later key) :
    c.Updates later c' :=
  (funext heq : given = later) ▸ h

end Updates

/-- Setting a field refuses a value or puts just that value in place. -/
theorem set_cases (c : Config) (key : SettingKey) (v : Value) :
    (∃ e, c.set key v = .error e ∧ key.Refuses v e) ∨
      ∃ c', c.set key v = .ok c' ∧ key.Accepts v ∧
        c.Updates (fun k => if k = key then some v else none) c' := by
  fun_cases Config.set c key v with
  | case1 b =>
    exact .inr ⟨_, rfl, SettingKey.Fits.accepts (.snippets b) nofun, rfl,
      fun k => by cases k <;> rfl⟩
  | case2 b =>
    exact .inr ⟨_, rfl, SettingKey.Fits.accepts (.textEdits b) nofun, rfl,
      fun k => by cases k <;> rfl⟩
  | case3 b =>
    exact .inr ⟨_, rfl, SettingKey.Fits.accepts (.trimDollar b) nofun, rfl,
      fun k => by cases k <;> rfl⟩
  | case4 =>
    exact .inr ⟨_, rfl, SettingKey.Fits.accepts .noLimit nofun, rfl, fun k => by cases k <;> rfl⟩
  | case5 n hneg => exact .inl ⟨_, rfl, .negative hneg⟩
  | case6 n hneg =>
    have hn : 0 ≤ n := by omega
    refine .inr ⟨_, rfl, SettingKey.Fits.accepts (.limit n) ?_, rfl, fun k => ?_⟩
    · rintro _ ⟨⟩
      exact hn
    · cases k with
      | limit => exact congrArg Value.int (Int.toNat_of_nonneg hn)
      | _ => rfl
  | case7 s =>
    exact .inr ⟨_, rfl, SettingKey.Fits.accepts (.defaultLanguage s) nofun, rfl,
      fun k => by cases k <;> rfl⟩
  | case8 key v hsnippets htextEdits htrimDollar hnoLimit hlimit hlanguage =>
    refine .inl ⟨_, rfl, .unfit fun hfits => ?_⟩
    -- The cases before have used up every value that fits.
    cases hfits with
    | snippets b => exact hsnippets b rfl rfl
    | textEdits b => exact htextEdits b rfl rfl
    | trimDollar b => exact htrimDollar b rfl rfl
    | noLimit => exact hnoLimit rfl rfl
    | limit n => exact hlimit n rfl rfl
    | defaultLanguage s => exact hlanguage s rfl rfl

def EntryRefused (entry : Value × Value) (e : SettingsError) : Prop :=
  ∃ key, SettingKey.ofValue? entry.1 = some key ∧ key.Refuses entry.2 e

/-- Every entry under a known key can be taken, before the first one that cannot. -/
inductive FirstRefused : List (Value × Value) → SettingsError → Prop
  | here {entry : Value × Value} {rest : List (Value × Value)} {e : SettingsError} :
    EntryRefused entry e → FirstRefused (entry :: rest) e
  | later {entry : Value × Value} {rest : List (Value × Value)} {e : SettingsError} :
    (∀ e', ¬EntryRefused entry e') → FirstRefused rest e → FirstRefused (entry :: rest) e

/-- The value that the entries of a section give a field: of several under one key, the last. -/
def given? (entries : List (Value × Value)) (key : SettingKey) : Option Value :=
  Value.lookup (Text.ofString key.name) entries.reverse

variable {entry : Value × Value} {entries : List (Value × Value)} {e e' : SettingsError}

theorem EntryRefused.unique (h : EntryRefused entry e) (h' : EntryRefused entry e') : e = e' := by
  obtain ⟨key, hkey, hrefuses⟩ := h
  obtain ⟨key', hkey', hrefuses'⟩ := h'
  obtain rfl : key = key' := Option.some.inj (hkey.symm.trans hkey')
  exact hrefuses.unique hrefuses'

theorem FirstRefused.unique (h : FirstRefused entries e) (h' : FirstRefused entries e') :
    e = e' := by
  induction h with
  | here hentry =>
    cases h' with
    | here hentry' => exact hentry.unique hentry'
    | later hnone _ => exact absurd hentry (hnone _)
  | later hnone _ ih =>
    cases h' with
    | here hentry' => exact absurd hentry' (hnone _)
    | later _ hrest' => exact ih hrest'

theorem not_firstRefused_iff :
    (∀ e, ¬FirstRefused entries e) ↔ ∀ entry ∈ entries, ∀ e, ¬EntryRefused entry e := by
  induction entries with
  | nil => exact iff_of_true nofun nofun
  | cons entry rest ih =>
    rw [List.forall_mem_cons, ← ih]
    constructor
    · intro h
      have hentry : ∀ e, ¬EntryRefused entry e := fun e he => h e (.here he)
      exact ⟨hentry, fun e he => h e (.later hentry he)⟩
    · rintro ⟨hentry, hrest⟩ e he
      cases he with
      | here he => exact hentry e he
      | later _ he => exact hrest e he

theorem given?_singleton (entry : Value × Value) (key : SettingKey) :
    given? [entry] key = if SettingKey.ofValue? entry.1 = some key then some entry.2 else none := by
  obtain ⟨k, v⟩ := entry
  cases k <;> simp [given?, Value.lookup, SettingKey.ofValue?, SettingKey.ofName?_eq_some_iff]

theorem given?_append (entries later : List (Value × Value)) (key : SettingKey) :
    given? (entries ++ later) key = (given? later key).or (given? entries key) := by
  simp only [given?, List.reverse_append, Value.lookup_append]

theorem given?_cons (entry : Value × Value) (later : List (Value × Value)) (key : SettingKey) :
    given? (entry :: later) key = (given? later key).or (given? [entry] key) :=
  given?_append [entry] later key

theorem setEntry_cases (c : Config) (entry : Value × Value) :
    (∃ e, c.setEntry entry = .error e ∧ EntryRefused entry e) ∨
      ∃ c', c.setEntry entry = .ok c' ∧ (∀ e, ¬EntryRefused entry e) ∧
        c.Updates (given? [entry]) c' := by
  cases hkey : SettingKey.ofValue? entry.1 with
  | none =>
    refine .inr ⟨c, by rw [setEntry, hkey], ?_, (Updates.refl c).congr fun key => ?_⟩
    · rintro e ⟨key, hkey', -⟩
      rw [hkey] at hkey'
      cases hkey'
    · rw [given?_singleton, hkey, if_neg nofun]
  | some key =>
    have hset : c.setEntry entry = c.set key entry.2 := by rw [setEntry, hkey]
    rw [hset]
    obtain ⟨e, he, hrefuses⟩ | ⟨c', hc', haccepts, hupdates⟩ := set_cases c key entry.2
    · exact .inl ⟨e, he, key, hkey, hrefuses⟩
    · refine .inr ⟨c', hc', ?_, hupdates.congr fun k => ?_⟩
      · rintro e ⟨key', hkey', hrefuses⟩
        obtain rfl : key = key' := Option.some.inj (hkey.symm.trans hkey')
        exact haccepts e hrefuses
      · rw [given?_singleton, hkey]
        simp only [Option.some.injEq, eq_comm]

theorem foldlM_setEntry_cases (entries : List (Value × Value)) (c : Config) :
    (∃ e, entries.foldlM setEntry c = .error e ∧ FirstRefused entries e) ∨
      ∃ c', entries.foldlM setEntry c = .ok c' ∧ (∀ e, ¬FirstRefused entries e) ∧
        c.Updates (given? entries) c' := by
  induction entries generalizing c with
  | nil => exact .inr ⟨c, rfl, nofun, .refl c⟩
  | cons entry rest ih =>
    rw [List.foldlM_cons]
    obtain ⟨e, he, hentry⟩ | ⟨c₁, hc₁, hentry, hfirst⟩ := setEntry_cases c entry
    · exact .inl ⟨e, by rw [he]; rfl, .here hentry⟩
    · rw [hc₁]
      obtain ⟨e, he, hrest⟩ | ⟨c₂, hc₂, hrest, hlater⟩ := ih c₁
      · exact .inl ⟨e, he, .later hentry hrest⟩
      · refine .inr ⟨c₂, hc₂, ?_, (hfirst.trans hlater).congr fun key => ?_⟩
        · intro e he
          cases he with
          | here he => exact hentry e he
          | later _ he => exact hrest e he
        · exact (given?_cons entry rest key).symm

end Config

end CompletionServer
