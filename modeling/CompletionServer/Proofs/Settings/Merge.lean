import CompletionServer.Proofs.Server.Assigning
import CompletionServer.Proofs.Settings.Fields

namespace CompletionServer

namespace Value

def completionEntries (settings : Value) : List (Value × Value) :=
  match settings.field "completion" with
  | .mapping entries => entries
  | _ => []

def setting? (settings : Value) (key : SettingKey) : Option Value :=
  Config.given? settings.completionEntries key

end Value

namespace Config

/-- Settings, or their section, that are neither a mapping nor count as no; or else the first of the
known fields that has a value which it may not take. -/
inductive Refused (settings : Value) : SettingsError → Prop
  | notMapping : settings.truthy = true → (∀ entries, settings ≠ .mapping entries) →
    Refused settings (.notMapping settings)
  | sectionNotMapping : (settings.field "completion").truthy = true →
    (∀ entries, settings.field "completion" ≠ .mapping entries) →
    Refused settings .sectionNotMapping
  | entry {e : SettingsError} : FirstRefused settings.completionEntries e → Refused settings e

def Acceptable (settings : Value) : Prop := ∀ e, ¬Refused settings e

variable {c c' : Config} {s : Value} {e e' : SettingsError}

theorem field_of_not_truthy (h : s.truthy = false) (name : String) : s.field name = .null := by
  cases s with
  | mapping entries =>
    obtain rfl : entries = [] := by simpa [Value.truthy] using h
    rfl
  | _ => rfl

theorem completionEntries_of_not_truthy (h : (s.field "completion").truthy = false) :
    s.completionEntries = [] := by
  unfold Value.completionEntries
  split
  · rename_i entries hfield
    rw [hfield] at h
    simpa [Value.truthy] using h
  · rfl

/-- Where settings and their section are mappings or count as no, only an entry can be refused. -/
theorem acceptable_of_section (hmapping : s.truthy = true → ∃ entries, s = .mapping entries)
    (hsection : (s.field "completion").truthy = true →
      ∃ entries, s.field "completion" = .mapping entries)
    (hentries : ∀ e, ¬FirstRefused s.completionEntries e) : Acceptable s := by
  intro e he
  cases he with
  | notMapping htruthy hne =>
    obtain ⟨entries, hs⟩ := hmapping htruthy
    exact hne entries hs
  | sectionNotMapping htruthy hne =>
    obtain ⟨entries, hs⟩ := hsection htruthy
    exact hne entries hs
  | entry hfirst => exact hentries e hfirst

theorem acceptable_of_not_truthy (hmapping : s.truthy = true → ∃ entries, s = .mapping entries)
    (h : (s.field "completion").truthy = false) : Acceptable s := by
  refine acceptable_of_section hmapping (fun htruthy => ?_) ?_
  · rw [h] at htruthy
    cases htruthy
  · rw [completionEntries_of_not_truthy h]
    exact nofun

theorem updates_of_not_truthy (c : Config) (h : (s.field "completion").truthy = false) :
    c.Updates s.setting? c := by
  refine (Updates.refl c).congr fun key => ?_
  rw [Value.setting?, completionEntries_of_not_truthy h]
  rfl

theorem mergeSection_cases (c : Config) (hmapping : ∃ entries, s = .mapping entries) :
    (∃ e, c.mergeSection (s.field "completion") = .error e ∧ Refused s e) ∨
      ∃ c', c.mergeSection (s.field "completion") = .ok c' ∧ Acceptable s ∧
        c.Updates s.setting? c' := by
  generalize hfound : s.field "completion" = found
  fun_cases Config.mergeSection c found with
  | case1 entries htruthy =>
    have hentries : s.completionEntries = entries := by rw [Value.completionEntries, hfound]
    obtain ⟨e, he, hfirst⟩ | ⟨c', hc', hnone, hupdates⟩ := foldlM_setEntry_cases entries c
    · exact .inl ⟨e, he, .entry (hentries ▸ hfirst)⟩
    · refine .inr ⟨c', hc', acceptable_of_section (fun _ => hmapping) (fun _ => ⟨entries, hfound⟩)
        (hentries ▸ hnone), hupdates.congr fun key => ?_⟩
      rw [Value.setting?, hentries]
  | case2 found htruthy hne =>
    rw [← hfound] at htruthy hne
    exact .inl ⟨_, rfl, .sectionNotMapping htruthy hne⟩
  | case3 found hfalse =>
    have hsection : (s.field "completion").truthy = false := by simpa [hfound] using hfalse
    exact .inr ⟨c, rfl, acceptable_of_not_truthy (fun _ => hmapping) hsection,
      updates_of_not_truthy c hsection⟩

theorem merge_cases (c : Config) (s : Value) :
    (∃ e, c.merge s = .error e ∧ Refused s e) ∨
      ∃ c', c.merge s = .ok c' ∧ Acceptable s ∧ c.Updates s.setting? c' := by
  fun_cases Config.merge c s with
  | case1 entries htruthy => exact mergeSection_cases c ⟨entries, rfl⟩
  | case2 found htruthy hne => exact .inl ⟨_, rfl, .notMapping htruthy hne⟩
  | case3 _ hfalse =>
    have hnone : s.truthy = false := by simpa using hfalse
    have hsection : (s.field "completion").truthy = false := by
      rw [field_of_not_truthy hnone]
      rfl
    refine .inr ⟨c, rfl, acceptable_of_not_truthy (fun h => ?_) hsection,
      updates_of_not_truthy c hsection⟩
    rw [hnone] at h
    cases h

theorem exists_mapping_of_truthy (h : (s.field "completion").truthy = true) :
    ∃ entries, s = .mapping entries := by
  cases s with
  | mapping entries => exact ⟨entries, rfl⟩
  | _ => cases h

theorem FirstRefused.exists_section (h : FirstRefused s.completionEntries e) :
    (s.field "completion").truthy = true ∧ ∃ entries, s.field "completion" = .mapping entries := by
  unfold Value.completionEntries at h
  split at h
  · rename_i entries hfield
    refine ⟨?_, entries, hfield⟩
    rw [hfield]
    cases h <;> rfl
  · cases h

theorem Refused.unique (h : Refused s e) (h' : Refused s e') : e = e' := by
  -- The three faults exclude each other: an entry or a section needs a mapping around it.
  cases h with
  | notMapping _ hne =>
    cases h' with
    | notMapping => rfl
    | sectionNotMapping htruthy _ =>
      obtain ⟨entries, hs⟩ := exists_mapping_of_truthy htruthy
      exact absurd hs (hne entries)
    | entry hfirst =>
      obtain ⟨entries, hs⟩ := exists_mapping_of_truthy hfirst.exists_section.1
      exact absurd hs (hne entries)
  | sectionNotMapping htruthy hne =>
    cases h' with
    | notMapping _ hne' =>
      obtain ⟨entries, hs⟩ := exists_mapping_of_truthy htruthy
      exact absurd hs (hne' entries)
    | sectionNotMapping => rfl
    | entry hfirst =>
      obtain ⟨-, entries, hs⟩ := hfirst.exists_section
      exact absurd hs (hne entries)
  | entry hfirst =>
    cases h' with
    | notMapping _ hne =>
      obtain ⟨entries, hs⟩ := exists_mapping_of_truthy hfirst.exists_section.1
      exact absurd hs (hne entries)
    | sectionNotMapping _ hne =>
      obtain ⟨-, entries, hs⟩ := hfirst.exists_section
      exact absurd hs (hne entries)
    | entry hfirst' => exact hfirst.unique hfirst'

theorem merge_eq_error_iff : c.merge s = .error e ↔ Refused s e := by
  obtain ⟨e', he', hrefused⟩ | ⟨c', hc', hacceptable, -⟩ := merge_cases c s
  · rw [he', Except.error.injEq]
    exact ⟨fun h => h ▸ hrefused, hrefused.unique⟩
  · rw [hc']
    exact iff_of_false nofun (hacceptable e)

theorem merge_eq_ok_iff : c.merge s = .ok c' ↔ Acceptable s ∧ c.Updates s.setting? c' := by
  obtain ⟨e, he, hrefused⟩ | ⟨c₁, hc₁, hacceptable, hupdates⟩ := merge_cases c s
  · rw [he]
    exact iff_of_false nofun fun h => h.1 e hrefused
  · rw [hc₁, Except.ok.injEq]
    exact ⟨fun h => h ▸ ⟨hacceptable, hupdates⟩, fun h => hupdates.unique h.2⟩

theorem merge_of_acceptable (h : Acceptable s) (c : Config) :
    ∃ c', c.merge s = .ok c' ∧ c.Updates s.setting? c' := by
  obtain ⟨e, -, hrefused⟩ | ⟨c', hc', -, hupdates⟩ := merge_cases c s
  · exact absurd hrefused (h e)
  · exact ⟨c', hc', hupdates⟩

theorem acceptable_iff : Acceptable s ↔ (Config.merge {} s).isOk = true := by
  obtain ⟨e, he, hrefused⟩ | ⟨c', hc', hacceptable, -⟩ := merge_cases {} s
  · rw [he]
    exact iff_of_false (fun h => h e hrefused) nofun
  · rw [hc']
    exact iff_of_true hacceptable rfl

instance (s : Value) : Decidable (Acceptable s) := decidable_of_iff' _ acceptable_iff

/-! ### Runs of merges -/

/-- The defaults after a run of merges, of which those that are refused change nothing. -/
def afterAll (ss : List Value) : Config := ss.foldl attempt {}

/-- What the last of some settings to be accepted with a word on a field says of it. -/
def lastSetting? (ss : List Value) (key : SettingKey) : Option Value :=
  (ss.filter (Acceptable ·)).reverse.findSome? (·.setting? key)

theorem attempt_updates (c : Config) (s : Value) :
    c.Updates (lastSetting? [s]) (c.attempt s) := by
  obtain ⟨e, he, hrefused⟩ | ⟨c', hc', hacceptable, hupdates⟩ := merge_cases c s
  · have hnot : ¬Acceptable s := fun h => h e hrefused
    rw [attempt, he]
    refine (Updates.refl c).congr fun key => ?_
    simp [lastSetting?, hnot]
  · rw [attempt, hc']
    refine hupdates.congr fun key => ?_
    simp [lastSetting?, hacceptable]

theorem lastSetting?_append (ss later : List Value) (key : SettingKey) :
    lastSetting? (ss ++ later) key = (lastSetting? later key).or (lastSetting? ss key) := by
  simp [lastSetting?, List.findSome?_append]

theorem foldl_attempt_updates (ss : List Value) (c : Config) :
    c.Updates (lastSetting? ss) (ss.foldl attempt c) := by
  induction ss generalizing c with
  | nil => exact .refl c
  | cons s rest ih =>
    refine ((attempt_updates c s).trans (ih (c.attempt s))).congr fun key => ?_
    exact (lastSetting?_append [s] rest key).symm

end Config

/-- The search for PHP under a cap that stands as a value. Only a number caps anything, and a
negative one is refused. -/
def Completer.php? : Value → Except NegativeLimit Completer
  | .int n => limit? n (.chain [phpVariables, phpKeywords])
  | _ => .ok (.chain [phpVariables, phpKeywords])

theorem Completer.php?_value_limit (c : Config) : php? (c.value .limit) = .ok (.php c.limit) := by
  cases hlimit : c.limit with
  | none =>
    rw [Config.value, hlimit]
    rfl
  | some n =>
    rw [Config.value, hlimit]
    exact limit?_natCast n _

namespace Config

theorem accepts_value (c : Config) (key : SettingKey) : key.Accepts (c.value key) := by
  cases key with
  | snippets => exact SettingKey.Fits.accepts (.snippets _) (by simp [value])
  | textEdits => exact SettingKey.Fits.accepts (.textEdits _) (by simp [value])
  | trimDollar => exact SettingKey.Fits.accepts (.trimDollar _) (by simp [value])
  | defaultLanguage => exact SettingKey.Fits.accepts (.defaultLanguage _) (by simp [value])
  | limit =>
    rw [value]
    cases c.limit with
    | none => exact SettingKey.Fits.accepts .noLimit (by simp [Value.ofOption])
    | some n =>
      refine SettingKey.Fits.accepts (.limit n) fun m hm => ?_
      rw [← Value.int.inj hm]
      exact Int.natCast_nonneg n

theorem value_limit_cases (c : Config) :
    c.value .limit = .null ∨ ∃ n : Int, 0 ≤ n ∧ c.value .limit = .int n := by
  have haccepts := c.accepts_value .limit
  obtain hnull | ⟨n, hn⟩ := haccepts.fits.limit_cases
  · exact .inl hnull
  · exact .inr ⟨n, (hn ▸ haccepts).nonneg, hn⟩

end Config

namespace Settings

variable {c c' : Config} {s : Value} {e : SettingsError}

theorem merge_eq_ok_iff : merge c s = .ok c' ↔ Config.Acceptable s ∧ c.Updates s.setting? c' := by
  rw [← Config.merge_eq_ok_iff, merge]
  cases Config.merge c s <;> simp [Except.mapError]

theorem merge_eq_error_iff {f : LoadError} :
    merge c s = .error f ↔ ∃ e, Config.Refused s e ∧ f = .ofRefusal e := by
  simp only [← Config.merge_eq_error_iff (c := c), merge]
  cases Config.merge c s <;> simp [Except.mapError, eq_comm]

theorem ofRefusal_eq_settings_iff {e e' : SettingsError} :
    LoadError.ofRefusal e = .settings e' ↔ e = e' ∧ e'.isUnspeakable = false := by
  grind [LoadError.ofRefusal]

theorem ofRefusal_eq_crash_iff {k : Crash} :
    LoadError.ofRefusal e = .crash k ↔ e.isUnspeakable = true ∧ k = .longInteger := by
  grind [LoadError.ofRefusal]

/-- Merging refuses just the settings that are at fault, and says so unless the words would have to
show an integer too long for it. It puts all others in place and changes nothing else. After any run
of merges every field holds what was last accepted for it, a value that it may be given; so a limit
is never negative, and the search for PHP can be capped at it. -/
theorem merge_refuses_or_updates (c : Config) (s : Value) (ss : List Value) :
    (∀ e, merge c s = .error (.settings e) ↔ Config.Refused s e ∧ e.isUnspeakable = false) ∧
    (∀ k, merge c s = .error (.crash k) ↔
      (∃ e, Config.Refused s e ∧ e.isUnspeakable = true) ∧ k = .longInteger) ∧
    (∀ c', merge c s = .ok c' ↔ Config.Acceptable s ∧ c.Updates s.setting? c') ∧
    (∀ (key : SettingKey) (v : Value) (e : SettingsError), key.Refuses v e →
      Text.ofString "completion." ++ Text.ofString key.name <:+: e.message) ∧
    (∀ key, (Config.afterAll ss).value key =
      (Config.lastSetting? ss key).getD (Config.value {} key)) ∧
    (∀ key : SettingKey, key.Accepts ((Config.afterAll ss).value key)) ∧
    ((Config.afterAll ss).value .limit = .null ∨
      ∃ n : Int, 0 ≤ n ∧ (Config.afterAll ss).value .limit = .int n) ∧
    Completer.php? ((Config.afterAll ss).value .limit) =
      .ok (.php (Config.afterAll ss).limit) := by
  refine ⟨fun e => ?_, fun k => ?_, fun c' => merge_eq_ok_iff, fun key v e h => h.name_isInfix,
    (Config.foldl_attempt_updates ss {}).value_eq, Config.accepts_value _,
    Config.value_limit_cases _, Completer.php?_value_limit _⟩
  · rw [merge_eq_error_iff]
    constructor
    · rintro ⟨e', hrefused, he⟩
      obtain ⟨rfl, hspeakable⟩ := ofRefusal_eq_settings_iff.mp he.symm
      exact ⟨hrefused, hspeakable⟩
    · rintro ⟨hrefused, hspeakable⟩
      exact ⟨e, hrefused, (ofRefusal_eq_settings_iff.mpr ⟨rfl, hspeakable⟩).symm⟩
  · rw [merge_eq_error_iff]
    constructor
    · rintro ⟨e, hrefused, he⟩
      obtain ⟨hunspeakable, rfl⟩ := ofRefusal_eq_crash_iff.mp he.symm
      exact ⟨⟨e, hrefused, hunspeakable⟩, rfl⟩
    · rintro ⟨⟨e, hrefused, hunspeakable⟩, rfl⟩
      exact ⟨e, hrefused, (ofRefusal_eq_crash_iff.mpr ⟨hunspeakable, rfl⟩).symm⟩

def onlyLimit (n : Int) : Value := .object [("completion", .object [("limit", .int n)])]

theorem refused_onlyLimit {n : Int} (h : n < 0) :
    Config.Refused (onlyLimit n) (.negativeLimit n) :=
  .entry (.here ⟨.limit, rfl, .negative h⟩)

/-- A limit that is refused leaves the one before it in force. -/
theorem merge_refuses_negative_after_three :
    merge {} (onlyLimit (-5)) = .error (.settings (.negativeLimit (-5))) ∧
    Text.ofString "completion." ++ Text.ofString "limit" <:+:
      SettingsError.message (.negativeLimit (-5)) ∧
    (Config.afterAll [onlyLimit 3, onlyLimit (-5)]).value .limit = .int 3 := by
  obtain ⟨hrefused, -, -, hmessage, hlast, -⟩ :=
    merge_refuses_or_updates {} (onlyLimit (-5)) [onlyLimit 3, onlyLimit (-5)]
  exact ⟨(hrefused _).mpr ⟨refused_onlyLimit (by decide), by decide +kernel⟩,
    hmessage .limit _ _ (.negative (by decide)), hlast .limit⟩

/-- The negative numbers from here on have too many digits to be shown. -/
def farBelowZero : Int := -(10 ^ Numeral.mostDigits : Nat)

theorem farBelowZero_neg : farBelowZero < 0 := by
  have hpos : 0 < 10 ^ Numeral.mostDigits := Nat.pow_pos (by decide)
  exact Int.neg_neg_of_pos (Int.natCast_pos.mpr hpos)

theorem isUnspeakable_farBelowZero :
    (SettingsError.negativeLimit farBelowZero).isUnspeakable = true := by
  rw [SettingsError.isUnspeakable, Numeral.isLong, decide_eq_true_iff, farBelowZero,
    Int.natAbs_neg, Int.natAbs_natCast, Nat.pow_eq]

/-- A negative limit is refused without words if it has too many digits to be shown. -/
theorem merge_crashes_farBelowZero :
    Config.Refused (onlyLimit farBelowZero) (.negativeLimit farBelowZero) ∧
    merge {} (onlyLimit farBelowZero) = .error (.crash .longInteger) ∧
    ¬∃ e, merge {} (onlyLimit farBelowZero) = .error (.settings e) := by
  have hrefused := refused_onlyLimit farBelowZero_neg
  have hmerge : merge {} (onlyLimit farBelowZero) = .error (.crash .longInteger) :=
    merge_eq_error_iff.mpr ⟨_, hrefused,
      (ofRefusal_eq_crash_iff.mpr ⟨isUnspeakable_farBelowZero, rfl⟩).symm⟩
  refine ⟨hrefused, hmerge, ?_⟩
  rintro ⟨e, he⟩
  rw [hmerge] at he
  cases he

end Settings

end CompletionServer
