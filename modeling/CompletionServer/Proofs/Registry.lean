import CompletionServer.Proofs.Dictionary
import CompletionServer.Registry

namespace CompletionServer.Registry

variable {α : Type} {r : Registry α} {history : List (Text × α)} {language : Text}

abbrev Keeping (α : Type) := ExceptT Unsupported (StateM (Registry α))

def lookUp (language : Text) : Keeping α α := do
  MonadExcept.ofExcept ((← get).find language)

/-- What can happen to a registry that is kept. -/
inductive Call (α : Type) where
  | register (language : Text) (a : α)
  | lookUp (language : Text)

def Call.registration? : Call α → Option (Text × α)
  | register language a => some (language, a)
  | lookUp _ => none

def afterCall (r : Registry α) : Call α → Registry α
  | .register language a => r.register language a
  | .lookUp language => ((lookUp language).run.run r).2

/-- What is left of a registry by a course of calls, of which any may have failed. -/
def after (r : Registry α) (calls : List (Call α)) : Registry α :=
  calls.foldl afterCall r

theorem lookUp_run (language : Text) (r : Registry α) :
    (lookUp language).run.run r = (r.find language, r) := by
  change (MonadExcept.ofExcept (r.find language) : Keeping α α).run.run r = _
  cases r.find language with
  | ok a => rfl
  | error e => rfl

theorem contains_iff : r.contains language = true ↔ language ∈ r.languages :=
  Dictionary.contains_iff

theorem find_eq_ok_iff {a : α} : r.find language = .ok a ↔ r.table.get? language = some a := by
  rw [find]
  cases r.table.get? language with
  | some b => simp
  | none => simp

theorem find_eq_error_iff {e : Unsupported} :
    r.find language = .error e ↔ e = ⟨language⟩ ∧ r.contains language = false := by
  rw [contains, ← Dictionary.get?_eq_none_iff, find]
  cases r.table.get? language with
  | some a => simp
  | none => simp [eq_comm]

theorem find_php (a : α) (language : Text) :
    (ofList [(Text.ofString "php", a)]).find language =
      if language = Text.ofString "php" then .ok a else .error ⟨language⟩ := by
  have hget : (ofList [(Text.ofString "php", a)]).table.get? language =
      if language = Text.ofString "php" then some a else none :=
    Dictionary.get?_insert .empty (Text.ofString "php") language a
  rw [find, hget]
  by_cases h : language = Text.ofString "php"
  · rw [if_pos h, if_pos h]
  · rw [if_neg h, if_neg h]

theorem afterCall_records (h : r.table.Records history) (call : Call α) :
    (r.afterCall call).table.Records (history ++ [call].filterMap Call.registration?) := by
  cases call with
  | register language a => exact h.insert language a
  | lookUp language =>
    rw [afterCall, lookUp_run, List.filterMap_cons_none rfl, List.filterMap_nil, List.append_nil]
    exact h

theorem after_records (h : r.table.Records history) (calls : List (Call α)) :
    (r.after calls).table.Records (history ++ calls.filterMap Call.registration?) := by
  -- From the right end, so that one more call is one more step on what is left.
  induction calls using List.reverseRecOn with
  | nil =>
    rw [List.filterMap_nil, List.append_nil]
    exact h
  | append_singleton calls call ih =>
    rw [after, List.foldl_concat, List.filterMap_append, ← List.append_assoc]
    exact afterCall_records ih call

/-- After any course of registrations and look-ups a registry lists the languages of its entries and
registrations, each once and in the order in which they first came. A look-up gives what was last
given for the language. It fails just for a language that is not contained, which is one that is not
listed, and either way it leaves the registry as it is. -/
theorem after_goes_by_registrations (entries : List (Text × α)) (calls : List (Call α)) :
    let r := (ofList entries).after calls
    let history := entries ++ calls.filterMap Call.registration?
    r.languages.Nodup ∧ InFirstOrder r.languages (history.map Prod.fst) ∧
    ∀ language,
      let asked : Except Unsupported α × Registry α := (lookUp language).run.run r
      asked.2 = r ∧
      (∀ a, asked.1 = .ok a ↔ GivesLast history language a) ∧
      (∀ e, asked.1 = .error e ↔ e = ⟨language⟩ ∧ r.contains language = false) ∧
      (r.contains language = true ↔ language ∈ r.languages) := by
  intro r history
  have hr : r.table.Records history := after_records (Dictionary.records_ofList entries) calls
  refine ⟨hr.keys.nodup, hr.keys, fun language => ?_⟩
  intro asked
  have hasked : asked = (r.find language, r) := lookUp_run language r
  rw [hasked]
  refine ⟨rfl, fun a => ?_, fun e => find_eq_error_iff, contains_iff⟩
  rw [find_eq_ok_iff]
  exact hr.get? language a

/-- A language that is registered again keeps its place and takes the new value. -/
example : ((ofList [("php", 1), ("twig", 2), ("php", 3)]).after
    [.lookUp "blade", .register "twig" 4, .register "blade" 5]).table.entries =
      ([("php", 3), ("twig", 4), ("blade", 5)] : List (Text × Nat)) := by decide

end CompletionServer.Registry
