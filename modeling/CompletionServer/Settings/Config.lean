import CompletionServer.Crash
import CompletionServer.Value.Display

namespace CompletionServer

structure Config where
  snippets : Bool := true
  textEdits : Bool := false
  trimDollar : Bool := false
  limit : Option Nat := none
  defaultLanguage : Text := Text.ofString "php"
  source : Option Path := none
deriving DecidableEq

inductive SettingKey where
  | snippets
  | textEdits
  | trimDollar
  | limit
  | defaultLanguage
deriving DecidableEq

namespace SettingKey

def all : List SettingKey := [snippets, textEdits, trimDollar, limit, defaultLanguage]

def name : SettingKey → String
  | snippets => "snippets"
  | textEdits => "text_edit"
  | trimDollar => "trim_leading_dollar"
  | limit => "limit"
  | defaultLanguage => "default_language"

def ofName? (t : Text) : Option SettingKey := all.find? fun key => Text.ofString key.name = t

/-- Only texts name settings. -/
def ofValue? : Value → Option SettingKey
  | .str s => ofName? s
  | _ => none

end SettingKey

inductive SettingsError where
  | notMapping (found : Value)
  | sectionNotMapping
  | invalid (key : SettingKey) (found : Value)
  | negativeLimit (n : Int)
  | unreadable (path : Path) (e : FileError)
  | unparsable (path : Path)
  | topLevelNotMapping (path : Path)

namespace SettingsError

/-- What a document's fault is in detail is not part of the message. -/
def message : SettingsError → Text
  | notMapping found => "Expected a mapping of settings, got " ++ found.typeName
  | sectionNotMapping => "'completion' settings must be a mapping"
  | invalid key found => "Invalid value for completion." ++ key.name ++ ": " ++ found.display
  | negativeLimit n => s!"completion.limit must not be negative, got {n}"
  | unreadable path e => "Error reading " ++ path.render ++ ": " ++ e.message path
  | unparsable path => "Error parsing " ++ path.render ++ ": <yaml error>"
  | topLevelNotMapping path => path.render ++ " must contain a mapping at the top level"

/-- The message would show an integer with more digits than can be shown. -/
def isUnspeakable : SettingsError → Bool
  | invalid _ found => found.isLong
  | negativeLimit n => Numeral.isLong n
  | _ => false

end SettingsError

namespace Config

/-- Sets one field. A truth value is no number, and only a limit may be null. -/
def set (c : Config) : SettingKey → Value → Except SettingsError Config
  | .snippets, .bool b => .ok { c with snippets := b }
  | .textEdits, .bool b => .ok { c with textEdits := b }
  | .trimDollar, .bool b => .ok { c with trimDollar := b }
  | .limit, .null => .ok { c with limit := none }
  | .limit, .int n =>
    if n < 0 then .error (.negativeLimit n) else .ok { c with limit := some n.toNat }
  | .defaultLanguage, .str s => .ok { c with defaultLanguage := s }
  | key, found => .error (.invalid key found)

/-- Unknown keys are passed over. -/
def setEntry (c : Config) (entry : Value × Value) : Except SettingsError Config :=
  match SettingKey.ofValue? entry.1 with
  | some key => c.set key entry.2
  | none => .ok c

def mergeSection (c : Config) (found : Value) : Except SettingsError Config :=
  if found.truthy then
    match found with
    | .mapping entries => entries.foldlM setEntry c
    | _ => .error .sectionNotMapping
  else .ok c

/-- Applies the `completion` section. Whatever counts as no counts as no settings. -/
def merge (c : Config) (settings : Value) : Except SettingsError Config :=
  if settings.truthy then
    match settings with
    | .mapping entries => c.mergeSection ((Value.lookup "completion" entries).getD .null)
    | found => .error (.notMapping found)
  else .ok c

/-- Settings that are refused leave everything as it was. -/
def attempt (c : Config) (settings : Value) : Config :=
  match c.merge settings with
  | .ok merged => merged
  | .error _ => c

end Config

end CompletionServer
