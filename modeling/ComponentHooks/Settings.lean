import ComponentHooks.Binding
import ComponentHooks.Text.Numeral

/-!
# Settings

* `Settings`: the settings of an engine; the defaults suit tens of thousands of component types;
* `SettingsError`: why settings are refused;
* `Settings.fault?`, `Settings.checked`: the rules that settings must satisfy.
-/

namespace ComponentHooks

/-- The settings of the metadata cache. -/
structure MetadataCacheSettings where
  initialCapacity : UInt64 := 8192
  /-- The greatest number of cached types. -/
  maxCapacity : UInt64 := 65536
  /-- Entries that are not read for so many seconds are dropped. -/
  idleSeconds : Option UInt64 := none
  deriving DecidableEq, Repr

/-- The settings of the handle table. -/
structure HandleTableSettings where
  initialCapacity : UInt64 := 32768
  deriving DecidableEq, Repr

/-- The settings of an engine. -/
structure Settings where
  metadataCache : MetadataCacheSettings := {}
  handleTable : HandleTableSettings := {}
  bindPolicy : BindPolicy := .all
  /-- Workers of a preload; by default one for each processor. -/
  preloadThreads : Option UInt64 := none
  deriving DecidableEq, Repr

/-- Why a variable's text cannot be read. -/
inductive VariableError where
  | number (e : Text.NumeralError)
  | policy
  deriving DecidableEq, Repr

/-- What is said of a name that is none of its enumeration. -/
def unknownName : String := "Matching variant not found"

/-- The text of the error. -/
def VariableError.message : VariableError → String
  | number e => e.message
  | policy => unknownName

/-- Why settings are refused. -/
inductive SettingsError where
  /-- The text does not write settings. -/
  | invalidJson
  /-- A variable's text, as it was found, cannot be read. -/
  | unreadable (name raw : String) (reason : VariableError)
  | zeroMaxCapacity
  | zeroIdleSeconds
  | zeroPreloadThreads
  deriving DecidableEq, Repr

/-- The text of the error. -/
def SettingsError.message (e : SettingsError) : String :=
  "Invalid configuration: " ++
    match e with
    | invalidJson => "invalid JSON"
    | unreadable v raw r => v ++ "=" ++ raw ++ ": " ++ r.message
    | zeroMaxCapacity => "metadata_cache.max_capacity must be greater than zero"
    | zeroIdleSeconds => "metadata_cache.time_to_idle_secs must be greater than zero"
    | zeroPreloadThreads => "preload_threads must be greater than zero"

namespace Settings

/-- The first rule that the settings break. -/
def fault? (s : Settings) : Option SettingsError :=
  if s.metadataCache.maxCapacity = 0 then some .zeroMaxCapacity
  else if s.metadataCache.idleSeconds = some 0 then some .zeroIdleSeconds
  else if s.preloadThreads = some 0 then some .zeroPreloadThreads
  else none

/-- The settings, if they break no rule. -/
def checked (s : Settings) : Except SettingsError Settings :=
  match s.fault? with
  | some e => .error e
  | none => .ok s

end Settings

end ComponentHooks
