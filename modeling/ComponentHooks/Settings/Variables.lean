import ComponentHooks.Settings

/-!
# Settings from variables

* `Variable`, `Variable.all`: the variables, in the order in which they are read;
* `Variable.read`: what a variable's text changes;
* `Settings.ofVariables`: the defaults, overridden by the variables that are set.
-/

namespace ComponentHooks

/-- A variable that overrides one setting. -/
inductive Variable where
  | metadataInitialCapacity
  | metadataMaxCapacity
  | metadataIdleSeconds
  | handleInitialCapacity
  | bindPolicy
  | preloadThreads
  deriving DecidableEq, Repr

namespace Variable

/-- Every variable, in the order in which they are read. -/
def all : List Variable :=
  [metadataInitialCapacity, metadataMaxCapacity, metadataIdleSeconds, handleInitialCapacity,
    bindPolicy, preloadThreads]

/-- The variable's name. -/
def name : Variable → String
  | metadataInitialCapacity => "LIFEMARK_METADATA_INITIAL_CAPACITY"
  | metadataMaxCapacity => "LIFEMARK_METADATA_MAX_CAPACITY"
  | metadataIdleSeconds => "LIFEMARK_METADATA_IDLE_SECS"
  | handleInitialCapacity => "LIFEMARK_HANDLE_INITIAL_CAPACITY"
  | bindPolicy => "LIFEMARK_BIND_POLICY"
  | preloadThreads => "LIFEMARK_PRELOAD_THREADS"

/-- Reads a number and stores it. -/
def readNumber (cs : List Char) (store : UInt64 → Settings) : Except VariableError Settings :=
  match Text.readNumeral cs with
  | .ok n => .ok (store n)
  | .error e => .error (.number e)

/-- The settings `s` with one setting read from a text without blanks at its ends. -/
def read (v : Variable) (cs : List Char) (s : Settings) : Except VariableError Settings :=
  match v with
  | metadataInitialCapacity => readNumber cs fun n =>
    { s with metadataCache := { s.metadataCache with initialCapacity := n } }
  | metadataMaxCapacity => readNumber cs fun n =>
    { s with metadataCache := { s.metadataCache with maxCapacity := n } }
  | metadataIdleSeconds => readNumber cs fun n =>
    { s with metadataCache := { s.metadataCache with idleSeconds := some n } }
  | handleInitialCapacity => readNumber cs fun n =>
    { s with handleTable := { s.handleTable with initialCapacity := n } }
  | preloadThreads => readNumber cs fun n => { s with preloadThreads := some n }
  | bindPolicy =>
    match BindPolicy.ofName? (String.ofList cs) with
    | some p => .ok { s with bindPolicy := p }
    | none => .error .policy

/-- The settings `s` overridden by a variable, if it is set. -/
def override (lookup : String → Option String) (s : Settings) (v : Variable) :
    Except SettingsError Settings :=
  match lookup v.name with
  | none => .ok s
  | some raw => (v.read (Text.trim raw.toList) s).mapError (.unreadable v.name raw)

end Variable

/-- The defaults, overridden by the variables that are set. The first text that cannot be read is
reported before any broken rule. -/
def Settings.ofVariables (lookup : String → Option String) : Except SettingsError Settings := do
  let s ← Variable.all.foldlM (Variable.override lookup) {}
  s.checked

end ComponentHooks
