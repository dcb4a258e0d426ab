import ComponentHooks.Binding
import ComponentHooks.Hierarchy

/-!
# Log events

Every event is a value; `Event.level`, `Event.message` and `Event.fields` say how it is written.
-/

namespace ComponentHooks

/-- How much an event matters. -/
inductive Level where
  | trace
  | debug
  | info
  | warn
  deriving DecidableEq, Repr

/-- The word for a level. -/
def Level.name : Level → String
  | .trace => "trace"
  | .debug => "debug"
  | .info => "info"
  | .warn => "warn"

/-- One of a type's two member tables. -/
inductive MemberTable where
  | fields
  | methods
  deriving DecidableEq, Repr

/-- The word for a member table. -/
def MemberTable.name : MemberTable → String
  | .fields => "fields"
  | .methods => "methods"

/-- What an engine tells about its work. -/
inductive Event where
  | methodUnavailable (member : MemberId) (reason : Refusal)
  | fieldUnavailable (member : MemberId) (reason : Refusal)
  | membersSkipped (type : String) (table : MemberTable) (error : LoadError)
  | supertypeSkipped (type supertype : String) (error : LoadError)
  | extracted (type : String) (types methods fields : Nat)
  | extractionFailed (type : String) (error : Cycle)
  | preloaded (loaded failed : Nat) (threads : Option UInt64)
  | engineReady (policy : BindPolicy) (maxCapacity : UInt64) (idleSeconds : Option UInt64)
  deriving DecidableEq, Repr

/-- A field of a written event. -/
inductive EventValue where
  | text (s : String)
  | number (n : Nat)
  | flag (b : Bool)
  deriving DecidableEq, Repr

namespace Event

/-- The event's level. -/
def level : Event → Level
  | methodUnavailable .. | fieldUnavailable .. => .trace
  | membersSkipped .. | supertypeSkipped .. | extracted .. => .debug
  | preloaded .. | engineReady .. => .info
  | extractionFailed .. => .warn

/-- The event's text. -/
def message : Event → String
  | methodUnavailable .. => "Method handle unavailable"
  | fieldUnavailable .. => "Field handle unavailable"
  | membersSkipped _ t _ =>
    "Skipping " ++ t.name ++ ": a type they depend on could not be loaded"
  | supertypeSkipped .. => "Supertype could not be loaded; skipping it"
  | extracted .. => "Extracted lifecycle metadata"
  | extractionFailed .. => "Lifecycle metadata extraction failed"
  | preloaded .. => "Preloaded lifecycle metadata"
  | engineReady .. => "Lifecycle engine ready"

/-- An idle time as events write it. -/
def idleText : Option UInt64 → String
  | none => "None"
  | some n => "Some(" ++ toString n.toNat ++ ")"

/-- The event's fields, each with its name. -/
def fields : Event → List (String × EventValue)
  | methodUnavailable m r | fieldUnavailable m r =>
    [("member", .text m.label), ("reason", .text r.message)]
  | membersSkipped c _ e => [("class", .text c), ("error", .text e.message)]
  | supertypeSkipped c s e =>
    [("class", .text c), ("supertype", .text s), ("unresolved", .flag e.isUnresolved),
      ("error", .text e.message)]
  | extracted c t m f =>
    [("class", .text c), ("types", .number t), ("methods", .number m), ("fields", .number f)]
  | extractionFailed c e => [("class", .text c), ("error", .text e.message)]
  | preloaded l f t =>
    [("loaded", .number l), ("failed", .number f),
      ("threads", match t with
        | some n => .number n.toNat
        | none => .text "default")]
  | engineReady p m i =>
    [("bind_policy", .text p.name), ("max_capacity", .number m.toNat),
      ("time_to_idle_secs", .text (idleText i))]

end Event

end ComponentHooks
