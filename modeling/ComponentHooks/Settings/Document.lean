import ComponentHooks.Json
import ComponentHooks.Settings

/-!
# Settings from a JSON text

A group of settings is written as an object or as the array of its values in declaration order,
cut off after any of them. What is left out keeps its default, and members of other names are
ignored.

* `Json.group?`: the values of a group;
* `Json.number?`, `Json.optional?`, `Json.policy?`: single values;
* `Settings.ofJson?`, `Settings.ofText`: the settings of a tree and of a text.
-/

namespace ComponentHooks

namespace Json

/-! ## Groups -/

/-- The value of a member, given all members with their names decoded: none at all, or one. A name
that is written twice is an error. -/
def member? (ms : List (List Char × Json)) (name : String) : Option (Option Json) :=
  match ms.filter (·.1 = name.toList) with
  | [] => some none
  | [(_, v)] => some (some v)
  | _ => none

/-- A member with its name decoded. -/
def decodeMember? (m : List Piece × Json) : Option (List Char × Json) :=
  (decode? m.1).map (·, m.2)

/-- The values of a group with these names, each of them present or absent. -/
def group? (names : List String) : Json → Option (List (Option Json))
  | .object ms => do
    let ms ← ms.mapM decodeMember?
    names.mapM (member? ms)
  | .array vs =>
    if vs.length ≤ names.length then
      some (vs.map some ++ List.replicate (names.length - vs.length) none)
    else none
  | _ => none

/-- Reads a value that is present, and takes the default for one that is absent. -/
def orDefault {α : Type} (read? : Json → Option α) (default : α) : Option Json → Option α
  | none => some default
  | some v => read? v

/-! ## Values -/

/-- A number below 2^64, written with digits alone. -/
def number? : Json → Option UInt64
  | .number t =>
    match Text.readDigits 0 t with
    | .ok n => some (UInt64.ofNat n)
    | .error _ => none
  | _ => none

/-- A number, or null for none. -/
def optional? : Json → Option (Option UInt64)
  | .null => some none
  | v => (number? v).map some

/-- The policy that a string names. -/
def policyName? (ps : List Piece) : Option BindPolicy := do
  let cs ← decode? ps
  BindPolicy.ofName? (String.ofList cs)

/-- A policy: its name, or an object with its name and null. -/
def policy? : Json → Option BindPolicy
  | .string ps => policyName? ps
  | .object [(ps, .null)] => policyName? ps
  | _ => none

end Json

open Json

/-- The settings of the metadata cache. -/
def MetadataCacheSettings.ofJson? (j : Json) : Option MetadataCacheSettings := do
  let d : MetadataCacheSettings := {}
  match ← group? ["initial_capacity", "max_capacity", "time_to_idle_secs"] j with
  | [initial, max, idle] => do
    let initialCapacity ← orDefault number? d.initialCapacity initial
    let maxCapacity ← orDefault number? d.maxCapacity max
    let idleSeconds ← orDefault optional? d.idleSeconds idle
    some { initialCapacity, maxCapacity, idleSeconds }
  | _ => none

/-- The settings of the handle table. -/
def HandleTableSettings.ofJson? (j : Json) : Option HandleTableSettings := do
  let d : HandleTableSettings := {}
  match ← group? ["initial_capacity"] j with
  | [initial] => do
    let initialCapacity ← orDefault number? d.initialCapacity initial
    some { initialCapacity }
  | _ => none

namespace Settings

/-- The settings that a tree writes, whether or not they satisfy the rules. -/
def ofJson? (j : Json) : Option Settings := do
  match ← group? ["metadata_cache", "handle_cache", "bind_policy", "preload_threads"] j with
  | [cache, handles, policy, threads] => do
    let metadataCache ← orDefault MetadataCacheSettings.ofJson? {} cache
    let handleTable ← orDefault HandleTableSettings.ofJson? {} handles
    let bindPolicy ← orDefault policy? .all policy
    let preloadThreads ← orDefault (fun v => (number? v).map some) none threads
    some { metadataCache, handleTable, bindPolicy, preloadThreads }
  | _ => none

/-- The settings that a text writes, if they satisfy the rules. -/
def ofText (text : String) : Except SettingsError Settings :=
  match (Json.parse? text.toList).bind ofJson? with
  | none => .error .invalidJson
  | some s => s.checked

end Settings

end ComponentHooks
