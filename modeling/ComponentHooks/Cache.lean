import ComponentHooks.Extraction
import ComponentHooks.Rate

/-!
# The metadata cache

The cache keeps the metadata of each type name that was extracted with success, up to a bound. A
failed extraction leaves no entry.

* `Stats`, `Stats.hitRate`: what is counted;
* `Entry`, `Cache`: an entry, with the number of the extraction that made it, and the cache;
* `Cache.get`, `Cache.getByName`, `Cache.preload`: lookups;
* `Cache.invalidate`, `Cache.invalidateAll`: what makes a later lookup extract again.
-/

namespace ComponentHooks

open Logged

variable {U : Universe}

/-! ## Counters -/

/-- The counters of a cache. -/
structure Stats where
  hits : Nat := 0
  /-- Lookups that found no entry. -/
  misses : Nat := 0
  /-- Runs of the extraction. -/
  extractions : Nat := 0
  failures : Nat := 0
  deriving DecidableEq, Repr

/-- The part of the lookups that were hits, as text. -/
def Stats.hitRate (s : Stats) : String := rateText s.hits (s.hits + s.misses)

/-! ## Entries -/

/-- Why a lookup of a type has no metadata. -/
inductive LookupError where
  /-- The metadata of the type could not be extracted. -/
  | caching (type : String) (cause : Cycle)
  /-- The name could not be loaded. -/
  | load (e : LoadError)
  deriving DecidableEq, Repr

namespace LookupError

/-- The text of the error, without its causes. -/
def message : LookupError → String
  | caching t _ => "Failed to build lifecycle metadata for " ++ t
  | load e => e.message

/-- The texts of the further causes, outermost first. -/
def causes : LookupError → List String
  | caching _ c => [c.message]
  | load e => e.causes

end LookupError

variable (U) in
/-- The metadata of one type. Two entries of one cache have the same serial only if they are the
same entry: it is the number of the extraction that made it. -/
structure Entry where
  name : String
  serial : Nat
  metadata : Metadata U

variable (U) in
/-- Entries in the order in which they were made, and the handle table that extractions fill. -/
structure Cache where
  capacity : Nat
  handles : HandleTable U
  entries : List (Entry U) := []
  stats : Stats := {}

namespace Cache

/-- The entry of a name. -/
def find? (c : Cache U) (name : String) : Option (Entry U) := c.entries.find? (·.name = name)

/-- There is an entry of the name. -/
def contains (c : Cache U) (name : String) : Bool := (c.find? name).isSome

/-- With one more entry; the oldest ones make room. -/
def insert (c : Cache U) (e : Entry U) : Cache U :=
  let entries := c.entries.filter (·.name ≠ e.name) ++ [e]
  { c with entries := entries.drop (entries.length - c.capacity) }

/-- Without the entry of a name. -/
def invalidate (c : Cache U) (name : String) : Cache U :=
  { c with entries := c.entries.filter (·.name ≠ name) }

/-- Without entries. -/
def invalidateAll (c : Cache U) : Cache U := { c with entries := [] }

/-- One more hit. -/
def countHit (c : Cache U) : Cache U :=
  { c with stats := { c.stats with hits := c.stats.hits + 1 } }

/-- One more lookup that found no entry. -/
def countMiss (c : Cache U) : Cache U :=
  { c with stats := { c.stats with misses := c.stats.misses + 1 } }

/-- One more extraction. -/
def countExtraction (c : Cache U) : Cache U :=
  { c with stats := { c.stats with extractions := c.stats.extractions + 1 } }

/-- One more failed extraction. -/
def countFailure (c : Cache U) : Cache U :=
  { c with stats := { c.stats with failures := c.stats.failures + 1 } }

/-! ## Lookups -/

/-- A step of the cache on its handle table. -/
def onHandles {α : Type} (x : Slotting U α) : Logged (Cache U) α :=
  onPart (·.handles) (fun handles c => { c with handles }) x

/-- Extracts the metadata of a type and stores it. -/
def load (l : FiniteLoader U) (d : TypeDecl U) :
    Logged (Cache U) (Except LookupError (Entry U)) := do
  change countExtraction
  match ← onHandles (extract l d) with
  | .ok m => do
    let c ← read
    let e : Entry U := ⟨d.name, c.stats.extractions, m⟩
    change (insert · e)
    return .ok e
  | .error cause => do
    change countFailure
    emit (.extractionFailed d.name cause)
    return .error (.caching d.name cause)

/-- The metadata of a type: the entry of its name, or a new one. -/
def get (l : FiniteLoader U) (d : TypeDecl U) :
    Logged (Cache U) (Except LookupError (Entry U)) := do
  match (← read).find? d.name with
  | some e => do
    change countHit
    return .ok e
  | none => do
    change countMiss
    load l d

/-- The metadata of a name: its entry, or that of the declaration it loads. -/
def getByName (l : FiniteLoader U) (name : String) :
    Logged (Cache U) (Except LookupError (Entry U)) := do
  match (← read).find? name with
  | some e => do
    change countHit
    return .ok e
  | none =>
    match l.load name with
    | .ok d => get l d
    | .error e => return .error (.load e)

/-- How many types were looked up with success, and how many without. -/
structure PreloadReport where
  loaded : Nat := 0
  failed : Nat := 0
  deriving DecidableEq, Repr

/-- Looks one type up and counts it. -/
def preloadOne (l : FiniteLoader U) (r : PreloadReport) (d : TypeDecl U) :
    Logged (Cache U) PreloadReport := do
  match ← get l d with
  | .ok _ => return { r with loaded := r.loaded + 1 }
  | .error _ => return { r with failed := r.failed + 1 }

/-- Looks every type up. -/
def preload (l : FiniteLoader U) (threads : Option UInt64) (ds : List (TypeDecl U)) :
    Logged (Cache U) PreloadReport := do
  let r ← ds.foldlM (preloadOne l) {}
  emit (.preloaded r.loaded r.failed threads)
  return r

end Cache

end ComponentHooks
