import ComponentHooks.Cache
import ComponentHooks.Invocation
import ComponentHooks.Settings

/-!
# Engines

An engine has settings, a metadata cache and a handle table. It is built in calls that change the
settings, of which the last one counts.

* `BuildCall`, `BuildCall.apply`: the calls, and what they do to the settings;
* `BuildError`, `Engine.build`, `Engine.ofCalls`: engines from settings and from calls;
* `EngineError`: why an operation failed;
* `Engine.metadata`, `Engine.metadataByName`, `Engine.runHooks`, `Engine.preload`: the operations.
-/

namespace ComponentHooks

open Logged

variable {U : Universe}

/-! ## Building -/

/-- A call that prepares an engine. -/
inductive BuildCall where
  /-- Replaces all settings. -/
  | settings (s : Settings)
  | bindPolicy (p : BindPolicy)
  | maxCapacity (n : UInt64)
  /-- An idle time of whole seconds and nanoseconds. -/
  | timeToIdle (seconds : UInt64) (nanoseconds : Nat)
  | preloadThreads (n : UInt64)
  /-- Gives the engine its loader, which is no setting. -/
  | loader

/-- Why there is no engine. -/
inductive BuildError where
  | settings (e : SettingsError)
  /-- There is no room for so many slots. -/
  | tooManySlots
  /-- The cache does not take so long an idle time. -/
  | idleTooLong
  /-- So long an idle time cannot be counted. -/
  | idleOverflow
  deriving DecidableEq, Repr

/-- Whole seconds for an idle time: a second that is begun counts in full. There are none if their
number does not fit. -/
def idleSeconds? (seconds : UInt64) (nanoseconds : Nat) : Option UInt64 :=
  let n := seconds.toNat + (nanoseconds + 999999999) / 1000000000
  if n < UInt64.size then some (UInt64.ofNat n) else none

/-- The settings with an idle time. -/
def Settings.withIdle (s : Settings) (seconds : UInt64) : Settings :=
  { s with metadataCache := { s.metadataCache with idleSeconds := some seconds } }

/-- The settings after a call. -/
def BuildCall.apply (s : Settings) : BuildCall → Except BuildError Settings
  | settings t => .ok t
  | bindPolicy p => .ok { s with bindPolicy := p }
  | maxCapacity n => .ok { s with metadataCache := { s.metadataCache with maxCapacity := n } }
  | timeToIdle t n => (idleSeconds? t n).elim (.error .idleOverflow) fun t => .ok (s.withIdle t)
  | preloadThreads n => .ok { s with preloadThreads := some n }
  | loader => .ok s

/-- The settings after calls in order, the first of which meets the defaults. -/
def BuildCall.applyAll (calls : List BuildCall) : Except BuildError Settings :=
  calls.foldlM BuildCall.apply {}

/-- The greatest idle time that a cache takes: a thousand years of 365 days. -/
def maxIdleSeconds : UInt64 := 1000 * 365 * 24 * 3600

variable (U) in
/-- An engine. -/
structure Engine where
  settings : Settings
  cache : Cache U

namespace Engine

section Build

variable (U : Universe) (reserves : UInt64 → Bool)

/-- The engine of the given settings, and what it tells about itself. Room for slots is set aside
first, if the map that is to hold them `reserves` so much. -/
def build (s : Settings) : Except BuildError (Engine U × List Event) :=
  match s.fault? with
  | some e => .error (.settings e)
  | none =>
    if !reserves s.handleTable.initialCapacity then .error .tooManySlots
    else if s.metadataCache.idleSeconds.any (maxIdleSeconds < ·) then .error .idleTooLong
    else
      .ok ({ settings := s
             cache := { capacity := s.metadataCache.maxCapacity.toNat
                        handles := { policy := s.bindPolicy } } },
        [.engineReady s.bindPolicy s.metadataCache.maxCapacity s.metadataCache.idleSeconds])

/-- The engine that calls prepare, and what it tells about itself. -/
def ofCalls (calls : List BuildCall) : Except BuildError (Engine U × List Event) :=
  (BuildCall.applyAll calls).bind (build U reserves)

end Build

/-- The engine's handle table. -/
def handles (e : Engine U) : HandleTable U := e.cache.handles

end Engine

/-! ## Operations -/

/-- Why an operation of an engine failed. -/
inductive EngineError where
  | lookup (e : LookupError)
  | invoke (e : InvokeError)
  | settings (e : SettingsError)
  deriving DecidableEq, Repr

namespace EngineError

/-- The text of the error, without its causes. -/
def message : EngineError → String
  | lookup e => e.message
  | invoke e => e.message
  | settings e => e.message

/-- The texts of the further causes, outermost first. -/
def causes : EngineError → List String
  | lookup e => e.causes
  | invoke e => e.causes
  | settings _ => []

end EngineError

namespace Engine

/-- A step of the engine on its cache. -/
def onCache {α : Type} (x : Logged (Cache U) α) : Logged (Engine U) α :=
  onPart (·.cache) (fun cache e => { e with cache }) x

/-- A step of the engine on its handle table. -/
def onHandles {α : Type} (x : Slotting U α) : Logged (Engine U) α := onCache (Cache.onHandles x)

/-- The metadata of a type. -/
def metadata (l : FiniteLoader U) (d : TypeDecl U) :
    Logged (Engine U) (Except LookupError (Entry U)) :=
  onCache (Cache.get l d)

/-- The metadata of a name. -/
def metadataByName (l : FiniteLoader U) (name : String) :
    Logged (Engine U) (Except LookupError (Entry U)) :=
  onCache (Cache.getByName l name)

/-- The metadata of a linked type. -/
def metadataFor (l : FiniteLoader U) (t : U.Link) :
    Logged (Engine U) (Except LookupError (Entry U)) :=
  metadata l (l.linked t)

/-- Looks every type up ahead of its first use. -/
def preload (l : FiniteLoader U) (ds : List (TypeDecl U)) :
    Logged (Engine U) Cache.PreloadReport := do
  let e ← read
  onCache (Cache.preload l e.settings.preloadThreads ds)

/-- Runs every hook of a kind on a target of a linked type; the answer is their number. -/
def runHooks {τ : Type} (l : FiniteLoader U) (R : Reflection U τ) (t : U.Link) (k : Kind)
    (s : Scene U τ) : Logged (Engine U) (Except EngineError Nat × Scene U τ) := do
  match ← metadataFor l t with
  | .error e => return (.error (.lookup e), s)
  | .ok entry => do
    let (r, s) ← onHandles (invokeAll R entry.metadata k s)
    return (r.mapError .invoke, s)

end Engine

end ComponentHooks
