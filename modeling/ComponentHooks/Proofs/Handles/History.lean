import ComponentHooks.Proofs.Handles.Journal

/-!
# The life of an engine

Types come and go, and an engine looks metadata up, forgets it and uses members, in any order. Its
journal is the list of all members whose slots were asked for.

* `Lookup`, `Operation`: lookups, and all that may happen;
* `World`, `World.step`: a registry with an engine, and what an operation does to it;
* `World.requests`: what an operation asks for;
* `World.Reached`: the worlds that come about, with their journals;
* **`World.serves_step`**: one operation asks for no more than its requests;
* **`World.Reached.handles`**, **`World.Reached.within`**: the handle table of a world has served
  its journal, which has all members of the metadata in its cache.
-/

namespace ComponentHooks

open Logged

variable {U : Universe} {τ : Type}

/-! ## Operations -/

variable (U) in
/-- A lookup of metadata. -/
inductive Lookup where
  | type (d : TypeDecl U)
  | name (n : String)
  | link (t : U.Link)

namespace Lookup

variable (l : FiniteLoader U)

/-- The lookup on an engine. -/
def run : Lookup U → Logged (Engine U) (Except LookupError (Entry U))
  | type d => Engine.metadata l d
  | name n => Engine.metadataByName l n
  | link t => Engine.metadataFor l t

/-- What the lookup asks for. -/
def requests (c : Cache U) : Lookup U → List (Request U)
  | type d => c.getRequests l d
  | name n => c.getByNameRequests l n
  | link t => c.getRequests l (l.linked t)

theorem serves_run (q : Lookup U) (e : Engine U) :
    e.cache.Serves (q.requests l e.cache) (q.run l e).2.1.cache := by
  cases q with
  | type d => exact (Cache.answers_get l d e.cache).serves
  | name n => exact (Cache.answers_getByName l n e.cache).serves
  | link t => exact (Cache.answers_get l (l.linked t) e.cache).serves

theorem within_run (q : Lookup U) {e : Engine U} {journal : List (Request U)}
    (h : e.cache.Within journal) {entry : Entry U} (hq : (q.run l e).1 = .ok entry) :
    entry.metadata.Within (journal ++ q.requests l e.cache) := by
  cases q with
  | type d => exact (Cache.answers_get l d e.cache).within journal h entry hq
  | name n => exact (Cache.answers_getByName l n e.cache).within journal h entry hq
  | link t => exact (Cache.answers_get l (l.linked t) e.cache).within journal h entry hq

end Lookup

variable (U τ) in
/-- What may happen to a registry and an engine. Members are used on any scene. -/
inductive Operation where
  | register (d : TypeDecl U)
  | unregister (name : String)
  | lookup (q : Lookup U)
  /-- Extracts without a look at the cache. -/
  | extract (d : TypeDecl U)
  | preload (ds : List (TypeDecl U))
  /-- An entry goes; also one that has stood too long, or makes room. -/
  | invalidate (name : String)
  | invalidateAll
  | runHooks (t : U.Link) (k : Kind) (s : Scene U τ)
  | invoke (x : Method U) (s : Scene U τ)
  | invokeAll (m : Metadata U) (k : Kind) (s : Scene U τ)
  | getField (x : Field U) (s : Scene U τ)
  | getFieldAs (t : U.Ty) (x : Field U) (s : Scene U τ)
  | setField (x : Field U) (v : Value U) (s : Scene U τ)

variable (U) in
/-- A registry, and an engine that loads from it. -/
structure World where
  registry : Registry U
  engine : Engine U

namespace World

variable (loaderOf : Registry U → FiniteLoader U) (R : Reflection U τ)

/-- The loader as it stands. -/
def loader (w : World U) : FiniteLoader U := loaderOf w.registry

/-- The world after a step of its engine. -/
def after {α : Type} (w : World U) (x : Logged (Engine U) α) : World U :=
  { w with engine := (x w.engine).2.1 }

/-- The world after an operation. -/
def step (w : World U) : Operation U τ → World U
  | .register d => { w with registry := w.registry.register d }
  | .unregister name => { w with registry := w.registry.unregister name }
  | .lookup q => w.after (q.run (w.loader loaderOf))
  | .extract d => w.after (Engine.onHandles (ComponentHooks.extract (w.loader loaderOf) d))
  | .preload ds => w.after (Engine.preload (w.loader loaderOf) ds)
  | .invalidate name => w.after (Engine.onCache (change (·.invalidate name)))
  | .invalidateAll => w.after (Engine.onCache (change (·.invalidateAll)))
  | .runHooks t k s => w.after (Engine.runHooks (w.loader loaderOf) R t k s)
  | .invoke x s => w.after (Engine.onHandles (ComponentHooks.invoke R x s))
  | .invokeAll m k s => w.after (Engine.onHandles (ComponentHooks.invokeAll R m k s))
  | .getField x s => w.after (Engine.onHandles (ComponentHooks.getField R x s))
  | .getFieldAs t x s => w.after (Engine.onHandles (ComponentHooks.getFieldAs R t x s))
  | .setField x v s => w.after (Engine.onHandles (ComponentHooks.setField R x v s))

/-- What the hooks of a linked type ask for: what the lookup does, then the slots of those that are
run. -/
def hookRequests (w : World U) (t : U.Link) (k : Kind) (s : Scene U τ) : List (Request U) :=
  (Lookup.link t).requests (w.loader loaderOf) w.engine.cache ++
    match (Lookup.link t).run (w.loader loaderOf) w.engine with
    | (.ok entry, e, _) => invokeEachRequests R (entry.metadata.methods k) s e.handles
    | (.error _, _, _) => []

/-- What an operation asks for, in order. -/
def requests (w : World U) : Operation U τ → List (Request U)
  | .register _ => []
  | .unregister _ => []
  | .lookup q => q.requests (w.loader loaderOf) w.engine.cache
  | .extract d => ((w.loader loaderOf).draft d).requests
  | .preload ds => w.engine.cache.preloadRequests (w.loader loaderOf) ds
  | .invalidate _ => []
  | .invalidateAll => []
  | .runHooks t k s => w.hookRequests loaderOf R t k s
  | .invoke x _ => [.method x]
  | .invokeAll m k s => invokeEachRequests R (m.methods k) s w.engine.handles
  | .getField x _ => [.field x]
  | .getFieldAs _ x _ => [.field x]
  | .setField x _ _ => [.field x]

/-! ## One step -/

theorem serves_runHooks (w : World U) (t : U.Link) (k : Kind) (s : Scene U τ) :
    w.engine.cache.Serves (w.hookRequests loaderOf R t k s)
      (w.step loaderOf R (.runHooks t k s)).engine.cache := by
  have hlookup := (Lookup.link t).serves_run (w.loader loaderOf) w.engine
  change w.engine.cache.Serves _ (Engine.runHooks (w.loader loaderOf) R t k s w.engine).2.1.cache
  unfold hookRequests Engine.runHooks
  rw [bind_apply]
  rcases h : (Lookup.link t).run (w.loader loaderOf) w.engine with ⟨answer, e, events⟩
  rw [h] at hlookup
  rw [show Engine.metadataFor (w.loader loaderOf) t w.engine = (answer, e, events) from h]
  cases answer with
  | error cause => exact hlookup.trans (Cache.Serves.refl _)
  | ok entry =>
    have hhooks := invokeEach_handles R (entry.metadata.methods k) s e.handles
    exact hlookup.trans (Cache.Serves.of_subset hhooks (List.Subset.refl _))

/-- **An operation asks for no more than its requests**, and all metadata that it stores is made of
members requested by then. -/
theorem serves_step (w : World U) (op : Operation U τ) :
    w.engine.cache.Serves (w.requests loaderOf R op) (w.step loaderOf R op).engine.cache := by
  have hslots : ∀ {t : HandleTable U} {rs : List (Request U)},
      t = w.engine.cache.handles.serveAll rs →
        w.engine.cache.Serves rs { w.engine.cache with handles := t } :=
    fun h => Cache.Serves.of_subset h (List.Subset.refl _)
  cases op with
  | register d => exact Cache.Serves.refl _
  | unregister name => exact Cache.Serves.refl _
  | lookup q => exact q.serves_run (w.loader loaderOf) w.engine
  | extract d => exact hslots (extract_handles _ d w.engine.cache.handles)
  | preload ds => exact Cache.serves_preload _ w.engine.settings.preloadThreads ds w.engine.cache
  | invalidate name => exact Cache.Serves.of_subset rfl (List.filter_subset_self _)
  | invalidateAll => exact Cache.Serves.of_subset rfl (List.nil_subset _)
  | runHooks t k s => exact w.serves_runHooks loaderOf R t k s
  | invoke x s => exact hslots rfl
  | invokeAll m k s => exact hslots (invokeEach_handles R (m.methods k) s w.engine.handles)
  | getField x s => exact hslots rfl
  | getFieldAs t x s => exact hslots rfl
  | setField x v s => exact hslots rfl

/-! ## All steps -/

/-- The worlds that come about with an engine of these settings, by operations in any order, each
with its journal. -/
inductive Reached (s : Settings) : List (Request U) → World U → Prop where
  | start (reserves : UInt64 → Bool) {r : Registry U} {e : Engine U} {events : List Event}
      (h : Engine.build U reserves s = .ok (e, events)) : Reached s [] ⟨r, e⟩
  | step {journal : List (Request U)} {w : World U} (h : Reached s journal w) (op : Operation U τ) :
      Reached s (journal ++ w.requests loaderOf R op) (w.step loaderOf R op)

theorem cache_of_build {reserves : UInt64 → Bool} {s : Settings} {e : Engine U}
    {events : List Event} (h : Engine.build U reserves s = .ok (e, events)) :
    e.cache = { capacity := s.metadataCache.maxCapacity.toNat
                handles := { policy := s.bindPolicy } } := by
  unfold Engine.build at h
  split at h
  · cases h
  · split_ifs at h
    cases h
    rfl

namespace Reached

variable {loaderOf} {R} {s : Settings} {journal : List (Request U)} {w : World U}

/-- **The handle table has served the journal**, from an empty table of the engine's policy. -/
theorem handles (h : Reached loaderOf R s journal w) :
    w.engine.handles = HandleTable.serveAll { policy := s.bindPolicy } journal := by
  induction h with
  | start _ h => rw [Engine.handles, cache_of_build h, HandleTable.serveAll_nil]
  | step _ op ih =>
    rw [HandleTable.serveAll_append, ← ih]
    exact (serves_step loaderOf R _ op).handles

/-- **The journal has all members of the metadata in the cache.** -/
theorem within (h : Reached loaderOf R s journal w) : w.engine.cache.Within journal := by
  induction h with
  | start _ h =>
    rw [cache_of_build h]
    exact fun _ he => (List.not_mem_nil he).elim
  | step _ op ih => exact (serves_step loaderOf R _ op).within _ ih

end Reached

end World

end ComponentHooks
