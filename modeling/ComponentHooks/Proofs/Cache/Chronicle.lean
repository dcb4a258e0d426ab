import ComponentHooks.Proofs.Cache.Standing

/-!
# The chronicle of an engine

Operations come in any order, and the chronicle lists all deeds that they do to the engine's cache.
At every time the cache is as its chronicle says.

* `Cache.getDeeds`, `Cache.getByNameDeeds`, `Cache.preloadDeeds`: the deeds of lookups;
* `Operation.Meets`: all types that an operation looks up have a property;
* `World.deeds`: the deeds of an operation;
* `World.Remembered`: the worlds that come about, with their chronicles;
* **`World.goesOn_step`**: one operation does no more than its deeds;
* **`World.Remembered.remembers`**: every cache is as its chronicle says.
-/

namespace ComponentHooks

open Logged

variable {U : Universe} {τ : Type}

/-! ## Lookups -/

namespace Cache

variable (loaderOf : Registry U → FiniteLoader U)

/-- The deeds of an extraction whose result is stored: the making, and what makes room for it. -/
def loadDeeds (r : Registry U) (d : TypeDecl U) (c : Cache U) : List (Deed U) :=
  match (load (loaderOf r) d c).1 with
  | .ok e => .made ⟨r, d, e⟩ :: (leavers c (load (loaderOf r) d c).2.1 d.name).map .dropped
  | .error _ => []

/-- The deeds of a lookup of a type: none if there is an entry of its name. -/
def getDeeds (r : Registry U) (d : TypeDecl U) (c : Cache U) : List (Deed U) :=
  match c.find? d.name with
  | some _ => []
  | none => loadDeeds loaderOf r d c.countMiss

/-- The deeds of a lookup of a name. -/
def getByNameDeeds (r : Registry U) (name : String) (c : Cache U) : List (Deed U) :=
  match c.find? name with
  | some _ => []
  | none =>
    match (loaderOf r).load name with
    | .ok d => getDeeds loaderOf r d c
    | .error _ => []

/-- The deeds of lookups of types in order. -/
def preloadDeeds (r : Registry U) : List (TypeDecl U) → Cache U → List (Deed U)
  | [], _ => []
  | d :: ds, c => getDeeds loaderOf r d c ++ preloadDeeds r ds (get (loaderOf r) d c).2.1

section Makings

variable {loaderOf} {r : Registry U} {d : TypeDecl U} {c : Cache U}

theorem made_mem_loadDeeds {m : Making U} (h : .made m ∈ loadDeeds loaderOf r d c) :
    m.registry = r ∧ m.decl = d := by
  unfold loadDeeds at h
  split at h
  · rcases List.mem_cons.mp h with h | h
    · cases h
      exact ⟨rfl, rfl⟩
    · simp at h
  · cases h

theorem made_mem_getDeeds {m : Making U} (h : .made m ∈ getDeeds loaderOf r d c) :
    m.registry = r ∧ m.decl = d := by
  unfold getDeeds at h
  split at h
  · cases h
  · exact made_mem_loadDeeds h

theorem getDeeds_of_load_eq_ok {e : Entry U} (h : c.find? d.name = none)
    (hload : (load (loaderOf r) d c.countMiss).1 = .ok e) :
    ∃ gone : List String, getDeeds loaderOf r d c = .made ⟨r, d, e⟩ :: gone.map .dropped := by
  simp only [getDeeds, h, loadDeeds, hload]
  exact ⟨_, rfl⟩

theorem getDeeds_of_load_eq_error {e : LookupError} (h : c.find? d.name = none)
    (hload : (load (loaderOf r) d c.countMiss).1 = .error e) : getDeeds loaderOf r d c = [] := by
  simp only [getDeeds, h, loadDeeds, hload]

theorem made_mem_getByNameDeeds {name : String} {m : Making U}
    (h : .made m ∈ getByNameDeeds loaderOf r name c) :
    m.registry = r ∧ (loaderOf r).load name = .ok m.decl := by
  unfold getByNameDeeds at h
  split at h
  · cases h
  · split at h
    · rename_i d hload
      obtain ⟨hregistry, rfl⟩ := made_mem_getDeeds h
      exact ⟨hregistry, hload⟩
    · cases h

theorem made_mem_preloadDeeds {ds : List (TypeDecl U)} {m : Making U}
    (h : .made m ∈ preloadDeeds loaderOf r ds c) : m.registry = r ∧ m.decl ∈ ds := by
  induction ds generalizing c with
  | nil => cases h
  | cons d ds ih =>
    rw [preloadDeeds, List.mem_append] at h
    rcases h with h | h
    · obtain ⟨hregistry, rfl⟩ := made_mem_getDeeds h
      exact ⟨hregistry, List.mem_cons_self⟩
    · obtain ⟨hregistry, hmem⟩ := ih h
      exact ⟨hregistry, List.mem_cons_of_mem d hmem⟩

end Makings

variable {loaderOf} (r : Registry U) (d : TypeDecl U) (c : Cache U)

theorem goesOn_load (hnew : c.find? d.name = none) :
    c.GoesOn loaderOf (loadDeeds loaderOf r d c) (load (loaderOf r) d c).2.1 := by
  intro past hc
  have hextracted : (c.extracted (loaderOf r) d).Remembers loaderOf past :=
    hc.of_entries_eq rfl (Nat.le_succ _)
  unfold loadDeeds
  cases h : (extract (loaderOf r) d c.handles).1 with
  | ok m =>
    obtain ⟨hanswer, hstate⟩ := load_of_ok h
    rw [hanswer, hstate]
    refine hextracted.insert hnew rfl rfl (fun i hi => ?_) fun t => ?_
    · exact Nat.lt_succ_of_le (hc.serials_le i hi)
    · rw [extract_fst, ← h, extract_fst]
  | error cause =>
    obtain ⟨hanswer, hstate⟩ := load_of_error h
    rw [hanswer, hstate, List.append_nil]
    exact hextracted.of_entries_eq rfl le_rfl

theorem goesOn_get : c.GoesOn loaderOf (getDeeds loaderOf r d c) (get (loaderOf r) d c).2.1 := by
  unfold getDeeds
  cases h : c.find? d.name with
  | some e =>
    rw [get_of_find?_eq_some h]
    exact GoesOn.of_entries_eq rfl le_rfl
  | none =>
    rw [get_of_find?_eq_none h]
    exact fun past hc => goesOn_load r d c.countMiss h past (hc.of_entries_eq rfl le_rfl)

theorem goesOn_getByName (name : String) :
    c.GoesOn loaderOf (getByNameDeeds loaderOf r name c) (getByName (loaderOf r) name c).2.1 := by
  unfold getByNameDeeds
  cases h : c.find? name with
  | some e =>
    rw [getByName_of_find?_eq_some h]
    exact GoesOn.of_entries_eq rfl le_rfl
  | none =>
    cases hl : (loaderOf r).load name with
    | ok d =>
      rw [getByName_of_load_eq_ok h hl]
      exact goesOn_get r d c
    | error e =>
      rw [getByName_of_load_eq_error h hl]
      exact GoesOn.refl c

theorem goesOn_preload (threads : Option UInt64) (ds : List (TypeDecl U)) :
    c.GoesOn loaderOf (preloadDeeds loaderOf r ds c)
      (preload (loaderOf r) threads ds c).2.1 := by
  have hfold : ∀ (report : PreloadReport) (c : Cache U),
      c.GoesOn loaderOf (preloadDeeds loaderOf r ds c)
        (ds.foldlM (preloadOne (loaderOf r)) report c).2.1 := by
    induction ds with
    | nil => exact fun _ c => GoesOn.refl c
    | cons d ds ih =>
      intro report c
      have hget : c.GoesOn loaderOf (getDeeds loaderOf r d c)
          (preloadOne (loaderOf r) report d c).2.1 := by
        rw [preloadOne_state]
        exact goesOn_get r d c
      rw [List.foldlM_cons, bind_apply, preloadDeeds, ← preloadOne_state report]
      exact hget.trans (ih _ _)
  exact hfold {} c

end Cache

/-! ## Operations -/

/-- All types that a lookup comes to have the property. -/
def Lookup.Meets (l : FiniteLoader U) (P : TypeDecl U → Prop) : Lookup U → Prop
  | .type d => P d
  | .name n => ∀ d, l.load n = .ok d → P d
  | .link t => P (l.linked t)

/-- All types that an operation looks up have the property. -/
def Operation.Meets (l : FiniteLoader U) (P : TypeDecl U → Prop) : Operation U τ → Prop
  | .lookup q => q.Meets l P
  | .preload ds => ∀ d ∈ ds, P d
  | .runHooks t _ _ => P (l.linked t)
  | _ => True

namespace World

variable (loaderOf : Registry U → FiniteLoader U) (R : Reflection U τ)

/-- The deeds of a lookup. -/
def lookupDeeds (w : World U) : Lookup U → List (Deed U)
  | .type d => Cache.getDeeds loaderOf w.registry d w.engine.cache
  | .name n => Cache.getByNameDeeds loaderOf w.registry n w.engine.cache
  | .link t => Cache.getDeeds loaderOf w.registry ((w.loader loaderOf).linked t) w.engine.cache

/-- The deeds of an operation, in order. Members are used without a deed. -/
def deeds (w : World U) : Operation U τ → List (Deed U)
  | .register _ => []
  | .unregister _ => []
  | .lookup q => w.lookupDeeds loaderOf q
  | .extract _ => []
  | .preload ds => Cache.preloadDeeds loaderOf w.registry ds w.engine.cache
  | .invalidate name => [.dropped name]
  | .invalidateAll => [.cleared]
  | .runHooks t _ _ => w.lookupDeeds loaderOf (.link t)
  | .invoke _ _ => []
  | .invokeAll _ _ _ => []
  | .getField _ _ => []
  | .getFieldAs _ _ _ => []
  | .setField _ _ _ => []

theorem goesOn_lookup (w : World U) (q : Lookup U) :
    w.engine.cache.GoesOn loaderOf (w.lookupDeeds loaderOf q)
      (q.run (w.loader loaderOf) w.engine).2.1.cache := by
  cases q with
  | type d => exact Cache.goesOn_get w.registry d w.engine.cache
  | name n => exact Cache.goesOn_getByName w.registry w.engine.cache n
  | link t =>
    exact Cache.goesOn_get w.registry ((w.loader loaderOf).linked t) w.engine.cache

theorem goesOn_runHooks (w : World U) (t : U.Link) (k : Kind) (s : Scene U τ) :
    w.engine.cache.GoesOn loaderOf (w.lookupDeeds loaderOf (.link t))
      (w.step loaderOf R (.runHooks t k s)).engine.cache := by
  have hlookup := w.goesOn_lookup loaderOf (.link t)
  change w.engine.cache.GoesOn loaderOf _
    (Engine.runHooks (w.loader loaderOf) R t k s w.engine).2.1.cache
  unfold Engine.runHooks
  rw [bind_apply]
  rcases h : (Lookup.link t).run (w.loader loaderOf) w.engine with ⟨answer, e, events⟩
  rw [h] at hlookup
  rw [show Engine.metadataFor (w.loader loaderOf) t w.engine = (answer, e, events) from h]
  cases answer with
  | error cause => exact hlookup
  | ok entry =>
    exact fun past hc => (hlookup past hc).of_entries_eq rfl le_rfl

/-- **An operation does no more than its deeds** to the cache. -/
theorem goesOn_step (w : World U) (op : Operation U τ) :
    w.engine.cache.GoesOn loaderOf (w.deeds loaderOf op) (w.step loaderOf R op).engine.cache := by
  cases op with
  | lookup q => exact w.goesOn_lookup loaderOf q
  | preload ds =>
    exact Cache.goesOn_preload w.registry w.engine.cache w.engine.settings.preloadThreads ds
  | invalidate name => exact Cache.goesOn_invalidate _ name
  | invalidateAll => exact Cache.goesOn_invalidateAll _
  | runHooks t k s => exact w.goesOn_runHooks loaderOf R t k s
  | register _ | unregister _ => exact Cache.GoesOn.refl _
  | extract _ | invoke _ _ | invokeAll _ _ _ | getField _ _ | getFieldAs _ _ _ | setField _ _ _ =>
    exact Cache.GoesOn.of_entries_eq rfl le_rfl

variable {loaderOf} in
theorem made_mem_deeds {w : World U} {op : Operation U τ} {P : TypeDecl U → Prop}
    (hop : op.Meets (w.loader loaderOf) P) {m : Making U} (h : .made m ∈ w.deeds loaderOf op) :
    m.registry = w.registry ∧ P m.decl := by
  have hlookup : ∀ q : Lookup U, q.Meets (w.loader loaderOf) P →
      .made m ∈ w.lookupDeeds loaderOf q → m.registry = w.registry ∧ P m.decl := by
    intro q hq h
    cases q with
    | type d =>
      obtain ⟨hregistry, rfl⟩ := Cache.made_mem_getDeeds h
      exact ⟨hregistry, hq⟩
    | name n =>
      obtain ⟨hregistry, hload⟩ := Cache.made_mem_getByNameDeeds h
      exact ⟨hregistry, hq _ hload⟩
    | link t =>
      obtain ⟨hregistry, hdecl⟩ := Cache.made_mem_getDeeds h
      exact ⟨hregistry, hdecl ▸ hq⟩
  cases op with
  | lookup q => exact hlookup q hop h
  | preload ds => exact (Cache.made_mem_preloadDeeds h).imp_right (hop _)
  | runHooks t k s => exact hlookup (.link t) hop h
  | invalidate _ | invalidateAll => simp [deeds] at h
  | register _ | unregister _ | extract _ | invoke _ _ | invokeAll _ _ _ | getField _ _
    | getFieldAs _ _ _ | setField _ _ _ => cases h

/-! ## All operations -/

/-- The worlds that come about with an engine of these settings, by operations in any order, each
with its chronicle. -/
inductive Remembered (s : Settings) : List (Deed U) → World U → Prop where
  | start (reserves : UInt64 → Bool) {r : Registry U} {e : Engine U} {events : List Event}
      (h : Engine.build U reserves s = .ok (e, events)) : Remembered s [] ⟨r, e⟩
  | step {past : List (Deed U)} {w : World U} (h : Remembered s past w) (op : Operation U τ) :
      Remembered s (past ++ w.deeds loaderOf op) (w.step loaderOf R op)

variable {loaderOf} {R}

/-- **Every cache is as its chronicle says.** -/
theorem Remembered.remembers {s : Settings} {past : List (Deed U)} {w : World U}
    (h : Remembered loaderOf R s past w) : w.engine.cache.Remembers loaderOf past := by
  induction h with
  | start _ h =>
    rw [cache_of_build h]
    exact Cache.Remembers.of_entries_eq_nil rfl
  | step _ op ih => exact goesOn_step loaderOf R _ op _ ih

end World

end ComponentHooks
