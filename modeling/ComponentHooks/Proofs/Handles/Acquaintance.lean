import ComponentHooks.Proofs.Cache.Chronicle

/-!
# Engines that know few types

An engine that has met only some types, which no reference leads out of, has asked for no other
methods than theirs and has entries of no other types.

* **`types_walk_subset`**: a walk does not leave types that no reference leads out of;
* `RequestsIn`, `requestsIn_draft`: all methods that are asked for are of a list;
* `Operation.Among`, `World.MetOnly`: operations on few types, and the worlds they lead to;
* **`World.MetOnly.journal`**, **`World.MetOnly.chronicle`**: what such an engine has asked for, and
  what it has made.
-/

namespace ComponentHooks

variable {U : Universe} {τ : Type}

/-! ## Walks -/

/-- **A walk does not leave types that no reference leads out of.** -/
theorem types_walk_subset {l : FiniteLoader U} {ds : List (TypeDecl U)}
    (hclosed : ∀ d ∈ ds, l.parents d ⊆ ds) {root : TypeDecl U} (hroot : root ∈ ds) :
    (l.walk root).types ⊆ ds :=
  fun _ hc => Loader.mem_of_mem_hierarchy hroot hclosed (mem_hierarchy_of_mem_types hc)

/-! ## Requests -/

/-- All methods whose slots are asked for are in the list. -/
def RequestsIn (ms : List (Method U)) (rs : List (Request U)) : Prop := ∀ x, .method x ∈ rs → x ∈ ms

namespace RequestsIn

variable {ms : List (Method U)} {rs ss : List (Request U)}

theorem nil : RequestsIn ms [] := fun _ hx => (List.not_mem_nil hx).elim

theorem append (h : RequestsIn ms rs) (h' : RequestsIn ms ss) : RequestsIn ms (rs ++ ss) :=
  fun x hx => (List.mem_append.mp hx).elim (h x) (h' x)

theorem method {x : Method U} (hx : x ∈ ms) : RequestsIn ms [.method x] := by
  intro y hy
  rw [List.mem_singleton] at hy
  cases hy
  exact hx

theorem field (x : Field U) : RequestsIn ms [.field x] := by
  intro y hy
  rw [List.mem_singleton] at hy
  cases hy

end RequestsIn

theorem requestsIn_draft {l : FiniteLoader U} {ds : List (TypeDecl U)}
    (hclosed : ∀ d ∈ ds, l.parents d ⊆ ds) {root : TypeDecl U} (hroot : root ∈ ds) :
    RequestsIn (ds.flatMap (·.methods)) (l.draft root).requests := by
  intro x hx
  obtain ⟨c, hc, hdeclared⟩ := declaredBy_of_mem_draft hx
  exact List.mem_flatMap.mpr ⟨c, types_walk_subset hclosed hroot hc, hdeclared⟩

theorem requestsIn_invokeEachRequests (R : Reflection U τ) {ms xs : List (Method U)}
    (hxs : xs ⊆ ms) (s : Scene U τ) (t : HandleTable U) :
    RequestsIn ms (invokeEachRequests R xs s t) := by
  induction xs generalizing s t with
  | nil => exact .nil
  | cons x xs ih =>
    obtain ⟨hx, hxs⟩ := List.cons_subset.mp hxs
    rw [invokeEachRequests, ← List.singleton_append]
    refine (RequestsIn.method hx).append ?_
    split
    · exact ih hxs _ _
    · exact .nil

/-! ## Operations on few types -/

/-- The operation looks up, extracts and uses only the types in the list. -/
def Operation.Among (l : FiniteLoader U) (ds : List (TypeDecl U)) (op : Operation U τ) : Prop :=
  op.Meets l (· ∈ ds) ∧
    match op with
    | .extract d => d ∈ ds
    | .invoke x _ => x ∈ ds.flatMap (·.methods)
    | .invokeAll m k _ => m.methods k ⊆ ds.flatMap (·.methods)
    | _ => True

namespace World

variable (loaderOf : Registry U → FiniteLoader U) (ds : List (TypeDecl U))

/-- The worlds whose engine has met only the types in the list, on targets of any kind. -/
inductive MetOnly (s : Settings) : World U → Prop where
  | start (reserves : UInt64 → Bool) {r : Registry U} {e : Engine U} {events : List Event}
      (h : Engine.build U reserves s = .ok (e, events)) : MetOnly s ⟨r, e⟩
  | step {w : World U} (h : MetOnly s w) {τ : Type} (R : Reflection U τ) (op : Operation U τ)
      (hop : op.Among (w.loader loaderOf) ds) : MetOnly s (w.step loaderOf R op)

variable {loaderOf} {ds} {s : Settings} {w : World U}

section Requests

variable {l : FiniteLoader U} (hclosed : ∀ d ∈ ds, l.parents d ⊆ ds)

include hclosed

theorem requestsIn_getRequests {d : TypeDecl U} (hd : d ∈ ds) (c : Cache U) :
    RequestsIn (ds.flatMap (·.methods)) (c.getRequests l d) := by
  unfold Cache.getRequests
  split
  · exact .nil
  · exact requestsIn_draft hclosed hd

theorem requestsIn_lookup {q : Lookup U} (hq : q.Meets l (· ∈ ds)) (c : Cache U) :
    RequestsIn (ds.flatMap (·.methods)) (q.requests l c) := by
  cases q with
  | type d => exact requestsIn_getRequests hclosed hq c
  | link t => exact requestsIn_getRequests hclosed hq c
  | name n =>
    rw [Lookup.requests]
    unfold Cache.getByNameRequests
    split
    · exact .nil
    · split
      · rename_i d hd
        exact requestsIn_getRequests hclosed (hq d hd) c
      · exact .nil

theorem requestsIn_preloadRequests {es : List (TypeDecl U)} (hes : es ⊆ ds) (c : Cache U) :
    RequestsIn (ds.flatMap (·.methods)) (c.preloadRequests l es) := by
  induction es generalizing c with
  | nil => exact .nil
  | cons d es ih =>
    obtain ⟨hd, hes⟩ := List.cons_subset.mp hes
    rw [Cache.preloadRequests]
    exact (requestsIn_getRequests hclosed hd c).append (ih hes _)

end Requests

theorem requestsIn_requests (hclosed : ∀ d ∈ ds, (w.loader loaderOf).parents d ⊆ ds)
    {journal : List (Request U)} (hwithin : w.engine.cache.Within journal)
    (hjournal : RequestsIn (ds.flatMap (·.methods)) journal) (R : Reflection U τ)
    {op : Operation U τ} (hop : op.Among (w.loader loaderOf) ds) :
    RequestsIn (ds.flatMap (·.methods)) (w.requests loaderOf R op) := by
  obtain ⟨hmeets, huses⟩ := hop
  cases op with
  | lookup q => exact requestsIn_lookup hclosed hmeets _
  | extract d => exact requestsIn_draft hclosed huses
  | preload es => exact requestsIn_preloadRequests hclosed hmeets _
  | runHooks t k sc =>
    have hlookup : RequestsIn (ds.flatMap (·.methods))
        ((Lookup.link t).requests (w.loader loaderOf) w.engine.cache) :=
      requestsIn_lookup hclosed (q := .link t) hmeets _
    rw [requests, hookRequests]
    refine hlookup.append ?_
    split
    · rename_i entry e events hrun
      -- All methods of the metadata have been asked for by then, so they are among those known.
      have hentry : entry.metadata.Within _ :=
        (Lookup.link t).within_run _ hwithin (congrArg Prod.fst hrun)
      exact requestsIn_invokeEachRequests R
        (fun x hx => hjournal.append hlookup x (hentry.methods k x hx)) sc _
    · exact .nil
  | invoke x sc => exact .method huses
  | invokeAll m k sc => exact requestsIn_invokeEachRequests R huses sc _
  | getField x sc => exact .field x
  | getFieldAs t x sc => exact .field x
  | setField x v sc => exact .field x
  | register _ | unregister _ | invalidate _ | invalidateAll => exact .nil

namespace MetOnly

/-- **An engine that has met few types has asked for no methods but theirs.** -/
theorem journal (hclosed : ∀ r, ∀ d ∈ ds, (loaderOf r).parents d ⊆ ds)
    (h : MetOnly loaderOf ds s w) :
    ∃ rs, w.engine.handles = HandleTable.serveAll { policy := s.bindPolicy } rs ∧
      w.engine.cache.Within rs ∧ RequestsIn (ds.flatMap (·.methods)) rs := by
  induction h with
  | start _ h =>
    refine ⟨[], ?_, ?_, .nil⟩
    · rw [Engine.handles, cache_of_build h, HandleTable.serveAll_nil]
    · rw [cache_of_build h]
      exact fun _ he => (List.not_mem_nil he).elim
  | @step w _ τ R op hop ih =>
    obtain ⟨rs, hhandles, hwithin, hrs⟩ := ih
    have hserves := serves_step loaderOf R w op
    refine ⟨rs ++ w.requests loaderOf R op, ?_, hserves.within rs hwithin, ?_⟩
    · rw [HandleTable.serveAll_append, ← hhandles]
      exact hserves.handles
    · exact hrs.append (requestsIn_requests (hclosed w.registry) hwithin hrs R hop)

/-- **An engine that has met few types has made entries of no others.** -/
theorem chronicle (h : MetOnly loaderOf ds s w) :
    ∃ past, w.engine.cache.Remembers loaderOf past ∧ ∀ m, .made m ∈ past → m.decl ∈ ds := by
  induction h with
  | start _ h =>
    refine ⟨[], ?_, fun _ hm => (List.not_mem_nil hm).elim⟩
    rw [cache_of_build h]
    exact Cache.Remembers.of_entries_eq_nil rfl
  | @step w _ τ R op hop ih =>
    obtain ⟨past, hremembers, hpast⟩ := ih
    refine ⟨past ++ w.deeds loaderOf op, goesOn_step loaderOf R w op past hremembers,
      fun m hm => ?_⟩
    rcases List.mem_append.mp hm with hm | hm
    · exact hpast m hm
    · exact (made_mem_deeds hop.1 hm).2

end MetOnly

end World

end ComponentHooks
