import ComponentHooks.Engine
import ComponentHooks.Proofs.Extraction.Draft

/-!
# What the operations of an engine ask for

Every operation does to the handle table no more than a list of requests, and all the metadata in a
cache is made of members that were requested before.

* `Cache.Serves`: a cache goes on to another by requests;
* `Cache.getRequests`, `Cache.getByNameRequests`, `Cache.preloadRequests`: the requests of lookups;
* `invokeEachRequests`: the requests of hooks that run until one fails;
* **`Cache.answers_get`**, `Cache.answers_getByName`, `Cache.serves_preload`,
  `invokeEach_handles`: they are all that is asked for.
-/

namespace ComponentHooks

open Logged

variable {U : Universe}

theorem read_bind_apply {σ α : Type} (f : σ → Logged σ α) (s : σ) :
    ((read : Logged σ σ) >>= f) s = f s s := rfl

/-! ## Caches -/

namespace Cache

variable {c c' c'' : Cache U} {l : FiniteLoader U} {rs ss : List (Request U)}

/-- The slots of all members in the cache's metadata were asked for. -/
def Within (rs : List (Request U)) (c : Cache U) : Prop := ∀ e ∈ c.entries, e.metadata.Within rs

/-- The cache goes on to `c'` by the requests `rs`: they are what happens to its handle table, and
all metadata that comes in is made of members requested by then. -/
structure Serves (c : Cache U) (rs : List (Request U)) (c' : Cache U) : Prop where
  handles : c'.handles = c.handles.serveAll rs
  within : ∀ journal, c.Within journal → c'.Within (journal ++ rs)

namespace Serves

/-- Requests whose metadata is not stored. Entries may always go. -/
theorem of_subset (hhandles : c'.handles = c.handles.serveAll rs)
    (hentries : c'.entries ⊆ c.entries) : c.Serves rs c' where
  handles := hhandles
  within _ h e he := (h e (hentries he)).mono (List.subset_append_left _ _)

theorem refl (c : Cache U) : c.Serves [] c := of_subset rfl (List.Subset.refl _)

theorem trans (h : c.Serves rs c') (h' : c'.Serves ss c'') : c.Serves (rs ++ ss) c'' where
  handles := by rw [h'.handles, h.handles, HandleTable.serveAll_append]
  within journal hc := by
    rw [← List.append_assoc]
    exact h'.within _ (h.within journal hc)

end Serves

/-! ### Lookups -/

/-- What a lookup of a type asks for: nothing if there is an entry of its name. -/
def getRequests (l : FiniteLoader U) (d : TypeDecl U) (c : Cache U) : List (Request U) :=
  match c.find? d.name with
  | some _ => []
  | none => (l.draft d).requests

/-- What a lookup of a name asks for. -/
def getByNameRequests (l : FiniteLoader U) (name : String) (c : Cache U) : List (Request U) :=
  match c.find? name with
  | some _ => []
  | none =>
    match l.load name with
    | .ok d => getRequests l d c
    | .error _ => []

/-- What lookups of types in order ask for. -/
def preloadRequests (l : FiniteLoader U) : List (TypeDecl U) → Cache U → List (Request U)
  | [], _ => []
  | d :: ds, c => getRequests l d c ++ preloadRequests l ds (get l d c).2.1

/-- A lookup by the requests `rs`: the cache goes on, and the members of the metadata it answers
with have been requested. -/
structure Answers (rs : List (Request U)) (c : Cache U)
    (x : Logged (Cache U) (Except LookupError (Entry U))) : Prop where
  serves : c.Serves rs (x c).2.1
  within : ∀ journal, c.Within journal → ∀ e, (x c).1 = .ok e → e.metadata.Within (journal ++ rs)

theorem Answers.congr {x y : Logged (Cache U) (Except LookupError (Entry U))}
    (h : c.Answers rs x) (hy : y c = x c) : c.Answers rs y where
  serves := by rw [hy]; exact h.serves
  within := by rw [hy]; exact h.within

theorem Answers.of_error {x : Logged (Cache U) (Except LookupError (Entry U))} {err : LookupError}
    (hx : (x c).1 = .error err) (h : c.Serves rs (x c).2.1) : c.Answers rs x where
  serves := h
  within _ _ e he := by
    rw [hx] at he
    cases he

theorem get_of_find?_eq_some {d : TypeDecl U} {e : Entry U} (h : c.find? d.name = some e) :
    get l d c = (.ok e, c.countHit, []) := by
  rw [get, read_bind_apply, h]
  rfl

theorem get_of_find?_eq_none {d : TypeDecl U} (h : c.find? d.name = none) :
    get l d c = load l d c.countMiss := by
  rw [get, read_bind_apply, h]
  rfl

theorem getByName_of_find?_eq_some {name : String} {e : Entry U} (h : c.find? name = some e) :
    getByName l name c = (.ok e, c.countHit, []) := by
  rw [getByName, read_bind_apply, h]
  rfl

theorem getByName_of_load_eq_ok {name : String} {d : TypeDecl U} (h : c.find? name = none)
    (hl : l.load name = .ok d) : getByName l name c = get l d c := by
  rw [getByName, read_bind_apply, h]
  simp only [hl]

theorem getByName_of_load_eq_error {name : String} {e : LoadError} (h : c.find? name = none)
    (hl : l.load name = .error e) : getByName l name c = (.error (.load e), c, []) := by
  rw [getByName, read_bind_apply, h]
  simp only [hl]
  rfl

/-- The cache after an extraction, before its result is stored. -/
def extracted (l : FiniteLoader U) (d : TypeDecl U) (c : Cache U) : Cache U :=
  { c.countExtraction with handles := (extract l d c.handles).2.1 }

theorem load_of_ok {d : TypeDecl U} {m : Metadata U} (h : (extract l d c.handles).1 = .ok m) :
    (load l d c).1 = .ok ⟨d.name, (c.extracted l d).stats.extractions, m⟩ ∧
      (load l d c).2.1 =
        (c.extracted l d).insert ⟨d.name, (c.extracted l d).stats.extractions, m⟩ := by
  have h' : (onHandles (extract l d) (change countExtraction c).2.1).1 = .ok m := h
  unfold load
  simp only [bind_apply]
  rw [h']
  exact ⟨rfl, rfl⟩

theorem load_of_error {d : TypeDecl U} {cause : Cycle}
    (h : (extract l d c.handles).1 = .error cause) :
    (load l d c).1 = .error (.caching d.name cause) ∧
      (load l d c).2.1 = (c.extracted l d).countFailure := by
  have h' : (onHandles (extract l d) (change countExtraction c).2.1).1 = .error cause := h
  unfold load
  simp only [bind_apply]
  rw [h']
  exact ⟨rfl, rfl⟩

theorem mem_insert {e x : Entry U} (h : x ∈ (c.insert e).entries) : x ∈ c.entries ∨ x = e := by
  have hmem := List.mem_of_mem_drop h
  rw [List.mem_append, List.mem_singleton] at hmem
  exact hmem.imp_left List.mem_of_mem_filter

variable (l) in
theorem answers_load (d : TypeDecl U) (c : Cache U) :
    c.Answers (l.draft d).requests (load l d) := by
  have hextracted : c.Serves (l.draft d).requests (c.extracted l d) :=
    Serves.of_subset (extract_handles l d c.handles) (List.Subset.refl _)
  cases h : (extract l d c.handles).1 with
  | ok m =>
    obtain ⟨hanswer, hstate⟩ := load_of_ok h
    have hm : m.Within (l.draft d).requests := by
      rw [← (extract_eq_ok_iff.mp h).2]
      exact asks_draft l d
    refine ⟨⟨?_, ?_⟩, ?_⟩
    · rw [hstate]
      exact hextracted.handles
    · intro journal hc e he
      rw [hstate] at he
      rcases mem_insert he with he | rfl
      · exact hextracted.within journal hc e he
      · exact hm.mono (List.subset_append_right _ _)
    · intro journal hc e he
      rw [hanswer] at he
      cases he
      exact hm.mono (List.subset_append_right _ _)
  | error cause =>
    obtain ⟨hanswer, hstate⟩ := load_of_error h
    refine Answers.of_error hanswer ?_
    rw [hstate]
    exact ⟨hextracted.handles, hextracted.within⟩

theorem answers_of_mem {e : Entry U} {x : Logged (Cache U) (Except LookupError (Entry U))}
    (he : e ∈ c.entries) (hx : x c = (.ok e, c.countHit, [])) : c.Answers [] x where
  serves := by
    rw [hx]
    exact Serves.of_subset rfl (List.Subset.refl _)
  within journal hc e' he' := by
    rw [hx] at he'
    cases he'
    rw [List.append_nil]
    exact hc e he

variable (l) in
/-- **A lookup of a type asks for what its draft records, or for nothing.** -/
theorem answers_get (d : TypeDecl U) (c : Cache U) : c.Answers (c.getRequests l d) (get l d) := by
  unfold getRequests
  cases h : c.find? d.name with
  | some e => exact answers_of_mem (List.mem_of_find?_eq_some h) (get_of_find?_eq_some h)
  | none =>
    obtain ⟨hserves, hwithin⟩ := answers_load l d c.countMiss
    rw [← get_of_find?_eq_none h] at hserves hwithin
    exact ⟨⟨hserves.handles, hserves.within⟩, hwithin⟩

variable (l) in
theorem answers_getByName (name : String) (c : Cache U) :
    c.Answers (c.getByNameRequests l name) (getByName l name) := by
  unfold getByNameRequests
  cases h : c.find? name with
  | some e => exact answers_of_mem (List.mem_of_find?_eq_some h) (getByName_of_find?_eq_some h)
  | none =>
    cases hl : l.load name with
    | ok d => exact (answers_get l d c).congr (getByName_of_load_eq_ok h hl)
    | error e =>
      have hget := getByName_of_load_eq_error h hl
      refine Answers.of_error (congrArg Prod.fst hget) ?_
      rw [hget]
      exact Serves.refl c

theorem preloadOne_state (r : PreloadReport) (d : TypeDecl U) (c : Cache U) :
    (preloadOne l r d c).2.1 = (get l d c).2.1 := by
  unfold preloadOne
  rw [bind_apply]
  cases (get l d c).1 <;> rfl

theorem serves_foldlM_preloadOne (ds : List (TypeDecl U)) (r : PreloadReport) (c : Cache U) :
    c.Serves (c.preloadRequests l ds) (ds.foldlM (preloadOne l) r c).2.1 := by
  induction ds generalizing r c with
  | nil => exact Serves.refl c
  | cons d ds ih =>
    have hget := (answers_get l d c).serves
    rw [← preloadOne_state r] at hget
    rw [List.foldlM_cons, bind_apply, preloadRequests, ← preloadOne_state r]
    exact hget.trans (ih _ _)

theorem serves_preload (l : FiniteLoader U) (threads : Option UInt64) (ds : List (TypeDecl U))
    (c : Cache U) : c.Serves (c.preloadRequests l ds) (preload l threads ds c).2.1 :=
  serves_foldlM_preloadOne ds {} c

end Cache

/-! ## Uses of members -/

section Uses

variable {τ : Type} (R : Reflection U τ)

theorem invoke_handles (x : Method U) (s : Scene U τ) (t : HandleTable U) :
    (invoke R x s t).2.1 = t.serve (.method x) := rfl

/-- What methods that are run in order ask for: the slots of those that are run, up to the first
that fails. -/
def invokeEachRequests : List (Method U) → Scene U τ → HandleTable U → List (Request U)
  | [], _, _ => []
  | x :: xs, s, t =>
    .method x ::
      match (invoke R x s t).1 with
      | (.ok (), s) => invokeEachRequests xs s (t.serve (.method x))
      | (.error _, _) => []

theorem invokeEach_handles (xs : List (Method U)) (s : Scene U τ) (t : HandleTable U) :
    (invokeEach R xs s t).2.1 = t.serveAll (invokeEachRequests R xs s t) := by
  induction xs generalizing s t with
  | nil => rfl
  | cons x xs ih =>
    rw [invokeEach, bind_apply, invokeEachRequests, HandleTable.serveAll_cons, invoke_handles]
    rcases (invoke R x s t).1 with ⟨_ | _, s'⟩
    · rfl
    · exact ih s' _

end Uses

end ComponentHooks
