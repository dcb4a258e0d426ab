import ComponentHooks.Proofs.Extraction.Reference

/-!
# A failure to load is an absence

What does not load may as well not be there. A pruned declaration has no supertype that fails to
resolve, and has its members and links only if all its links load. On pruned declarations nothing
fails, and extraction comes to the same as before.

* `TypeDecl.pruned`, `FiniteLoader.pruned`: a declaration without what fails; a loader of such;
* `Walk.pruned`, **`walk_pruned`**: the walk of the pruned hierarchy is the walk without what it
  skips;
* **`extract_pruned`**: the pruned hierarchy has the same metadata, cycles and handle slots.
-/

namespace ComponentHooks

open Relation

variable {U : Universe} {l : FiniteLoader U}

/-! ## Pruned declarations -/

/-- The reference resolves. -/
def Loader.resolves (l : Loader U) (r : TypeRef U) : Bool := (l.resolve r).isOk

/-- The declaration without the supertypes that do not resolve, and without members and links if one
of its links does not load. -/
def TypeDecl.pruned (l : Loader U) (c : TypeDecl U) : TypeDecl U where
  name := c.name
  form := c.form
  owner := c.owner
  markers := c.markers
  fields := if l.canLink c then c.fields else []
  methods := if l.canLink c then c.methods else []
  extends? := c.extends?.filter l.resolves
  implements := c.implements.filter l.resolves
  links := if l.canLink c then c.links else []
  fields_declared := by
    split
    · exact c.fields_declared
    · simp
  methods_declared := by
    split
    · exact c.methods_declared
    · simp

/-- The loader that answers with pruned declarations. -/
def FiniteLoader.pruned (l : FiniteLoader U) : FiniteLoader U where
  load n := (l.load n).map (TypeDecl.pruned l)
  linked t := (l.linked t).pruned l
  names := l.names
  load_mem := by
    intro n c h
    cases hn : l.load n with
    | error e => rw [hn] at h; cases h
    | ok d =>
      rw [hn] at h
      cases h
      exact (l.load_mem hn : d.name ∈ l.names)
  linked_mem t := l.linked_mem t

theorem FiniteLoader.resolve_pruned (l : FiniteLoader U) (r : TypeRef U) :
    l.pruned.resolve r = (l.resolve r).map (TypeDecl.pruned l) := by cases r <;> rfl

theorem FiniteLoader.isOk_load_pruned (l : FiniteLoader U) (n : String) :
    (l.pruned.load n).isOk = (l.load n).isOk := by
  change ((l.load n).map _).isOk = _
  cases l.load n <;> rfl

theorem TypeDecl.supertypes_pruned (l : FiniteLoader U) (c : TypeDecl U) :
    (c.pruned l).supertypes = c.supertypes.filter l.resolves := by
  rw [supertypes, supertypes, List.filter_append, ← Option.toList_filter]
  rfl

/-! ### Nothing fails -/

theorem TypeDecl.canLink_pruned (l : FiniteLoader U) (c : TypeDecl U) :
    l.pruned.canLink (c.pruned l) = true := by
  have hlinks : (c.pruned l).links = if l.canLink c then c.links else [] := rfl
  rw [Loader.canLink, hlinks]
  simp only [FiniteLoader.isOk_load_pruned]
  split
  · assumption
  · rfl

theorem TypeDecl.resolve_of_mem_supertypes_pruned {c : TypeDecl U} {r : TypeRef U}
    (h : r ∈ (c.pruned l).supertypes) : ∃ d, l.pruned.resolve r = .ok d := by
  rw [supertypes_pruned, List.mem_filter, Loader.resolves] at h
  rw [FiniteLoader.resolve_pruned]
  cases hr : l.resolve r with
  | error e => rw [hr] at h; cases h.2
  | ok d => exact ⟨d.pruned l, rfl⟩

theorem FiniteLoader.exists_pruned_of_mem_hierarchy {root c : TypeDecl U}
    (h : c ∈ l.pruned.hierarchy (root.pruned l)) : ∃ d : TypeDecl U, d.pruned l = c := by
  induction h using ReflTransGen.head_induction_on with
  | refl => exact ⟨root, rfl⟩
  | @head b _ hp _ _ =>
    obtain ⟨r, -, hr⟩ := hp
    rw [resolve_pruned] at hr
    cases hres : l.resolve r with
    | error e => rw [hres] at hr; cases hr
    | ok d =>
      rw [hres] at hr
      exact ⟨d, Except.ok.inj hr⟩

/-! ## The walk of the pruned hierarchy -/

/-- A finding on the pruned hierarchy: there is nothing to be skipped. -/
def Finding.pruned? (l : FiniteLoader U) : Finding U → Option (Finding U)
  | .entered c => some (.entered (c.pruned l))
  | .skipped .. => none

namespace Walk

/-- The walk without what it skipped, on pruned declarations. -/
def pruned (l : FiniteLoader U) (w : Walk U) : Walk U :=
  { w with trace := w.trace.filterMap (Finding.pruned? l) }

theorem types_pruned (l : FiniteLoader U) (w : Walk U) :
    (w.pruned l).types = w.types.map (TypeDecl.pruned l) := by
  rw [types, types, pruned, List.filterMap_filterMap, List.map_filterMap]
  refine List.filterMap_congr fun f _ => ?_
  cases f <;> rfl

theorem names_pruned (l : FiniteLoader U) (w : Walk U) : (w.pruned l).names = w.names := by
  rw [names_eq, names_eq, types_pruned, List.map_map]
  rfl

theorem pruned_entered (l : FiniteLoader U) (w : Walk U) (c : TypeDecl U) :
    (w.record (.entered c)).pruned l = (w.pruned l).record (.entered (c.pruned l)) := by
  simp [pruned, record, Finding.pruned?]

theorem pruned_skipped (l : FiniteLoader U) (w : Walk U) (c : TypeDecl U) (r : TypeRef U)
    (e : LoadError) : (w.record (.skipped c r e)).pruned l = w.pruned l := by
  simp [pruned, record, Finding.pruned?]

end Walk

theorem foldl_follow_pruned {go go' : TypeDecl U → Walk U → Walk U}
    (hgo : ∀ d w, go' (d.pruned l) (w.pruned l) = (go d w).pruned l) (c : TypeDecl U)
    (rs : List (TypeRef U)) (w : Walk U) :
    (rs.filter l.resolves).foldl (follow l.pruned.resolve go' (c.pruned l)) (w.pruned l) =
      (rs.foldl (follow l.resolve go c) w).pruned l := by
  induction rs generalizing w with
  | nil => rfl
  | cons r rs ih =>
    by_cases hw : w.stop = none
    · have hsome : ∀ v : Walk U, v.stop = none → v.stop.isSome = false := fun v hv => by rw [hv]; rfl
      rw [List.foldl_cons, ← ih, List.filter_cons, Loader.resolves, follow, hsome w hw]
      cases hr : l.resolve r with
      | error e =>
        -- The reference is left out, and the original walk only takes a note of it.
        simp [Except.isOk, Except.toBool, Walk.pruned_skipped]
      | ok d =>
        have hpruned : follow l.pruned.resolve go' (c.pruned l) (w.pruned l) r =
            (go d w).pruned l := by
          rw [follow, hsome (w.pruned l) hw, FiniteLoader.resolve_pruned, hr]
          exact hgo d w
        simp [Except.isOk, Except.toBool, hpruned]
    · rw [foldl_follow_of_stop hw, foldl_follow_of_stop (w := w.pruned l) hw]

theorem visit_pruned (l : FiniteLoader U) (depth : Nat) (path : List String) (c : TypeDecl U)
    (w : Walk U) :
    visit l.pruned.resolve depth path (c.pruned l) (w.pruned l) =
      (visit l.resolve depth path c w).pruned l := by
  have hname : (c.pruned l).name = c.name := rfl
  induction depth generalizing path c w with
  | zero =>
    rw [visit, visit, hname, Walk.names_pruned]
    split_ifs <;> rfl
  | succ depth ih =>
    rw [visit, visit, hname, Walk.names_pruned]
    split_ifs
    · rfl
    · rfl
    · rw [TypeDecl.supertypes_pruned, ← Walk.pruned_entered]
      exact foldl_follow_pruned (fun d v => ih _ d v rfl) c _ _

/-- **The walk of the pruned hierarchy** enters the same types in the same order, and ends alike. -/
theorem walk_pruned (l : FiniteLoader U) (root : TypeDecl U) :
    l.pruned.walk (root.pruned l) = (l.walk root).pruned l :=
  visit_pruned l _ [] root {}

/-! ## Extraction -/

theorem Draft.type_pruned (l : FiniteLoader U) (d : Draft U) (c : TypeDecl U) :
    d.type l.pruned (c.pruned l) = d.type l c := by
  have hmarkers : d.metadata.addMarkers (c.pruned l) = d.metadata.addMarkers c := rfl
  rw [type, type, hmarkers, Loader.linkFailure?_eq_none_iff.mpr (c.canLink_pruned l)]
  by_cases hc : l.canLink c = true
  · rw [Loader.linkFailure?_eq_none_iff.mpr hc]
    simp only [TypeDecl.pruned, if_pos hc]
  · obtain ⟨e, he⟩ := Option.ne_none_iff_exists'.mp (mt Loader.linkFailure?_eq_none_iff.mp hc)
    rw [he]
    simp only [TypeDecl.pruned, if_neg hc, List.foldl_nil]

theorem draft_pruned (l : FiniteLoader U) (root : TypeDecl U) :
    l.pruned.draft (root.pruned l) = l.draft root := by
  rw [FiniteLoader.draft, walk_pruned, Walk.types_pruned, List.foldl_map]
  simp only [Draft.type_pruned]
  rfl

/-- **A failure to load is an absence.** In the pruned hierarchy every supertype resolves and every
link loads; its extraction answers with the same metadata or the same cycle, and leaves the same
handle slots. -/
theorem extract_pruned (l : FiniteLoader U) (root : TypeDecl U) (t : HandleTable U) :
    (∀ c ∈ l.pruned.hierarchy (root.pruned l),
        (∀ r ∈ c.supertypes, ∃ d, l.pruned.resolve r = .ok d) ∧
          l.pruned.linkFailure? c = none) ∧
      (extract l.pruned (root.pruned l) t).1 = (extract l root t).1 ∧
      (extract l.pruned (root.pruned l) t).2.1 = (extract l root t).2.1 := by
  refine ⟨fun c hc => ?_, ?_, ?_⟩
  · obtain ⟨d, rfl⟩ := FiniteLoader.exists_pruned_of_mem_hierarchy hc
    exact ⟨fun r hr => TypeDecl.resolve_of_mem_supertypes_pruned hr,
      Loader.linkFailure?_eq_none_iff.mpr (d.canLink_pruned l)⟩
  · have hstop : (l.pruned.walk (root.pruned l)).stop = (l.walk root).stop := by
      rw [walk_pruned]
      rfl
    rw [extract_fst, extract_fst, hstop, draft_pruned]
  · rw [extract_handles, extract_handles, draft_pruned]

end ComponentHooks
