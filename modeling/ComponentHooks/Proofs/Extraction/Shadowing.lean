import ComponentHooks.Proofs.Extraction.Reference
import ComponentHooks.Proofs.Hierarchy.Cycle

/-!
# Shadowing

Under each kind the first member of a name is recorded. The order is that of the walk, and not that
of descent: a type shadows its ancestors if it stands before them, and an ancestor that is met over
another branch stands first.

* `TypeDecl.DeclaresMethod`, `TypeDecl.DeclaresField`: a type has a member of a name for a kind;
* `FiniteLoader.IsFirst`: no type that stands before has a property;
* **`extract_shadowing`**: whose member is recorded.
-/

namespace ComponentHooks

variable {U : Universe} {l : FiniteLoader U} {root : TypeDecl U}

/-- `c` has a method of this name, written by a person, that carries the kind. -/
def TypeDecl.DeclaresMethod (k : Kind) (n : String) (c : TypeDecl U) : Prop :=
  ∃ x ∈ c.methodsOf k, x.id.name = n

/-- `c` has a field of this name, written by a person, that carries the kind. -/
def TypeDecl.DeclaresField (k : Kind) (n : String) (c : TypeDecl U) : Prop :=
  ∃ x ∈ c.fieldsOf k, x.id.name = n

theorem TypeDecl.declaring_of_mem_methodsOf {c : TypeDecl U} {k : Kind} {x : Method U}
    (h : x ∈ c.methodsOf k) : x.id.declaring = c.name :=
  (c.methods_declared x (List.mem_of_mem_filter h)).1

theorem TypeDecl.declaring_of_mem_fieldsOf {c : TypeDecl U} {k : Kind} {x : Field U}
    (h : x ∈ c.fieldsOf k) : x.id.declaring = c.name :=
  (c.fields_declared x (List.mem_of_mem_filter h)).1

variable (l root) in
/-- No type that stands before `c` has the property, if its links load. -/
def FiniteLoader.IsFirst (p : TypeDecl U → Prop) (c : TypeDecl U) : Prop :=
  ∀ d, l.Precedes root d c → l.canLink d = true → ¬ p d

section FirstOfName

variable {α : Type} {id : α → MemberId} {of : TypeDecl U → List α}

theorem declaring_first_iff (hof : ∀ c, ∀ x ∈ of c, (id x).declaring = c.name)
    {as bs : List (TypeDecl U)} {c : TypeDecl U} {n : String}
    (hnodup : ((as ++ c :: bs).map TypeDecl.name).Nodup) (hc : ∃ x ∈ of c, (id x).name = n) :
    (∃ x ∈ firstOfName (fun x => (id x).name) ((as ++ c :: bs).flatMap of),
        (id x).name = n ∧ (id x).declaring = c.name) ↔
      ∀ d ∈ as, ¬ ∃ x ∈ of d, (id x).name = n := by
  rw [exists_mem_firstOfName, List.flatMap_append, List.flatMap_cons, List.find?_append,
    List.find?_append]
  constructor
  · rintro ⟨x, hx, hdeclaring⟩ d hd ⟨y, hy, hname⟩
    have hsome : (as.flatMap of).find? (fun x => (id x).name = n) = some x := by
      cases h : (as.flatMap of).find? fun x => (id x).name = n with
      | none =>
        have := List.find?_eq_none.mp h y (List.mem_flatMap.mpr ⟨d, hd, hy⟩)
        simp [hname] at this
      | some z => simpa [h] using hx
    -- The member found is one of a type before `c`, which has another name.
    obtain ⟨b, hb, hxb⟩ := List.mem_flatMap.mp (List.mem_of_find?_eq_some hsome)
    rw [hof b x hxb] at hdeclaring
    rw [List.map_append, List.map_cons, List.nodup_middle, List.nodup_cons] at hnodup
    exact hnodup.1 (List.mem_append_left _ (hdeclaring ▸ List.mem_map_of_mem hb))
  · intro has
    have hnone : (as.flatMap of).find? (fun x => (id x).name = n) = none := by
      rw [List.find?_eq_none]
      intro y hy
      obtain ⟨d, hd, hyd⟩ := List.mem_flatMap.mp hy
      exact fun hn => has d hd ⟨y, hyd, by simpa using hn⟩
    obtain ⟨y, hy, hn⟩ := hc
    obtain ⟨x, hx⟩ : ∃ x, (of c).find? (fun x => (id x).name = n) = some x := by
      rw [← Option.isSome_iff_exists, List.find?_isSome]
      exact ⟨y, hy, by simpa using hn⟩
    refine ⟨x, ?_, hof c x (List.mem_of_find?_eq_some hx)⟩
    rw [hnone, hx, Option.none_or, Option.some_or]

theorem declaring_first_iff_isFirst (hof : ∀ c, ∀ x ∈ of c, (id x).declaring = c.name)
    {c : TypeDecl U} (hmem : c ∈ l.preorder root) (hlink : l.canLink c = true) {n : String}
    (hc : ∃ x ∈ of c, (id x).name = n) :
    (∃ x ∈ firstOfName (fun x => (id x).name) (((l.preorder root).filter l.canLink).flatMap of),
        (id x).name = n ∧ (id x).declaring = c.name) ↔
      l.IsFirst root (fun d => ∃ x ∈ of d, (id x).name = n) c := by
  obtain ⟨as, bs, has⟩ := List.append_of_mem hmem
  have hfilter : (l.preorder root).filter l.canLink =
      as.filter l.canLink ++ c :: bs.filter l.canLink := by
    rw [has, List.filter_append, List.filter_cons_of_pos hlink]
  have hnodup := (l.nodup_preorder root).sublist ((List.filter_sublist (p := l.canLink)).map _)
  rw [hfilter] at hnodup ⊢
  rw [declaring_first_iff hof hnodup hc, FiniteLoader.IsFirst]
  refine forall_congr' fun d => ?_
  rw [FiniteLoader.precedes_iff has, List.mem_filter, and_imp]

end FirstOfName

/-- **Whose member is recorded.** On a hierarchy without cycles whose names tell its types apart,
extraction succeeds; and of the types whose members can be told, one that declares a member of a
name for a kind has it recorded exactly if no such type stands before it. -/
theorem extract_shadowing (hunique : l.NamesUnique root) (hacyclic : l.Acyclic root)
    (t : HandleTable U) :
    ∃ m, (extract l root t).1 = .ok m ∧
      ∀ c ∈ l.preorder root, l.canLink c = true → ∀ (k : Kind) (n : String),
        (k.appliesTo .method = true → c.DeclaresMethod k n →
          ((∃ x ∈ m.methods k, x.id.name = n ∧ x.id.declaring = c.name) ↔
            l.IsFirst root (TypeDecl.DeclaresMethod k n) c)) ∧
        (k.appliesTo .field = true → c.DeclaresField k n →
          ((∃ x ∈ m.fields k, x.id.name = n ∧ x.id.declaring = c.name) ↔
            l.IsFirst root (TypeDecl.DeclaresField k n) c)) := by
  have hstop := walk_stop_of_acyclic hunique hacyclic
  refine ⟨_, extract_eq_ok_iff.mpr ⟨hstop, metadata_draft_of_walk_stop hstop⟩, ?_⟩
  intro c hmem hlink k n
  refine ⟨fun hk hc => ?_, fun hk hc => ?_⟩
  · rw [Metadata.methods_ofTypes, if_pos hk]
    exact declaring_first_iff_isFirst (fun _ _ => TypeDecl.declaring_of_mem_methodsOf) hmem hlink hc
  · rw [Metadata.fields_ofTypes, if_pos hk]
    exact declaring_first_iff_isFirst (fun _ _ => TypeDecl.declaring_of_mem_fieldsOf) hmem hlink hc

section Diamond

open Sample Diamond

theorem declaresMethod_top : top.DeclaresMethod .postConstruct "init" := ⟨_, .head _, rfl⟩

theorem declaresMethod_side : side.DeclaresMethod .postConstruct "init" := ⟨_, .head _, rfl⟩

theorem isFirst_top :
    loader.IsFirst bottom (TypeDecl.DeclaresMethod .postConstruct "init") top := by
  intro d hd hlink
  have hsplit : loader.preorder bottom = [bottom, base] ++ top :: [side] := preorder_bottom
  rw [FiniteLoader.precedes_iff hsplit, List.mem_pair] at hd
  rcases hd with rfl | rfl
  · rintro ⟨x, hx, -⟩
    cases hx
  · exact absurd hlink (by decide)

/-- The type at the side is below the one at the top and both have the hook, but the walk meets the
top first. -/
theorem extract_shadowing_diamond :
    ∃ m, (extract loader bottom { policy := .all }).1 = .ok m ∧
      (∃ x ∈ m.methods .postConstruct, x.id.name = "init" ∧ x.id.declaring = "Top") ∧
      ¬ ∃ x ∈ m.methods .postConstruct, x.id.name = "init" ∧ x.id.declaring = "Side" := by
  obtain ⟨m, hm, h⟩ := extract_shadowing Diamond.namesUnique Diamond.acyclic { policy := .all }
  rw [preorder_bottom] at h
  have htop := (h top (by simp) (by decide) .postConstruct "init").1 rfl declaresMethod_top
  have hside := (h side (by simp) (by decide) .postConstruct "init").1 rfl declaresMethod_side
  refine ⟨m, hm, htop.mpr isFirst_top, fun hx => ?_⟩
  have hprecedes : loader.Precedes bottom top side :=
    ⟨[bottom, base, top], [], preorder_bottom, by simp⟩
  exact hside.mp hx top hprecedes (by decide) declaresMethod_top

/-- So a type need not shadow its ancestors. -/
theorem not_forall_shadows :
    ¬ ∀ (l : FiniteLoader world) (root : TypeDecl world), l.NamesUnique root → l.Acyclic root →
      ∀ c ∈ l.preorder root, ∀ d ∈ l.preorder root, l.canLink c = true → l.canLink d = true →
        l.IsAncestor d c → ∀ (k : Kind) (n : String), c.DeclaresMethod k n → d.DeclaresMethod k n →
          ∀ m, (extract l root { policy := .all }).1 = .ok m →
            ∀ x ∈ m.methods k, x.id.name = n → x.id.declaring ≠ d.name := by
  intro h
  have hm : (extract loader bottom { policy := .all }).1 =
      .ok (.ofTypes loader "Bottom" [bottom, base, top, side]) := by
    rw [← preorder_bottom]
    exact extract_eq_ok_iff.mpr ⟨by decide, metadata_draft_of_walk_stop (by decide)⟩
  have hmem : ∀ c, c ∈ loader.preorder bottom ↔ c ∈ [bottom, base, top, side] := fun c => by
    rw [preorder_bottom]
  refine h loader bottom Diamond.namesUnique Diamond.acyclic side ((hmem _).mpr (by simp)) top
    ((hmem _).mpr (by simp)) (by decide) (by decide) isAncestor_top .postConstruct "init"
    declaresMethod_side declaresMethod_top _ hm _ (.head _) rfl rfl

end Diamond

end ComponentHooks
