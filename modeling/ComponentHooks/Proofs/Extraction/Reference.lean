import ComponentHooks.Proofs.Extraction.Draft
import ComponentHooks.Proofs.Extraction.FirstOfName
import ComponentHooks.Proofs.Hierarchy.Preorder
import ComponentHooks.Sample.Hierarchies

/-!
# What an extraction answers

The metadata of a type is a function of the preorder of its hierarchy. Each kind is filled on its
own, from the members of the types whose links load, the first of every name; markers on types are
neither tied to links nor to names.

* `Loader.canLink`: all that the members of a type need can be loaded;
* `TypeDecl.methodsOf`, `TypeDecl.fieldsOf`, `TypeDecl.isValidated`: what its members add;
* `Metadata.ofTypes`: the metadata of types in order;
* **`extract_eq_ofTypes`**: an extraction that succeeds answers with the metadata of the preorder.
-/

namespace ComponentHooks

variable {U : Universe}

/-! ## The metadata of a list of types -/

/-- The types that the members of `c` need can all be loaded. -/
def Loader.canLink (l : Loader U) (c : TypeDecl U) : Bool := c.links.all fun n => (l.load n).isOk

theorem Loader.linkFailure?_eq_none_iff {l : Loader U} {c : TypeDecl U} :
    l.linkFailure? c = none ↔ l.canLink c = true := by
  rw [linkFailure?, canLink, List.findSome?_eq_none_iff, List.all_eq_true]
  refine forall₂_congr fun n _ => ?_
  cases l.load n <;> simp [Except.isOk, Except.toBool]

namespace TypeDecl

/-- The methods that a person wrote and that carry the kind, in declaration order. -/
def methodsOf (c : TypeDecl U) (k : Kind) : List (Method U) :=
  c.methods.filter fun x => x.isEligible && x.carries k

/-- The fields that a person wrote and that carry the kind, in declaration order. -/
def fieldsOf (c : TypeDecl U) (k : Kind) : List (Field U) :=
  c.fields.filter fun x => x.isEligible && x.carries k

/-- A field that a person wrote is validated. -/
def isValidated (c : TypeDecl U) : Bool := c.fields.any fun x => x.isEligible && x.validated

end TypeDecl

/-- The metadata of types in order: under each kind the members that carry it, of the types whose
links load, the first of every name; and the markers of all the types. -/
def Metadata.ofTypes (l : Loader U) (name : String) (cs : List (TypeDecl U)) : Metadata U where
  name
  methods := .ofLists fun k =>
    if k.appliesTo .method then
      firstOfName (·.id.name) ((cs.filter l.canLink).flatMap (·.methodsOf k))
    else []
  fields := .ofLists fun k =>
    if k.appliesTo .field then
      firstOfName (·.id.name) ((cs.filter l.canLink).flatMap (·.fieldsOf k))
    else []
  typeMarkers := .ofLists fun k =>
    if k.appliesTo .type then cs.flatMap (·.markersOf k) else []
  validated := (cs.filter l.canLink).any TypeDecl.isValidated

namespace Metadata

variable (l : Loader U) (name : String) (cs : List (TypeDecl U)) (k : Kind)

theorem methods_ofTypes : (ofTypes l name cs).methods k =
    if k.appliesTo .method then
      firstOfName (·.id.name) ((cs.filter l.canLink).flatMap (·.methodsOf k))
    else [] :=
  Table.ofLists_apply _ k

theorem fields_ofTypes : (ofTypes l name cs).fields k =
    if k.appliesTo .field then
      firstOfName (·.id.name) ((cs.filter l.canLink).flatMap (·.fieldsOf k))
    else [] :=
  Table.ofLists_apply _ k

theorem typeMarkers_ofTypes : (ofTypes l name cs).typeMarkers k =
    if k.appliesTo .type then cs.flatMap (·.markersOf k) else [] :=
  Table.ofLists_apply _ k

end Metadata

/-! ## What one type adds -/

namespace Draft

theorem metadata_methodAs (x : Method U) (d : Draft U) (k : Kind) :
    (d.methodAs x k).metadata =
      { d.metadata with methods := Table.offer Method.toMember x d.metadata.methods k } := by
  unfold methodAs Table.offer Metadata.hasMethod
  split <;> rfl

theorem metadata_fieldAs (x : Field U) (d : Draft U) (k : Kind) :
    (d.fieldAs x k).metadata =
      { d.metadata with fields := Table.offer Field.toMember x d.metadata.fields k } := by
  unfold fieldAs Table.offer Metadata.hasField
  split <;> rfl

theorem metadata_foldl_methodAs (x : Method U) (ks : List Kind) (d : Draft U) :
    (ks.foldl (methodAs x) d).metadata =
      { d.metadata with
        methods := ks.foldl (Table.offer Method.toMember x) d.metadata.methods } := by
  induction ks generalizing d with
  | nil => rfl
  | cons k ks ih => rw [List.foldl_cons, ih, metadata_methodAs, List.foldl_cons]

theorem metadata_foldl_fieldAs (x : Field U) (ks : List Kind) (d : Draft U) :
    (ks.foldl (fieldAs x) d).metadata =
      { d.metadata with fields := ks.foldl (Table.offer Field.toMember x) d.metadata.fields } := by
  induction ks generalizing d with
  | nil => rfl
  | cons k ks ih => rw [List.foldl_cons, ih, metadata_fieldAs, List.foldl_cons]

theorem metadata_foldl_method (xs : List (Method U)) (d : Draft U) :
    (xs.foldl method d).metadata =
      { d.metadata with
        methods := Table.record Method.toMember Site.method.kinds d.metadata.methods
          (xs.filter Method.isEligible) } := by
  induction xs generalizing d with
  | nil => rfl
  | cons x xs ih =>
    rw [List.foldl_cons, ih, method]
    by_cases hx : x.isEligible = true
    · rw [if_pos hx, List.filter_cons_of_pos hx, metadata_foldl_methodAs]
      rfl
    · rw [if_neg hx, List.filter_cons_of_neg hx]

theorem metadata_foldl_field (xs : List (Field U)) (d : Draft U) :
    (xs.foldl field d).metadata =
      { d.metadata with
        fields := Table.record Field.toMember Site.field.kinds d.metadata.fields
          (xs.filter Field.isEligible)
        validated := d.metadata.validated || xs.any fun x => x.isEligible && x.validated } := by
  induction xs generalizing d with
  | nil => simp [Table.record]
  | cons x xs ih =>
    rw [List.foldl_cons, ih, field]
    by_cases hx : x.isEligible = true
    · rw [if_pos hx, List.filter_cons_of_pos hx, metadata_foldl_fieldAs]
      simp [Table.record, hx, Bool.or_assoc]
    · rw [if_neg hx, List.filter_cons_of_neg hx]
      simp [hx]

theorem metadata_type (l : FiniteLoader U) (d : Draft U) (c : TypeDecl U) :
    (d.type l c).metadata =
      { d.metadata.addMarkers c with
        methods := Table.record Method.toMember Site.method.kinds d.metadata.methods
          (([c].filter l.canLink).flatMap fun c => c.methods.filter Method.isEligible)
        fields := Table.record Field.toMember Site.field.kinds d.metadata.fields
          (([c].filter l.canLink).flatMap fun c => c.fields.filter Field.isEligible)
        validated := d.metadata.validated || ([c].filter l.canLink).any TypeDecl.isValidated } := by
  unfold type
  by_cases hc : l.canLink c = true
  · rw [Loader.linkFailure?_eq_none_iff.mpr hc, List.filter_cons_of_pos hc, List.filter_nil,
      List.flatMap_singleton, List.flatMap_singleton, List.any_cons, List.any_nil, Bool.or_false]
    simp only
    rw [metadata_foldl_method, metadata_foldl_field]
    rfl
  · obtain ⟨e, he⟩ := Option.ne_none_iff_exists'.mp (mt Loader.linkFailure?_eq_none_iff.mp hc)
    rw [he, List.filter_cons_of_neg hc, List.filter_nil, List.flatMap_nil, List.flatMap_nil,
      List.any_nil, Bool.or_false]
    rfl

end Draft

/-! ## What all types add -/

theorem Site.nodup_kinds (s : Site) : s.kinds.Nodup := by cases s <;> decide

namespace Table

variable {α : Type}

theorem extend_apply {ks : List Kind} (hks : ks.Nodup) (t : Table α) (found : Kind → List α)
    (k : Kind) : t.extend ks found k = t k ++ if k ∈ ks then found k else [] := by
  have hpush : ∀ (t : Table α) (j : Kind),
      (if (found j).isEmpty then t else t.push j (found j)) k =
        t k ++ if k = j then found k else [] := by
    intro t j
    by_cases hkj : k = j
    · subst hkj
      cases found k <;> simp
    · split <;> simp [push_of_ne, hkj]
  induction ks generalizing t with
  | nil => simp [extend]
  | cons j ks ih =>
    obtain ⟨hj, hks⟩ := List.nodup_cons.mp hks
    rw [extend, List.foldl_cons, ← extend, ih hks, hpush]
    by_cases hkj : k = j
    · subst hkj
      simp [hj]
    · simp [hkj]

/-- The markers of types in order, each under its kind. -/
def mark (t : Table Marker) (cs : List (TypeDecl U)) : Table Marker :=
  cs.foldl (fun t c => t.extend Site.type.kinds c.markersOf) t

theorem mark_apply (t : Table Marker) (cs : List (TypeDecl U)) (k : Kind) :
    t.mark cs k = t k ++ if k.appliesTo .type then cs.flatMap (·.markersOf k) else [] := by
  induction cs generalizing t with
  | nil => simp [mark]
  | cons c cs ih =>
    rw [mark, List.foldl_cons, ← mark, ih, extend_apply (Site.nodup_kinds .type), Kind.appliesTo]
    simp only [List.contains_iff_mem, List.flatMap_cons]
    split <;> simp

theorem Filled.mark {t : Table Marker} (h : t.Filled) (cs : List (TypeDecl U)) :
    (t.mark cs).Filled :=
  List.foldlRecOn (motive := Filled) cs _ h fun _ ht c _ => ht.extend _ c.markersOf

end Table

namespace Draft

theorem metadata_foldl_type (l : FiniteLoader U) (cs : List (TypeDecl U)) (d : Draft U) :
    (cs.foldl (type l) d).metadata =
      { d.metadata with
        methods := Table.record Method.toMember Site.method.kinds d.metadata.methods
          ((cs.filter l.canLink).flatMap fun c => c.methods.filter Method.isEligible)
        fields := Table.record Field.toMember Site.field.kinds d.metadata.fields
          ((cs.filter l.canLink).flatMap fun c => c.fields.filter Field.isEligible)
        typeMarkers := d.metadata.typeMarkers.mark cs
        validated := d.metadata.validated || (cs.filter l.canLink).any TypeDecl.isValidated } := by
  induction cs generalizing d with
  | nil => simp [Table.record, Table.mark]
  | cons c cs ih =>
    have hfilter : (c :: cs).filter l.canLink = [c].filter l.canLink ++ cs.filter l.canLink :=
      List.filter_append [c] cs
    rw [List.foldl_cons, ih, metadata_type, hfilter]
    simp only [List.flatMap_append, List.any_append, Table.record_append, Bool.or_assoc]
    rfl

end Draft

theorem Table.record_empty {α : Type} (member : α → Member U) (s : Site) (xs : List α) (k : Kind) :
    Table.record member s.kinds .empty xs k =
      if k.appliesTo s then
        firstOfName (fun x => (member x).id.name) (xs.filter fun x => (member x).carries k)
      else [] := by
  rw [Table.record_apply member s.nodup_kinds, Kind.appliesTo, ← foldl_addNew_nil]
  simp only [List.contains_iff_mem]
  rfl

theorem metadata_draft (l : FiniteLoader U) (name : String) (cs : List (TypeDecl U)) :
    (cs.foldl (Draft.type l) { metadata := { name } }).metadata = .ofTypes l name cs := by
  have hmethods : ∀ (c : TypeDecl U) (k : Kind),
      (c.methods.filter Method.isEligible).filter (·.carries k) = c.methodsOf k := fun c k => by
    rw [List.filter_filter, TypeDecl.methodsOf]
    simp only [Bool.and_comm]
  have hfields : ∀ (c : TypeDecl U) (k : Kind),
      (c.fields.filter Field.isEligible).filter (·.carries k) = c.fieldsOf k := fun c k => by
    rw [List.filter_filter, TypeDecl.fieldsOf]
    simp only [Bool.and_comm]
  rw [Draft.metadata_foldl_type, Metadata.ofTypes]
  dsimp only
  congr 1
  · refine (Table.filled_empty.record _ _ _).eq_ofLists fun k => ?_
    simp only [Table.record_empty, List.filter_flatMap, hmethods]
  · refine (Table.filled_empty.record _ _ _).eq_ofLists fun k => ?_
    simp only [Table.record_empty, List.filter_flatMap, hfields]
  · exact (Table.filled_empty.mark cs).eq_ofLists fun k => Table.mark_apply _ cs k

variable {l : FiniteLoader U} {root : TypeDecl U}

theorem metadata_draft_of_walk_stop (h : (l.walk root).stop = none) :
    (l.draft root).metadata = .ofTypes l root.name (l.preorder root) := by
  rw [FiniteLoader.draft, types_walk h, metadata_draft]

/-- **An extraction that succeeds answers with the metadata of the preorder**, whatever handle
table it is run on. -/
theorem extract_eq_ofTypes {t : HandleTable U} {m : Metadata U} (h : (extract l root t).1 = .ok m) :
    m = .ofTypes l root.name (l.preorder root) := by
  obtain ⟨hstop, rfl⟩ := extract_eq_ok_iff.mp h
  exact metadata_draft_of_walk_stop hstop

open Sample Diamond in
/-- On the diamond: the superclass adds its marker but no method, and the type at the top is met
before the one at the side. -/
theorem extract_eq_ofTypes_diamond :
    ∃ m, (extract loader bottom { policy := .all }).1 = .ok m ∧
      m = .ofTypes loader "Bottom" [bottom, base, top, side] ∧
      (m.methods .postConstruct).map (·.id) = [⟨"Top", "init", "()"⟩] ∧
      (m.typeMarkers .resource).length = 1 := by
  have hm : (extract loader bottom { policy := .all }).1 = .ok (loader.draft bottom).metadata :=
    extract_eq_ok_iff.mpr ⟨by decide, rfl⟩
  have heq := extract_eq_ofTypes hm
  rw [preorder_bottom] at heq
  refine ⟨_, hm, heq, ?_, ?_⟩
  · rw [heq]
    decide
  · rw [heq]
    decide

end ComponentHooks
