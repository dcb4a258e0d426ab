import ComponentHooks.Proofs.Extraction.Reference

/-!
# What the flags of metadata mean

Metadata says at a glance whether there is any work. The flags look at tables from which later
members of a name were left out; they mean the hierarchy itself, for a kind loses its later
members but never its first.

* `TypeDecl.MarksField`, `TypeDecl.MarksMethod`, `TypeDecl.MarksSelf`: a member that a person
  wrote, or the type itself, carries a kind of its site;
* `firstOfName_eq_nil_iff`: the first of every name are some, where there are any;
* `Metadata.Reports`: what entries and flags say about types;
* **`extract_reports`**: extracted metadata reports about the preorder of its hierarchy.
-/

namespace ComponentHooks

variable {U : Universe}

/-! ## Marked members -/

namespace TypeDecl

variable (c : TypeDecl U) (k : Kind)

/-- A field that a person wrote carries the kind, which is looked for on fields. -/
def MarksField : Prop :=
  k.appliesTo .field = true ∧ ∃ f ∈ c.fields, f.isEligible = true ∧ f.carries k = true

/-- A method that a person wrote carries the kind, which is looked for on methods. -/
def MarksMethod : Prop :=
  k.appliesTo .method = true ∧ ∃ x ∈ c.methods, x.isEligible = true ∧ x.carries k = true

/-- The type itself carries the kind, which is looked for on types. -/
def MarksSelf : Prop := k.appliesTo .type = true ∧ ∃ a ∈ c.markers, a.kind = k

/-- A field that a person wrote is validated. -/
def Validates : Prop := ∃ f ∈ c.fields, f.isEligible = true ∧ f.validated = true

end TypeDecl

/-- What entries and flags of the metadata say about the types `cs`. Members count if all the
types they need load, also those that are shadowed; markers of a type itself count in any case,
but ask for no lifecycle work. The flags look for keys, and no key is without entries. -/
structure Metadata.Reports (m : Metadata U) (l : Loader U) (cs : List (TypeDecl U)) : Prop where
  methods (k : Kind) : m.methods k ≠ [] ↔ ∃ c ∈ cs, l.canLink c = true ∧ c.MarksMethod k
  fields (k : Kind) : m.fields k ≠ [] ↔ ∃ c ∈ cs, l.canLink c = true ∧ c.MarksField k
  typeMarkers (k : Kind) : m.typeMarkers k ≠ [] ↔ ∃ c ∈ cs, c.MarksSelf k
  hasKey (k : Kind) : (m.methods.hasKey k = true ↔ m.methods k ≠ []) ∧
    (m.fields.hasKey k = true ↔ m.fields k ≠ []) ∧
    (m.typeMarkers.hasKey k = true ↔ m.typeMarkers k ≠ [])
  hasLifecycleWork : m.hasLifecycleWork = true ↔
    ∃ c ∈ cs, l.canLink c = true ∧ (c.Validates ∨ ∃ k, c.MarksField k ∨ c.MarksMethod k)
  hasResourceWork : m.hasResourceWork = true ↔
    ∃ k : Kind, k.isResource = true ∧ ∃ c ∈ cs,
      c.MarksSelf k ∨ l.canLink c = true ∧ (c.MarksField k ∨ c.MarksMethod k)
  isEmpty : m.isEmpty = true ↔ ∀ k, m.methods k = [] ∧ m.fields k = [] ∧ m.typeMarkers k = []

/-! ## Entries -/

theorem firstOfName_eq_nil_iff {α : Type} (name : α → String) {xs : List α} :
    firstOfName name xs = [] ↔ xs = [] := by
  cases xs with
  | nil => simp
  | cons x xs => simp [firstOfName_cons]

theorem firstOfName_flatMap_ne_nil_iff {α : Type} (name : α → String) (p : TypeDecl U → Bool)
    (g : TypeDecl U → List α) (cs : List (TypeDecl U)) :
    firstOfName name ((cs.filter p).flatMap g) ≠ [] ↔ ∃ c ∈ cs, p c = true ∧ ∃ x, x ∈ g c := by
  rw [ne_eq, firstOfName_eq_nil_iff]
  constructor
  · intro h
    obtain ⟨x, hx⟩ := List.exists_mem_of_ne_nil _ h
    obtain ⟨c, hc, hx⟩ := List.mem_flatMap.mp hx
    obtain ⟨hc, hp⟩ := List.mem_filter.mp hc
    exact ⟨c, hc, hp, x, hx⟩
  · rintro ⟨c, hc, hp, x, hx⟩
    exact List.ne_nil_of_mem (List.mem_flatMap.mpr ⟨c, List.mem_filter.mpr ⟨hc, hp⟩, hx⟩)

namespace Metadata

variable (l : Loader U) (name : String) (cs : List (TypeDecl U)) (k : Kind)

theorem methods_ofTypes_ne_nil_iff :
    (ofTypes l name cs).methods k ≠ [] ↔ ∃ c ∈ cs, l.canLink c = true ∧ c.MarksMethod k := by
  rw [methods_ofTypes]
  cases hk : k.appliesTo .method with
  | false => simp [TypeDecl.MarksMethod, hk]
  | true =>
    rw [if_pos rfl, firstOfName_flatMap_ne_nil_iff]
    simp [TypeDecl.MarksMethod, TypeDecl.methodsOf, hk]

theorem fields_ofTypes_ne_nil_iff :
    (ofTypes l name cs).fields k ≠ [] ↔ ∃ c ∈ cs, l.canLink c = true ∧ c.MarksField k := by
  rw [fields_ofTypes]
  cases hk : k.appliesTo .field with
  | false => simp [TypeDecl.MarksField, hk]
  | true =>
    rw [if_pos rfl, firstOfName_flatMap_ne_nil_iff]
    simp [TypeDecl.MarksField, TypeDecl.fieldsOf, hk]

theorem typeMarkers_ofTypes_ne_nil_iff :
    (ofTypes l name cs).typeMarkers k ≠ [] ↔ ∃ c ∈ cs, c.MarksSelf k := by
  rw [typeMarkers_ofTypes]
  cases hk : k.appliesTo .type with
  | false => simp [TypeDecl.MarksSelf, hk]
  | true => simp [TypeDecl.MarksSelf, TypeDecl.markersOf, hk]

theorem validated_ofTypes_iff :
    (ofTypes l name cs).validated = true ↔ ∃ c ∈ cs, l.canLink c = true ∧ c.Validates := by
  simp [ofTypes, TypeDecl.isValidated, TypeDecl.Validates]

/-! ## Flags -/

/-- No key of the metadata has an empty list. -/
structure Filled (m : Metadata U) : Prop where
  methods : m.methods.Filled
  fields : m.fields.Filled
  typeMarkers : m.typeMarkers.Filled

theorem filled_ofTypes : (ofTypes l name cs).Filled :=
  ⟨Table.filled_ofLists _, Table.filled_ofLists _, Table.filled_ofLists _⟩

namespace Filled

variable {m : Metadata U} (h : m.Filled)

include h

theorem hasLifecycleWork_iff : m.hasLifecycleWork = true ↔
    m.validated = true ∨ ∃ k, m.fields k ≠ [] ∨ m.methods k ≠ [] := by
  simp only [hasLifecycleWork, Bool.or_eq_true, Bool.not_eq_true', ← Bool.not_eq_true,
    Table.isEmpty_iff, not_forall, not_not, h.methods.hasKey_iff, h.fields.hasKey_iff, exists_or]
  tauto

theorem hasResourceWork_iff : m.hasResourceWork = true ↔ ∃ k : Kind, k.isResource = true ∧
    (m.typeMarkers k ≠ [] ∨ m.fields k ≠ [] ∨ m.methods k ≠ []) := by
  simp only [hasResourceWork, Bool.or_eq_true, Table.hasResource_iff, h.methods.hasKey_iff,
    h.fields.hasKey_iff, h.typeMarkers.hasKey_iff, ← exists_or, ← and_or_left]
  refine exists_congr fun k => and_congr_right fun _ => ?_
  tauto

theorem isEmpty_iff :
    m.isEmpty = true ↔ ∀ k, m.methods k = [] ∧ m.fields k = [] ∧ m.typeMarkers k = [] := by
  simp only [isEmpty, Bool.and_eq_true, Table.isEmpty_iff, ← Bool.not_eq_true,
    h.methods.hasKey_iff, h.fields.hasKey_iff, h.typeMarkers.hasKey_iff, not_not, forall_and,
    and_assoc]

end Filled

theorem reports_ofTypes : (ofTypes l name cs).Reports l cs where
  methods := methods_ofTypes_ne_nil_iff l name cs
  fields := fields_ofTypes_ne_nil_iff l name cs
  typeMarkers := typeMarkers_ofTypes_ne_nil_iff l name cs
  hasKey k := by
    have h := filled_ofTypes l name cs
    exact ⟨h.methods.hasKey_iff k, h.fields.hasKey_iff k, h.typeMarkers.hasKey_iff k⟩
  hasLifecycleWork := by
    rw [(filled_ofTypes l name cs).hasLifecycleWork_iff, validated_ofTypes_iff]
    simp only [fields_ofTypes_ne_nil_iff, methods_ofTypes_ne_nil_iff]
    constructor
    · rintro (⟨c, hc, hlink, h⟩ | ⟨k, ⟨c, hc, hlink, h⟩ | ⟨c, hc, hlink, h⟩⟩)
      · exact ⟨c, hc, hlink, .inl h⟩
      · exact ⟨c, hc, hlink, .inr ⟨k, .inl h⟩⟩
      · exact ⟨c, hc, hlink, .inr ⟨k, .inr h⟩⟩
    · rintro ⟨c, hc, hlink, h | ⟨k, h | h⟩⟩
      · exact .inl ⟨c, hc, hlink, h⟩
      · exact .inr ⟨k, .inl ⟨c, hc, hlink, h⟩⟩
      · exact .inr ⟨k, .inr ⟨c, hc, hlink, h⟩⟩
  hasResourceWork := by
    rw [(filled_ofTypes l name cs).hasResourceWork_iff]
    refine exists_congr fun k => and_congr_right fun _ => ?_
    rw [typeMarkers_ofTypes_ne_nil_iff, fields_ofTypes_ne_nil_iff, methods_ofTypes_ne_nil_iff]
    simp only [and_or_left, exists_or]
  isEmpty := (filled_ofTypes l name cs).isEmpty_iff

end Metadata

variable {l : FiniteLoader U} {root : TypeDecl U}

/-- **What an extraction reports about the hierarchy.** A kind has entries exactly if a type of
the preorder marks a member or itself with it; and the flags tell exactly whether there is any
such work. -/
theorem extract_reports {t : HandleTable U} {m : Metadata U} (h : (extract l root t).1 = .ok m) :
    m.Reports l (l.preorder root) := by
  obtain ⟨hstop, rfl⟩ := extract_eq_ok_iff.mp h
  rw [metadata_draft_of_walk_stop hstop]
  exact Metadata.reports_ofTypes l root.name (l.preorder root)

open Sample Diamond in
/-- On the diamond: the hook at the top is lifecycle work; the marker of the superclass, whose
members cannot be told, is work on resources. -/
theorem extract_reports_diamond :
    ∃ m, (extract loader bottom { policy := .all }).1 = .ok m ∧
      m.Reports loader [bottom, base, top, side] ∧
      m.hasLifecycleWork = true ∧ m.hasResourceWork = true ∧ m.isEmpty = false := by
  have hm : (extract loader bottom { policy := .all }).1 = .ok (loader.draft bottom).metadata :=
    extract_eq_ok_iff.mpr ⟨by decide, rfl⟩
  have hreports := extract_reports hm
  rw [preorder_bottom] at hreports
  exact ⟨_, hm, hreports, by decide, by decide, by decide⟩

end ComponentHooks
