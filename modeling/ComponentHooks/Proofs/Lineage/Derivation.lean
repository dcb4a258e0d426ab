import ComponentHooks.Proofs.Extraction.Flags
import ComponentHooks.Proofs.Lineage.Coherence
import ComponentHooks.Proofs.Lineage.Sources
import ComponentHooks.Proofs.Source.Acceptance

/-!
# From the source of a struct to its declaration

A struct that is described is declared with its fields as they are written, apart from the parent
and from fields that neither have a marker nor are validated. So a field that is validated asks for
lifecycle work, unless it is the parent, whose validation is not looked at.

* `Source.StructField.IsDeclaredBy`, `Source.Struct.IsDeclaredBy`: a field and a struct in a
  declaration;
* `Source.Scope`, `Component.Refers`, `Source.Struct.IsLinkedBy`: the types that a description and a
  source name, and a declaration refers to;
* **`derives_exactly`**: which structs are described, what is wrong with others, and how they are
  declared;
* `Source.Struct.IsDeclaredBy.asks_iff`: the work that the fields of a declaration ask for;
* **`hasLifecycleWork_iff_takesPart`**: the work that the metadata of a described struct has.
-/

namespace ComponentHooks

open Source

variable {U : Universe}

/-! ## Declarations -/

/-- The field is declared as it is written. It can be reached if it carries a marker. -/
structure Source.StructField.IsDeclaredBy (f : StructField) (typeName : String) (g : Field U) :
    Prop where
  id_eq : g.id = ⟨typeName, f.name, f.typeText⟩
  visibility_eq : g.visibility = f.reach.visibility
  markers : Transcribes .field f.attributes g.markers
  validated_eq : g.validated = f.attributes.any (·.isValidate)
  isSome_access : g.access.isSome = f.attributes.any (·.isMarker)
  isEligible : g.isEligible = true

/-- The struct is declared as it is written: its markers, and its fields that take part. It has
methods only if its options ask for hooks. -/
structure Source.Struct.IsDeclaredBy (src : Source.Struct) (typeName : String) (t : TypeDecl U) :
    Prop where
  name_eq : t.name = typeName
  markers : Transcribes .type src.attributes t.markers
  fields : List.Forall₂ (·.IsDeclaredBy typeName ·) (src.fields.filter (·.takesPart)) t.fields
  methods : ∀ cs, readClauses src.attributes = .ok cs → cs.contains .hooks = false → t.methods = []

variable (U) in
/-- What the types and the paths of a source stand for. -/
structure Source.Scope where
  type : String → U.Link
  path : Source.Path → U.Link

/-- The reference to a supertype. -/
def Source.Supertype.ref (scope : Scope U) : Supertype → TypeRef U
  | .linked p => .linked (scope.path p)
  | .named n => .named n

/-- The struct is declared to extend the type of its first parent, and to implement the interfaces
of all its options together, in their order. -/
structure Source.Struct.IsLinkedBy (src : Source.Struct) (scope : Scope U) (t : TypeDecl U) :
    Prop where
  extends_eq : t.extends? =
    (src.fields.find? (·.isParent)).map fun f => .linked (scope.type f.typeText)
  implements_eq : ∀ cs, readClauses src.attributes = .ok cs →
    t.implements = (cs.flatMap Clause.interfaces).map (·.ref scope)

namespace Component

variable {s : Shape U} {ps : Layout U}

/-- The struct extends and implements what its description says. -/
structure Refers (c : Component U s ps) (scope : Scope U) (d : Description)
    (parent? : Option U.Link) : Prop where
  parent_eq : parent? = d.parent?.map fun p => scope.type p.typeText
  implements_eq : c.implements = d.implements.map (·.ref scope)

theorem Refers.isLinkedBy_declare {c : Component U s ps} {scope : Scope U} {d : Description}
    {parent? : Option U.Link} (hc : c.Refers scope d parent?) {src : Source.Struct}
    (h : src.IsDescribedBy d) : src.IsLinkedBy scope (c.declare parent?) where
  extends_eq := by
    have hparent : (c.declare parent?).extends? = parent?.map .linked := rfl
    rw [hparent, hc.parent_eq, h.parent_eq, Option.map_map, Option.map_map]
    rfl
  implements_eq cs hcs := by
    obtain ⟨cs', hcs', -, -, himplements⟩ := h.options
    obtain rfl := Except.ok.inj (hcs.symm.trans hcs')
    exact hc.implements_eq.trans (congrArg _ himplements)

theorem isDeclaredBy_field (c : Component U s ps) {f : StructField} {d : DescribedField}
    (h : f.IsDescribedBy d) : f.IsDeclaredBy c.typeName (c.field d) where
  id_eq := by rw [field, h.name_eq, h.typeText_eq]
  visibility_eq := h.visibility_eq
  markers := h.markers
  validated_eq := h.validated_eq
  isSome_access := by
    rw [Bool.eq_iff_iff, c.isSome_access_field, DescribedField.isAccessible, h.markers.isEmpty_eq,
      Bool.not_not]
  isEligible := rfl

theorem Follows.isDeclaredBy_declare {c : Component U s ps} {home : String} {d : Description}
    (hc : c.Follows home d) {src : Source.Struct} (h : src.IsDescribedBy d)
    (parent? : Option U.Link) : src.IsDeclaredBy (d.typeName home) (c.declare parent?) where
  name_eq := hc.typeName_eq
  markers := by
    have hmarkers : (c.declare parent?).markers = d.markers := hc.markers_eq
    rw [hmarkers]
    exact h.markers
  fields := by
    rw [c.fields_declare, hc.fields_eq, List.forall₂_map_right_iff, ← hc.typeName_eq]
    exact h.fields.imp fun _ _ hf => c.isDeclaredBy_field hf
  methods cs hcs hhooks := by
    obtain ⟨cs', hcs', hhooked, -⟩ := h.options
    obtain rfl := Except.ok.inj (hcs.symm.trans hcs')
    rw [c.methods_declare, table, hc.hooked_eq, hhooked, hhooks]
    rfl

end Component

/-- **The structs that are described.** A struct is described exactly if its source is in order; and
otherwise the fault is that of the first check that finds one. A description tells what the source
says, and so does the declaration. -/
theorem derives_exactly (src : Source.Struct) :
    ((∃ d, src.describe = .ok d) ↔ src.IsDescribable) ∧
      (∀ e, src.describe = .error e ↔ src.checks.findSome? Check.fault? = some e) ∧
      (∀ check : Check, check.fault? = none ↔ check.Holds) ∧
      ∀ d, src.describe = .ok d → src.IsDescribedBy d ∧
        ∀ {U : Universe} {s : Shape U} {ps : Layout U} {c : Component U s ps} {home : String},
          c.Follows home d → ∀ parent? : Option U.Link,
            src.IsDeclaredBy (d.typeName home) (c.declare parent?) ∧
              ∀ scope : Scope U, c.Refers scope d parent? →
                src.IsLinkedBy scope (c.declare parent?) := by
  refine ⟨exists_describe_iff src, fun e => ?_, Check.fault?_eq_none_iff, fun d hd => ?_⟩
  · rw [← faultOf_describe, faultOf_eq_some_iff]
  · have hdescribed := isDescribedBy_of_describe hd
    exact ⟨hdescribed, fun hc parent? => ⟨hc.isDeclaredBy_declare hdescribed parent?,
      fun scope hrefers => hrefers.isLinkedBy_declare hdescribed⟩⟩

namespace Sample.Override

/-- The types of the source by name; it has no paths. -/
def scope : Scope world where
  type text := ((Species.named? "zoo" text).getD .plain)
  path _ := .plain

theorem refers : (overrideComponent "zoo").Refers scope description (some .base) := ⟨rfl, rfl⟩

theorem derives_exactly_override :
    source.IsDescribable ∧ source.IsDescribedBy description ∧
      source.IsDeclaredBy "zoo::Override" ((overrideComponent "zoo").declare (some .base)) ∧
      source.IsLinkedBy scope ((overrideComponent "zoo").declare (some .base)) := by
  obtain ⟨haccepts, -, -, htells⟩ := derives_exactly source
  obtain ⟨hdescribed, hdeclared⟩ := htells description describe_source
  obtain ⟨hmembers, hlinked⟩ := hdeclared realizes.toFollows (some .base)
  exact ⟨haccepts.mp ⟨_, describe_source⟩, hdescribed, hmembers, hlinked scope refers⟩

end Sample.Override

/-! ## Work -/

theorem exists_mem_iff_of_forall₂ {α β : Type*} {R : α → β → Prop} {as : List α} {bs : List β}
    (h : List.Forall₂ R as bs) {p : α → Prop} {q : β → Prop} (hR : ∀ a b, R a b → (p a ↔ q b)) :
    (∃ a ∈ as, p a) ↔ ∃ b ∈ bs, q b := by
  induction h with
  | nil => simp
  | cons hab _ ih => simp only [List.exists_mem_cons_iff, hR _ _ hab, ih]

theorem TypeDecl.validates_or_marksField_iff (t : TypeDecl U) :
    (t.Validates ∨ ∃ k, t.MarksField k) ↔
      ∃ g ∈ t.fields, g.isEligible = true ∧
        (g.validated = true ∨ ∃ k : Kind, k.appliesTo .field = true ∧ g.carries k = true) := by
  constructor
  · rintro (⟨g, hg, heligible, hvalidated⟩ | ⟨k, hk, g, hg, heligible, hcarries⟩)
    · exact ⟨g, hg, heligible, .inl hvalidated⟩
    · exact ⟨g, hg, heligible, .inr ⟨k, hk, hcarries⟩⟩
  · rintro ⟨g, hg, heligible, hvalidated | ⟨k, hk, hcarries⟩⟩
    · exact .inl ⟨g, hg, heligible, hvalidated⟩
    · exact .inr ⟨k, hk, g, hg, heligible, hcarries⟩

theorem Source.StructField.IsDeclaredBy.asks_iff {f : StructField} {typeName : String} {g : Field U}
    (h : f.IsDeclaredBy typeName g) :
    (f.attributes.any (·.isMarker) || f.attributes.any (·.isValidate)) = true ↔
      g.isEligible = true ∧
        (g.validated = true ∨ ∃ k : Kind, k.appliesTo .field = true ∧ g.carries k = true) := by
  rw [Bool.or_eq_true, h.markers.any_isMarker_iff, ← h.validated_eq, or_comm]
  exact (and_iff_right h.isEligible).symm

theorem Source.Struct.IsDeclaredBy.asks_iff {src : Source.Struct} {typeName : String}
    {t : TypeDecl U} (h : src.IsDeclaredBy typeName t) :
    (t.Validates ∨ ∃ k, t.MarksField k) ↔ ∃ f ∈ src.fields, f.takesPart = true := by
  rw [t.validates_or_marksField_iff,
    ← exists_mem_iff_of_forall₂ h.fields fun _ _ hf => hf.asks_iff]
  constructor
  · rintro ⟨f, hf, -⟩
    exact ⟨f, List.mem_filter.mp hf⟩
  · rintro ⟨f, hf, hpart⟩
    exact ⟨f, List.mem_filter.mpr ⟨hf, hpart⟩, (Bool.and_eq_true_iff.mp hpart).2⟩

namespace Component

variable {s : Shape U} {ps : Layout U} (c : Component U s ps) (parent? : Option U.Link)

theorem exists_marksMethod_declare_iff :
    (∃ k, (c.declare parent?).MarksMethod k) ↔ ∃ h ∈ c.table, h.markers ≠ [] := by
  constructor
  · rintro ⟨k, -, x, hx, -, hcarries⟩
    rw [c.methods_declare] at hx
    obtain ⟨h, hh, rfl⟩ := List.mem_map.mp hx
    obtain ⟨a, ha, -⟩ := List.any_eq_true.mp hcarries
    exact ⟨h, hh, List.ne_nil_of_mem ha⟩
  · rintro ⟨h, hh, hmarkers⟩
    obtain ⟨a, ha⟩ := List.exists_mem_of_ne_nil _ hmarkers
    refine ⟨a.kind, h.markers_apply a ha, c.method h, ?_, rfl, ?_⟩
    · rw [c.methods_declare]
      exact List.mem_map_of_mem hh
    · exact List.any_eq_true.mpr ⟨a, ha, decide_eq_true rfl⟩

theorem hasLifecycleWork_iff_of_extract {l : FiniteLoader U} {t : HandleTable U} {m : Metadata U}
    (hm : (extract l (c.declare parent?) t).1 = .ok m) :
    m.hasLifecycleWork = true ↔
      ((c.declare parent?).Validates ∨ ∃ k, (c.declare parent?).MarksField k) ∨
        (∃ h ∈ c.table, h.markers ≠ []) ∨
          ∃ e ∈ (l.preorder (c.declare parent?)).tail, l.canLink e = true ∧
            (e.Validates ∨ ∃ k, e.MarksField k ∨ e.MarksMethod k) := by
  obtain ⟨hstop, rfl⟩ := extract_eq_ok_iff.mp hm
  obtain ⟨cs, hpreorder, -⟩ := l.exists_preorder_cons (c.declare parent?)
  have hlink : l.canLink (c.declare parent?) = true := rfl
  rw [metadata_draft_of_walk_stop hstop, (Metadata.reports_ofTypes _ _ _).hasLifecycleWork,
    hpreorder, List.exists_mem_cons_iff, and_iff_right hlink, exists_or,
    c.exists_marksMethod_declare_iff, List.tail_cons, ← or_assoc, or_assoc]

end Component

/-- **No validation is lost between the source of a struct and its metadata, unless it stands on the
parent.** There is lifecycle work exactly if a field takes part, a hook carries a marker, or a type
behind the struct asks for work. -/
theorem hasLifecycleWork_iff_takesPart {src : Source.Struct} {d : Description}
    (hd : src.describe = .ok d) {s : Shape U} {ps : Layout U} {c : Component U s ps}
    {home : String} (hc : c.Follows home d) {l : FiniteLoader U} {parent? : Option U.Link}
    {t : HandleTable U} {m : Metadata U} (hm : (extract l (c.declare parent?) t).1 = .ok m) :
    (∀ f ∈ src.fields, f.isParent = false → f.attributes.any (·.isValidate) = true →
        m.hasLifecycleWork = true) ∧
      (m.hasLifecycleWork = true ↔
        (∃ f ∈ src.fields, f.takesPart = true) ∨ (∃ h ∈ c.table, h.markers ≠ []) ∨
          ∃ e ∈ (l.preorder (c.declare parent?)).tail, l.canLink e = true ∧
            (e.Validates ∨ ∃ k, e.MarksField k ∨ e.MarksMethod k)) := by
  have hdeclared := hc.isDeclaredBy_declare (isDescribedBy_of_describe hd) parent?
  have hwork := c.hasLifecycleWork_iff_of_extract parent? hm
  rw [hdeclared.asks_iff] at hwork
  refine ⟨fun f hf hparent hvalidate => hwork.mpr (.inl ⟨f, hf, ?_⟩), hwork⟩
  rw [StructField.takesPart, hparent, hvalidate, Bool.or_true, Bool.not_false, Bool.true_and]

namespace Sample

namespace SignupForm

/-- The source of a sign-up form. -/
def source : Source.Struct where
  name := "SignupForm"
  shape := .fields
    [{ name := "email", typeText := "String", attributes := [{ name := "validate" }] }]
  attributes :=
    [{ name := "lifecycle"
       arguments := .list [.word "name", .mark '=' false, .text "zoo::SignupForm"] }]

def description : Description where
  name := "SignupForm"
  typeName? := some "zoo::SignupForm"
  markers := []
  parent? := none
  implements := []
  hooked := false
  fields := (signupFormComponent "zoo").fields

theorem describe_source : source.describe = .ok description := by decide +kernel

theorem follows : (signupFormComponent "zoo").Follows "zoo" description := ⟨rfl, rfl, rfl, rfl⟩

/-- Validation alone is lifecycle work. -/
theorem hasLifecycleWork_signupForm :
    ∃ m, (extract (loaderOf [] []) ((signupFormComponent "zoo").declare none)
        { policy := .all }).1 = .ok m ∧
      m.hasLifecycleWork = true := by
  have hm : (extract (loaderOf [] []) ((signupFormComponent "zoo").declare none)
      { policy := .all }).1 =
      .ok ((loaderOf [] []).draft ((signupFormComponent "zoo").declare none)).metadata :=
    extract_eq_ok_iff.mpr ⟨by decide, rfl⟩
  obtain ⟨hvalidated, -⟩ := hasLifecycleWork_iff_takesPart describe_source follows hm
  exact ⟨_, hm, hvalidated _ List.mem_cons_self rfl rfl⟩

end SignupForm

namespace Mailer

/-- The source of a mailer, whose parent is validated. -/
def source : Source.Struct where
  name := "Mailer"
  shape := .fields
    [{ name := "source", typeText := "DataSource"
       attributes := [{ name := "lifecycle", arguments := .list [.word "parent"] },
         { name := "validate" }] }]

def description : Description where
  name := "Mailer"
  typeName? := none
  markers := []
  parent? := some ⟨"source", "DataSource"⟩
  implements := []
  hooked := false
  fields := []

/-- A mailer, to which nothing is linked. -/
def component : Component world ⟨"Mailer", []⟩ [Species.dataSource.shape] where
  link := .derived
  path := "zoo::Mailer"
  typeName := "zoo::Mailer"

theorem describe_source : source.describe = .ok description := by decide +kernel

theorem follows : component.Follows "zoo" description := ⟨rfl, rfl, rfl, rfl⟩

/-- The validation of a parent is lost: the mailer has a validated field, and no lifecycle work. -/
theorem not_forall_validated :
    ¬ ∀ {src : Source.Struct} {d : Description}, src.describe = .ok d →
      ∀ {s : Shape world} {ps : Layout world} {c : Component world s ps} {home : String},
        c.Follows home d → ∀ {l : FiniteLoader world} {parent? : Option Species}
          {t : HandleTable world} {m : Metadata world},
          (extract l (c.declare parent?) t).1 = .ok m →
            ∀ f ∈ src.fields, f.attributes.any (·.isValidate) = true →
              m.hasLifecycleWork = true := by
  intro hall
  have hm : (extract (loaderOf [] []) (component.declare (some .dataSource))
      { policy := .all }).1 =
      .ok ((loaderOf [] []).draft (component.declare (some .dataSource))).metadata :=
    extract_eq_ok_iff.mpr ⟨by decide, rfl⟩
  have hwork := hall describe_source follows hm _ List.mem_cons_self rfl
  exact absurd hwork (by decide)

end Mailer

end Sample

end ComponentHooks
