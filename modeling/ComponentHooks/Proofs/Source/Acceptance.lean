import ComponentHooks.Proofs.Source.Members

/-!
# Which structs have a description

A struct is described if a list of checks holds of its source, and otherwise the first check that
does not hold says what is wrong.

* `Check`, `Check.fault?`, `Check.Holds`: one check, what it finds, and what it asks for;
* `Struct.checks`, **`faultOf_describe`**: all checks in order, and the first fault;
* `Struct.IsDescribable`, **`isDescribable_iff`**: what all checks together ask for;
* `Struct.IsDescribedBy`, **`isDescribedBy_of_describe`**: what the description is then.
-/

namespace ComponentHooks.Source

/-! ## Checks -/

/-- One check of the source of a struct. -/
inductive Check where
  | generics (text : String)
  | shape (shape : Shape)
  /-- Options of the struct. -/
  | options (a : Attribute)
  | typeMarker (a : Attribute)
  /-- Options of a field. -/
  | fieldOptions (a : Attribute)
  | fieldMarker (a : Attribute)
  /-- No field before a parent is one, too. -/
  | onlyParent (seen : Bool)
  /-- The attributes of a parent hold no marker. -/
  | bareParent (as : List Attribute)

namespace Check

/-- What the check finds. -/
def fault? : Check → Option Fault
  | generics text => if text = "" then none else some .genericStruct
  | shape sh => faultOf sh.named
  | options a => faultOf (a.options >>= clauses)
  | typeMarker a => faultOf (a.marker? .type)
  | fieldOptions a => faultOf a.parentOptions
  | fieldMarker a => faultOf (a.marker? .field)
  | onlyParent seen => if seen then some .secondParent else none
  | bareParent as => if as.any (·.isMarker) then some .markedParent else none

/-- What the check asks for. -/
def Holds : Check → Prop
  | generics text => text = ""
  | shape sh => sh = .unit ∨ ∃ fs, sh = .fields fs
  | options a => ∃ ts cs, a.arguments = .list ts ∧ clauses ts = .ok cs
  | typeMarker a => a.isMarker = true → ∃ m, a.WritesAt .type m
  | fieldOptions a => ∃ ts, a.arguments = .list ts ∧ ParentList ts
  | fieldMarker a => a.isMarker = true → ∃ m, a.WritesAt .field m
  | onlyParent seen => seen = false
  | bareParent as => ∀ a ∈ as, a.isMarker = false

/-- **A check finds nothing exactly if what it asks for holds.** -/
theorem fault?_eq_none_iff (c : Check) : c.fault? = none ↔ c.Holds := by
  cases c with
  | generics text => simp [fault?, Holds]
  | shape sh =>
    cases sh <;> simp [fault?, Holds, Shape.named]
  | options a =>
    rw [fault?, faultOf_eq_none_iff, Holds, Attribute.options]
    constructor
    · rintro ⟨cs, h⟩
      cases harguments : a.arguments <;> rw [harguments] at h
      case list ts => exact ⟨ts, cs, rfl, h⟩
      all_goals cases h
    · rintro ⟨ts, cs, harguments, h⟩
      rw [harguments]
      exact ⟨cs, h⟩
  | typeMarker a =>
    rw [fault?, Attribute.faultOf_marker?_eq_none_iff]
    simp only [Attribute.gives_iff_writesAt (show Site.type ≠ .method by decide)]
    rfl
  | fieldOptions a => exact Attribute.faultOf_parentOptions_eq_none_iff
  | fieldMarker a =>
    rw [fault?, Attribute.faultOf_marker?_eq_none_iff]
    simp only [Attribute.gives_iff_writesAt (show Site.field ≠ .method by decide)]
    rfl
  | onlyParent seen => cases seen <;> simp [fault?, Holds]
  | bareParent as => simp [fault?, Holds]

end Check

/-- The checks of a field, where `seen` says whether a field before it is the parent: its options,
and then its markers, of which a parent may have none. -/
def StructField.checks (seen : Bool) (f : StructField) : List Check :=
  (f.attributes.filter (·.isOptions)).map .fieldOptions ++
    if f.isParent then [.onlyParent seen, .bareParent f.attributes]
    else f.attributes.map .fieldMarker

/-- The checks of fields in their order. -/
def fieldChecks (seen : Bool) : List StructField → List Check
  | [] => []
  | f :: fs => f.checks seen ++ fieldChecks (seen || f.isParent) fs

/-- **All checks of a struct**: generics, the shape, the options attribute by attribute, the markers
attribute by attribute, and the fields one after the other. -/
def Struct.checks (s : Struct) : List Check :=
  .generics s.generics :: .shape s.shape ::
    ((s.attributes.filter (·.isOptions)).map .options ++ (s.attributes.map .typeMarker ++
      fieldChecks false s.fields))

/-! ## The first fault -/

theorem faultOf_readClauses (as : List Attribute) :
    faultOf (readClauses as) =
      ((as.filter (·.isOptions)).map Check.options).findSome? Check.fault? := by
  induction as with
  | nil => rfl
  | cons a as ih =>
    rw [readClauses, List.filter_cons]
    split_ifs with ha
    · rw [← bind_assoc, List.map_cons, List.findSome?_cons, ← ih]
      refine (faultOf_bind_bind (a.options >>= clauses) (readClauses as) _).trans ?_
      rw [Check.fault?]
      cases faultOf (a.options >>= clauses) <;> rfl
    · exact ih

theorem findSome?_checks (seen : Bool) (f : StructField) :
    (f.checks seen).findSome? Check.fault? =
      (faultOf (readsParent f.attributes)).or
        (if f.isParent then
          (Check.onlyParent seen).fault?.or (Check.bareParent f.attributes).fault?
        else faultOf f.describe?) := by
  have hoptions : ((f.attributes.filter (·.isOptions)).map Check.fieldOptions).findSome?
      Check.fault? = faultOf (readsParent f.attributes) := by
    rw [List.findSome?_map, faultOf_readsParent]
    rfl
  have hmarkers : (f.attributes.map Check.fieldMarker).findSome? Check.fault? =
      faultOf f.describe? := by
    rw [StructField.describe?, faultOf_map, faultOf_readMarkers, List.findSome?_map]
    rfl
  rw [StructField.checks, List.findSome?_append, hoptions]
  split_ifs
  · rw [List.findSome?_cons, List.findSome?_cons, List.findSome?_nil]
    cases (Check.onlyParent seen).fault? <;> cases (Check.bareParent f.attributes).fault? <;> rfl
  · rw [hmarkers]

theorem faultOf_describeFields (parent? : Option Parent) (fs : List StructField) :
    faultOf (describeFields parent? fs) =
      (fieldChecks parent?.isSome fs).findSome? Check.fault? := by
  induction fs generalizing parent? with
  | nil => rfl
  | cons f fs ih =>
    rw [fieldChecks, List.findSome?_append, findSome?_checks, describeFields]
    cases hread : readsParent f.attributes with
    | error e => rfl
    | ok isParent =>
      obtain rfl : isParent = f.isParent := readsParent_eq_ok hread
      cases hparent : f.isParent with
      | false =>
        rw [faultOf_ok, Option.none_or, if_neg Bool.false_ne_true, Bool.or_false, ← ih]
        change faultOf (f.describe? >>= fun d? => describeFields parent? fs >>= _) = _
        cases f.describe? with
        | error e => rfl
        | ok d? => cases describeFields parent? fs <;> rfl
      | true =>
        rw [faultOf_ok, Option.none_or, if_pos rfl, Bool.or_true]
        cases parent? with
        | some p => rfl
        | none =>
          have hrest := ih (some ⟨f.name, f.typeText⟩)
          rw [Option.isSome_some] at hrest
          rw [← hrest, Check.fault?, Check.fault?]
          cases f.attributes.any (·.isMarker) <;> rfl

/-- **The first fault of a struct is that of the first check** that finds one. -/
theorem faultOf_describe (s : Struct) :
    faultOf s.describe = s.checks.findSome? Check.fault? := by
  have hmarkers : (s.attributes.map Check.typeMarker).findSome? Check.fault? =
      faultOf (readMarkers .type s.attributes) := by
    rw [faultOf_readMarkers, List.findSome?_map]
    rfl
  have hoptions : faultOf (readOptions s.attributes) =
      ((s.attributes.filter (·.isOptions)).map Check.options).findSome? Check.fault? := by
    rw [readOptions, faultOf_map, faultOf_readClauses]
  rw [Struct.checks, List.findSome?_cons, List.findSome?_cons, List.findSome?_append,
    List.findSome?_append, ← hoptions, hmarkers, Struct.describe, Check.fault?, Check.fault?]
  split_ifs with hgenerics
  · cases hshape : s.shape.named with
    | error e => rfl
    | ok fs =>
      obtain rfl : s.fields = fs := Shape.named_eq_ok hshape
      have hfields : faultOf (describeFields none s.fields) =
        (fieldChecks false s.fields).findSome? Check.fault? := faultOf_describeFields none s.fields
      rw [← hfields]
      change faultOf (readOptions s.attributes >>= fun options =>
        readMarkers .type s.attributes >>= fun markers => describeFields none s.fields >>= _) = _
      cases readOptions s.attributes with
      | error e => rfl
      | ok options =>
        cases readMarkers .type s.attributes with
        | error e => rfl
        | ok markers => cases describeFields none s.fields <;> rfl
  · rfl

/-! ## What is accepted -/

/-- The options and the markers of a field are in order. -/
structure StructField.IsDescribable (f : StructField) : Prop where
  options : ∀ a ∈ f.attributes, a.isOptions = true →
    ∃ ts, a.arguments = .list ts ∧ ParentList ts
  bareParent : f.isParent = true → ∀ a ∈ f.attributes, a.isMarker = false
  markers : f.isParent = false → ∀ a ∈ f.attributes, a.isMarker = true → ∃ m, a.WritesAt .field m

/-- **The source of a struct is in order.** -/
structure Struct.IsDescribable (s : Struct) : Prop where
  generics : s.generics = ""
  shape : s.shape = .unit ∨ ∃ fs, s.shape = .fields fs
  options : ∀ a ∈ s.attributes, a.isOptions = true →
    ∃ ts cs, a.arguments = .list ts ∧ clauses ts = .ok cs
  markers : ∀ a ∈ s.attributes, a.isMarker = true → ∃ m, a.WritesAt .type m
  fields : ∀ f ∈ s.fields, f.IsDescribable
  oneParent : (s.fields.filter (·.isParent)).length ≤ 1

theorem forall_holds_checks_iff (seen : Bool) (f : StructField) :
    (∀ c ∈ f.checks seen, c.Holds) ↔
      f.IsDescribable ∧ (f.isParent = true → seen = false) := by
  have hoptions : (∀ c ∈ (f.attributes.filter (·.isOptions)).map Check.fieldOptions, c.Holds) ↔
      ∀ a ∈ f.attributes, a.isOptions = true → ∃ ts, a.arguments = .list ts ∧ ParentList ts := by
    simp only [List.forall_mem_map, List.mem_filter, and_imp]
    rfl
  rw [StructField.checks, List.forall_mem_append, hoptions]
  cases hparent : f.isParent with
  | true =>
    rw [if_pos rfl, List.forall_mem_cons, List.forall_mem_singleton]
    constructor
    · rintro ⟨ho, hseen, hbare⟩
      exact ⟨⟨ho, fun _ => hbare, fun h => nomatch hparent.symm.trans h⟩, fun _ => hseen⟩
    · rintro ⟨hf, hseen⟩
      exact ⟨hf.options, hseen rfl, hf.bareParent hparent⟩
  | false =>
    rw [if_neg Bool.false_ne_true, List.forall_mem_map]
    constructor
    · rintro ⟨ho, hmarkers⟩
      exact ⟨⟨ho, fun h => (nomatch hparent.symm.trans h), fun _ => hmarkers⟩, nofun⟩
    · rintro ⟨hf, -⟩
      exact ⟨hf.options, hf.markers hparent⟩

theorem forall_holds_fieldChecks_iff (seen : Bool) (fs : List StructField) :
    (∀ c ∈ fieldChecks seen fs, c.Holds) ↔
      (∀ f ∈ fs, f.IsDescribable) ∧ (fs.filter (·.isParent)).length + seen.toNat ≤ 1 := by
  induction fs generalizing seen with
  | nil => cases seen <;> simp [fieldChecks]
  | cons f fs ih =>
    rw [fieldChecks, List.forall_mem_append, forall_holds_checks_iff, ih, List.forall_mem_cons,
      List.filter_cons]
    cases f.isParent <;> cases seen <;> simp <;> tauto

/-- **The checks hold exactly if the source is in order.** -/
theorem isDescribable_iff (s : Struct) : (∀ c ∈ s.checks, c.Holds) ↔ s.IsDescribable := by
  have hoptions : (∀ c ∈ (s.attributes.filter (·.isOptions)).map Check.options, c.Holds) ↔
      ∀ a ∈ s.attributes, a.isOptions = true →
        ∃ ts cs, a.arguments = .list ts ∧ clauses ts = .ok cs := by
    simp only [List.forall_mem_map, List.mem_filter, and_imp]
    rfl
  rw [Struct.checks, List.forall_mem_cons, List.forall_mem_cons, List.forall_mem_append,
    List.forall_mem_append, hoptions, List.forall_mem_map, forall_holds_fieldChecks_iff]
  constructor
  · rintro ⟨hgenerics, hshape, ho, hmarkers, hfields, hone⟩
    exact ⟨hgenerics, hshape, ho, hmarkers, hfields, hone⟩
  · rintro ⟨hgenerics, hshape, ho, hmarkers, hfields, hone⟩
    exact ⟨hgenerics, hshape, ho, hmarkers, hfields, hone⟩

theorem exists_describe_iff (s : Struct) : (∃ d, s.describe = .ok d) ↔ s.IsDescribable := by
  rw [← isDescribable_iff, ← faultOf_eq_none_iff, faultOf_describe, List.findSome?_eq_none_iff]
  exact forall₂_congr fun c _ => c.fault?_eq_none_iff

/-! ## The description -/

/-- The field takes part: it is not the parent, and carries a marker or is validated. -/
def StructField.takesPart (f : StructField) : Bool :=
  !f.isParent && (f.attributes.any (·.isMarker) || f.attributes.any (·.isValidate))

/-- The field is described as it is written. -/
structure StructField.IsDescribedBy (f : StructField) (d : DescribedField) : Prop where
  name_eq : d.name = f.name
  typeText_eq : d.typeText = f.typeText
  visibility_eq : d.visibility = f.reach.visibility
  markers : Transcribes .field f.attributes d.markers
  validated_eq : d.validated = f.attributes.any (·.isValidate)

/-- **The description tells what the source says.** -/
structure Struct.IsDescribedBy (s : Struct) (d : Description) : Prop where
  name_eq : d.name = s.name
  /-- Of all options together: hooks, the last type name, and all interfaces in their order. -/
  options : ∃ cs, readClauses s.attributes = .ok cs ∧ d.hooked = cs.contains .hooks ∧
    d.typeName? = (cs.filterMap Clause.typeName?).getLast? ∧
    d.implements = cs.flatMap Clause.interfaces
  markers : Transcribes .type s.attributes d.markers
  parent_eq : d.parent? = (s.fields.find? (·.isParent)).map fun f => ⟨f.name, f.typeText⟩
  fields : List.Forall₂ StructField.IsDescribedBy (s.fields.filter (·.takesPart)) d.fields

theorem forall₂_of_describe? {f : StructField} (hparent : f.isParent = false)
    {d? : Option DescribedField} (h : f.describe? = .ok d?) :
    List.Forall₂ StructField.IsDescribedBy ([f].filter (·.takesPart)) d?.toList := by
  obtain ⟨ms, hms, hd⟩ := map_eq_ok_iff.1 h
  have htranscribes := transcribes_of_readMarkers hms
  have hpart : (ms.isEmpty && !f.attributes.any (·.isValidate)) = !f.takesPart := by
    rw [StructField.takesPart, hparent, htranscribes.isEmpty_eq, Bool.not_false, Bool.true_and,
      Bool.not_or]
  dsimp only at hd
  rw [hpart] at hd
  rw [List.filter_singleton]
  cases hf : f.takesPart with
  | false =>
    rw [hf, Bool.not_false, if_pos rfl] at hd
    exact hd ▸ .nil
  | true =>
    rw [hf, Bool.not_true, if_neg Bool.false_ne_true] at hd
    exact hd ▸ .cons ⟨rfl, rfl, rfl, htranscribes, rfl⟩ .nil

theorem isDescribedBy_of_describeFields {fs : List StructField} {parent? : Option Parent}
    {r : Option Parent × List DescribedField} (h : describeFields parent? fs = .ok r) :
    r.1 = parent?.or ((fs.find? (·.isParent)).map fun f => ⟨f.name, f.typeText⟩) ∧
      List.Forall₂ StructField.IsDescribedBy (fs.filter (·.takesPart)) r.2 := by
  induction fs generalizing parent? r with
  | nil =>
    cases h
    exact ⟨(Option.or_none).symm, .nil⟩
  | cons f fs ih =>
    obtain ⟨hparent, rfl, -, hrest⟩ | ⟨hparent, d?, ds, hd, hrest, hr⟩ :=
      describeFields_cons_eq_ok h
    · have hpart : f.takesPart = false := by rw [StructField.takesPart, hparent]; rfl
      obtain ⟨hfirst, hfields⟩ := ih hrest
      rw [List.find?_cons_of_pos hparent, List.filter_cons, hpart]
      exact ⟨hfirst, hfields⟩
    · obtain ⟨hfirst, hfields⟩ := ih hrest
      rw [List.find?_cons_of_neg (by rw [hparent]; nofun), hr,
        ← List.singleton_append, List.filter_append]
      exact ⟨hfirst, List.rel_append (forall₂_of_describe? hparent hd) hfields⟩

theorem isDescribedBy_of_describe {s : Struct} {d : Description} (h : s.describe = .ok d) :
    s.IsDescribedBy d := by
  obtain ⟨options, hoptions, hms, hfields, hname, htypeName, himplements, hhooked⟩ :=
    describe_eq_ok h
  obtain ⟨cs, hcs, rfl⟩ := map_eq_ok_iff.1 hoptions
  obtain ⟨hparent, hdescribed⟩ := isDescribedBy_of_describeFields hfields
  exact ⟨hname, ⟨cs, hcs, hhooked, htypeName, himplements⟩, transcribes_of_readMarkers hms,
    hparent, hdescribed⟩

end ComponentHooks.Source
