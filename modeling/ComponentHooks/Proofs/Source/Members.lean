import ComponentHooks.Proofs.Source.WellFormed
import ComponentHooks.Source.HookBlock

/-!
# What a source tells about its members

A description tells of the fields of a struct, and an expansion of the methods of a block, those
that take part, in source order. What is left out has no marker attribute.

* `WrittenMember`, `Told`: a member with its attributes, and with its markers;
* `TellsAll`: all marker attributes of what is written are told;
* **`tellsAll_of_describe`**, **`tellsAll_of_expand`**: descriptions and expansions tell all;
* `TellsAll.ofKind`: so the members of a kind that are told are those that are written.
-/

namespace ComponentHooks

/-- A member as an engine is told about it. -/
structure Told where
  name : String
  markers : List Marker

namespace Told

/-- The first marker of the kind. -/
def marker? (t : Told) (k : Kind) : Option Marker := t.markers.find? (·.kind = k)

/-- The member has a marker of the kind. -/
def carries (t : Told) (k : Kind) : Bool := t.markers.any (·.kind = k)

end Told

/-- What is told of a field. -/
def DescribedField.told (f : DescribedField) : Told := ⟨f.name, f.markers⟩

namespace Source

/-- A member as it is written. -/
structure WrittenMember where
  name : String
  attributes : List Attribute

namespace WrittenMember

/-- The first attribute of the kind. -/
def attribute? (w : WrittenMember) (k : Kind) : Option Attribute :=
  w.attributes.find? (·.kind? = some k)

/-- The member has an attribute of the kind. -/
def carries (w : WrittenMember) (k : Kind) : Bool := w.attributes.any (·.kind? = some k)

/-- Under a kind, what is written is told: its name, and the first marker of the kind. -/
def IsToldAs (w : WrittenMember) (k : Kind) (t : Told) : Prop :=
  t.name = w.name ∧ ∃ a m, w.attribute? k = some a ∧ t.marker? k = some m ∧ a.Writes m

end WrittenMember

/-- What is told of a hook. -/
def DescribedHook.told (h : DescribedHook) : Told := ⟨h.name, h.markers⟩

/-- A field of a struct as it is written. -/
def StructField.written (f : StructField) : WrittenMember := ⟨f.name, f.attributes⟩

/-- A method of a block as it is written. -/
def BlockMethod.written (m : BlockMethod) : WrittenMember := ⟨m.name, m.attributes⟩

/-- The fields with names. -/
def Struct.fields (s : Struct) : List StructField :=
  match s.shape with
  | .fields fs => fs
  | _ => []

/-- The methods among the items. -/
def HookBlock.methods (b : HookBlock) : List BlockMethod := b.items.filterMap (·.method?)

/-! ## All that is written is told -/

/-- Members are told in source order. One that is left out has no marker attribute, and of any other
one all are told. -/
inductive TellsAll (s : Site) : List WrittenMember → List Told → Prop where
  | nil : TellsAll s [] []
  | left {w : WrittenMember} {ws : List WrittenMember} {ts : List Told}
    (unmarked : ∀ a ∈ w.attributes, a.isMarker = false) (rest : TellsAll s ws ts) :
    TellsAll s (w :: ws) ts
  | told {w : WrittenMember} {ws : List WrittenMember} {t : Told} {ts : List Told}
    (name_eq : t.name = w.name) (markers : Transcribes s w.attributes t.markers)
    (rest : TellsAll s ws ts) : TellsAll s (w :: ws) (t :: ts)

namespace TellsAll

variable {s : Site} {ws : List WrittenMember} {ts : List Told}

/-- **The members of a kind that are told are those that are written.** -/
theorem ofKind (h : TellsAll s ws ts) (k : Kind) :
    List.Forall₂ (·.IsToldAs k ·) (ws.filter (·.carries k)) (ts.filter (·.carries k)) := by
  induction h with
  | nil => exact .nil
  | @left w ws ts unmarked _ ih =>
    have hw : ¬ w.carries k = true := by
      intro hk
      obtain ⟨a, ha, hkind⟩ := List.any_eq_true.mp hk
      have hmarker := Attribute.isMarker_of_kind? (of_decide_eq_true hkind)
      rw [unmarked a ha] at hmarker
      cases hmarker
    rwa [List.filter_cons, if_neg hw]
  | @told w ws t ts name_eq markers _ ih =>
    have hcarries : w.carries k = t.carries k := markers.any_iff k
    rw [List.filter_cons, List.filter_cons, ← hcarries]
    by_cases hk : w.carries k = true
    · rw [if_pos hk, if_pos hk]
      obtain ⟨a, m, ha, hm, hwrites, -⟩ := markers.first hk
      exact .cons ⟨name_eq, a, m, ha, hm, hwrites⟩ ih
    · rwa [if_neg hk, if_neg hk]

theorem names_sublist (h : TellsAll s ws ts) :
    (ts.map Told.name).Sublist (ws.map WrittenMember.name) := by
  induction h with
  | nil => exact .slnil
  | left _ _ ih => exact ih.cons _
  | told name_eq _ _ ih =>
    rw [List.map_cons, List.map_cons, name_eq]
    exact ih.cons_cons _

theorem appliesTo (h : TellsAll s ws ts) {k : Kind} {t : Told} (ht : t ∈ ts)
    (hk : t.carries k = true) : k.appliesTo s = true := by
  induction h with
  | nil => cases ht
  | left _ _ ih => exact ih ht
  | told _ markers _ ih =>
    rcases List.mem_cons.mp ht with rfl | ht
    · exact markers.appliesTo (k := k) ((markers.any_iff k).trans hk)
    · exact ih ht

end TellsAll

/-! ## Structs -/

theorem tellsAll_of_describe? {f : StructField} {d? : Option DescribedField}
    (h : f.describe? = .ok d?) {ws : List WrittenMember} {ts : List Told}
    (hrest : TellsAll .field ws ts) :
    TellsAll .field (f.written :: ws) (d?.toList.map DescribedField.told ++ ts) := by
  obtain ⟨ms, hms, hd⟩ := map_eq_ok_iff.1 h
  have htranscribes := transcribes_of_readMarkers hms
  dsimp only at hd
  split_ifs at hd with hleft
  · subst hd
    rw [Bool.and_eq_true, List.isEmpty_iff] at hleft
    obtain ⟨rfl, -⟩ := hleft
    have hnone := List.forall₂_nil_right_iff.mp htranscribes
    rw [List.filter_eq_nil_iff] at hnone
    exact .left (fun a ha => Bool.not_eq_true _ ▸ hnone a ha) hrest
  · subst hd
    exact .told rfl htranscribes hrest

/-- What the fields of a struct come to: the front one is the only parent, without a marker
attribute, or it is described or left out. -/
theorem describeFields_cons_eq_ok {parent? : Option Parent} {f : StructField}
    {fs : List StructField} {r : Option Parent × List DescribedField}
    (h : describeFields parent? (f :: fs) = .ok r) :
    (f.isParent = true ∧ parent? = none ∧ (∀ a ∈ f.attributes, a.isMarker = false) ∧
        describeFields (some ⟨f.name, f.typeText⟩) fs = .ok r) ∨
      (f.isParent = false ∧ ∃ d? ds, f.describe? = .ok d? ∧
        describeFields parent? fs = .ok (r.1, ds) ∧ r.2 = d?.toList ++ ds) := by
  rw [describeFields] at h
  obtain ⟨isParent, hread, h⟩ := bind_eq_ok_iff.mp h
  have hparent : isParent = f.isParent := readsParent_eq_ok hread
  cases isParent with
  | false =>
    obtain ⟨d?, hd, h⟩ := bind_eq_ok_iff.mp h
    obtain ⟨⟨p, ds⟩, hds, h⟩ := bind_eq_ok_iff.mp h
    cases h
    exact .inr ⟨hparent.symm, d?, ds, hd, hds, rfl⟩
  | true =>
    rw [if_pos rfl] at h
    dsimp only at h
    split_ifs at h with hsecond hmarked hmarked
    · cases h
    · cases h
    · cases h
    · refine .inl ⟨hparent.symm, Option.not_isSome_iff_eq_none.mp hsecond, fun a ha => ?_, h⟩
      rw [List.any_eq_true] at hmarked
      exact Bool.not_eq_true _ ▸ fun hm => hmarked ⟨a, ha, hm⟩

theorem tellsAll_of_describeFields {fs : List StructField} {parent? : Option Parent}
    {r : Option Parent × List DescribedField} (h : describeFields parent? fs = .ok r) :
    TellsAll .field (fs.map StructField.written) (r.2.map DescribedField.told) := by
  induction fs generalizing parent? r with
  | nil =>
    cases h
    exact .nil
  | cons f fs ih =>
    obtain ⟨-, -, hunmarked, hrest⟩ | ⟨-, d?, ds, hd, hrest, hr⟩ := describeFields_cons_eq_ok h
    · exact .left hunmarked (ih hrest)
    · rw [hr, List.map_append]
      exact tellsAll_of_describe? hd (ih hrest)

theorem Shape.named_eq_ok {s : Struct} {fs : List StructField} (h : s.shape.named = .ok fs) :
    s.fields = fs := by
  rw [Struct.fields]
  cases hshape : s.shape <;> rw [hshape] at h <;> cases h <;> rfl

theorem describe_eq_ok {s : Struct} {d : Description} (h : s.describe = .ok d) :
    ∃ options, readOptions s.attributes = .ok options ∧
      readMarkers .type s.attributes = .ok d.markers ∧
      describeFields none s.fields = .ok (d.parent?, d.fields) ∧
      d.name = s.name ∧ d.typeName? = options.typeName? ∧ d.implements = options.implements ∧
      d.hooked = options.hooked := by
  rw [Struct.describe] at h
  split_ifs at h with hgenerics
  · obtain ⟨fs, hfs, h⟩ := bind_eq_ok_iff.mp h
    obtain ⟨options, hoptions, h⟩ := bind_eq_ok_iff.mp h
    obtain ⟨ms, hms, h⟩ := bind_eq_ok_iff.mp h
    obtain ⟨r, hr, h⟩ := bind_eq_ok_iff.mp h
    cases h
    rw [Shape.named_eq_ok hfs]
    exact ⟨options, hoptions, hms, hr, rfl, rfl, rfl, rfl⟩
  · cases h

/-- **The description of a struct** has the struct's own markers as they are written, and tells of
all fields with marker attributes. -/
theorem tellsAll_of_describe {s : Struct} {d : Description} (h : s.describe = .ok d) :
    Transcribes .type s.attributes d.markers ∧
      TellsAll .field (s.fields.map StructField.written) (d.fields.map DescribedField.told) := by
  obtain ⟨options, -, hms, hfields, -⟩ := describe_eq_ok h
  exact ⟨transcribes_of_readMarkers hms, tellsAll_of_describeFields hfields⟩

/-! ## Blocks -/

theorem tellsAll_of_hook? {m : BlockMethod} {h? : Option DescribedHook} (h : m.hook? = .ok h?)
    {ws : List WrittenMember} {ts : List Told} (hrest : TellsAll .method ws ts) :
    TellsAll .method (m.written :: ws) (h?.toList.map DescribedHook.told ++ ts) := by
  rw [BlockMethod.hook?] at h
  obtain ⟨ms, hms, h⟩ := bind_eq_ok_iff.mp h
  have htranscribes := transcribes_of_readMarkers hms
  by_cases hhook : m.isHook = true
  · rw [if_pos hhook] at h
    dsimp only at h
    split_ifs at h
    · cases h
    · cases h
    · obtain ⟨-, -, h⟩ := bind_eq_ok_iff.mp h
      cases h
      exact .told rfl htranscribes hrest
    · cases h
  · rw [if_neg hhook] at h
    cases h
    rw [BlockMethod.isHook, List.any_eq_true] at hhook
    refine .left (fun a ha => Bool.not_eq_true _ ▸ fun hm => hhook ⟨a, ha, ?_⟩) hrest
    rw [hm, Bool.true_or]

theorem tellsAll_of_readHooks {ms : List BlockMethod} {hs : List DescribedHook}
    (h : readHooks ms = .ok hs) :
    TellsAll .method (ms.map BlockMethod.written) (hs.map DescribedHook.told) := by
  induction ms generalizing hs with
  | nil =>
    cases h
    exact .nil
  | cons m ms ih =>
    obtain ⟨h?, hh, h⟩ := bind_eq_ok_iff.mp h
    obtain ⟨rest, hrest, h⟩ := bind_eq_ok_iff.mp h
    cases h
    rw [List.map_append]
    exact tellsAll_of_hook? hh (ih hrest)

/-- **The expansion of a block** tells of all methods with marker attributes. -/
theorem tellsAll_of_expand {b : HookBlock} {x : Expansion} (h : b.expand = .ok x) :
    TellsAll .method (b.methods.map BlockMethod.written) (x.hooks.map DescribedHook.told) := by
  rw [HookBlock.expand] at h
  split_ifs at h with hinherent
  · obtain ⟨hs, hhs, h⟩ := bind_eq_ok_iff.mp h
    cases h
    exact tellsAll_of_readHooks hhs
  · cases h

end Source

end ComponentHooks
