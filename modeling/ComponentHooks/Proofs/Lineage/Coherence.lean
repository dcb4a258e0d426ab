import ComponentHooks.Proofs.Invocation.Parity
import ComponentHooks.Proofs.Lineage.Levels
import ComponentHooks.Proofs.Lineage.Reach
import ComponentHooks.Sample.Species

/-!
# Both ways into a struct lead to the same level

Where the structs of a lineage have different names, the name of a struct and its run-time type lead
to the same level, and a member of a type that is on no level is not reached in either way.

* `Lineage.invoke_level`, `Lineage.get_level`, `Lineage.set_level`: members of a level by name;
* `Lineage.invoke_eq_none`, `Lineage.get_eq_none`, `Lineage.set_eq_none`: names that no level has;
* `Lineage.Level.HasHook`, `Lineage.Level.HasField`: what a level has in its source, and so in its
  description;
* **`Lineage.invoke_method`**, **`Lineage.access_field`**: the described members of a level by name;
* `Lineage.IsCoherent`, `Lineage.coherence`: all that a struct answers by type and by name;
* `Lineage.IsForeign`, `Lineage.RefusesForeign`: members of other types are not applicable;
* **`Lineage.isCoherent`**: every struct is so in every state.
-/

namespace ComponentHooks

variable {U : Universe}

/-! ## Members that a target does not answer for -/

section Unanswered

variable {τ : Type} {R : Reflection U τ} {y : τ} {shared : U.Shared}

theorem runByName_of_invoke_eq_none {x : Method U} (habstract : x.isAbstract = false)
    (hstatic : x.isStatic = false)
    (h : R.invoke (some x.id.declaring) x.id.name y shared = none) :
    runByName R x ⟨some y, shared⟩ =
      (.error (.notApplicable x.id (R.typeName y)), ⟨some y, shared⟩) := by
  rw [runByName, runMethod]
  split
  · rename_i run hbody
    rw [Method.isStatic, hbody] at hstatic
    cases hstatic
  · simp only [habstract, Bool.false_eq_true, if_false, h]

theorem readField_of_get_eq_none {f : Field U} (hstatic : f.isStatic = false)
    (h : R.get (some f.id.declaring) f.id.name y = none) :
    readField R f (.error .disabled) ⟨some y, shared⟩ =
      .error (.notApplicable f.id (R.typeName y)) := by
  rw [readField]
  split
  · rename_i get set haccess
    rw [Field.isStatic, haccess] at hstatic
    cases hstatic
  · simp only [h]

theorem writeField_of_set_eq_none {f : Field U} (hstatic : f.isStatic = false) {v : Value U}
    (h : R.set (some f.id.declaring) f.id.name v y = none) :
    writeField R f (.error .disabled) v ⟨some y, shared⟩ =
      (.error (.notApplicable f.id (R.typeName y)), ⟨some y, shared⟩) := by
  rw [writeField]
  split
  · rename_i get set haccess
    rw [Field.isStatic, haccess] at hstatic
    cases hstatic
  · simp only [h]

end Unanswered

/-! ## One struct -/

theorem HookBody.exists_onSelf {ls : Layout U} {b : HookBody U ls} (h : b.isStatic = false) :
    ∃ f, b = .onSelf f := by
  cases b with
  | onSelf f => exact ⟨f, rfl⟩
  | onShared f => cases h

theorem DescribedField.isAccessible_iff {f : DescribedField} :
    f.isAccessible = true ↔ f.markers ≠ [] := by
  rw [isAccessible, Bool.not_eq_true', List.isEmpty_eq_false_iff]

namespace Component

variable {s : Shape U} {ps : Layout U} (c : Component U s ps)

/-- The field that describes an own field. -/
def field (f : DescribedField) : Field U where
  id := ⟨c.typeName, f.name, f.typeText⟩
  owner := some c.tag
  visibility := f.visibility
  markers := f.markers
  validated := f.validated
  access := if f.isAccessible then some (c.access f) else none

theorem fields_declare (parent? : Option U.Link) :
    (c.declare parent?).fields = c.fields.map c.field := by
  simp [declare, TypeDecl.declare, Member.declaredBy, Function.comp_def, field]

theorem isStatic_method (h : Hook U (s :: ps)) : (c.method h).isStatic = h.body.isStatic := by
  have hbody : (c.method h).body = some (c.body h.body) := rfl
  rw [Method.isStatic, hbody]
  cases h.body <;> rfl

theorem isSome_access_field (f : DescribedField) :
    (c.field f).access.isSome = true ↔ f.isAccessible = true := by
  rw [field]
  cases f.isAccessible <;> simp

theorem access_onState (f : DescribedField) : ∃ get set, c.access f = .onState get set ∧
    (∀ r : Record U (s :: ps), get c.tag r = r.1.get? f.name) ∧
      ∀ v (r : Record U (s :: ps)), set c.tag v r = writeOwn f.name v r := by
  refine ⟨_, _, rfl, fun r => ?_, fun v r => ?_⟩
  · simp only [Tag.cast?_self]
    rfl
  · simp only [Tag.change?_self]

theorem answersFor_some {D : String} : c.answersFor (some D) = true ↔ D = c.typeName := by
  simp [answersFor]

theorem reaches_iff {n : String} :
    c.reaches n = true ↔ ∃ f ∈ c.fields, f.isAccessible = true ∧ f.name = n := by
  simp [reaches]

theorem dispatch_eq_none {n : String}
    (h : ∀ x ∈ c.table, x.name = n → x.body.isStatic = true) (r : Record U (s :: ps))
    (shared : U.Shared) : c.dispatch n r shared = none := by
  rw [dispatch, List.findSome?_eq_none_iff]
  intro x hx
  cases hbody : x.body with
  | onShared f => rfl
  | onSelf f =>
    have hne : x.name ≠ n := by
      intro hname
      have hstatic := h x hx hname
      rw [hbody] at hstatic
      cases hstatic
    exact if_neg hne

theorem isSome_get? {n : String} (h : c.reaches n = true) (r : Record U (s :: ps)) :
    (r.1.get? n).isSome = true := by
  obtain ⟨f, hf, haccessible, rfl⟩ := c.reaches_iff.mp h
  have htype := c.fields_mem f hf haccessible
  rw [Shape.type?, Option.isSome_map, List.find?_isSome] at htype
  rw [Row.get?_isSome, List.any_eq_true]
  exact htype

end Component

namespace Lineage

/-! ## Members of a level by name -/

section Steps

variable {s : Shape U} {ps : Layout U} {c : Component U s ps} {parents : Lineage U ps} {D : String}
  (n : String) (r : Record U (s :: ps))

theorem invoke_of_ne (h : D ≠ c.typeName) (shared : U.Shared) :
    (cons c parents).invoke (some D) n r shared =
      (parents.invoke (some D) n r.2 shared).map fun (o, p, shared) => (o, (r.1, p), shared) := by
  rw [invoke, if_neg (mt c.answersFor_some.mp h)]

theorem invoke_of_dispatch_eq_none (shared : U.Shared) (h : c.dispatch n r shared = none) :
    (cons c parents).invoke (some D) n r shared =
      (parents.invoke (some D) n r.2 shared).map fun (o, p, shared) => (o, (r.1, p), shared) := by
  have hown : (if c.answersFor (some D) then c.dispatch n r shared else none) = none := by
    rw [h, ite_self]
  rw [invoke, hown]

variable {n}

theorem get_of_not (h : ¬ (D = c.typeName ∧ c.reaches n = true)) :
    (cons c parents).get (some D) n r = parents.get (some D) n r.2 := by
  rw [get, if_neg]
  rwa [Bool.and_eq_true, c.answersFor_some]

theorem get_of_reaches (h : c.reaches n = true) :
    (cons c parents).get (some c.typeName) n r = r.1.get? n := by
  rw [get, if_pos]
  rw [Bool.and_eq_true, c.answersFor_some]
  exact ⟨rfl, h⟩

theorem set_of_not (h : ¬ (D = c.typeName ∧ c.reaches n = true)) (v : Value U) :
    (cons c parents).set (some D) n v r =
      (parents.set (some D) n v r.2).map fun (e, p) => (e, (r.1, p)) := by
  rw [set, if_neg]
  rwa [Bool.and_eq_true, c.answersFor_some]

theorem set_of_reaches (h : c.reaches n = true) (v : Value U) :
    (cons c parents).set (some c.typeName) n v r = some (Component.writeOwn n v r) := by
  rw [set, if_pos]
  rw [Bool.and_eq_true, c.answersFor_some]
  exact ⟨rfl, h⟩

end Steps

section Levels

variable {ls : Layout U} {T : Lineage U ls}

theorem name_ne {s : Shape U} {c : Component U s ls}
    (hnodup : ((cons c T).decls.map TypeDecl.name).Nodup) (level : T.Level) :
    level.name ≠ c.typeName := by
  rw [decls, List.map_cons, List.nodup_cons] at hnodup
  intro h
  apply hnodup.1
  have hmem := level.name_mem
  rwa [h] at hmem

theorem nodup_parents {s : Shape U} {c : Component U s ls}
    (hnodup : ((cons c T).decls.map TypeDecl.name).Nodup) : (T.decls.map TypeDecl.name).Nodup := by
  rw [decls, List.map_cons, List.nodup_cons] at hnodup
  exact hnodup.2

/-- **A hook of a level runs on the state of the level.** -/
theorem invoke_level (hnodup : (T.decls.map TypeDecl.name).Nodup) (level : T.Level)
    {h : Hook U level.layout} (hh : h ∈ level.component.table)
    {f : Record U level.layout → U.Shared → Outcome × Record U level.layout × U.Shared}
    (hbody : h.body = .onSelf f) (r : Record U ls) (shared : U.Shared) :
    T.invoke (some level.name) h.name r shared =
      let (o, x, shared) := f (level.state r) shared
      some (o, level.put r x, shared) := by
  induction level with
  | self c parents =>
    have hdispatch := c.dispatch_of_mem hh hbody r shared
    have hown : c.answersFor (some (Level.self c parents).name) = true :=
      c.answersFor_some.mpr rfl
    rw [invoke, if_pos hown, hdispatch]
    rfl
  | @parent s ps c parents level ih =>
    have hstep : (cons c parents).invoke (some level.name) h.name r shared = _ :=
      invoke_of_ne h.name r (name_ne hnodup level) shared
    rw [ih (nodup_parents hnodup) hh hbody r.2] at hstep
    exact hstep

theorem invoke_eq_none {D n : String} (h : ∀ level : T.Level, level.name = D →
    ∀ x ∈ level.component.table, x.name = n → x.body.isStatic = true)
    (r : Record U ls) (shared : U.Shared) : T.invoke (some D) n r shared = none := by
  induction T with
  | nil => rfl
  | cons c parents ih =>
    have hparents := ih (fun level => h (.parent c level)) r.2
    by_cases hname : D = c.typeName
    · have hdispatch := c.dispatch_eq_none (h (.self c parents) hname.symm) r shared
      rw [invoke_of_dispatch_eq_none n r shared hdispatch, hparents]
      rfl
    · rw [invoke_of_ne n r hname, hparents]
      rfl

theorem get_level (hnodup : (T.decls.map TypeDecl.name).Nodup) (level : T.Level) {n : String}
    (hn : level.component.reaches n = true) (r : Record U ls) :
    T.get (some level.name) n r = (level.state r).1.get? n := by
  induction level with
  | self c parents => exact get_of_reaches r hn
  | parent c level ih =>
    have hne := name_ne hnodup level
    exact (get_of_not r fun h => hne h.1).trans (ih (nodup_parents hnodup) hn r.2)

theorem get_eq_none {D n : String} (h : ∀ level : T.Level, level.name = D →
    level.component.reaches n ≠ true) (r : Record U ls) : T.get (some D) n r = none := by
  induction T with
  | nil => rfl
  | cons c parents ih =>
    have hown : ¬ (D = c.typeName ∧ c.reaches n = true) := fun hown =>
      h (.self c parents) hown.1.symm hown.2
    rw [get_of_not r hown]
    exact ih (fun level => h (.parent c level)) r.2

theorem set_level (hnodup : (T.decls.map TypeDecl.name).Nodup) (level : T.Level) {n : String}
    (hn : level.component.reaches n = true) (v : Value U) (r : Record U ls) :
    T.set (some level.name) n v r =
      let (e, x) := Component.writeOwn n v (level.state r)
      some (e, level.put r x) := by
  induction level with
  | self c parents => exact set_of_reaches r hn v
  | @parent s ps c parents level ih =>
    have hne := name_ne hnodup level
    have hstep : (cons c parents).set (some level.name) n v r = _ :=
      set_of_not r (fun h => hne h.1) v
    rw [ih (nodup_parents hnodup) hn r.2] at hstep
    exact hstep

theorem set_eq_none {D n : String} (h : ∀ level : T.Level, level.name = D →
    level.component.reaches n ≠ true) (v : Value U) (r : Record U ls) :
    T.set (some D) n v r = none := by
  induction T with
  | nil => rfl
  | cons c parents ih =>
    have hown : ¬ (D = c.typeName ∧ c.reaches n = true) := fun hown =>
      h (.self c parents) hown.1.symm hown.2
    rw [set_of_not r hown v, ih (fun level => h (.parent c level)) r.2]
    rfl

end Levels

namespace Level

variable {ls : Layout U} {T : Lineage U ls} (level : T.Level) (n : String)

/-- The struct on the level has a hook of the name in its description that runs on its state. -/
def HasHook : Prop :=
  level.component.hooked = true ∧ ∃ h ∈ level.component.hooks, h.name = n ∧ h.body.isStatic = false

/-- The struct on the level has a marked field of the name. -/
def HasField : Prop := ∃ f ∈ level.component.fields, f.name = n ∧ f.markers ≠ []

variable {n}

theorem mem_methods_iff {x : Method U} :
    x ∈ level.declaration.methods ↔ ∃ h ∈ level.component.table, level.component.method h = x := by
  rw [declaration, Component.methods_declare, List.mem_map]

theorem mem_fields_iff {f : Field U} :
    f ∈ level.declaration.fields ↔ ∃ g ∈ level.component.fields, level.component.field g = f := by
  rw [declaration, Component.fields_declare, List.mem_map]

theorem hasHook_iff :
    level.HasHook n ↔ ∃ h ∈ level.component.table, h.name = n ∧ h.body.isStatic = false := by
  rw [HasHook, Component.table]
  cases level.component.hooked <;> simp

theorem hasHook_iff_method :
    level.HasHook n ↔ ∃ x ∈ level.declaration.methods, x.id.name = n ∧ x.isStatic = false := by
  rw [level.hasHook_iff]
  constructor
  · rintro ⟨h, hh, rfl, hstatic⟩
    exact ⟨_, level.mem_methods_iff.mpr ⟨h, hh, rfl⟩, rfl,
      (level.component.isStatic_method h).trans hstatic⟩
  · rintro ⟨x, hx, rfl, hstatic⟩
    obtain ⟨h, hh, rfl⟩ := level.mem_methods_iff.mp hx
    exact ⟨h, hh, rfl, (level.component.isStatic_method h).symm.trans hstatic⟩

theorem hasField_iff : level.HasField n ↔ level.component.reaches n = true := by
  rw [HasField, Component.reaches_iff]
  refine exists_congr fun f => and_congr_right fun _ => ?_
  rw [and_comm, DescribedField.isAccessible_iff]

theorem hasField_iff_field :
    level.HasField n ↔
      ∃ f ∈ level.declaration.fields, f.id.name = n ∧ f.access.isSome = true := by
  rw [HasField]
  constructor
  · rintro ⟨f, hf, rfl, hmarkers⟩
    exact ⟨_, level.mem_fields_iff.mpr ⟨f, hf, rfl⟩, rfl,
      (level.component.isSome_access_field f).mpr (DescribedField.isAccessible_iff.mpr hmarkers)⟩
  · rintro ⟨f, hf, rfl, haccess⟩
    obtain ⟨g, hg, rfl⟩ := level.mem_fields_iff.mp hf
    exact ⟨g, hg, rfl,
      DescribedField.isAccessible_iff.mp ((level.component.isSome_access_field g).mp haccess)⟩

end Level

section Described

variable {ls : Layout U} {T : Lineage U ls} (hnodup : (T.decls.map TypeDecl.name).Nodup)

include hnodup

/-- **A name runs nothing exactly if no level of the first name has a hook of the second.** -/
theorem invoke_eq_none_iff (D n : String) (r : Record U ls) (shared : U.Shared) :
    T.invoke (some D) n r shared = none ↔
      ∀ level : T.Level, level.name = D → ¬ level.HasHook n := by
  constructor
  · rintro h level rfl hhook
    obtain ⟨g, hg, rfl, hstatic⟩ := level.hasHook_iff.mp hhook
    obtain ⟨f, hbody⟩ := HookBody.exists_onSelf hstatic
    have hlevel := invoke_level hnodup level hg hbody r shared
    cases hlevel.symm.trans h
  · intro h
    refine invoke_eq_none (fun level hname x hx hn => ?_) r shared
    by_contra hstatic
    exact h level hname (level.hasHook_iff.mpr ⟨x, hx, hn, Bool.not_eq_true _ ▸ hstatic⟩)

/-- **An instance method of a level runs by name as its body does on the state of the level.** -/
theorem invoke_method (level : T.Level) {x : Method U} (hx : x ∈ level.declaration.methods)
    (hstatic : x.isStatic = false) (r : Record U ls) :
    ∃ run, x.body = some (.onState run) ∧
      ∀ shared, T.invoke (some level.name) x.id.name r shared =
        let (o, x, shared) := run level.tag (level.state r) shared
        some (o, level.put r x, shared) := by
  obtain ⟨g, hg, rfl⟩ := level.mem_methods_iff.mp hx
  rw [level.component.isStatic_method] at hstatic
  obtain ⟨f, hbody⟩ := HookBody.exists_onSelf hstatic
  obtain ⟨run, hrun, heq⟩ := level.component.body_onSelf f
  have hmethod : (level.component.method g).body = some (.onState run) := by
    rw [Component.method, hbody, hrun]
  refine ⟨run, hmethod, fun shared => ?_⟩
  have hlevel := invoke_level hnodup level hg hbody r shared
  rw [← heq (level.state r) shared] at hlevel
  exact hlevel

theorem get_eq_none_iff (D n : String) (r : Record U ls) :
    T.get (some D) n r = none ↔ ∀ level : T.Level, level.name = D → ¬ level.HasField n := by
  constructor
  · rintro h level rfl hfield
    have hreaches := level.hasField_iff.mp hfield
    have hsome := level.component.isSome_get? hreaches (level.state r)
    rw [← get_level hnodup level hreaches r, h] at hsome
    cases hsome
  · intro h
    exact get_eq_none (fun level hname hreaches => h level hname (level.hasField_iff.mpr hreaches)) r

theorem set_eq_none_iff (D n : String) (v : Value U) (r : Record U ls) :
    T.set (some D) n v r = none ↔ ∀ level : T.Level, level.name = D → ¬ level.HasField n := by
  constructor
  · rintro h level rfl hfield
    have hset := set_level hnodup level (level.hasField_iff.mp hfield) v r
    cases hset.symm.trans h
  · intro h
    exact set_eq_none (fun level hname hreaches => h level hname (level.hasField_iff.mpr hreaches))
      v r

/-- **A field of a level is reached by name as its access does on the state of the level.** -/
theorem access_field (level : T.Level) {f : Field U} (hf : f ∈ level.declaration.fields)
    (haccess : f.access.isSome = true) (r : Record U ls) :
    ∃ get set, f.access = some (.onState get set) ∧
      T.get (some level.name) f.id.name r = get level.tag (level.state r) ∧
        ∀ v, T.set (some level.name) f.id.name v r =
          let (e, x) := set level.tag v (level.state r)
          some (e, level.put r x) := by
  have hfield : level.HasField f.id.name := level.hasField_iff_field.mpr ⟨f, hf, rfl, haccess⟩
  have hreaches := level.hasField_iff.mp hfield
  obtain ⟨g, hg, rfl⟩ := level.mem_fields_iff.mp hf
  have haccessible := (level.component.isSome_access_field g).mp haccess
  obtain ⟨get, set, honState, hget, hset⟩ := level.component.access_onState g
  have hsome : (level.component.field g).access = some (.onState get set) := by
    rw [Component.field, if_pos haccessible, honState]
  refine ⟨get, set, hsome, ?_, fun v => ?_⟩
  · exact (get_level hnodup level hreaches r).trans (hget (level.state r)).symm
  · have hlevel := set_level hnodup level hreaches v r
    rw [show (level.component.field g).id.name = g.name from rfl,
      ← hset v (level.state r)] at hlevel
    exact hlevel

end Described

/-! ## Coherence -/

variable {s : Shape U} {ps : Layout U}

/-- All that a struct answers in a state `r`. By run-time type it reaches the levels; by the name of
a level and of a hook or a marked field of it, it does what the description of the level does
there. -/
structure IsCoherent (T : Lineage U (s :: ps)) (r : Record U (s :: ps)) : Prop where
  project_eq_none (t : Tag U) :
    T.reflection.project t r = none ↔ ∀ level : T.Level, level.tag ≠ t
  project_level (level : T.Level) :
    T.reflection.project level.tag r = some (level.state r)
  projectMut_eq_none (t : Tag U) :
    T.reflection.projectMut t r = none ↔ ∀ level : T.Level, level.tag ≠ t
  projectMut_level (level : T.Level) :
    T.reflection.projectMut level.tag r = some (level.state r, level.put r)
  state_put (level : T.Level) (x : U.State level.tag) : level.state (level.put r x) = x
  derived_put (level : T.Level) (x : U.State level.tag) :
    level.derived (level.put r x) = level.derived r
  invoke_eq_none (D n : String) (shared : U.Shared) :
    T.reflection.invoke (some D) n r shared = none ↔
      ∀ level : T.Level, level.name = D → ¬ level.HasHook n
  hasHook_iff (level : T.Level) (n : String) :
    level.HasHook n ↔ ∃ x ∈ level.declaration.methods, x.id.name = n ∧ x.isStatic = false
  invoke_level (level : T.Level) {x : Method U} (hx : x ∈ level.declaration.methods)
    (hstatic : x.isStatic = false) :
    ∃ run, x.body = some (.onState run) ∧
      ∀ shared, T.reflection.invoke (some level.name) x.id.name r shared =
        let (o, x, shared) := run level.tag (level.state r) shared
        some (o, level.put r x, shared)
  get_eq_none (D n : String) :
    T.reflection.get (some D) n r = none ↔ ∀ level : T.Level, level.name = D → ¬ level.HasField n
  set_eq_none (D n : String) (v : Value U) :
    T.reflection.set (some D) n v r = none ↔
      ∀ level : T.Level, level.name = D → ¬ level.HasField n
  hasField_iff (level : T.Level) (n : String) :
    level.HasField n ↔
      ∃ f ∈ level.declaration.fields, f.id.name = n ∧ f.access.isSome = true
  access_level (level : T.Level) {f : Field U} (hf : f ∈ level.declaration.fields)
    (haccess : f.access.isSome = true) :
    ∃ get set, f.access = some (.onState get set) ∧
      T.reflection.get (some level.name) f.id.name r = get level.tag (level.state r) ∧
        ∀ v, T.reflection.set (some level.name) f.id.name v r =
          let (e, x) := set level.tag v (level.state r)
          some (e, level.put r x)

/-- The type that declares the member is on no level, neither by its name nor by its run-time
type. -/
def IsForeign (T : Lineage U (s :: ps)) (m : Member U) : Prop :=
  ∀ level : T.Level, level.name ≠ m.id.declaring ∧ m.owner ≠ some level.tag

/-- Members of foreign types are not applicable to a struct in the state `r`, if their slots are
absent or their own. -/
structure RefusesForeign (T : Lineage U (s :: ps)) (r : Record U (s :: ps)) (shared : U.Shared)
    (t : HandleTable U) : Prop where
  invoke {x : Method U} (hforeign : T.IsForeign x.toMember) (habstract : x.isAbstract = false)
    (hstatic : x.isStatic = false) (hslot : t.OwnsMethod x) :
    (ComponentHooks.invoke T.reflection x ⟨some r, shared⟩ t).1 =
      (.error (.notApplicable x.id T.declare.name), ⟨some r, shared⟩)
  getField {f : Field U} (hforeign : T.IsForeign f.toMember) (hstatic : f.isStatic = false)
    (hslot : t.OwnsField f) :
    (ComponentHooks.getField T.reflection f ⟨some r, shared⟩ t).1 =
      .error (.notApplicable f.id T.declare.name)
  getFieldAs {f : Field U} (hforeign : T.IsForeign f.toMember) (hstatic : f.isStatic = false)
    (hslot : t.OwnsField f) (ty : U.Ty) :
    (ComponentHooks.getFieldAs T.reflection ty f ⟨some r, shared⟩ t).1 =
      .error (.notApplicable f.id T.declare.name)
  setField {f : Field U} (hforeign : T.IsForeign f.toMember) (hstatic : f.isStatic = false)
    (hslot : t.OwnsField f) (v : Value U) :
    (ComponentHooks.setField T.reflection f v ⟨some r, shared⟩ t).1 =
      (.error (.notApplicable f.id T.declare.name), ⟨some r, shared⟩)

theorem coherence {T : Lineage U (s :: ps)} (hnodup : (T.decls.map TypeDecl.name).Nodup)
    (r : Record U (s :: ps)) : T.IsCoherent r where
  project_eq_none t := T.project_eq_none_iff t r
  project_level level := Lineage.project_level level r
  projectMut_eq_none t := T.projectMut_eq_none_iff t r
  projectMut_level level := Lineage.projectMut_level level r
  state_put level x := level.state_put r x
  derived_put level x := level.derived_put r x
  invoke_eq_none D n shared := invoke_eq_none_iff hnodup D n r shared
  hasHook_iff level _ := level.hasHook_iff_method
  invoke_level level _ hx hstatic := invoke_method hnodup level hx hstatic r
  get_eq_none D n := get_eq_none_iff hnodup D n r
  set_eq_none D n v := set_eq_none_iff hnodup D n v r
  hasField_iff level _ := level.hasField_iff_field
  access_level level _ hf haccess := access_field hnodup level hf haccess r

/-! ## Members of other types -/

variable {T : Lineage U (s :: ps)}

section Foreign

variable {m : Member U} (hforeign : T.IsForeign m)

include hforeign

theorem invoke_of_isForeign (n : String) (r : Record U (s :: ps)) (shared : U.Shared) :
    T.reflection.invoke (some m.id.declaring) n r shared = none :=
  Lineage.invoke_eq_none (fun level hname => absurd hname (hforeign level).1) r shared

theorem get_of_isForeign (n : String) (r : Record U (s :: ps)) :
    T.reflection.get (some m.id.declaring) n r = none :=
  Lineage.get_eq_none (fun level hname => absurd hname (hforeign level).1) r

theorem set_of_isForeign (n : String) (v : Value U) (r : Record U (s :: ps)) :
    T.reflection.set (some m.id.declaring) n v r = none :=
  Lineage.set_eq_none (fun level hname => absurd hname (hforeign level).1) v r

theorem project_of_isForeign {owner : Tag U} (howner : m.owner = some owner)
    (r : Record U (s :: ps)) : T.reflection.project owner r = none :=
  project_eq_none (fun level htag => (hforeign level).2 (htag ▸ howner)) r

theorem projectMut_of_isForeign {owner : Tag U} (howner : m.owner = some owner)
    (r : Record U (s :: ps)) : T.reflection.projectMut owner r = none :=
  projectMut_eq_none (fun level htag => (hforeign level).2 (htag ▸ howner)) r

end Foreign

theorem runsByName_of_isForeign {x : Method U} (h : T.IsForeign x.toMember)
    (r : Record U (s :: ps)) : T.reflection.RunsByName x r := by
  intro owner run howner hbody shared
  rw [invoke_of_isForeign h, projectMut_of_isForeign h howner]
  rfl

theorem accessesByName_of_isForeign {f : Field U} (h : T.IsForeign f.toMember)
    (r : Record U (s :: ps)) : T.reflection.AccessesByName f r := by
  intro owner get set howner haccess
  rw [get_of_isForeign h, project_of_isForeign h howner, projectMut_of_isForeign h howner]
  exact ⟨rfl, fun v => set_of_isForeign h f.id.name v r⟩

theorem getField_of_isForeign {f : Field U} (hforeign : T.IsForeign f.toMember)
    (hstatic : f.isStatic = false) {t : HandleTable U} (hslot : t.OwnsField f)
    (r : Record U (s :: ps)) (shared : U.Shared) :
    (getField T.reflection f ⟨some r, shared⟩ t).1 =
      .error (.notApplicable f.id T.declare.name) := by
  rw [getField_eq_readField (fun y _ => accessesByName_of_isForeign hforeign y) hslot]
  exact readField_of_get_eq_none hstatic (get_of_isForeign hforeign f.id.name r)

/-- **Members of other types are not applicable.** -/
theorem refusesForeign (T : Lineage U (s :: ps)) (r : Record U (s :: ps)) (shared : U.Shared)
    (t : HandleTable U) : T.RefusesForeign r shared t where
  invoke {x} hforeign habstract hstatic hslot := by
    rw [invoke_eq_runByName (fun y _ => runsByName_of_isForeign hforeign y) hslot]
    exact runByName_of_invoke_eq_none habstract hstatic
      (invoke_of_isForeign hforeign x.id.name r shared)
  getField hforeign hstatic hslot := getField_of_isForeign hforeign hstatic hslot r shared
  getFieldAs {f} hforeign hstatic hslot ty := by
    unfold ComponentHooks.getFieldAs
    rw [Logged.bind_apply, getField_of_isForeign hforeign hstatic hslot r shared]
    rfl
  setField {f} hforeign hstatic hslot v := by
    rw [setField_eq_writeField (fun y _ => accessesByName_of_isForeign hforeign y) hslot]
    exact writeField_of_set_eq_none hstatic (set_of_isForeign hforeign f.id.name v r)

/-- **Both ways into a struct lead to the same level**, in every state, and to no level for a member
of another type. -/
theorem isCoherent (T : Lineage U (s :: ps)) (hnodup : (T.decls.map TypeDecl.name).Nodup)
    (r : Record U (s :: ps)) :
    T.IsCoherent r ∧ ∀ (shared : U.Shared) (t : HandleTable U), T.RefusesForeign r shared t :=
  ⟨coherence hnodup r, fun shared t => T.refusesForeign r shared t⟩

namespace Sample

open ComponentHooks.Sample

/-- A leaf in its first state, on which an override and a base are two further levels. -/
theorem isCoherent_leaf :
    (Species.leaf.lineage "zoo").IsCoherent Species.leaf.start ∧
      ∀ (shared : world.Shared) (t : HandleTable world),
        (Species.leaf.lineage "zoo").RefusesForeign Species.leaf.start shared t :=
  isCoherent (Species.leaf.lineage "zoo") (by decide) Species.leaf.start

end Sample

end Lineage

end ComponentHooks
