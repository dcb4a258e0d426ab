import ComponentHooks.Proofs.Lineage.Hooks

/-!
# The levels of a struct

A struct with its ancestors has a level for each of them. The state of a level is a part of the
whole state, and is changed there while the own fields of the levels above it stay as they are.

* `Lineage.Level`, `Lineage.Level.struct`: a level, and the struct on it with its own ancestors;
* `Lineage.Level.state`, `Lineage.Level.put`, `Lineage.Level.derived`: the state of a level, another
  one in its place, and the own fields of the more derived levels;
* **`Lineage.project_level`**, **`Lineage.projectMut_level`**: the run-time type of a level reaches
  its state;
* **`Lineage.project_eq_none_iff`**, **`Lineage.projectMut_eq_none_iff`**: no other one reaches any.
-/

namespace ComponentHooks

variable {U : Universe}

namespace Lineage

/-! ## Levels -/

variable (U) in
/-- A struct that has a parent or none. -/
structure Struct where
  {shape : Shape U}
  {embedded : Layout U}
  component : Component U shape embedded
  parents : Lineage U embedded

/-- A level of a struct: the struct itself, or a level of its parent. -/
inductive Level : {ls : Layout U} → Lineage U ls → Type where
  | self {s : Shape U} {ps : Layout U} (c : Component U s ps) (parents : Lineage U ps) :
    Level (cons c parents)
  | parent {s : Shape U} {ps : Layout U} (c : Component U s ps) {parents : Lineage U ps}
    (level : Level parents) : Level (cons c parents)

namespace Level

/-- The struct on the level. -/
def struct : {ls : Layout U} → {T : Lineage U ls} → T.Level → Struct U
  | _, _, self c parents => ⟨c, parents⟩
  | _, _, parent _ level => level.struct

variable {ls : Layout U} {T : Lineage U ls}

def layout (level : T.Level) : Layout U := level.struct.shape :: level.struct.embedded

abbrev component (level : T.Level) : Component U level.struct.shape level.struct.embedded :=
  level.struct.component

def name (level : T.Level) : String := level.component.typeName

/-- The run-time type. -/
def tag (level : T.Level) : Tag U := level.component.tag

/-- The declaration of the struct on the level. -/
def declaration (level : T.Level) : TypeDecl U :=
  level.component.declare level.struct.parents.link?

/-- The state of the level. -/
def state : {ls : Layout U} → {T : Lineage U ls} → (level : T.Level) → Record U ls →
    U.State level.tag
  | _, _, self _ _, r => r
  | _, _, parent _ level, r => level.state r.2

/-- The whole with another state of the level. -/
def put : {ls : Layout U} → {T : Lineage U ls} → (level : T.Level) → Record U ls →
    U.State level.tag → Record U ls
  | _, _, self _ _, _, x => x
  | _, _, parent _ level, r, x => (r.1, level.put r.2 x)

/-- The own fields of each level that is more derived. -/
def derived : {ls : Layout U} → {T : Lineage U ls} → T.Level → Record U ls →
    List (List (String × Value U))
  | _, _, self _ _, _ => []
  | _, _, parent _ level, r => r.1.toList :: level.derived r.2

theorem state_put (level : T.Level) (r : Record U ls) (x : U.State level.tag) :
    level.state (level.put r x) = x := by
  induction level with
  | self c parents => rfl
  | parent c level ih => exact ih r.2 x

/-- **Another state of a level leaves more derived fields as they are.** -/
theorem derived_put (level : T.Level) (r : Record U ls) (x : U.State level.tag) :
    level.derived (level.put r x) = level.derived r := by
  induction level with
  | self c parents => rfl
  | parent c level ih => exact congrArg (r.1.toList :: ·) (ih r.2 x)

theorem length_layout_le (level : T.Level) : level.layout.length ≤ ls.length := by
  induction level with
  | self c parents => exact Nat.le_refl _
  | parent c level ih => exact Nat.le_succ_of_le ih

theorem tag_ne {s : Shape U} (level : T.Level) : Tag.struct (s :: ls) ≠ level.tag := by
  intro h
  have hlayout : s :: ls = level.layout := Tag.struct.inj h
  have hle := level.length_layout_le
  rw [← hlayout, List.length_cons] at hle
  omega

theorem name_mem (level : T.Level) : level.name ∈ T.decls.map TypeDecl.name := by
  induction level with
  | self c parents => exact List.mem_cons_self
  | parent c level ih => exact List.mem_cons_of_mem _ ih

end Level

/-! ## Reaching a level by its run-time type -/

section Steps

variable {s : Shape U} {ps : Layout U} {t : Tag U} (r : Record U (s :: ps))

theorem project_self : project (.struct (s :: ps)) r = some r := by
  have hcast : Tag.cast? (s := .struct (s :: ps)) (.struct (s :: ps)) r = some r :=
    Tag.cast?_self (.struct (s :: ps)) r
  rw [project, hcast]

theorem project_of_ne (h : Tag.struct (s :: ps) ≠ t) : project t r = project t r.2 := by
  have hcast : Tag.cast? (s := .struct (s :: ps)) t r = none := dif_neg h
  rw [project, hcast]

theorem projectMut_self : projectMut (.struct (s :: ps)) r = some (r, id) := by
  rw [projectMut, dif_pos rfl]
  rfl

theorem projectMut_of_ne (h : Tag.struct (s :: ps) ≠ t) :
    projectMut t r = (projectMut t r.2).map fun (x, put) => (x, fun x => (r.1, put x)) := by
  rw [projectMut, dif_neg h]

end Steps

variable {ls : Layout U} {T : Lineage U ls}

/-- **The type of a level reaches its state.** -/
theorem project_level (level : T.Level) (r : Record U ls) :
    project level.tag r = some (level.state r) := by
  induction level with
  | self c parents => exact project_self r
  | parent c level ih => exact (project_of_ne r level.tag_ne).trans (ih r.2)

theorem projectMut_level (level : T.Level) (r : Record U ls) :
    projectMut level.tag r = some (level.state r, level.put r) := by
  induction level with
  | self c parents => exact projectMut_self r
  | parent c level ih =>
    have hstep := projectMut_of_ne r level.tag_ne
    rw [ih r.2] at hstep
    exact hstep

theorem project_eq_none {t : Tag U} (h : ∀ level : T.Level, level.tag ≠ t) (r : Record U ls) :
    project t r = none := by
  induction T with
  | nil => rfl
  | cons c parents ih =>
    rw [project_of_ne r (h (.self c parents))]
    exact ih (fun level => h (.parent c level)) r.2

theorem projectMut_eq_none {t : Tag U} (h : ∀ level : T.Level, level.tag ≠ t) (r : Record U ls) :
    projectMut t r = none := by
  induction T with
  | nil => rfl
  | cons c parents ih =>
    rw [projectMut_of_ne r (h (.self c parents)), ih (fun level => h (.parent c level)) r.2]
    rfl

variable (T) (t : Tag U) (r : Record U ls)

/-- **No other type reaches any state.** -/
theorem project_eq_none_iff : project t r = none ↔ ∀ level : T.Level, level.tag ≠ t := by
  refine ⟨?_, fun h => project_eq_none h r⟩
  rintro h level rfl
  rw [project_level] at h
  cases h

theorem projectMut_eq_none_iff : projectMut t r = none ↔ ∀ level : T.Level, level.tag ≠ t := by
  refine ⟨?_, fun h => projectMut_eq_none h r⟩
  rintro h level rfl
  rw [projectMut_level] at h
  cases h

end Lineage

end ComponentHooks
