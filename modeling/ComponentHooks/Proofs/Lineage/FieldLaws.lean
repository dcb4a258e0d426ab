import ComponentHooks.Proofs.Lineage.Coherence

/-!
# Reading and writing the fields of a struct

A field of a level is read in two ways and written in two, by a handle or by name. Whichever are
mixed, they obey the laws of a lens: what was written is read, to write what was read changes
nothing, and the last of two writes stands.

* `Row.set?_of_ne`, `Row.set?_get?`, `Row.set?_set?`: the laws of one struct's own fields;
* `Level.row`, `Level.putRow`, `Level.row_putRow_of_ne`: the own fields of a level in the whole;
* **`getField_level`**, **`setField_level`**: what an engine reads and writes, under any policy;
* `ObeysLens`, **`obeysLens`**: the laws; all own fields that can be reached obey them;
* `Level.FoundIn`, `Level.IsOnlyIn`: a struct is found in another one under a policy; none but it
  can be taken for it there;
* `AppliesAlike`: a read and a write are applicable to the same targets;
* **`fieldLaws`**: all this holds of all marked fields of all levels;
* **`Sample.not_forall_alike`**: a struct that goes by the name of another one is taken for it by
  one policy and not by the other.
-/

namespace ComponentHooks

variable {U : Universe}

/-! ## Own fields -/

namespace Row

variable {fs : List (String × U.Ty)} {name : String} {ty : U.Ty} {v : Value U} {r r' : Row U fs}

theorem set?_of_ne (hty : (fs.find? (·.1 = name)).map (·.2) = some ty) (hv : v.1 ≠ ty)
    (r : Row U fs) : r.set? name v = some (.error v) := by
  induction fs with
  | nil => cases hty
  | cons f fs ih =>
    obtain ⟨old, rest⟩ := r
    by_cases hf : f.1 = name
    · obtain rfl : f.2 = ty := by simpa [hf] using hty
      rw [set?, if_pos hf, Value.as?_eq_none.mpr hv]
    · rw [List.find?_cons_of_neg (by simpa using hf)] at hty
      rw [set?, if_neg hf, ih hty rest]
      rfl

theorem exists_set?_eq_ok (hty : (fs.find? (·.1 = name)).map (·.2) = some ty) (hv : v.1 = ty)
    (r : Row U fs) : ∃ r', r.set? name v = some (.ok r') := by
  induction fs with
  | nil => cases hty
  | cons f fs ih =>
    obtain ⟨old, rest⟩ := r
    by_cases hf : f.1 = name
    · obtain rfl : f.2 = ty := by simpa [hf] using hty
      obtain ⟨_, x⟩ := v
      cases hv
      exact ⟨(x, rest), by rw [set?, if_pos hf, Value.as?_self]⟩
    · rw [List.find?_cons_of_neg (by simpa using hf)] at hty
      obtain ⟨rest', hrest⟩ := ih hty rest
      exact ⟨(old, rest'), by rw [set?, if_neg hf, hrest]; rfl⟩

/-- **To write what was read changes nothing.** -/
theorem set?_get? (h : r.get? name = some v) : r.set? name v = some (.ok r) := by
  induction fs with
  | nil => cases h
  | cons f fs ih =>
    obtain ⟨old, rest⟩ := r
    rw [get?] at h
    rw [set?]
    split_ifs at h ⊢
    · cases h
      rw [Value.as?_self]
    · rw [ih h]
      rfl

/-- **The last of two writes stands.** -/
theorem set?_set? (h : r.set? name v = some (.ok r')) (w : Value U) :
    r'.set? name w = r.set? name w := by
  induction fs with
  | nil => cases h
  | cons f fs ih =>
    obtain ⟨old, rest⟩ := r
    obtain ⟨new, rest'⟩ := r'
    rw [set?] at h
    rw [set?, set?]
    split_ifs at h ⊢
    · cases hv : v.as? f.2 with
      | none => simp [hv] at h
      | some x =>
        simp only [hv, Option.some.injEq, Except.ok.injEq, Prod.mk.injEq] at h
        rw [h.2]
    · cases hs : rest.set? name v with
      | none => simp [hs] at h
      | some e =>
        cases e with
        | error w => simp [hs, Except.map] at h
        | ok rest'' =>
          simp only [hs, Option.map_some, Except.map, Option.some.injEq, Except.ok.injEq,
            Prod.mk.injEq] at h
          rw [← h.1, ← h.2, ih hs]

end Row

theorem BindPolicy.bindField_of_onState {f : Field U} {owner : Tag U}
    {get : ∀ t : Tag U, U.State t → Option (Value U)}
    {set : ∀ t : Tag U, Value U → U.State t → Except (Value U) Unit × U.State t}
    (haccess : f.access = some (.onState get set)) (howner : f.owner = some owner)
    (p : BindPolicy) :
    p.bindField f = .ok (.onState owner get set) ∨ ∃ e, p.bindField f = .error e := by
  unfold bindField
  cases p.refusal? f.toMember with
  | some e => exact .inr ⟨e, rfl⟩
  | none =>
    rw [haccess, howner]
    exact .inl rfl

namespace Lineage

/-! ## Levels -/

namespace Level

/-- The own fields of the level. -/
def row : {ls : Layout U} → {T : Lineage U ls} → (level : T.Level) → Record U ls →
    Row U level.struct.shape.fields
  | _, _, self _ _, r => r.1
  | _, _, parent _ level, r => level.row r.2

/-- The whole with other own fields of the level. -/
def putRow : {ls : Layout U} → {T : Lineage U ls} → (level : T.Level) → Record U ls →
    Row U level.struct.shape.fields → Record U ls
  | _, _, self _ _, r, row => (row, r.2)
  | _, _, parent _ level, r, row => (r.1, level.putRow r.2 row)

variable {ls : Layout U} {T : Lineage U ls}

theorem row_eq (level : T.Level) (r : Record U ls) : level.row r = (level.state r).1 := by
  induction level with
  | self c parents => rfl
  | parent c level ih => exact ih r.2

theorem putRow_eq (level : T.Level) (r : Record U ls) (row : Row U level.struct.shape.fields) :
    level.putRow r row = level.put r (row, (level.state r).2) := by
  induction level with
  | self c parents => rfl
  | parent c level ih => exact congrArg (r.1, ·) (ih r.2 row)

theorem put_state (level : T.Level) (r : Record U ls) : level.put r (level.state r) = r := by
  induction level with
  | self c parents => rfl
  | parent c level ih => exact congrArg (r.1, ·) (ih r.2)

theorem row_putRow (level : T.Level) (r : Record U ls) (row : Row U level.struct.shape.fields) :
    level.row (level.putRow r row) = row := by
  induction level with
  | self c parents => rfl
  | parent c level ih => exact ih r.2 row

theorem putRow_row (level : T.Level) (r : Record U ls) : level.putRow r (level.row r) = r := by
  induction level with
  | self c parents => rfl
  | parent c level ih => exact congrArg (r.1, ·) (ih r.2)

theorem putRow_putRow (level : T.Level) (r : Record U ls)
    (row row' : Row U level.struct.shape.fields) :
    level.putRow (level.putRow r row) row' = level.putRow r row' := by
  induction level with
  | self c parents => rfl
  | parent c level ih => exact congrArg (r.1, ·) (ih r.2 row row')

/-- **Other own fields of a level leave those of the other levels as they are.** -/
theorem row_putRow_of_ne {level level' : T.Level} (h : level' ≠ level) (r : Record U ls)
    (row : Row U level.struct.shape.fields) :
    level'.row (level.putRow r row) = level'.row r := by
  induction level with
  | self c parents =>
    cases level' with
    | self => exact absurd rfl h
    | parent => rfl
  | parent c level ih =>
    cases level' with
    | self => rfl
    | parent _ level' => exact ih (fun heq => h (congrArg (Level.parent c) heq)) r.2 row

theorem declaring_eq (level : T.Level) {f : Field U} (hf : f ∈ level.declaration.fields) :
    f.id.declaring = level.name := by
  obtain ⟨g, -, rfl⟩ := level.mem_fields_iff.mp hf
  rfl

theorem isSome_type? (level : T.Level) {f : Field U} (hf : f ∈ level.declaration.fields)
    (haccess : f.access.isSome = true) : (level.struct.shape.type? f.id.name).isSome = true := by
  obtain ⟨g, hg, rfl⟩ := level.mem_fields_iff.mp hf
  exact level.component.fields_mem g hg ((level.component.isSome_access_field g).mp haccess)

theorem reaches_of_mem (level : T.Level) {f : Field U} (hf : f ∈ level.declaration.fields)
    (haccess : f.access.isSome = true) : level.component.reaches f.id.name = true :=
  level.hasField_iff.mp (level.hasField_iff_field.mpr ⟨f, hf, rfl, haccess⟩)

end Level

/-! ## What an engine reads and writes -/

section Engine

variable {s : Shape U} {ps : Layout U} {T : Lineage U (s :: ps)}
  (hnodup : (T.decls.map TypeDecl.name).Nodup) (level : T.Level) {f : Field U}
  (hf : f ∈ level.declaration.fields) (haccess : f.access.isSome = true)

include hnodup hf haccess

theorem accessesByName_level (y : Record U (s :: ps)) : T.reflection.AccessesByName f y := by
  intro owner get set howner honState
  obtain ⟨get', set', honState', hget, hset⟩ := access_field hnodup level hf haccess y
  obtain ⟨g, hg, rfl⟩ := level.mem_fields_iff.mp hf
  obtain rfl : level.tag = owner := Option.some.inj howner
  cases honState.symm.trans honState'
  refine ⟨?_, fun v => ?_⟩
  · change T.get (some level.name) _ y = (Lineage.project level.tag y).bind (get level.tag)
    rw [hget, Lineage.project_level, Option.bind_some]
  · change T.set (some level.name) _ v y = (Lineage.projectMut level.tag y).map _
    rw [hset, Lineage.projectMut_level]
    rfl

variable {t : HandleTable U} (hslot : t.OwnsField f) (r : Record U (s :: ps)) (shared : U.Shared)

include hslot

/-- **An engine reads the own field of the level.** -/
theorem getField_level {v : Value U} (hv : (level.row r).get? f.id.name = some v) :
    (getField T.reflection f ⟨some r, shared⟩ t).1 = .ok v := by
  rw [getField_eq_readField (fun y _ => accessesByName_level hnodup level hf haccess y) hslot]
  obtain ⟨get, set, honState, -, -⟩ := access_field hnodup level hf haccess r
  have hget : T.reflection.get (some f.id.declaring) f.id.name r = some v := by
    rw [level.declaring_eq hf, ← hv, level.row_eq]
    exact get_level hnodup level (level.reaches_of_mem hf haccess) r
  simp only [readField, honState, hget]

/-- **An engine writes the own field of the level.** -/
theorem setField_level {v : Value U} {row : Row U level.struct.shape.fields}
    (hv : (level.row r).set? f.id.name v = some (.ok row)) :
    (setField T.reflection f v ⟨some r, shared⟩ t).1 =
      (.ok (), ⟨some (level.putRow r row), shared⟩) := by
  rw [setField_eq_writeField (fun y _ => accessesByName_level hnodup level hf haccess y) hslot]
  obtain ⟨get, set, honState, -, -⟩ := access_field hnodup level hf haccess r
  have hset : T.reflection.set (some f.id.declaring) f.id.name v r =
      some (.ok (), level.putRow r row) := by
    rw [level.declaring_eq hf, level.putRow_eq]
    rw [level.row_eq] at hv
    refine (set_level hnodup level (level.reaches_of_mem hf haccess) v r).trans ?_
    simp only [Component.writeOwn, hv]
  simp only [writeField, honState, hset]
  rfl

/-- **A value of another type is not written.** -/
theorem setField_level_of_error {v w : Value U}
    (hv : (level.row r).set? f.id.name v = some (.error w)) :
    (setField T.reflection f v ⟨some r, shared⟩ t).1 =
      (.error (.valueType f.id f.typeName), ⟨some r, shared⟩) := by
  rw [setField_eq_writeField (fun y _ => accessesByName_level hnodup level hf haccess y) hslot]
  obtain ⟨get, set, honState, -, -⟩ := access_field hnodup level hf haccess r
  have hset : T.reflection.set (some f.id.declaring) f.id.name v r = some (.error w, r) := by
    rw [level.declaring_eq hf]
    rw [level.row_eq] at hv
    refine (set_level hnodup level (level.reaches_of_mem hf haccess) v r).trans ?_
    simp only [Component.writeOwn, hv, level.put_state]
  simp only [writeField, honState, hset]
  rfl

end Engine

/-! ## The laws -/

variable {s : Shape U} {ps : Layout U}

/-- The laws of a field `f` of type `ty`, written under `t` and read under `t'`. A value of
another type is refused, and nothing changes. Any other is stored, and then read; it leaves all
other own fields of the level and all those of the other levels as they are. A value that is read
can be written back, and changes nothing. A value that is written replaces the one before. -/
structure ObeysLens (T : Lineage U (s :: ps)) (level : T.Level) (f : Field U) (ty : U.Ty)
    (t t' : HandleTable U) (r : Record U (s :: ps)) (shared : U.Shared) : Prop where
  refuses (v : Value U) :
    (setField T.reflection f v ⟨some r, shared⟩ t).1 =
      (.error (.valueType f.id f.typeName), ⟨some r, shared⟩) ↔ v.1 ≠ ty
  stores (v : Value U) (hv : v.1 = ty) :
    ∃ r', (setField T.reflection f v ⟨some r, shared⟩ t).1 = (.ok (), ⟨some r', shared⟩) ∧
      (getField T.reflection f ⟨some r', shared⟩ t').1 = .ok v ∧
      ∀ (level' : T.Level) (n : String), level' ≠ level ∨ n ≠ f.id.name →
        (level'.row r').get? n = (level'.row r).get? n
  restores : ∃ v, (getField T.reflection f ⟨some r, shared⟩ t').1 = .ok v ∧
    (setField T.reflection f v ⟨some r, shared⟩ t).1 = (.ok (), ⟨some r, shared⟩)
  overwrites (v w : Value U) (hw : w.1 = ty) :
    (setField T.reflection f w (setField T.reflection f v ⟨some r, shared⟩ t).1.2 t').1 =
      (setField T.reflection f w ⟨some r, shared⟩ t').1

/-- **Every own field that can be reached obeys the laws.** -/
theorem obeysLens {T : Lineage U (s :: ps)} (hnodup : (T.decls.map TypeDecl.name).Nodup)
    (level : T.Level) {f : Field U} (hf : f ∈ level.declaration.fields)
    (haccess : f.access.isSome = true) {ty : U.Ty}
    (hty : level.struct.shape.type? f.id.name = some ty) {t t' : HandleTable U}
    (hslot : t.OwnsField f) (hslot' : t'.OwnsField f) (r : Record U (s :: ps))
    (shared : U.Shared) : T.ObeysLens level f ty t t' r shared := by
  have hrefuse : ∀ {t : HandleTable U}, t.OwnsField f → ∀ v : Value U, v.1 ≠ ty →
      (setField T.reflection f v ⟨some r, shared⟩ t).1 =
        (.error (.valueType f.id f.typeName), ⟨some r, shared⟩) := fun hslot v hv =>
    setField_level_of_error hnodup level hf haccess hslot r shared (Row.set?_of_ne hty hv _)
  refine ⟨fun v => ?_, fun v hv => ?_, ?_, fun v w hw => ?_⟩
  · refine ⟨fun h hv => ?_, hrefuse hslot v⟩
    obtain ⟨row, hrow⟩ := Row.exists_set?_eq_ok hty hv (level.row r)
    rw [setField_level hnodup level hf haccess hslot r shared hrow] at h
    cases congrArg Prod.fst h
  · obtain ⟨row, hrow⟩ := Row.exists_set?_eq_ok hty hv (level.row r)
    refine ⟨level.putRow r row, setField_level hnodup level hf haccess hslot r shared hrow, ?_,
      fun level' n hother => ?_⟩
    · refine getField_level hnodup level hf haccess hslot' _ shared ?_
      rw [level.row_putRow, Row.get?_set? hrow, if_pos rfl]
    · by_cases hlevel : level' = level
      · subst hlevel
        have hn : n ≠ f.id.name := hother.resolve_left fun h => h rfl
        rw [level'.row_putRow, Row.get?_set? hrow, if_neg hn]
      · rw [Level.row_putRow_of_ne hlevel]
  · have hsome := level.component.isSome_get? (level.reaches_of_mem hf haccess) (level.state r)
    rw [← level.row_eq] at hsome
    obtain ⟨v, hv⟩ := Option.isSome_iff_exists.mp hsome
    refine ⟨v, getField_level hnodup level hf haccess hslot' r shared hv, ?_⟩
    rw [setField_level hnodup level hf haccess hslot r shared (Row.set?_get? hv), level.putRow_row]
  · by_cases hv : v.1 = ty
    · obtain ⟨row, hrow⟩ := Row.exists_set?_eq_ok hty hv (level.row r)
      obtain ⟨row', hrow'⟩ := Row.exists_set?_eq_ok hty hw (level.row r)
      have hagain : (level.row (level.putRow r row)).set? f.id.name w = some (.ok row') := by
        rw [level.row_putRow, Row.set?_set? hrow, hrow']
      rw [setField_level hnodup level hf haccess hslot r shared hrow,
        setField_level hnodup level hf haccess hslot' _ shared hagain,
        setField_level hnodup level hf haccess hslot' r shared hrow', level.putRow_putRow]
    · rw [hrefuse hslot v hv]

/-! ## Targets of any type -/

/-- Of the structs in `T`, none but that on the level has its name or its run-time type. -/
def Level.IsOnlyIn {ls ls' : Layout U} {S : Lineage U ls} (level : S.Level) (T : Lineage U ls') :
    Prop :=
  ∀ level' : T.Level, level'.name = level.name ∨ level'.tag = level.tag →
    level'.struct = level.struct

/-- The struct on the level, or what is taken for it, is found in `T` under the policy: by its
run-time type if the policy has a handle for `f`, and else by its name and that of `f`. -/
def Level.FoundIn {ls ls' : Layout U} {S : Lineage U ls} (level : S.Level) (f : Field U)
    (p : BindPolicy) (T : Lineage U ls') : Prop :=
  match p.bindField f with
  | .ok _ => ∃ level' : T.Level, level'.tag = level.tag
  | .error _ => ∃ level' : T.Level, level'.name = level.name ∧ level'.HasField f.id.name

theorem Level.IsOnlyIn.foundIn_iff {ls ls' : Layout U} {S : Lineage U ls} {level : S.Level}
    {T : Lineage U ls'} (h : level.IsOnlyIn T) {f : Field U} (hfield : level.HasField f.id.name)
    (p : BindPolicy) :
    level.FoundIn f p T ↔ ∃ level' : T.Level, level'.struct = level.struct := by
  have hsame : ∀ level' : T.Level, level'.struct = level.struct →
      level'.tag = level.tag ∧ level'.name = level.name ∧ level'.HasField f.id.name := by
    intro level' hstruct
    refine ⟨?_, ?_, ?_⟩
    · rw [Level.tag, Level.tag, Component.tag, Component.tag, hstruct]
    · rw [Level.name, Level.name, Level.component, hstruct]
    · rw [Level.HasField, Level.component, hstruct]
      exact hfield
  rw [Level.FoundIn]
  split
  · exact exists_congr fun level' => ⟨fun htag => h level' (.inr htag), fun hs => (hsame _ hs).1⟩
  · exact exists_congr fun level' => ⟨fun hn => h level' (.inl hn.1), fun hs => (hsame _ hs).2⟩

theorem Level.foundIn_congr {ls ls' : Layout U} {S : Lineage U ls} (level : S.Level) {f : Field U}
    {p q : BindPolicy} (h : (p.bindField f).isOk = (q.bindField f).isOk) (T : Lineage U ls') :
    level.FoundIn f p T ↔ level.FoundIn f q T := by
  rw [Level.FoundIn, Level.FoundIn]
  cases hp : p.bindField f <;> cases hq : q.bindField f <;> rw [hp, hq] at h <;>
    first | exact Iff.rfl | cases h

theorem Level.exists_access {ls : Layout U} {S : Lineage U ls} (level : S.Level) {f : Field U}
    (hf : f ∈ level.declaration.fields) (haccess : f.access.isSome = true) :
    ∃ get set, f.access = some (.onState get set) ∧ f.owner = some level.tag ∧
      ∀ x : U.State level.tag, get level.tag x ≠ none := by
  have hreaches := level.reaches_of_mem hf haccess
  obtain ⟨g, -, rfl⟩ := level.mem_fields_iff.mp hf
  obtain ⟨get, set, honState, hget, -⟩ := level.component.access_onState g
  refine ⟨get, set, ?_, rfl, fun x => ?_⟩
  · rw [Component.field, if_pos ((level.component.isSome_access_field g).mp haccess), honState]
  · have hsome := level.component.isSome_get? hreaches x
    exact Option.isSome_iff_ne_none.mp ((congrArg Option.isSome (hget x)).trans hsome)

theorem writeResult_ne_notApplicable (f : Field U) (e : Except (Value U) Unit) (target : String) :
    writeResult f e ≠ .error (.notApplicable f.id target) := by
  cases e <;> simp [writeResult, Except.mapError]

section Applicable

variable {ls : Layout U} {S : Lineage U ls} (level : S.Level) {f : Field U}
  (hf : f ∈ level.declaration.fields) (haccess : f.access.isSome = true)
  {T : Lineage U (s :: ps)} (hnodup : (T.decls.map TypeDecl.name).Nodup) {t : HandleTable U}
  (hslot : t.OwnsField f) (r : Record U (s :: ps)) (shared : U.Shared)

include hf haccess hnodup hslot

/-- **A field is read on any struct in which its own is found.** -/
theorem getField_eq_notApplicable_iff :
    (getField T.reflection f ⟨some r, shared⟩ t).1 = .error (.notApplicable f.id T.declare.name) ↔
      ¬ level.FoundIn f t.policy T := by
  obtain ⟨get, set, honState, howner, hget⟩ := level.exists_access hf haccess
  change readField T.reflection f (HandleTable.requestField f t).1 _ = _ ↔ _
  rw [hslot.request, Level.FoundIn]
  rcases BindPolicy.bindField_of_onState honState howner t.policy with hok | ⟨e, he⟩
  · have hproject : T.reflection.project level.tag r = none ↔ _ := T.project_eq_none_iff level.tag r
    rw [hok, not_exists, ← hproject]
    simp only [readField]
    cases T.reflection.project level.tag r with
    | none => exact iff_of_true rfl rfl
    | some x =>
      obtain ⟨v, hv⟩ := Option.ne_none_iff_exists'.mp (hget x)
      simp [hv]
  · have hnone : T.reflection.get (some level.name) f.id.name r = none ↔ _ :=
      get_eq_none_iff hnodup level.name f.id.name r
    rw [he, not_exists]
    simp only [not_and, ← hnone, readField, honState, level.declaring_eq hf]
    cases T.reflection.get (some level.name) f.id.name r with
    | none => exact iff_of_true rfl rfl
    | some v => simp

/-- **A field is written on any struct in which its own is found.** -/
theorem setField_eq_notApplicable_iff (v : Value U) :
    (setField T.reflection f v ⟨some r, shared⟩ t).1.1 =
        .error (.notApplicable f.id T.declare.name) ↔
      ¬ level.FoundIn f t.policy T := by
  obtain ⟨get, set, honState, howner, -⟩ := level.exists_access hf haccess
  change (writeField T.reflection f (HandleTable.requestField f t).1 v _).1 = _ ↔ _
  rw [hslot.request, Level.FoundIn]
  rcases BindPolicy.bindField_of_onState honState howner t.policy with hok | ⟨e, he⟩
  · have hproject : T.reflection.projectMut level.tag r = none ↔ _ :=
      T.projectMut_eq_none_iff level.tag r
    rw [hok, not_exists, ← hproject]
    simp only [writeField]
    rcases T.reflection.projectMut level.tag r with _ | ⟨x, put⟩
    · exact iff_of_true rfl rfl
    · simp [writeResult_ne_notApplicable]
  · have hnone : T.reflection.set (some level.name) f.id.name v r = none ↔ _ :=
      set_eq_none_iff hnodup level.name f.id.name v r
    rw [he, not_exists]
    simp only [not_and, ← hnone, writeField, honState, level.declaring_eq hf]
    rcases T.reflection.set (some level.name) f.id.name v r with _ | ⟨e, y⟩
    · exact iff_of_true rfl rfl
    · simp [writeResult_ne_notApplicable]

end Applicable

/-- A read of `f` under `t` and a write under `t'` are applicable to the same states of a struct. -/
def AppliesAlike (T : Lineage U (s :: ps)) (f : Field U) (t t' : HandleTable U) : Prop :=
  ∀ (r : Record U (s :: ps)) (shared : U.Shared) (v : Value U),
    (getField T.reflection f ⟨some r, shared⟩ t).1 = .error (.notApplicable f.id T.declare.name) ↔
      (setField T.reflection f v ⟨some r, shared⟩ t').1.1 =
        .error (.notApplicable f.id T.declare.name)

/-- **Marked fields obey the laws of a lens**, on every level of a struct whose levels have
different names, in every state and whichever policies are mixed. And on any such struct, whether
the field is one of its own or not, a read and a write are each applicable exactly if the struct of
the field is found there. So both are, or both are not, if both policies have a handle for the field
or both have none, and in any case where no other struct goes by the name of the field's own. -/
theorem fieldLaws {T : Lineage U (s :: ps)} (hnodup : (T.decls.map TypeDecl.name).Nodup)
    (level : T.Level) {f : Field U} (hf : f ∈ level.declaration.fields) (hmarked : f.markers ≠ []) :
    ∃ ty, level.struct.shape.type? f.id.name = some ty ∧
      ∀ t t' : HandleTable U, t.OwnsField f → t'.OwnsField f →
        (∀ r shared, T.ObeysLens level f ty t t' r shared) ∧
        ∀ {s' : Shape U} {ps' : Layout U} (T' : Lineage U (s' :: ps')),
          (T'.decls.map TypeDecl.name).Nodup →
            (∀ (r : Record U (s' :: ps')) (shared : U.Shared) (v : Value U),
              ((getField T'.reflection f ⟨some r, shared⟩ t).1 =
                  .error (.notApplicable f.id T'.declare.name) ↔
                ¬ level.FoundIn f t.policy T') ∧
              ((setField T'.reflection f v ⟨some r, shared⟩ t').1.1 =
                  .error (.notApplicable f.id T'.declare.name) ↔
                ¬ level.FoundIn f t'.policy T')) ∧
            ((t.policy.bindField f).isOk = (t'.policy.bindField f).isOk ∨ level.IsOnlyIn T' →
              T'.AppliesAlike f t t') := by
  have haccess : f.access.isSome = true := by
    obtain ⟨g, -, rfl⟩ := level.mem_fields_iff.mp hf
    exact (level.component.isSome_access_field g).mpr (DescribedField.isAccessible_iff.mpr hmarked)
  obtain ⟨ty, hty⟩ := Option.isSome_iff_exists.mp (level.isSome_type? hf haccess)
  refine ⟨ty, hty, fun t t' hslot hslot' => ?_⟩
  refine ⟨obeysLens hnodup level hf haccess hty hslot hslot', fun T' hnodup' => ?_⟩
  have hget := getField_eq_notApplicable_iff level hf haccess hnodup' hslot
  have hset := setField_eq_notApplicable_iff level hf haccess hnodup' hslot'
  refine ⟨fun r shared v => ⟨hget r shared, hset r shared v⟩, fun hsame r shared v => ?_⟩
  rw [hget, hset]
  rcases hsame with hpolicy | honly
  · rw [level.foundIn_congr hpolicy]
  · have hfield := level.hasField_iff.mpr (level.reaches_of_mem hf haccess)
    rw [honly.foundIn_iff hfield, honly.foundIn_iff hfield]

namespace Sample

open ComponentHooks.Sample

/-- The level of the base in a leaf. Between the two is an override, which has a field of the same
name. -/
def baseInLeaf : (Species.leaf.lineage "zoo").Level := .parent _ (.parent _ (.self _ .nil))

/-- The field of the base that has a name on two levels. -/
def nameInBase : Field world := (baseComponent "zoo").field
  { name := "name", typeText := "String"
    markers := [{ kind := .configuration, value := some "service.name" }] }

/-- A leaf in its first state is written by a handle and read by name; and on a socket the field
is not applicable, neither way. -/
theorem fieldLaws_leaf :
    ∃ ty, baseInLeaf.struct.shape.type? nameInBase.id.name = some ty ∧
      (Species.leaf.lineage "zoo").ObeysLens baseInLeaf nameInBase ty { policy := .all }
        { policy := .disabled } Species.leaf.start {} ∧
      (Species.socket.lineage "zoo").AppliesAlike nameInBase { policy := .all }
        { policy := .disabled } := by
  obtain ⟨ty, hty, hlaws⟩ := fieldLaws (T := Species.leaf.lineage "zoo") (by decide) baseInLeaf
    (f := nameInBase) (.head _) (by decide)
  obtain ⟨hobeys, halike⟩ := hlaws { policy := .all } { policy := .disabled } nofun nofun
  refine ⟨ty, hty, hobeys _ _, (halike (Species.socket.lineage "zoo") (by decide)).2 (.inr ?_)⟩
  rintro (_ | ⟨_, level⟩) h
  · exact absurd h (by decide)
  · cases level

/-- Another struct that goes by the name of the base, and has a field of the same name. -/
def namesake : Lineage world [⟨"Other", [("name", .string)]⟩] :=
  .cons
    { link := .plain
      path := "zoo::Other"
      typeName := "zoo::Base"
      fields := [{ name := "name", typeText := "String", markers := [{ kind := .configuration }] }] }
    .nil

/-- By its run-time type it is not taken for the base, so the field is not applicable for a policy
that has a handle for it; by its name it is. -/
theorem not_forall_alike :
    ¬ ∀ {s : Shape world} {ps : Layout world} {T : Lineage world (s :: ps)},
      (T.decls.map TypeDecl.name).Nodup → ∀ (level : T.Level) {f : Field world},
        f ∈ level.declaration.fields → f.markers ≠ [] →
          ∀ t t' : HandleTable world, t.OwnsField f → t'.OwnsField f →
            ∀ {s' : Shape world} {ps' : Layout world} (T' : Lineage world (s' :: ps')),
              (T'.decls.map TypeDecl.name).Nodup → T'.AppliesAlike f t t' := by
  intro h
  have halike := h (T := Species.leaf.lineage "zoo") (by decide) baseInLeaf
    (f := nameInBase) (.head _) (by decide) { policy := .all } { policy := .disabled } nofun nofun
    namesake (by decide)
  have hset := (halike (("", ()), ()) {} ⟨.string, "x"⟩).mp rfl
  cases hset

end Sample

end Lineage

end ComponentHooks
