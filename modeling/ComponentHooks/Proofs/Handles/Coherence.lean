import ComponentHooks.Proofs.Handles.History
import ComponentHooks.Sample.Hierarchies

/-!
# Whose handle a member is used with

A slot belongs to an identity and is made once, so a member is used with the handle of the first
member that was ever requested under its identity. Where that is another one, the engine runs the
body of a declaration that may be long gone.

* `HandleTable.Coherent`: every member of the metadata has a slot of its own making;
* `HandleTable.UsesMethod`, `HandleTable.UsesField`: a member is used as another one was bound;
* **`World.uses_of_lookup`**: whose handle the members of metadata are used with.
-/

namespace ComponentHooks

variable {U : Universe} {τ : Type}

namespace HandleTable

variable (R : Reflection U τ) (t : HandleTable U)

/-- Every member of the metadata has the slot that the verdict on itself makes. -/
def Coherent (t : HandleTable U) (m : Metadata U) : Prop :=
  ∀ k, (∀ x ∈ m.methods k, t.methods.find? x.id = some (t.policy.bindMethod x)) ∧
    ∀ x ∈ m.fields k, t.fields.find? x.id = some (t.policy.bindField x)

/-- The slot of the method `x` is the verdict on `y`, which has the same identity, and invocations
of `x` go by it. -/
structure UsesMethod (x y : Method U) : Prop where
  id_eq : y.id = x.id
  slot : t.methods.find? x.id = some (t.policy.bindMethod y)
  invoke : ∀ s : Scene U τ, (invoke R x s t).1 = runMethod R x (t.policy.bindMethod y) s

/-- The slot of the field `x` is the verdict on `y`, which has the same identity, and reads and
writes of `x` go by it. -/
structure UsesField (x y : Field U) : Prop where
  id_eq : y.id = x.id
  slot : t.fields.find? x.id = some (t.policy.bindField y)
  get : ∀ s : Scene U τ, (getField R x s t).1 = readField R x (t.policy.bindField y) s
  set : ∀ (v : Value U) (s : Scene U τ),
    (setField R x v s t).1 = writeField R x (t.policy.bindField y) v s

variable {R} {t} {rs : List (Request U)} {p : BindPolicy}

theorem usesMethod_serveAll {x : Method U} (hx : .method x ∈ rs) :
    ∃ y, firstMethod? rs x.id = some y ∧ UsesMethod R (serveAll { policy := p } rs) x y := by
  have hmem : x ∈ rs.filterMap Request.method? := List.mem_filterMap.mpr ⟨_, hx, rfl⟩
  obtain ⟨y, hy⟩ : ∃ y, firstMethod? rs x.id = some y := by
    rw [← Option.isSome_iff_exists, firstMethod?, List.find?_isSome]
    exact ⟨x, hmem, by simp⟩
  have hslot : (serveAll { policy := p } rs).methods.find? x.id = some (p.bindMethod y) := by
    rw [findMethod_serveAll, hy]
    rfl
  refine ⟨y, hy, (mem_of_firstMethod? hy).2, ?_, fun s => ?_⟩
  · rw [hslot, policy_serveAll]
  · have hrequest := requestMethod_fst (serveAll { policy := p } rs) x
    rw [hslot, Option.getD_some] at hrequest
    rw [policy_serveAll, ← hrequest]
    rfl

theorem usesField_serveAll {x : Field U} (hx : .field x ∈ rs) :
    ∃ y, firstField? rs x.id = some y ∧ UsesField R (serveAll { policy := p } rs) x y := by
  have hmem : x ∈ rs.filterMap Request.field? := List.mem_filterMap.mpr ⟨_, hx, rfl⟩
  obtain ⟨y, hy⟩ : ∃ y, firstField? rs x.id = some y := by
    rw [← Option.isSome_iff_exists, firstField?, List.find?_isSome]
    exact ⟨x, hmem, by simp⟩
  have hslot : (serveAll { policy := p } rs).fields.find? x.id = some (p.bindField y) := by
    rw [findField_serveAll, hy]
    rfl
  have hrequest := requestField_fst (serveAll { policy := p } rs) x
  rw [hslot, Option.getD_some] at hrequest
  refine ⟨y, hy, (mem_of_firstField? hy).2, ?_, fun s => ?_, fun v s => ?_⟩
  · rw [hslot, policy_serveAll]
  · rw [policy_serveAll, ← hrequest]
    rfl
  · rw [policy_serveAll, ← hrequest]
    rfl

end HandleTable

namespace World

variable {loaderOf : Registry U → FiniteLoader U} {R : Reflection U τ} {s : Settings}
  {journal : List (Request U)} {w : World U}

/-- **Whose handle the members of metadata are used with.** In every world that comes about, the
members of the metadata that a lookup answers with have slots, and each is used as the first member
of its identity in the journal was bound under the engine's policy. That is the member itself if no
other of its identity is in the journal. -/
theorem uses_of_lookup (h : Reached loaderOf R s journal w) (q : Lookup U) {entry : Entry U}
    (hq : (q.run (w.loader loaderOf) w.engine).1 = .ok entry) :
    let rs := journal ++ w.requests loaderOf R (.lookup q)
    let t := (w.step loaderOf R (.lookup q)).engine.handles
    t.policy = s.bindPolicy ∧ ∀ k,
      (∀ x ∈ entry.metadata.methods k, ∃ y, firstMethod? rs x.id = some y ∧ t.UsesMethod R x y ∧
        ((∀ z, .method z ∈ rs → z.id = x.id → z = x) → y = x)) ∧
      ∀ x ∈ entry.metadata.fields k, ∃ y, firstField? rs x.id = some y ∧ t.UsesField R x y ∧
        ((∀ z, .field z ∈ rs → z.id = x.id → z = x) → y = x) := by
  intro rs t
  have ht : t = HandleTable.serveAll { policy := s.bindPolicy } rs := (h.step (.lookup q)).handles
  have hwithin : entry.metadata.Within rs := q.within_run _ h.within hq
  rw [ht]
  refine ⟨HandleTable.policy_serveAll _ _, fun k => ⟨fun x hx => ?_, fun x hx => ?_⟩⟩
  · obtain ⟨y, hy, huses⟩ := HandleTable.usesMethod_serveAll (hwithin.methods k x hx)
    obtain ⟨hmem, hid⟩ := mem_of_firstMethod? hy
    exact ⟨y, hy, huses, fun hunique => hunique y hmem hid⟩
  · obtain ⟨y, hy, huses⟩ := HandleTable.usesField_serveAll (hwithin.fields k x hx)
    obtain ⟨hmem, hid⟩ := mem_of_firstField? hy
    exact ⟨y, hy, huses, fun hunique => hunique y hmem hid⟩

end World

/-! ## Two declarations of one identity -/

namespace Sample.Task

open World

/-- A hook that runs a script on the cells. -/
def start (script : CellScript) (k : Kind) : Method world :=
  { id := ⟨"Task", "start", "()"⟩, markers := [{ kind := k }], body := some script.body }

/-- A type with one hook. -/
def task (script : CellScript) : TypeDecl world :=
  .declare "Task" .concrete none [] [] [start script .warmUp]

def loaderOf : Registry world → FiniteLoader world := LoaderScript.loader {} "zoo"

def reflection : Reflection world Instance := Instance.reflection "zoo"

/-- An engine of the default settings, and no types. -/
def dawn : World world where
  registry := .empty
  engine := { settings := {}, cache := { capacity := 65536, handles := { policy := .all } } }

theorem reached_dawn : Reached loaderOf reflection {} [] dawn :=
  Reached.start (fun _ => true) rfl

/-- The type was looked up, registered again with another body, and its metadata forgotten. -/
def again : World world :=
  [.lookup (.type (task .tick)), .register (task .fail), .invalidate "Task"].foldl
    (step loaderOf reflection) (dawn.step loaderOf reflection (.register (task .tick)))

theorem reached_again : Reached loaderOf reflection {} [.method (start .tick .warmUp)] again :=
  (((reached_dawn.step (.register (task .tick))).step (.lookup (.type (task .tick)))).step
    (.register (task .fail))).step (.invalidate "Task")

/-- The body that runs after the type was registered again is the one that was looked up first. -/
theorem uses_of_lookup_again :
    ∃ entry, ((Lookup.type (task .fail)).run (again.loader loaderOf) again.engine).1 = .ok entry ∧
      ∃ x ∈ entry.metadata.methods .warmUp, x.body = some CellScript.fail.body ∧
        ∃ y, y.body = some CellScript.tick.body ∧
          (again.step loaderOf reflection (.lookup (.type (task .fail)))).engine.handles.UsesMethod
            reflection x y := by
  obtain ⟨-, h⟩ := uses_of_lookup reached_again (.type (task .fail)) rfl
  obtain ⟨y, hy, huses, -⟩ := (h .warmUp).1 (start .fail .warmUp) (.head _)
  cases hy
  exact ⟨_, rfl, _, .head _, rfl, _, rfl, huses⟩

theorem bindMethod_start_ne (j k : Kind) :
    BindPolicy.all.bindMethod (start .tick j) ≠ BindPolicy.all.bindMethod (start .fail k) := by
  intro h
  have hrun : CellScript.tick.run = CellScript.fail.run := by
    injection h with h
    injection h
  have houtcome := congrArg Prod.fst (congrFun hrun {})
  cases houtcome

/-- So a table need not be coherent with the metadata of a type that was registered again. -/
theorem not_forall_coherent :
    ¬ ∀ (journal : List (Request world)) (w : World world),
      Reached loaderOf reflection {} journal w → ∀ (q : Lookup world) (entry : Entry world),
        (q.run (w.loader loaderOf) w.engine).1 = .ok entry →
          (w.step loaderOf reflection (.lookup q)).engine.handles.Coherent entry.metadata := by
  intro h
  have hcoherent := h _ again reached_again (.type (task .fail)) _ rfl
  have hslot := (hcoherent .warmUp).1 (start .fail .warmUp) (.head _)
  exact bindMethod_start_ne .warmUp .warmUp (Option.some.inj hslot)

end Sample.Task

end ComponentHooks
