import ComponentHooks.Proofs.Invocation.ByName
import ComponentHooks.Proofs.Lineage.Hooks

/-!
# Reaching the hooks of ancestors

A struct reaches every hook of its ancestors in two ways, by name and on the embedded state, and
both run it as it is to run on the whole.

* **`Lineage.invoke_of_mem`**, **`Lineage.projectMut_of_mem`**: the hook by name, and on the state
  of the struct that declares it;
* **`Lineage.runsByName`**: so a struct answers by name as the body does;
* `InheritedHook.runEach`: hooks one after the other, up to the first that fails;
* **`Lineage.runEachByName_eq`**: methods run by name do what their hooks do.
-/

namespace ComponentHooks

variable {U : Universe}

/-! ## By name -/

theorem Component.body_onSelf {s : Shape U} {ps : Layout U} (c : Component U s ps)
    (f : Record U (s :: ps) → U.Shared → Outcome × Record U (s :: ps) × U.Shared) :
    ∃ run, c.body (.onSelf f) = .onState run ∧ ∀ r shared, run c.tag r shared = f r shared := by
  refine ⟨_, rfl, fun r shared => ?_⟩
  simp only [Tag.change?_self]
  rfl

theorem Component.dispatch_of_mem {s : Shape U} {ps : Layout U} (c : Component U s ps)
    {h : Hook U (s :: ps)} (hh : h ∈ c.table) {f : Record U (s :: ps) → U.Shared → _}
    (hbody : h.body = .onSelf f) (r : Record U (s :: ps)) (shared : U.Shared) :
    c.dispatch h.name r shared = some (f r shared) := by
  obtain ⟨as, bs, htable⟩ := List.append_of_mem hh
  have hnodup := c.nodup_table
  rw [htable, List.map_append, List.map_cons, List.nodup_middle, List.nodup_cons] at hnodup
  rw [dispatch, List.findSome?_eq_some_iff]
  refine ⟨as, h, bs, htable, by simp [hbody], fun g hg => ?_⟩
  -- No hook in front has the name, so all of them are passed over.
  have hne : g.name ≠ h.name := fun hname =>
    hnodup.1 (List.mem_append_left _ (List.mem_map.mpr ⟨g, hg, hname⟩))
  split
  · rw [if_neg hne]
  · rfl

namespace Lineage

variable {ls : Layout U}

theorem declaring_mem (T : Lineage U ls) :
    ∀ h ∈ T.inherited, h.method.id.declaring ∈ T.decls.map TypeDecl.name := by
  induction T with
  | nil =>
    intro h hh
    cases hh
  | cons c parents ih =>
    intro h hh
    rw [decls, List.map_cons]
    rcases mem_inherited_cons.mp hh with ⟨g, -, rfl⟩ | ⟨g, hg, rfl⟩
    · exact List.mem_cons_self
    · exact List.mem_cons_of_mem _ (ih g hg)

theorem nodup_ids (T : Lineage U ls) (hnodup : (T.decls.map TypeDecl.name).Nodup) :
    (T.inherited.map InheritedHook.id).Nodup := by
  induction T with
  | nil => exact List.nodup_nil
  | @cons s ps c parents ih =>
    rw [decls, List.map_cons, List.nodup_cons] at hnodup
    have hparents : (parents.inherited.map (·.embedded s)).map InheritedHook.id =
        parents.inherited.map InheritedHook.id := List.map_map
    have hown : (((c.table.map c.ownHook).map InheritedHook.id).map MemberId.name).Nodup := by
      rw [List.map_map, List.map_map]
      exact c.nodup_table
    rw [inherited, List.map_append, hparents, List.nodup_append]
    refine ⟨hown.of_map, ih hnodup.2, fun a ha b hb hab => hnodup.1 ?_⟩
    -- An own hook and one of an ancestor name different declaring structs.
    rw [List.map_map, List.mem_map] at ha
    obtain ⟨g, -, rfl⟩ := ha
    obtain ⟨h, hh, rfl⟩ := List.mem_map.mp hb
    have hdeclaring : h.method.id.declaring = c.typeName := congrArg MemberId.declaring hab.symm
    have hmem := parents.declaring_mem h hh
    rwa [hdeclaring] at hmem

/-- **The name of an inherited hook, with that of the struct that declares it, runs this hook.** -/
theorem invoke_of_mem (T : Lineage U ls) (hnodup : (T.decls.map TypeDecl.name).Nodup)
    {h : InheritedHook U ls} (hh : h ∈ T.inherited) {f : Record U ls → U.Shared → _}
    (hbody : h.hook.body = .onSelf f) (r : Record U ls) (shared : U.Shared) :
    T.invoke (some h.method.id.declaring) h.method.id.name r shared = some (f r shared) := by
  induction T with
  | nil => cases hh
  | cons c parents ih =>
    rw [decls, List.map_cons, List.nodup_cons] at hnodup
    rcases mem_inherited_cons.mp hh with ⟨g, hg, rfl⟩ | ⟨g, hg, rfl⟩
    · have hown : c.answersFor (some (c.ownHook g).method.id.declaring) = true := by
        simp [Component.answersFor, Component.ownHook, Component.method]
      have hdispatch : c.dispatch (c.ownHook g).method.id.name r shared = some (f r shared) :=
        c.dispatch_of_mem hg hbody r shared
      rw [invoke, if_pos hown, hdispatch]
    · -- The struct does not answer for the name of another one, so it asks its parent.
      have hforeign : c.answersFor (some g.method.id.declaring) ≠ true := by
        intro hanswers
        have hname : g.method.id.declaring = c.typeName := by
          simpa [Component.answersFor] using hanswers
        have hmem := parents.declaring_mem g hg
        rw [hname] at hmem
        exact hnodup.1 hmem
      rw [InheritedHook.body_embedded] at hbody
      cases hg' : g.hook.body with
      | onShared f' =>
        rw [hg'] at hbody
        cases hbody
      | onSelf f' =>
        rw [hg'] at hbody
        cases hbody
        rw [invoke, InheritedHook.method_embedded, if_neg hforeign, ih hnodup.2 hg hg' r.2]
        rfl

/-! ## On the embedded state -/

theorem owner_of_mem (T : Lineage U ls) :
    ∀ h ∈ T.inherited, ∃ levels, h.method.owner = some (.struct levels) ∧ levels <:+ ls := by
  induction T with
  | nil =>
    intro h hh
    cases hh
  | cons c parents ih =>
    intro h hh
    rcases mem_inherited_cons.mp hh with ⟨g, -, rfl⟩ | ⟨g, hg, rfl⟩
    · exact ⟨_, rfl, List.suffix_refl _⟩
    · obtain ⟨levels, howner, hsuffix⟩ := ih g hg
      exact ⟨levels, howner, hsuffix.trans (List.suffix_cons _ _)⟩

/-- **The body of an inherited hook on the state of its owner does what the hook does.** -/
theorem projectMut_of_mem (T : Lineage U ls) {h : InheritedHook U ls} (hh : h ∈ T.inherited)
    {owner : Tag U} {run : ∀ t : Tag U, U.State t → U.Shared → Outcome × U.State t × U.Shared}
    (howner : h.method.owner = some owner) (hbody : h.method.body = some (.onState run))
    (r : Record U ls) (shared : U.Shared) :
    (projectMut owner r).map (fun (state, put) =>
      let (o, state, shared) := run owner state shared
      (o, put state, shared)) = some (h.hook.body.run r shared) := by
  induction T with
  | nil => cases hh
  | @cons s ps c parents ih =>
    rcases mem_inherited_cons.mp hh with ⟨g, -, rfl⟩ | ⟨g, hg, rfl⟩
    · cases howner
      cases hg : g.body with
      | onShared f =>
        rw [(c.ownHook g).onShared f hg] at hbody
        cases hbody
      | onSelf f =>
        obtain ⟨run', hown, hrun⟩ := c.body_onSelf f
        have hmethod : (c.ownHook g).method.body = some (.onState run') := by
          rw [← hown, ← hg]
          rfl
        rw [hmethod] at hbody
        cases hbody
        have hhook : (c.ownHook g).hook.body = .onSelf f := hg
        rw [projectMut, dif_pos rfl, hhook, HookBody.run, ← hrun]
        rfl
    · obtain ⟨levels, hlevels, hsuffix⟩ := parents.owner_of_mem g hg
      -- The owner has fewer levels than the whole struct, so it is not the struct itself.
      have hne : Tag.struct (s :: ps) ≠ owner := by
        rintro rfl
        rw [show g.method.owner = some (Tag.struct (s :: ps)) from howner] at hlevels
        cases hlevels
        exact Nat.not_succ_le_self _ hsuffix.length_le
      have hparent := ih hg howner hbody r.2
      rw [projectMut, dif_neg hne, Option.map_map]
      obtain ⟨⟨state, put⟩, hproject, hput⟩ := Option.map_eq_some_iff.mp hparent
      rw [hproject, Option.map_some, InheritedHook.body_embedded, HookBody.run_embedded, ← hput]
      rfl

end Lineage

/-! ## Runs -/

namespace InheritedHook

variable {ls : Layout U}

/-- What a failure of the hook is put down to, on a target of this type name. -/
def label (h : InheritedHook U ls) (typeName : String) : String :=
  if h.hook.body.isStatic then staticTarget else typeName

/-- The error of an invocation in which the hook failed, on a target of this type name. -/
def thrown (typeName : String) (x : InheritedHook U ls × Failure) : InvokeError :=
  .targetThrew x.1.id (x.1.label typeName) x.2

/-- Runs hooks in order, up to the first that fails. -/
def runEach : List (InheritedHook U ls) → Record U ls → U.Shared →
    Except (InheritedHook U ls × Failure) Unit × Record U ls × U.Shared
  | [], r, shared => (.ok (), r, shared)
  | h :: hs, r, shared =>
    match h.hook.body.run r shared with
    | (.ok (), r, shared) => runEach hs r shared
    | (.error f, r, shared) => (.error (h, f), r, shared)

end InheritedHook

namespace Lineage

variable {s : Shape U} {ps : Layout U} (T : Lineage U (s :: ps))
  (hnodup : (T.decls.map TypeDecl.name).Nodup) {h : InheritedHook U (s :: ps)}
  (hh : h ∈ T.inherited)

include hnodup hh

/-- **A struct answers for its hooks by name as their bodies do.** -/
theorem runsByName (r : Record U (s :: ps)) : T.reflection.RunsByName h.method r := by
  intro owner run howner hbody shared
  cases hhook : h.hook.body with
  | onShared f =>
    rw [h.onShared f hhook] at hbody
    cases hbody
  | onSelf f =>
    change T.invoke _ _ r shared = (projectMut owner r).map _
    rw [T.invoke_of_mem hnodup hh hhook, T.projectMut_of_mem hh howner hbody, hhook, HookBody.run]

theorem runByName_eq (r : Record U (s :: ps)) (shared : U.Shared) :
    runByName T.reflection h.method ⟨some r, shared⟩ =
      let (o, r, shared) := h.hook.body.run r shared
      (o.mapError fun f => InheritedHook.thrown T.declare.name (h, f), ⟨some r, shared⟩) := by
  unfold runByName runMethod
  cases hhook : h.hook.body with
  | onShared f =>
    have hlabel : h.label T.declare.name = staticTarget := by
      rw [InheritedHook.label, hhook]
      rfl
    simp only [h.onShared f hhook, InheritedHook.thrown, hlabel]
    rfl
  | onSelf f =>
    obtain ⟨run, hbody⟩ := h.onSelf f hhook
    have habstract : h.method.isAbstract = false := by
      rw [Method.isAbstract, hbody]
      rfl
    have hlabel : h.label T.declare.name = T.declare.name := by
      rw [InheritedHook.label, hhook]
      rfl
    have hinvoke : T.reflection.invoke (some h.method.id.declaring) h.method.id.name r shared =
        some (f r shared) := T.invoke_of_mem hnodup hh hhook r shared
    simp only [hbody, habstract, Bool.false_eq_true, if_false, hinvoke, InheritedHook.thrown,
      hlabel]
    rfl

omit hh in
/-- **Methods that are run by name do what their hooks do.** -/
theorem runEachByName_eq (hs : List (InheritedHook U (s :: ps))) (hmem : hs ⊆ T.inherited)
    (r : Record U (s :: ps)) (shared : U.Shared) :
    runEachByName T.reflection (hs.map (·.method)) ⟨some r, shared⟩ =
      let (o, r, shared) := InheritedHook.runEach hs r shared
      (o.mapError (InheritedHook.thrown T.declare.name), ⟨some r, shared⟩) := by
  induction hs generalizing r shared with
  | nil => rfl
  | cons h hs ih =>
    obtain ⟨hh, hhs⟩ := List.cons_subset.mp hmem
    rw [List.map_cons, runEachByName, T.runByName_eq hnodup hh, InheritedHook.runEach]
    rcases h.hook.body.run r shared with ⟨_ | _, r', shared'⟩
    · rfl
    · exact ih hhs r' shared'

end Lineage

end ComponentHooks
