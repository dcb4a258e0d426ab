import ComponentHooks.Proofs.Cache.Transparency
import ComponentHooks.Proofs.Handles.Acquaintance
import ComponentHooks.Proofs.Invocation.Parity
import ComponentHooks.Proofs.Lineage.Reach

/-!
# Running the hooks of a struct with its ancestors

On an engine that has met only a struct and its ancestors, running the hooks of a kind on the struct
is running them one after the other, as they are said without an engine, whatever the policy.

* `HandleTable.ownsMethod_of_requestsIn`: slots of methods with different identities are their own;
* `Lineage.exists_entry`: the metadata of the struct is found, and has its hooks;
* **`runHooks_lineage`**: the hooks are run in order, up to the first that fails.
-/

namespace ComponentHooks

open Logged

variable {U : Universe}

theorem HandleTable.ownsMethod_of_requestsIn {ms : List (Method U)}
    (hnodup : (ms.map (·.id)).Nodup) {rs : List (Request U)} (hrs : RequestsIn ms rs)
    {x : Method U} (hx : x ∈ ms) (p : BindPolicy) :
    (serveAll { policy := p } rs).OwnsMethod x := by
  intro v hv
  rw [findMethod_serveAll] at hv
  obtain ⟨y, hy, rfl⟩ : ∃ y, firstMethod? rs x.id = some y ∧ p.bindMethod y = v :=
    Option.map_eq_some_iff.mp hv
  obtain ⟨hmem, hid⟩ := mem_of_firstMethod? hy
  rw [policy_serveAll, List.inj_on_of_nodup_map hnodup (hrs y hmem) hx hid]

namespace Lineage

variable {s : Shape U} {ps : Layout U} (c : Component U s ps) (parents : Lineage U ps)
  {loaderOf : Registry U → FiniteLoader U}
  (hnodup : ((cons c parents).decls.map TypeDecl.name).Nodup)
  (himplements : ∀ d ∈ (cons c parents).decls, d.implements = [])

include hnodup himplements

theorem outcome_declare {l : FiniteLoader U} (hlinked : (cons c parents).LinkedIn l) :
    l.outcome (c.declare parents.link?) = .ok (.ofTypes l c.typeName (cons c parents).decls) := by
  have hline := (cons c parents).isLine hlinked himplements
  have hstop := hline.walk_stop hnodup
  refine extract_eq_ok_iff.mpr ⟨hstop, ?_⟩
  rw [metadata_draft_of_walk_stop hstop, hline.preorder hnodup]
  rfl

omit hnodup himplements in
theorem linked_eq (hlinked : ∀ r, (cons c parents).LinkedIn (loaderOf r)) (w : World U) :
    (w.loader loaderOf).linked c.link = c.declare parents.link? := (hlinked w.registry).1

/-- The lookup of the struct finds metadata, be it old or new, that has the hooks of the struct. -/
theorem exists_entry (hlinked : ∀ r, (cons c parents).LinkedIn (loaderOf r)) {st : Settings}
    {w : World U} (hw : w.MetOnly loaderOf (cons c parents).decls st) :
    ∃ entry, ((Lookup.link c.link).run (w.loader loaderOf) w.engine).1 = .ok entry ∧
      ∀ k, entry.metadata.methods k = ((cons c parents).hooks k []).map (·.method) := by
  obtain ⟨past, hremembers, hpast⟩ := hw.chronicle
  have hfollows := World.followsPast_of_remembers hremembers
  rw [hfollows.link, linked_eq c parents hlinked]
  cases hstanding : standing? (c.declare parents.link?).name past with
  | some m =>
    obtain ⟨hmade, hname⟩ := made_mem_of_standing? hstanding
    obtain ⟨hdeclname, hextract⟩ := hremembers.made m hmade
    have hdecl : m.decl = c.declare parents.link? :=
      List.inj_on_of_nodup_map hnodup (hpast m hmade) List.mem_cons_self
        (hdeclname.symm.trans hname)
    have houtcome : (loaderOf m.registry).outcome (c.declare parents.link?) =
        .ok m.entry.metadata := hdecl ▸ hextract _
    rw [outcome_declare c parents hnodup himplements (hlinked m.registry)] at houtcome
    refine ⟨m.entry, by rw [hfollows.type_hit _ m hstanding], fun k => ?_⟩
    rw [← Except.ok.inj houtcome, methods_ofTypes]
  | none =>
    have houtcome := outcome_declare c parents hnodup himplements (hlinked w.registry)
    refine ⟨_, (hfollows.type_miss _ _ hstanding houtcome).1, fun k => ?_⟩
    exact methods_ofTypes _ _ _ k

theorem ownsMethod_after_lookup (hlinked : ∀ r, (cons c parents).LinkedIn (loaderOf r))
    {st : Settings} {w : World U} (hw : w.MetOnly loaderOf (cons c parents).decls st)
    {h : InheritedHook U (s :: ps)} (hh : h ∈ (cons c parents).inherited) :
    ((Lookup.link c.link).run (w.loader loaderOf) w.engine).2.1.handles.OwnsMethod h.method := by
  have hclosed : ∀ r, ∀ d ∈ (cons c parents).decls, (loaderOf r).parents d ⊆ _ := fun r =>
    ((cons c parents).isLine (hlinked r) himplements).parents_subset
  have hmeets : (w.loader loaderOf).linked c.link ∈ (cons c parents).decls := by
    rw [linked_eq c parents hlinked]
    exact List.mem_cons_self
  have hstep := hw.step (cons c parents).reflection (.lookup (.link c.link)) ⟨hmeets, trivial⟩
  obtain ⟨rs, hhandles, -, hrs⟩ := hstep.journal hclosed
  have hids := (cons c parents).nodup_ids hnodup
  rw [flatMap_methods_decls] at hrs
  change (World.step loaderOf (cons c parents).reflection w
    (.lookup (.link c.link))).engine.handles.OwnsMethod h.method
  rw [hhandles]
  refine HandleTable.ownsMethod_of_requestsIn ?_ hrs (List.mem_map_of_mem hh) _
  rwa [List.map_map]

variable (hlinked : ∀ r, (cons c parents).LinkedIn (loaderOf r)) {st : Settings} {w : World U}
  (hw : w.MetOnly loaderOf (cons c parents).decls st)

include hlinked hw

theorem runHooks_eq (k : Kind) (r : Record U (s :: ps)) (shared : U.Shared) :
    let T := cons c parents
    let hs := T.hooks k []
    let y := InheritedHook.runEach hs r shared
    (Engine.runHooks (w.loader loaderOf) T.reflection c.link k ⟨some r, shared⟩ w.engine).1 =
      ((y.1.map fun _ => hs.length).mapError fun f =>
        .invoke (InheritedHook.thrown c.typeName f), ⟨some y.2.1, y.2.2⟩) := by
  intro T hs y
  obtain ⟨entry, hentry, hmethods⟩ :=
    exists_entry c parents hnodup himplements hlinked hw
  have howns : ∀ h ∈ T.inherited,
      ((Lookup.link c.link).run (w.loader loaderOf) w.engine).2.1.handles.OwnsMethod h.method :=
    fun h => ownsMethod_after_lookup c parents hnodup himplements hlinked hw
  rcases hrun : (Lookup.link c.link).run (w.loader loaderOf) w.engine with ⟨answer, e, events⟩
  rw [hrun] at hentry howns
  obtain rfl : answer = .ok entry := hentry
  have hsub : hs ⊆ T.inherited := T.hooks_subset k
  have hids : ((hs.map (·.method)).map (·.id)).Nodup := by
    rw [List.map_map]
    exact T.nodup_ids_hooks k
  have heach : (invokeEach T.reflection (entry.metadata.methods k) ⟨some r, shared⟩ e.handles).1 =
      (y.1.mapError (InheritedHook.thrown c.typeName), ⟨some y.2.1, y.2.2⟩) := by
    rw [hmethods, invokeEach_eq_runEachByName hids, T.runEachByName_eq hnodup hs hsub]
    · rfl
    · intro x hx _ z
      obtain ⟨h, hh, rfl⟩ := List.mem_map.mp hx
      exact T.runsByName hnodup (hsub hh) z
    · intro x hx
      obtain ⟨h, hh, rfl⟩ := List.mem_map.mp hx
      exact howns h (hsub hh)
  have hlength : (entry.metadata.methods k).length = hs.length := by
    rw [hmethods, List.length_map]
  unfold Engine.runHooks
  rw [bind_apply, show Engine.metadataFor (w.loader loaderOf) c.link w.engine = _ from hrun]
  change (let z := (invokeEach T.reflection (entry.metadata.methods k) ⟨some r, shared⟩ e.handles).1
    ((z.1.map fun _ => (entry.metadata.methods k).length).mapError EngineError.invoke, z.2)) = _
  rw [heach, hlength]
  cases y.1 <;> rfl

end Lineage

/-- **The hooks of a struct and its ancestors are run in order.** On an engine of any policy that
has met only these types, which have no interfaces: the hooks of a kind, each of them once,
most-derived struct first and in source order, where a name is not taken by a more derived struct;
on the embedded state or, where static, without it; up to the first that fails. Nothing else can go
wrong. -/
theorem runHooks_lineage {loaderOf : Registry U → FiniteLoader U} {s : Shape U} {ps : Layout U}
    (c : Component U s ps) (parents : Lineage U ps)
    (hnodup : ((Lineage.cons c parents).decls.map TypeDecl.name).Nodup)
    (himplements : ∀ d ∈ (Lineage.cons c parents).decls, d.implements = [])
    (hlinked : ∀ r, (Lineage.cons c parents).LinkedIn (loaderOf r))
    {st : Settings} {w : World U} (hw : w.MetOnly loaderOf (Lineage.cons c parents).decls st)
    (k : Kind) (r : Record U (s :: ps)) (shared : U.Shared) :
    let T := Lineage.cons c parents
    let hs := T.hooks k []
    let x := (Engine.runHooks (w.loader loaderOf) T.reflection c.link k ⟨some r, shared⟩ w.engine).1
    (x = match InheritedHook.runEach hs r shared with
      | (.ok (), r, shared) => (.ok hs.length, ⟨some r, shared⟩)
      | (.error f, r, shared) =>
        (.error (.invoke (InheritedHook.thrown c.typeName f)), ⟨some r, shared⟩)) ∧
      (hs.map InheritedHook.id).Nodup ∧
      (∀ m, x.1 ≠ .error (.invoke (.missingTarget m))) ∧
      ∀ m t, x.1 ≠ .error (.invoke (.notApplicable m t)) := by
  intro T hs x
  have hx : x = _ := Lineage.runHooks_eq c parents hnodup himplements hlinked hw k r shared
  rw [hx]
  refine ⟨?_, T.nodup_ids_hooks k, ?_⟩
  · rcases InheritedHook.runEach hs r shared with ⟨_ | _, r', shared'⟩ <;> rfl
  · cases (InheritedHook.runEach hs r shared).1 <;> exact ⟨nofun, nofun⟩

namespace Sample

/-- The engine has looked up the base. -/
def acquainted : World world := Task.dawn.step Task.loaderOf Task.reflection (.lookup (.link .base))

/-- An instance that is not configured: the hook of the embedded base fails, and is put down to the
derived struct. -/
theorem runHooks_lineage_derived :
    (Engine.runHooks (acquainted.loader Task.loaderOf) (Species.derived.lineage "zoo").reflection
      .derived .postConstruct ⟨some Species.derived.start, {}⟩ acquainted.engine).1.1 =
        .error (.invoke (.targetThrew ⟨"zoo::Base", "init", "()"⟩ "zoo::Derived"
          { message := "service.name is not configured" })) := by
  have hdawn : Task.dawn.MetOnly Task.loaderOf (Species.derived.lineage "zoo").decls {} :=
    .start (fun _ => true) rfl
  have hmet := hdawn.step Task.reflection (.lookup (.link .base)) ⟨.tail _ (.head _), trivial⟩
  have hrun := (runHooks_lineage (derivedComponent "zoo") (.cons (baseComponent "zoo") .nil)
    (by decide) (by decide) (fun _ => ⟨rfl, rfl, trivial⟩) hmet .postConstruct
    Species.derived.start {}).1
  exact congrArg Prod.fst hrun

end Sample

end ComponentHooks
