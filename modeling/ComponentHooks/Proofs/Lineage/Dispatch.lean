import ComponentHooks.Proofs.Lineage.Coherence

/-!
# Methods without a body

A method without a body is run on a struct by its name alone: by the first hook of that name that
runs on the state of its level, from the struct up to its ancestors. Hooks that belong to their type
are passed over, and so are levels that do not take their hooks into their descriptions.

* `Lineage.Level.depth`, `Lineage.Level.IsNearest`: how far up a level is, and the first level that
  has a hook of a name;
* `Lineage.exists_isNearest`, **`Lineage.invoke_nearest`**, `Lineage.invoke_none_eq_none`: a struct
  runs a name by the hook of that level, if there is one;
* `runByName_of_isAbstract`, `invoke_of_isAbstract`: what an engine does with a method without a
  body;
* **`Lineage.dispatchesAbstract`**: its use on a struct, with and without a level that answers.
-/

namespace ComponentHooks

variable {U : Universe}

theorem Component.answersFor_none {s : Shape U} {ps : Layout U} (c : Component U s ps) :
    c.answersFor none = true := rfl

namespace Lineage

/-! ## The nearest level -/

namespace Level

/-- The number of levels that are more derived. -/
def depth : {ls : Layout U} → {T : Lineage U ls} → T.Level → Nat
  | _, _, self _ _ => 0
  | _, _, parent _ level => level.depth + 1

/-- The level has a hook of the name that runs on its state, and no more derived level has one. -/
structure IsNearest {ls : Layout U} {T : Lineage U ls} (level : T.Level) (n : String) : Prop where
  hasHook : level.HasHook n
  passed : ∀ other : T.Level, other.depth < level.depth → ¬ other.HasHook n

end Level

section Names

variable {ls : Layout U} {T : Lineage U ls} {n : String}

theorem exists_isNearest (h : ∃ level : T.Level, level.HasHook n) :
    ∃ level : T.Level, level.IsNearest n := by
  induction T with
  | nil =>
    obtain ⟨level, -⟩ := h
    cases level
  | cons c parents ih =>
    by_cases hself : (Level.self c parents).HasHook n
    · exact ⟨.self c parents, hself, fun other hlt => absurd hlt (Nat.not_lt_zero _)⟩
    · obtain ⟨level, hlevel⟩ := h
      cases level with
      | self => exact absurd hlevel hself
      | parent _ level =>
        obtain ⟨level, hhook, hpassed⟩ := ih ⟨level, hlevel⟩
        refine ⟨.parent c level, hhook, fun other hlt => ?_⟩
        cases other with
        | self => exact hself
        | parent _ other => exact hpassed other (Nat.lt_of_succ_lt_succ hlt)

theorem invoke_none_of_not_hasHook {s : Shape U} {ps : Layout U} {c : Component U s ps}
    {parents : Lineage U ps} (h : ¬ (Level.self c parents).HasHook n) (r : Record U (s :: ps))
    (shared : U.Shared) :
    (cons c parents).invoke none n r shared =
      (parents.invoke none n r.2 shared).map fun (o, p, shared) => (o, (r.1, p), shared) := by
  have hdispatch : c.dispatch n r shared = none := by
    refine c.dispatch_eq_none (fun x hx hname => ?_) r shared
    by_contra hstatic
    exact h ((Level.self c parents).hasHook_iff.mpr ⟨x, hx, hname, Bool.not_eq_true _ ▸ hstatic⟩)
  rw [invoke, if_pos c.answersFor_none, hdispatch]

/-- **A name alone runs the hook of the nearest level**, on the state of that level. -/
theorem invoke_nearest {level : T.Level} (hpassed : ∀ other : T.Level, other.depth < level.depth →
      ¬ other.HasHook n) {h : Hook U level.layout} (hh : h ∈ level.component.table)
    (hname : h.name = n)
    {f : Record U level.layout → U.Shared → Outcome × Record U level.layout × U.Shared}
    (hbody : h.body = .onSelf f) (r : Record U ls) (shared : U.Shared) :
    T.invoke none n r shared =
      let (o, x, shared) := f (level.state r) shared
      some (o, level.put r x, shared) := by
  induction level with
  | self c parents =>
    have hdispatch := c.dispatch_of_mem hh hbody r shared
    rw [hname] at hdispatch
    rw [invoke, if_pos c.answersFor_none, hdispatch]
    rfl
  | parent c level ih =>
    have hself := hpassed (.self c _) (Nat.succ_pos _)
    have hrec := ih (fun other hlt => hpassed (.parent c other) (Nat.succ_lt_succ hlt)) hh hname
      hbody r.2
    have hstep := invoke_none_of_not_hasHook hself r shared
    rw [hrec] at hstep
    exact hstep

theorem invoke_none_eq_none (h : ∀ level : T.Level, ¬ level.HasHook n) (r : Record U ls)
    (shared : U.Shared) : T.invoke none n r shared = none := by
  induction T with
  | nil => rfl
  | cons c parents ih =>
    rw [invoke_none_of_not_hasHook (h (.self c parents)), ih fun level => h (.parent c level)]
    rfl

end Names

end Lineage

/-! ## Their use by an engine -/

section Engine

variable {τ : Type} {R : Reflection U τ} {x : Method U}

theorem runByName_of_isAbstract (h : x.isAbstract = true) (s : Scene U τ) :
    runByName R x s =
      match s.target with
      | none => (.error (.missingTarget x.id), s)
      | some y =>
        match R.invoke none x.id.name y s.shared with
        | none => (.error (.notApplicable x.id (R.typeName y)), s)
        | some (o, y, shared) => (o.onTarget x.id (R.typeName y), ⟨some y, shared⟩) := by
  have hbody : x.body = none := Option.isNone_iff_eq_none.mp h
  obtain ⟨_ | y, shared⟩ := s
  · simp only [runByName, runMethod, hbody]
  · cases hinvoke : R.invoke none x.id.name y shared <;>
      simp only [runByName, runMethod, hbody, h, if_true, hinvoke]

theorem runsByName_of_isAbstract (h : x.isAbstract = true) (y : τ) : R.RunsByName x y := by
  intro owner run _ hbody
  rw [Method.isAbstract, hbody] at h
  cases h

theorem invoke_of_isAbstract (h : x.isAbstract = true) {t : HandleTable U} (ht : t.OwnsMethod x)
    (s : Scene U τ) : (invoke R x s t).1 = runByName R x s :=
  invoke_eq_runByName (fun y _ => runsByName_of_isAbstract h y) ht

end Engine

namespace Lineage

variable {s : Shape U} {ps : Layout U}

/-- What an engine with the handle table `t` does with a method `x` without a body on a struct. -/
structure DispatchesAbstract (T : Lineage U (s :: ps)) (x : Method U) (t : HandleTable U) :
    Prop where
  /-- Where some level has a hook of the name, one of them is the nearest. -/
  exists_nearest : (∃ level : T.Level, level.HasHook x.id.name) →
    ∃ level : T.Level, level.IsNearest x.id.name
  /-- The one hook of the nearest level is run on the state of that level, and its end is put down
  to the method. -/
  runs (level : T.Level) (hnearest : level.IsNearest x.id.name) :
    ∃ h ∈ level.component.hooks, h.name = x.id.name ∧ ∃ f, h.body = .onSelf f ∧
      ∀ r shared, (ComponentHooks.invoke T.reflection x ⟨some r, shared⟩ t).1 =
        let (o, state, shared) := f (level.state r) shared
        (o.mapError (.targetThrew x.id T.declare.name), ⟨some (level.put r state), shared⟩)
  /-- Where no level has one, nothing is run. -/
  refuses (hnone : ∀ level : T.Level, ¬ level.HasHook x.id.name) (r : Record U (s :: ps))
    (shared : U.Shared) :
    (ComponentHooks.invoke T.reflection x ⟨some r, shared⟩ t).1 =
      (.error (.notApplicable x.id T.declare.name), ⟨some r, shared⟩)
  needsTarget (shared : U.Shared) :
    (ComponentHooks.invoke T.reflection x ⟨none, shared⟩ t).1 =
      (.error (.missingTarget x.id), ⟨none, shared⟩)

/-- **A method without a body runs the hook of the nearest level that has one of its name.** -/
theorem dispatchesAbstract (T : Lineage U (s :: ps)) {x : Method U} (hx : x.isAbstract = true)
    {t : HandleTable U} (ht : t.OwnsMethod x) : T.DispatchesAbstract x t where
  exists_nearest := exists_isNearest
  runs level hnearest := by
    obtain ⟨h, hh, hname, hstatic⟩ := level.hasHook_iff.mp hnearest.hasHook
    obtain ⟨f, hbody⟩ := HookBody.exists_onSelf hstatic
    have hhooks : h ∈ level.component.hooks := by
      rw [Component.table, if_pos hnearest.hasHook.1] at hh
      exact hh
    refine ⟨h, hhooks, hname, f, hbody, fun r shared => ?_⟩
    have hinvoke : T.reflection.invoke none x.id.name r shared = _ :=
      invoke_nearest hnearest.passed hh hname hbody r shared
    rw [invoke_of_isAbstract hx ht, runByName_of_isAbstract hx]
    simp only [hinvoke]
    rfl
  refuses hnone r shared := by
    have hinvoke : T.reflection.invoke none x.id.name r shared = none :=
      invoke_none_eq_none hnone r shared
    rw [invoke_of_isAbstract hx ht, runByName_of_isAbstract hx]
    simp only [hinvoke]
    rfl
  needsTarget shared := by
    rw [invoke_of_isAbstract hx ht, runByName_of_isAbstract hx]

end Lineage

end ComponentHooks
