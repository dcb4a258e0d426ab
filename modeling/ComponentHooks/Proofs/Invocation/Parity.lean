import ComponentHooks.Proofs.Extraction.Reference
import ComponentHooks.Proofs.Lineage.Reach

/-!
# Handles make no difference

An engine that has a handle on a member and one that has none do the same with it, on every target
that answers for the member by name as its body does. So no policy can be told from the outcome.

* `HandleTable.OwnsMethod`, `HandleTable.OwnsField`: a slot, if there is one, was made for this very
  member;
* `HandleTable.FitsMethod`: or it is a refusal, of a method without a body;
* `invoke_eq_runByName`, **`invokeEach_of_fits`**: so does the engine run them;
* `getField_eq_readField`, `setField_eq_writeField`: and so it reads and writes fields;
* **`outcomes_agree`**: two tables of any policies lead to the same results and states.
-/

namespace ComponentHooks

variable {U : Universe} {τ : Type}

/-! ## Slots of a member's own -/

namespace HandleTable

variable {t : HandleTable U}

/-- The slot of `x`, if there is one, is the verdict on `x` itself. -/
def OwnsMethod (t : HandleTable U) (x : Method U) : Prop :=
  ∀ v, t.methods.find? x.id = some v → v = t.policy.bindMethod x

/-- The slot of `f`, if there is one, is the verdict on `f` itself. -/
def OwnsField (t : HandleTable U) (f : Field U) : Prop :=
  ∀ v, t.fields.find? f.id = some v → v = t.policy.bindField f

theorem OwnsMethod.request {x : Method U} (h : t.OwnsMethod x) :
    (requestMethod x t).1 = t.policy.bindMethod x := by
  rw [requestMethod_fst]
  cases hv : t.methods.find? x.id with
  | none => rfl
  | some v => exact h v hv

theorem OwnsField.request {f : Field U} (h : t.OwnsField f) :
    (requestField f t).1 = t.policy.bindField f := by
  rw [requestField_fst]
  cases hv : t.fields.find? f.id with
  | none => rfl
  | some v => exact h v hv

/-- The slot of `x`, if there is one, is the verdict on `x`, or refuses it where it has no body. -/
def FitsMethod (t : HandleTable U) (x : Method U) : Prop :=
  ∀ v, t.methods.find? x.id = some v →
    v = t.policy.bindMethod x ∨ x.isAbstract = true ∧ ∃ r, v = .error r

theorem OwnsMethod.fits {x : Method U} (h : t.OwnsMethod x) : t.FitsMethod x :=
  fun v hv => .inl (h v hv)

theorem FitsMethod.serve {x y : Method U} (h : t.FitsMethod y) (hid : x.id ≠ y.id) :
    (t.serve (.method x)).FitsMethod y := by
  intro v hv
  rw [serve_method, Slots.find?_request, if_neg hid, Option.or_none] at hv
  rw [serve_method]
  exact h v hv

end HandleTable

/-! ## Methods run by name -/

section Methods

variable {R : Reflection U τ} {t : HandleTable U}

theorem invoke_eq_runByName {x : Method U} {s : Scene U τ} (h : ∀ y ∈ s.target, R.RunsByName x y)
    (ht : t.OwnsMethod x) : (invoke R x s t).1 = runByName R x s := by
  change runMethod R x (HandleTable.requestMethod x t).1 s = _
  rw [ht.request]
  exact runMethod_bindMethod h t.policy .disabled

theorem invoke_of_fits {x : Method U} {s : Scene U τ} (h : ∀ y ∈ s.target, R.RunsByName x y)
    (ht : t.FitsMethod x) : (invoke R x s t).1 = runByName R x s := by
  cases hv : t.methods.find? x.id with
  | none => exact invoke_eq_runByName h fun v hv' => by cases hv.symm.trans hv'
  | some v =>
    rcases ht v hv with rfl | ⟨-, r, rfl⟩
    · exact invoke_eq_runByName h fun v' hv' => (Option.some.inj (hv.symm.trans hv')).symm
    · change runMethod R x (HandleTable.requestMethod x t).1 s = _
      rw [HandleTable.requestMethod_fst, hv]
      rfl

/-- **Methods of different identities are run as by name**, one after the other. -/
theorem invokeEach_of_fits {xs : List (Method U)} (hnodup : (xs.map (·.id)).Nodup)
    {s : Scene U τ} (h : ∀ x ∈ xs, s.target.isSome → ∀ y, R.RunsByName x y)
    (ht : ∀ x ∈ xs, t.FitsMethod x) : (invokeEach R xs s t).1 = runEachByName R xs s := by
  induction xs generalizing s t with
  | nil => rfl
  | cons x xs ih =>
    obtain ⟨hx, hxs⟩ := List.nodup_cons.mp hnodup
    have hhead : (invoke R x s t).1 = runByName R x s :=
      invoke_of_fits (fun y hy => h x List.mem_cons_self (Option.isSome_of_mem hy) y)
        (ht x List.mem_cons_self)
    -- The request for `x` leaves the slots of those that follow alone: their identities differ.
    have htail : ∀ y ∈ xs, (t.serve (.method x)).FitsMethod y := fun y hy =>
      (ht y (List.mem_cons_of_mem x hy)).serve fun hid => hx (List.mem_map.mpr ⟨y, hy, hid.symm⟩)
    rw [invokeEach, Logged.bind_apply, hhead, runEachByName]
    rcases hrun : runByName R x s with ⟨_ | _, s'⟩
    · rfl
    · have htarget : s'.target.isSome = s.target.isSome := by
        have hkept : (runByName R x s).2.target.isSome = s.target.isSome :=
          isSome_target_runMethod x _
        rwa [hrun] at hkept
      exact ih hxs (fun y hy hs => h y (List.mem_cons_of_mem x hy) (htarget ▸ hs)) htail

theorem invokeEach_eq_runEachByName {xs : List (Method U)} (hnodup : (xs.map (·.id)).Nodup)
    {s : Scene U τ} (h : ∀ x ∈ xs, s.target.isSome → ∀ y, R.RunsByName x y)
    (ht : ∀ x ∈ xs, t.OwnsMethod x) : (invokeEach R xs s t).1 = runEachByName R xs s :=
  invokeEach_of_fits hnodup h fun x hx => (ht x hx).fits

section Extracted

variable {l : FiniteLoader U} {root : TypeDecl U} {m : Metadata U} (h : (extract l root t).1 = .ok m)
  (k : Kind)

include h

theorem nodup_names_of_extract : ((m.methods k).map (·.id.name)).Nodup := by
  obtain ⟨hstop, rfl⟩ := extract_eq_ok_iff.mp h
  rw [metadata_draft_of_walk_stop hstop, Metadata.methods_ofTypes]
  split
  · exact nodup_firstOfName _ _
  · exact List.nodup_nil

theorem nodup_methods_of_extract : ((m.methods k).map (·.id)).Nodup := by
  have hnames := nodup_names_of_extract h k
  rw [← Function.comp_def MemberId.name, ← List.map_map] at hnames
  exact hnames.of_map

theorem mem_methods_of_extract {x : Method U} (hx : x ∈ m.methods k) :
    ∃ d ∈ l.preorder root, x ∈ d.methods := by
  obtain ⟨hstop, rfl⟩ := extract_eq_ok_iff.mp h
  rw [metadata_draft_of_walk_stop hstop, Metadata.methods_ofTypes] at hx
  split at hx
  · rw [mem_firstOfName] at hx
    obtain ⟨d, hd, hmem⟩ := List.mem_flatMap.mp (List.mem_of_find?_eq_some hx)
    exact ⟨d, (List.mem_filter.mp hd).1, (List.mem_filter.mp hmem).1⟩
  · cases hx

end Extracted

end Methods

/-! ## Fields by name -/

section Fields

variable {R : Reflection U τ} {t : HandleTable U} {f : Field U} {s : Scene U τ}

theorem getField_eq_readField (h : ∀ y ∈ s.target, R.AccessesByName f y) (ht : t.OwnsField f) :
    (getField R f s t).1 = readField R f (.error .disabled) s := by
  change readField R f (HandleTable.requestField f t).1 s = _
  rw [ht.request]
  exact readField_bindField h t.policy .disabled

theorem setField_eq_writeField (h : ∀ y ∈ s.target, R.AccessesByName f y) (ht : t.OwnsField f)
    (v : Value U) : (setField R f v s t).1 = writeField R f (.error .disabled) v s := by
  change writeField R f (HandleTable.requestField f t).1 v s = _
  rw [ht.request]
  exact writeField_bindField h t.policy .disabled v

end Fields

/-! ## All operations -/

/-- **No policy can be told from the outcome.** Two handle tables, of any two policies, whose slots
for a member are absent or its own: on targets that answer for the member by name as its body does,
running, reading and writing it comes to the same result and leaves the same target and shared
state; and so does running all methods that extracted metadata has under a kind. -/
theorem outcomes_agree (R : Reflection U τ) (t t' : HandleTable U) :
    (∀ (x : Method U) (s : Scene U τ), (∀ y ∈ s.target, R.RunsByName x y) →
        t.OwnsMethod x → t'.OwnsMethod x → (invoke R x s t).1 = (invoke R x s t').1) ∧
      (∀ (f : Field U) (s : Scene U τ), (∀ y ∈ s.target, R.AccessesByName f y) →
        t.OwnsField f → t'.OwnsField f →
          (getField R f s t).1 = (getField R f s t').1 ∧
          (∀ ty : U.Ty, (getFieldAs R ty f s t).1 = (getFieldAs R ty f s t').1) ∧
          ∀ v : Value U, (setField R f v s t).1 = (setField R f v s t').1) ∧
      ∀ (l : FiniteLoader U) (root : TypeDecl U) (t₀ : HandleTable U) (m : Metadata U),
        (extract l root t₀).1 = .ok m → ∀ (k : Kind) (s : Scene U τ),
          (∀ x ∈ m.methods k, (s.target.isSome → ∀ y, R.RunsByName x y) ∧
            t.OwnsMethod x ∧ t'.OwnsMethod x) →
            (invokeAll R m k s t).1 = (invokeAll R m k s t').1 := by
  refine ⟨fun x s h ht ht' => ?_, fun f s h ht ht' => ?_, fun l root t₀ m hm k s h => ?_⟩
  · rw [invoke_eq_runByName h ht, invoke_eq_runByName h ht']
  · have hget : (getField R f s t).1 = (getField R f s t').1 := by
      rw [getField_eq_readField h ht, getField_eq_readField h ht']
    refine ⟨hget, fun ty => ?_, fun v => ?_⟩
    · unfold getFieldAs
      rw [Logged.bind_apply, Logged.bind_apply, hget]
      rfl
    · rw [setField_eq_writeField h ht, setField_eq_writeField h ht']
  · have heach : ∀ t : HandleTable U, (∀ x ∈ m.methods k, t.OwnsMethod x) →
        (invokeEach R (m.methods k) s t).1 = runEachByName R (m.methods k) s := fun t ht =>
      invokeEach_eq_runEachByName (nodup_methods_of_extract hm k) (fun x hx => (h x hx).1) ht
    unfold invokeAll
    rw [Logged.bind_apply, Logged.bind_apply, heach t fun x hx => (h x hx).2.1,
      heach t' fun x hx => (h x hx).2.2]
    rfl

namespace Sample

/-- A field that an override has from the base it embeds. -/
def limitField : Field world := ((baseComponent "zoo").declare none).fields[1]

/-- The metadata of an override. -/
def overrideMetadata : Metadata world :=
  ((loaderOf [] []).draft (Species.override.declare "zoo")).metadata

/-- Hooks and a field of an override with a handle and without one, and its hooks of one kind. -/
theorem outcomes_agree_override :
    let R := (Species.override.lineage "zoo").reflection
    let s : Scene world Species.override.State := ⟨some Species.override.start, {}⟩
    (∀ h ∈ (Species.override.lineage "zoo").inherited,
      (invoke R h.method s { policy := .all }).1 = (invoke R h.method s { policy := .disabled }).1) ∧
    (getField R limitField s { policy := .all }).1 =
      (getField R limitField s { policy := .disabled }).1 ∧
    (invokeAll R overrideMetadata .postConstruct s { policy := .all }).1 =
      (invokeAll R overrideMetadata .postConstruct s { policy := .disabled }).1 := by
  intro R s
  obtain ⟨hmethod, hfield, hall⟩ := outcomes_agree R { policy := .all } { policy := .disabled }
  have hnodup : ((Species.override.lineage "zoo").decls.map TypeDecl.name).Nodup := by decide
  have hruns : ∀ h ∈ (Species.override.lineage "zoo").inherited, ∀ y, R.RunsByName h.method y :=
    fun h hh y => Lineage.runsByName _ hnodup hh y
  have haccesses : ∀ y, R.AccessesByName limitField y := by
    rintro y owner get set howner haccess
    cases howner
    cases haccess
    exact ⟨rfl, fun v => rfl⟩
  have hmetadata : (extract (loaderOf [] []) (Species.override.declare "zoo")
      { policy := .all }).1 = .ok overrideMetadata := extract_eq_ok_iff.mpr ⟨by decide, rfl⟩
  have hmethods : overrideMetadata.methods .postConstruct =
      ((Species.override.lineage "zoo").hooks .postConstruct []).map (·.method) := rfl
  refine ⟨fun h hh => (hmethod h.method s fun y _ => hruns h hh y) nofun nofun,
    (hfield limitField s (fun y _ => haccesses y) nofun nofun).1,
    hall _ _ _ _ hmetadata _ s fun x hx => ?_⟩
  rw [hmethods] at hx
  obtain ⟨h, hh, rfl⟩ := List.mem_map.mp hx
  exact ⟨fun _ => hruns h (Lineage.hooks_subset _ _ hh), nofun, nofun⟩

end Sample

end ComponentHooks
