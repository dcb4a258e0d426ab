import ComponentHooks.Invocation

/-!
# Use of a member by name

A member can be used through its handle or by name. Where a target answers for a member by name as
the member's own body would on the projected state, the two ways come to the same.

* `Reflection.RunsByName`, `Reflection.AccessesByName`: a target answers for a member by name as the
  member's body or access does on the owner's state;
* `runByName`, `runEachByName`: methods run by name, up to the first that fails;
* **`runMethod_bindMethod`**, **`readField_bindField`**, **`writeField_bindField`**: whatever the
  verdict of a policy on such a member, its use is the use by name.
-/

namespace ComponentHooks

variable {U : Universe} {τ : Type}

/-! ## What a target answers by name -/

namespace Reflection

variable (R : Reflection U τ)

/-- In the state `y` the target runs `x` by name as its body runs on the owner's state, if `x` is an
instance method with an owner. -/
def RunsByName (x : Method U) (y : τ) : Prop :=
  ∀ owner run, x.owner = some owner → x.body = some (.onState run) → ∀ shared,
    R.invoke (some x.id.declaring) x.id.name y shared =
      (R.projectMut owner y).map fun (state, put) =>
        let (o, state, shared) := run owner state shared
        (o, put state, shared)

/-- In the state `y` the target reads and writes `f` by name as its access does on the owner's
state, if `f` is an instance field with an owner. -/
def AccessesByName (f : Field U) (y : τ) : Prop :=
  ∀ owner get set, f.owner = some owner → f.access = some (.onState get set) →
    R.get (some f.id.declaring) f.id.name y = (R.project owner y).bind (get owner) ∧
      ∀ v, R.set (some f.id.declaring) f.id.name v y =
        (R.projectMut owner y).map fun (state, put) =>
          let (r, state) := set owner v state
          (r, put state)

end Reflection

section

variable (R : Reflection U τ)

/-- Runs a method as if it had no handle. -/
def runByName (x : Method U) (s : Scene U τ) : Except InvokeError Unit × Scene U τ :=
  runMethod R x (.error .disabled) s

/-- Runs methods in order as if they had no handles, and stops at the first failure. -/
def runEachByName : List (Method U) → Scene U τ → Except InvokeError Unit × Scene U τ
  | [], s => (.ok (), s)
  | x :: xs, s =>
    match runByName R x s with
    | (.ok (), s) => runEachByName xs s
    | (.error e, s) => (.error e, s)

end

/-! ## Verdicts make no difference -/

variable {R : Reflection U τ} {s : Scene U τ}

/-- **A method is run as by name**, whatever a policy says about it. -/
theorem runMethod_bindMethod {x : Method U} (h : ∀ y ∈ s.target, R.RunsByName x y) (p : BindPolicy)
    (r : Refusal) : runMethod R x (p.bindMethod x) s = runMethod R x (.error r) s := by
  unfold BindPolicy.bindMethod
  split
  · rfl
  · split
    · rfl
    · rename_i run hbody
      simp only [runMethod, hbody]
    · rfl
    · rename_i run owner hbody howner
      simp only [runMethod, hbody]
      cases htarget : s.target with
      | none => rfl
      | some y =>
        have habstract : x.isAbstract = false := by rw [Method.isAbstract, hbody]; rfl
        have hy := h y htarget owner run howner hbody s.shared
        simp only [habstract, Bool.false_eq_true, if_false, hy]
        cases R.projectMut owner y <;> rfl

theorem isSome_target_runMethod (x : Method U) (slot : Except Refusal (MethodHandle U)) :
    (runMethod R x slot s).2.target.isSome = s.target.isSome := by
  unfold runMethod
  split
  · rfl
  · split
    · rfl
    · rename_i y hy
      split
      · rfl
      · rw [hy]
        rfl
  · split
    · rfl
    · split
      · rfl
      · rename_i y hy
        dsimp only
        split
        · rfl
        · rw [hy]
          rfl

/-- **A field is read as by name**, whatever a policy says about it. -/
theorem readField_bindField {f : Field U} (h : ∀ y ∈ s.target, R.AccessesByName f y)
    (p : BindPolicy) (r : Refusal) :
    readField R f (p.bindField f) s = readField R f (.error r) s := by
  unfold BindPolicy.bindField
  split
  · rfl
  · split
    · rfl
    · rename_i get set haccess
      simp only [readField, haccess]
    · rfl
    · rename_i get set owner haccess howner
      simp only [readField, haccess]
      cases htarget : s.target with
      | none => rfl
      | some y =>
        have hy := (h y htarget owner get set howner haccess).1
        simp only [hy]

/-- **A field is written as by name**, whatever a policy says about it. -/
theorem writeField_bindField {f : Field U} (h : ∀ y ∈ s.target, R.AccessesByName f y)
    (p : BindPolicy) (r : Refusal) (v : Value U) :
    writeField R f (p.bindField f) v s = writeField R f (.error r) v s := by
  unfold BindPolicy.bindField
  split
  · rfl
  · split
    · rfl
    · rename_i get set haccess
      simp only [writeField, haccess]
    · rfl
    · rename_i get set owner haccess howner
      simp only [writeField, haccess]
      cases htarget : s.target with
      | none => rfl
      | some y =>
        have hy := (h y htarget owner get set howner haccess).2 v
        simp only [hy]
        cases R.projectMut owner y <;> rfl

end ComponentHooks
