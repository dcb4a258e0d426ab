import ComponentHooks.Member

/-!
# Direct handles

A handle is what a member's declaration lets an engine run without asking the target for the
member by name. A policy says which members get one.

* `BindPolicy`: everything, exposed members only, or nothing;
* `Refusal`: why a member gets no handle;
* `MethodHandle`, `FieldHandle`, `BindPolicy.bindMethod`, `BindPolicy.bindField`: the handles, and
  the verdict on one declaration.
-/

namespace ComponentHooks

/-! ## Policies -/

/-- Which members may have a direct handle. -/
inductive BindPolicy where
  /-- Every member that has a body. -/
  | all
  /-- Hidden members are used by name. -/
  | exposedOnly
  /-- Every member is used by name. -/
  | disabled
  deriving DecidableEq, Repr

namespace BindPolicy

/-- Every policy. -/
def options : List BindPolicy := [all, exposedOnly, disabled]

/-- The policy's name in settings. -/
def name : BindPolicy → String
  | all => "all"
  | exposedOnly => "public_only"
  | disabled => "disabled"

/-- The policy with exactly this name. -/
def ofName? (text : String) : Option BindPolicy := options.find? (·.name = text)

instance : Inhabited BindPolicy := ⟨all⟩

/-- **Reading a policy's name inverts writing it.** -/
theorem ofName?_eq_some_iff {text : String} {p : BindPolicy} :
    ofName? text = some p ↔ text = p.name := by
  constructor
  · intro h
    have := List.find?_some h
    exact (of_decide_eq_true this).symm
  · rintro rfl
    cases p <;> decide

end BindPolicy

/-- Why a member gets no handle. -/
inductive Refusal where
  | disabled
  | hidden (member : MemberId)
  | noBody (member : MemberId)
  | unowned (member : MemberId)
  deriving DecidableEq, Repr

/-- The text of the refusal. -/
def Refusal.message : Refusal → String
  | disabled => "binding is disabled"
  | hidden m => m.label ++ " is private"
  | noBody m => m.label ++ " has no body"
  | unowned m => m.label ++ " is not backed by a Rust type"

/-! ## Handles -/

variable (U : Universe)

/-- What runs a method directly: a body for states of `owner`, or one for the shared state. -/
inductive MethodHandle where
  | onState (owner : Tag U)
      (run : ∀ t : Tag U, U.State t → U.Shared → Outcome × U.State t × U.Shared)
  | onShared (run : U.Shared → Outcome × U.Shared)

/-- What reads and writes a field directly. -/
inductive FieldHandle where
  | onState (owner : Tag U) (get : ∀ t : Tag U, U.State t → Option (Value U))
      (set : ∀ t : Tag U, Value U → U.State t → Except (Value U) Unit × U.State t)
  | onShared (get : U.Shared → Value U)
      (set : Value U → U.Shared → Except (Value U) Unit × U.Shared)

variable {U}

namespace BindPolicy

/-- Refuses members that the policy leaves out, whatever they contain. -/
def refusal? (p : BindPolicy) (m : Member U) : Option Refusal :=
  match p, m.visibility with
  | disabled, _ => some .disabled
  | exposedOnly, .hidden => some (.hidden m.id)
  | _, _ => none

/-- The verdict on a method. -/
def bindMethod (p : BindPolicy) (m : Method U) : Except Refusal (MethodHandle U) :=
  match p.refusal? m.toMember with
  | some r => .error r
  | none =>
    match m.body, m.owner with
    | none, _ => .error (.noBody m.id)
    | some (.onShared run), _ => .ok (.onShared run)
    | some (.onState _), none => .error (.unowned m.id)
    | some (.onState run), some owner => .ok (.onState owner run)

/-- The verdict on a field. -/
def bindField (p : BindPolicy) (f : Field U) : Except Refusal (FieldHandle U) :=
  match p.refusal? f.toMember with
  | some r => .error r
  | none =>
    match f.access, f.owner with
    | none, _ => .error (.noBody f.id)
    | some (.onShared get set), _ => .ok (.onShared get set)
    | some (.onState _ _), none => .error (.unowned f.id)
    | some (.onState get set), some owner => .ok (.onState owner get set)

end BindPolicy

end ComponentHooks
