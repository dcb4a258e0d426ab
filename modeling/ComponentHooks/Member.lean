import ComponentHooks.Marker
import ComponentHooks.Universe

/-!
# Declared members

* `MemberId`: what identifies a member;
* `Failure`, `Outcome`: how a hook ends;
* `Body`, `Access`: what a method runs and how a field is read and written;
* `Member`, `Method`, `Field`: the entries of a type's member tables;
* `Reflection`: how the members of a live instance are reached.
-/

namespace ComponentHooks

/-- Who may use a member without going through its declaring type. -/
inductive Visibility where
  | exposed
  | hidden
  deriving DecidableEq, Repr

/-- The word for a visibility. -/
def Visibility.name : Visibility → String
  | .exposed => "public"
  | .hidden => "private"

/-- The identity of a declared member: declaring type, name and signature. The signature of a field
is its type name. -/
structure MemberId where
  declaring : String
  name : String
  signature : String
  deriving DecidableEq, Repr

/-- The member as messages write it, without its signature. -/
def MemberId.label (m : MemberId) : String := m.declaring ++ "::" ++ m.name

/-- The error of a hook: its text and the texts of its further causes, outermost first. -/
structure Failure where
  message : String
  causes : List String := []
  deriving DecidableEq, Repr

/-- How a hook ends. -/
abbrev Outcome : Type := Except Failure Unit

variable (U : Universe)

/-- What a method runs: an instance body on the state of a target, whose type it finds out by
itself, a static body on the shared state alone. The effects of a failed run stay. -/
inductive Body where
  | onState (run : ∀ t : Tag U, U.State t → U.Shared → Outcome × U.State t × U.Shared)
  | onShared (run : U.Shared → Outcome × U.Shared)

/-- The word for a body. -/
def Body.name {U : Universe} : Body U → String
  | .onState _ => "MethodBody::Instance"
  | .onShared _ => "MethodBody::Static"

/-- How a field is read and written. A reader may have nothing to give for a state of a foreign
type, and a writer hands a value back that it does not store. -/
inductive Access where
  | onState (get : ∀ t : Tag U, U.State t → Option (Value U))
      (set : ∀ t : Tag U, Value U → U.State t → Except (Value U) Unit × U.State t)
  | onShared (get : U.Shared → Value U)
      (set : Value U → U.Shared → Except (Value U) Unit × U.Shared)

/-- The word for an access. -/
def Access.name {U : Universe} : Access U → String
  | .onState _ _ => "FieldAccess::Instance"
  | .onShared _ _ => "FieldAccess::Static"

/-- What methods and fields have in common. `owner` is the run-time type whose states hold the
member, if there is one. -/
structure Member where
  id : MemberId
  owner : Option (Tag U) := none
  visibility : Visibility := .exposed
  synthetic : Bool := false
  markers : List Marker := []

/-- A declared method; without a body it is abstract. -/
structure Method extends Member U where
  bridge : Bool := false
  body : Option (Body U) := none

/-- A declared field; without access nobody reads or writes it. -/
structure Field extends Member U where
  validated : Bool := false
  access : Option (Access U) := none

variable {U}

namespace Member

/-- The first marker of the kind. -/
def marker? (m : Member U) (k : Kind) : Option Marker := m.markers.find? (·.kind = k)

/-- The member has a marker of the kind. -/
def carries (m : Member U) (k : Kind) : Bool := m.markers.any (·.kind = k)

/-- The member as declared by a type with this name and run-time type. -/
def declaredBy (m : Member U) (declaring : String) (owner : Option (Tag U)) : Member U :=
  { m with id := { m.id with declaring }, owner }

end Member

namespace Method

/-- A method that belongs to its type and not to an instance. -/
def isStatic (m : Method U) : Bool :=
  match m.body with
  | some (.onShared _) => true
  | _ => false

/-- A method without a body. -/
def isAbstract (m : Method U) : Bool := m.body.isNone

/-- Methods that a person wrote: neither synthetic nor a bridge. -/
def isEligible (m : Method U) : Bool := !m.synthetic && !m.bridge

end Method

namespace Field

/-- A field that belongs to its type and not to an instance. -/
def isStatic (f : Field U) : Bool :=
  match f.access with
  | some (.onShared _ _) => true
  | _ => false

/-- Fields that a person wrote. -/
def isEligible (f : Field U) : Bool := !f.synthetic

/-- The name of the field's type. -/
def typeName (f : Field U) : String := f.id.signature

end Field

/-! ## Targets -/

variable (U) in
/-- How an engine reaches into targets of type `τ`. In by-name access the first argument is the
type that declared the member; without it the most-derived member of the name is meant. By-name
access gives nothing, and changes nothing, if there is no such member. -/
structure Reflection (τ : Type) where
  /-- The name of the target's own type. -/
  typeName : τ → String
  /-- The state of a type inside the target. -/
  project : ∀ t : Tag U, τ → Option (U.State t)
  /-- The same to be changed: the state, and the target with another state in its place. -/
  projectMut : ∀ t : Tag U, τ → Option (U.State t × (U.State t → τ))
  /-- Runs a method by name. -/
  invoke : Option String → String → τ → U.Shared → Option (Outcome × τ × U.Shared)
  /-- Reads a field by name. -/
  get : Option String → String → τ → Option (Value U)
  /-- Writes a field by name; a value of the wrong type is handed back. -/
  set : Option String → String → Value U → τ → Option (Except (Value U) Unit × τ)

end ComponentHooks
