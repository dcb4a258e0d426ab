import ComponentHooks.Member

/-!
# Type declarations

A `TypeDecl` lists what one type declares: markers, members, supertypes, and the types that must
load before its members can be told.

* `TypeRef`: a reference from one type to another;
* `TypeDecl`, `TypeDecl.declare`: a declaration, and the way to make one;
* `TypeDecl.supertypes`: the superclass, then the interfaces in declaration order.
-/

namespace ComponentHooks

variable (U : Universe)

/-- A reference to a type: by name, which may fail, or linked when the program was compiled. -/
inductive TypeRef where
  | named (name : String)
  | linked (target : U.Link)

/-- The word for a reference. A name is shown between quotes, as it is; names with characters that
quotes cannot show have no word. -/
def TypeRef.word? {U : Universe} : TypeRef U → Option String
  | .linked _ => some "Linked"
  | .named n =>
    if n.all fun c => 0x21 ≤ c.toNat && c.toNat ≤ 0x7e && c ∉ ['"', '\'', '\\'] then
      some ("Named(\"" ++ n ++ "\")")
    else none

/-- A class or an interface. -/
inductive TypeForm where
  | concrete
  | interface
  deriving DecidableEq, Repr

/-- The word for a form. -/
def TypeForm.name : TypeForm → String
  | .concrete => "class"
  | .interface => "interface"

/-- What one type declares. Every member knows the name and the run-time type of the declaration
that lists it. -/
structure TypeDecl where
  name : String
  form : TypeForm
  owner : Option (Tag U)
  markers : List Marker
  fields : List (Field U)
  methods : List (Method U)
  extends? : Option (TypeRef U)
  implements : List (TypeRef U)
  links : List String
  fields_declared : ∀ f ∈ fields, f.id.declaring = name ∧ f.owner = owner
  methods_declared : ∀ m ∈ methods, m.id.declaring = name ∧ m.owner = owner

variable {U}

namespace TypeDecl

/-- A declaration with the given parts; the members are stamped with its name and run-time type. -/
def declare (name : String) (form : TypeForm := .concrete) (owner : Option (Tag U) := none)
    (markers : List Marker := []) (fields : List (Field U) := []) (methods : List (Method U) := [])
    (extends? : Option (TypeRef U) := none) (implements : List (TypeRef U) := [])
    (links : List String := []) : TypeDecl U where
  name; form; owner; markers; extends?; implements; links
  fields := fields.map fun f => { f with toMember := f.toMember.declaredBy name owner }
  methods := methods.map fun m => { m with toMember := m.toMember.declaredBy name owner }
  fields_declared := by simp [Member.declaredBy]
  methods_declared := by simp [Member.declaredBy]

/-- The superclass, then the interfaces in declaration order. -/
def supertypes (c : TypeDecl U) : List (TypeRef U) := c.extends?.toList ++ c.implements

/-- The type's own markers of a kind, in declaration order. -/
def markersOf (c : TypeDecl U) (k : Kind) : List Marker := c.markers.filter (·.kind = k)

end TypeDecl

end ComponentHooks
