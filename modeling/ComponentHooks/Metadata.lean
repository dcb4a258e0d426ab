import ComponentHooks.TypeDecl

/-!
# Lifecycle metadata

What one type, with all that lies above it, asks for: by kind, the recorded methods, the recorded
fields and the markers of the types themselves.

* `Table`, `Table.push`, `Table.extend`: lists by kind, and the ways they grow;
* `Metadata`, `Metadata.addMethod`, `Metadata.addField`, `Metadata.addMarkers`: the metadata, and
  the ways it grows;
* `Metadata.hasLifecycleWork`, `Metadata.hasResourceWork`, `Metadata.isEmpty`.
-/

namespace ComponentHooks

/-- Lists by kind. A kind that is no key has no list, and a list may be empty. -/
structure Table (α : Type) where
  list? : Kind → Option (List α)

namespace Table

variable {α : Type}

/-- The list of a kind, which is empty if the kind is no key. -/
def get (t : Table α) (k : Kind) : List α := (t.list? k).getD []

instance : CoeFun (Table α) fun _ => Kind → List α := ⟨get⟩

/-- The kind is a key. -/
def hasKey (t : Table α) (k : Kind) : Bool := (t.list? k).isSome

/-- No keys. -/
def empty : Table α := ⟨fun _ => none⟩

/-- More entries under one kind, which is a key then. -/
def push (t : Table α) (k : Kind) (xs : List α) : Table α :=
  ⟨fun j => if j = k then some (t k ++ xs) else t.list? j⟩

/-- What was found for each of the kinds, if that is anything. -/
def extend (t : Table α) (ks : List Kind) (found : Kind → List α) : Table α :=
  ks.foldl (fun t k => if (found k).isEmpty then t else t.push k (found k)) t

/-- The number of entries over all kinds. -/
def size (t : Table α) : Nat := (Kind.all.flatMap t).length

/-- There are no keys. -/
def isEmpty (t : Table α) : Bool := Kind.all.all fun k => !t.hasKey k

/-- A resource kind is a key. -/
def hasResource (t : Table α) : Bool := Kind.all.any fun k => k.isResource && t.hasKey k

@[simp] theorem empty_apply (k : Kind) : (empty : Table α) k = [] := rfl

@[simp] theorem push_self (t : Table α) (k : Kind) (xs : List α) : t.push k xs k = t k ++ xs := by
  simp [push, get]

theorem push_of_ne (t : Table α) {j k : Kind} (h : j ≠ k) (xs : List α) : t.push k xs j = t j := by
  simp [push, get, h]

theorem isEmpty_iff (t : Table α) : t.isEmpty = true ↔ ∀ k, t.hasKey k = false := by
  simp [isEmpty, Kind.mem_all]

theorem hasResource_iff (t : Table α) :
    t.hasResource = true ↔ ∃ k, k.isResource = true ∧ t.hasKey k = true := by
  simp [hasResource, Kind.mem_all]

end Table

variable (U : Universe)

/-- The metadata of one type across its hierarchy. Entries stand in declaration order within a
type, and in the order of the walk across types. -/
structure Metadata where
  name : String
  methods : Table (Method U) := .empty
  fields : Table (Field U) := .empty
  typeMarkers : Table Marker := .empty
  /-- A field that carries the validation marker was met. -/
  validated : Bool := false

variable {U}

namespace Metadata

/-- A method or field marker anywhere in the hierarchy, or a validated field. -/
def hasLifecycleWork (m : Metadata U) : Bool :=
  m.validated || !m.methods.isEmpty || !m.fields.isEmpty

/-- A resource marker on a type, a field or a method. -/
def hasResourceWork (m : Metadata U) : Bool :=
  m.methods.hasResource || m.fields.hasResource || m.typeMarkers.hasResource

/-- No table has a key. -/
def isEmpty (m : Metadata U) : Bool :=
  m.methods.isEmpty && m.fields.isEmpty && m.typeMarkers.isEmpty

/-- A method of this name is recorded under the kind. -/
def hasMethod (m : Metadata U) (k : Kind) (name : String) : Bool :=
  (m.methods k).any (·.id.name = name)

/-- A field of this name is recorded under the kind. -/
def hasField (m : Metadata U) (k : Kind) (name : String) : Bool :=
  (m.fields k).any (·.id.name = name)

/-- One more method under a kind. -/
def addMethod (m : Metadata U) (k : Kind) (x : Method U) : Metadata U :=
  { m with methods := m.methods.push k [x] }

/-- One more field under a kind. -/
def addField (m : Metadata U) (k : Kind) (x : Field U) : Metadata U :=
  { m with fields := m.fields.push k [x] }

/-- The markers of one more type. -/
def addMarkers (m : Metadata U) (c : TypeDecl U) : Metadata U :=
  { m with typeMarkers := m.typeMarkers.extend Site.type.kinds c.markersOf }

end Metadata

end ComponentHooks
