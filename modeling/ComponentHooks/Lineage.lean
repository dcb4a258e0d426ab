import ComponentHooks.TypeDecl

/-!
# Structs with a description of their own

A described struct has a declaration for the engine, and answers the engine as a target. What it
cannot answer itself it asks the parent that it embeds.

* `DescribedField`, `Hook`, `Component`: what one struct adds to its parent;
* `Lineage`: a struct with its ancestors, most-derived first;
* `Component.declare`: the declaration of a struct;
* `Lineage.project`, `Lineage.invoke`, `Lineage.get`, `Lineage.set`, `Lineage.reflection`: the
  struct as a target.
-/

namespace ComponentHooks

variable {U : Universe}

/-! ## One struct -/

/-- A field that takes part in lifecycle processing, with its type as it is written. -/
structure DescribedField where
  name : String
  typeText : String
  visibility : Visibility := .hidden
  markers : List Marker := []
  validated : Bool := false
  deriving DecidableEq, Repr

/-- Fields without a marker, which are validated only, cannot be reached. -/
def DescribedField.isAccessible (f : DescribedField) : Bool := !f.markers.isEmpty

variable (U) in
/-- What a hook runs: on the struct that declares it, or on the shared state. -/
inductive HookBody (ls : Layout U) where
  | onSelf (run : Record U ls → U.Shared → Outcome × Record U ls × U.Shared)
  | onShared (run : U.Shared → Outcome × U.Shared)

variable (U) in
/-- A hook of a struct. Without markers it is there for declarations of the same name elsewhere. -/
structure Hook (ls : Layout U) where
  name : String
  visibility : Visibility := .hidden
  markers : List Marker := []
  body : HookBody U ls
  /-- Markers of other kinds do not stand on hooks. -/
  markers_apply : ∀ m ∈ markers, m.kind.appliesTo .method = true := by decide

variable (U) in
/-- What one struct adds to its parent, whose layout is `ps`. -/
structure Component (s : Shape U) (ps : Layout U) where
  /-- What other declarations are linked to. -/
  link : U.Link
  /-- Where the struct is declared, for messages. -/
  path : String
  typeName : String
  markers : List Marker := []
  implements : List (TypeRef U) := []
  /-- The struct takes its hooks into its description. -/
  hooked : Bool := false
  fields : List DescribedField := []
  hooks : List (Hook U (s :: ps)) := []
  /-- A field that can be reached is a field of the struct. -/
  fields_mem : ∀ f ∈ fields, f.isAccessible = true → (s.type? f.name).isSome = true := by decide
  /-- The hooks of one struct have different names. -/
  hooks_nodup : (hooks.map (·.name)).Nodup := by decide

namespace Component

variable {s : Shape U} {ps : Layout U} (c : Component U s ps)

/-- The run-time type. -/
abbrev tag (_ : Component U s ps) : Tag U := .struct (s :: ps)

/-- The hooks in the description. -/
def table : List (Hook U (s :: ps)) := if c.hooked then c.hooks else []

/-- The error of a body that is run on a state of another type. -/
def foreign : Failure := { message := "target is not a " ++ c.path }

/-- The end of a run with the shared state in front and the struct behind. -/
def swap (x : Outcome × Record U (s :: ps) × U.Shared) :
    (Outcome × U.Shared) × Record U (s :: ps) := ((x.1, x.2.2), x.2.1)

/-- The body of a hook in the description. -/
def body (h : HookBody U (s :: ps)) : Body U :=
  match h with
  | .onShared run => .onShared run
  | .onSelf run =>
    .onState fun _ x shared =>
      match Tag.change? c.tag (swap ∘ (run · shared)) x with
      | some ((o, shared), x) => (o, x, shared)
      | none => (.error c.foreign, x, shared)

/-- Writes an own field of a state. -/
def writeOwn (name : String) (v : Value U) (r : Record U (s :: ps)) :
    Except (Value U) Unit × Record U (s :: ps) :=
  match r.1.set? name v with
  | some (.ok row) => (.ok (), (row, r.2))
  | some (.error v) => (.error v, r)
  | none => (.error v, r)

/-- The access to a field in the description. -/
def access (f : DescribedField) : Access U :=
  .onState (fun _ x => (Tag.cast? c.tag x).bind fun r => r.1.get? f.name)
    fun _ v x =>
      match Tag.change? c.tag (writeOwn f.name v) x with
      | some (r, x) => (r, x)
      | none => (.error v, x)

/-- The declaration of the struct, whose parent has the link `parent?`. -/
def declare (parent? : Option U.Link) : TypeDecl U :=
  .declare c.typeName .concrete (some c.tag) c.markers
    (c.fields.map fun f =>
      { id := ⟨"", f.name, f.typeText⟩
        visibility := f.visibility
        markers := f.markers
        validated := f.validated
        access := if f.isAccessible then some (c.access f) else none })
    (c.table.map fun h =>
      { id := ⟨"", h.name, "()"⟩
        visibility := h.visibility
        markers := h.markers
        body := some (c.body h.body) })
    (parent?.map .linked) c.implements

/-- The struct answers for members declared by `declaring?`, or by anybody. -/
def answersFor (declaring? : Option String) : Bool := declaring?.all (· = c.typeName)

/-- Runs an own hook by name. Static hooks are passed over. -/
def dispatch (name : String) (r : Record U (s :: ps)) (shared : U.Shared) :
    Option (Outcome × Record U (s :: ps) × U.Shared) :=
  c.table.findSome? fun h =>
    match h.body with
    | .onSelf run => if h.name = name then some (run r shared) else none
    | .onShared _ => none

/-- An own field of the name can be reached. -/
def reaches (name : String) : Bool := c.fields.any fun f => f.isAccessible && f.name = name

end Component

/-! ## A struct with its ancestors -/

variable (U) in
/-- A struct with its ancestors, most-derived first. -/
inductive Lineage : Layout U → Type where
  | nil : Lineage []
  | cons {s : Shape U} {ps : Layout U} (c : Component U s ps) (parents : Lineage ps) :
    Lineage (s :: ps)

namespace Lineage

/-- The link of the most-derived struct. -/
def link? : {ls : Layout U} → Lineage U ls → Option U.Link
  | _, nil => none
  | _, cons c _ => some c.link

/-- The declaration of the most-derived struct. -/
def declare {s : Shape U} {ps : Layout U} : Lineage U (s :: ps) → TypeDecl U
  | cons c parents => c.declare parents.link?

/-- The state of a run-time type. -/
def project (t : Tag U) : {ls : Layout U} → Record U ls → Option (U.State t)
  | [], _ => none
  | s :: ps, r =>
    match Tag.cast? (s := .struct (s :: ps)) t r with
    | some x => some x
    | none => project t r.2

/-- The state of a run-time type, to be changed. -/
def projectMut (t : Tag U) :
    {ls : Layout U} → Record U ls → Option (U.State t × (U.State t → Record U ls))
  | [], _ => none
  | s :: ps, r =>
    if h : Tag.struct (s :: ps) = t then some (h ▸ r, fun x => (h.symm ▸ x : U.State (.struct _)))
    else (projectMut t r.2).map fun (x, put) => (x, fun x => (r.1, put x))

/-- Runs a hook by name: the first struct that answers and has it. -/
def invoke (declaring? : Option String) (name : String) :
    {ls : Layout U} → Lineage U ls → Record U ls → U.Shared →
      Option (Outcome × Record U ls × U.Shared)
  | _, nil, _, _ => none
  | _, cons c parents, r, shared =>
    match if c.answersFor declaring? then c.dispatch name r shared else none with
    | some x => some x
    | none =>
      (invoke declaring? name parents r.2 shared).map fun (o, p, shared) => (o, (r.1, p), shared)

/-- Reads a field by name. -/
def get (declaring? : Option String) (name : String) :
    {ls : Layout U} → Lineage U ls → Record U ls → Option (Value U)
  | _, nil, _ => none
  | _, cons c parents, r =>
    if c.answersFor declaring? && c.reaches name then r.1.get? name
    else get declaring? name parents r.2

/-- Writes a field by name. -/
def set (declaring? : Option String) (name : String) (v : Value U) :
    {ls : Layout U} → Lineage U ls → Record U ls → Option (Except (Value U) Unit × Record U ls)
  | _, nil, _ => none
  | _, cons c parents, r =>
    if c.answersFor declaring? && c.reaches name then some (Component.writeOwn name v r)
    else (set declaring? name v parents r.2).map fun (e, p) => (e, (r.1, p))

/-- **A described struct as a target.** -/
def reflection {s : Shape U} {ps : Layout U} (l : Lineage U (s :: ps)) :
    Reflection U (Record U (s :: ps)) where
  typeName _ := l.declare.name
  project t r := project t r
  projectMut t r := projectMut t r
  invoke d n r shared := l.invoke d n r shared
  get d n r := l.get d n r
  set d n v r := l.set d n v r

end Lineage

end ComponentHooks
