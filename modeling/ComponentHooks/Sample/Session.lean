import ComponentHooks.Engine
import ComponentHooks.Sample.Instance

/-!
# Sessions

One engine over a stretch of time, while types are declared, registered and taken out again, and
instances change.

* `Session`: the state of a session;
* `Session.loader`: the loader as it stands;
* `Session.declare`, `Session.declared?`: declarations by name, the latest first;
* `Session.run`, `Session.scene`, `Session.settle`: a step of the engine, on a target or without;
* `Session.number`: entries of the cache, numbered as they come to light.
-/

namespace ComponentHooks.Sample

/-- The state of a session. -/
structure Session where
  /-- Where the species are declared. -/
  home : String
  engine : Engine world
  script : LoaderScript := {}
  registry : Registry world := .empty
  cells : Cells := {}
  instances : List (String × Instance) := []
  /-- Every declaration made, the latest first. -/
  declarations : List (TypeDecl world) := []
  /-- The serials of entries, in the order in which they came to light. -/
  serials : List Nat := []
  /-- Every metadata obtained, the latest first. -/
  records : List (Metadata world) := []

namespace Session

variable (s : Session)

/-- The loader as it stands. -/
def loader : FiniteLoader world := s.script.loader s.home s.registry

/-- Targets of the session. -/
def reflection : Reflection world Instance := Instance.reflection s.home

/-! ## Types -/

/-- Registers a declaration. -/
def register (d : TypeDecl world) : Session := { s with registry := s.registry.register d }

/-- Takes a name out of the registry. -/
def unregister (name : String) : Session := { s with registry := s.registry.unregister name }

/-- Makes a declaration known, and registers it unless it is hidden. -/
def declare (d : TypeDecl world) (hidden : Bool) : Session :=
  let s := { s with declarations := d :: s.declarations }
  if hidden then s else s.register d

/-- The latest declaration of a name; the species are there from the start. -/
def declared? (name : String) : Option (TypeDecl world) :=
  match s.declarations.find? (·.name = name) with
  | some d => some d
  | none => (Species.named? s.home name).map (·.declare s.home)

/-! ## Metadata -/

/-- Keeps metadata for later steps. -/
def record (m : Metadata world) : Session := { s with records := m :: s.records }

/-- The metadata last obtained for a name. -/
def recorded? (name : String) : Option (Metadata world) := s.records.find? (·.name = name)

/-- The number of an entry; it is new if it has not come to light before. -/
def number (e : Entry world) : Nat × Bool × Session :=
  let s := s.record e.metadata
  match s.serials.findIdx? (· = e.serial) with
  | some i => (i, false, s)
  | none => (s.serials.length, true, { s with serials := s.serials ++ [e.serial] })

/-! ## Steps -/

/-- A step of the engine. -/
def run {α : Type} (x : Logged (Engine world) α) : α × Session × List Event :=
  let (a, engine, events) := x s.engine
  (a, { s with engine }, events)

/-- The instance of a name, or no target, with the cells. -/
def scene (name? : Option String) : Scene world Instance :=
  ⟨name?.bind (List.lookup · s.instances), s.cells⟩

/-- The session after a step on a scene: the instance of the name and the cells have changed. -/
def settle (name? : Option String) (scene : Scene world Instance) : Session :=
  { s with
    cells := scene.shared
    instances := s.instances.map fun (n, x) =>
      if some n = name? then (n, scene.target.getD x) else (n, x) }

end Session

end ComponentHooks.Sample
