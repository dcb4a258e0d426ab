import ComponentHooks.Loader
import ComponentHooks.Sample.Script
import ComponentHooks.Sample.Species

/-!
# Targets and loaders of the small world

* `Layer`, `Assembly`: an instance put together by hand, most-derived layer first;
* `Instance`, `Instance.reflection`: a species or an assembly, as a target;
* `LoaderScript.loader`: a loader that fails on some names, knows some names by another, and asks a
  registry for the others.
-/

namespace ComponentHooks.Sample

/-! ## Assemblies -/

/-- One layer of an assembly: the type that it declares members for, and the state of a part. -/
structure Layer where
  declares : String
  part : Fin 4
  hooks : List (String × PartScript) := []
  /-- Fields by name, with their slots. -/
  fields : List (String × Nat) := []
  state : PartState

/-- An instance put together by hand. -/
structure Assembly where
  typeName : String
  levels : List Layer

namespace Layer

/-- The layer answers for members declared by `declaring?`, or by anybody. -/
def answersFor (l : Layer) (declaring? : Option String) : Bool := declaring?.all (· = l.declares)

/-- The state, if it is one of the part. -/
def project (t : Tag world) (l : Layer) : Option (world.State t) :=
  Tag.cast? (s := .native l.part) t l.state

/-- Runs a hook by name. -/
def invoke (declaring? : Option String) (name : String) (cells : Cells) (l : Layer) :
    Option ((Outcome × Cells) × Layer) :=
  if l.answersFor declaring? then
    (l.hooks.lookup name).map fun script =>
      let (r, state) := script.change cells l.state
      (r, { l with state })
  else none

/-- The slot of a field, by name. -/
def slot? (declaring? : Option String) (name : String) (l : Layer) : Option Nat :=
  if l.answersFor declaring? then l.fields.lookup name else none

end Layer

namespace Assembly

/-- Does something on the first layer that can do it, and leaves the others as they are. -/
def onFirst {α : Type} (f : Layer → Option (α × Layer)) : List Layer → Option (α × List Layer)
  | [] => none
  | l :: ls =>
    match f l with
    | some (a, l) => some (a, l :: ls)
    | none => (onFirst f ls).map fun (a, ls) => (a, l :: ls)

/-- The state of a run-time type, to be changed: that of the first layer with the part. -/
def projectMut (t : Tag world) :
    List Layer → Option (world.State t × (world.State t → List Layer))
  | [] => none
  | l :: ls =>
    if h : Tag.native l.part = t then
      some ((h ▸ l.state : world.State t), fun x =>
        { l with state := (h.symm ▸ x : world.State (.native l.part)) } :: ls)
    else (projectMut t ls).map fun (x, put) => (x, fun x => l :: put x)

/-- Reads a field by name, from the first layer that has it. -/
def get (declaring? : Option String) (name : String) (a : Assembly) : Option (Value world) := do
  let (v, _) ← onFirst
    (fun l => (l.slot? declaring? name).map fun slot => (l.state.slots[slot]?, l)) a.levels
  v

/-- Writes a field by name, on the first layer that has it. -/
def set (declaring? : Option String) (name : String) (v : Value world) (a : Assembly) :
    Option (Except (Value world) Unit × Assembly) := do
  let (r, levels) ← onFirst
    (fun l => (l.slot? declaring? name).map fun slot =>
      if slot < l.state.slots.length then
        let (r, state) := l.state.setSlot slot v
        (some r, { l with state })
      else (none, l))
    a.levels
  let r ← r
  some (r, { a with levels })

end Assembly

/-! ## Instances -/

/-- A target: an instance of a species, or an assembly. -/
inductive Instance where
  | species (z : Species) (state : z.State)
  | assembly (a : Assembly)

/-- The targets of the small world. -/
def Instance.reflection (home : String) : Reflection world Instance where
  typeName
    | .species z _ => (z.declare home).name
    | .assembly a => a.typeName
  project t
    | .species z state => (z.lineage home).reflection.project t state
    | .assembly a => a.levels.findSome? (Layer.project t)
  projectMut t
    | .species z state =>
      ((z.lineage home).reflection.projectMut t state).map fun (x, put) =>
        (x, fun x => .species z (put x))
    | .assembly a =>
      (Assembly.projectMut t a.levels).map fun (x, put) =>
        (x, fun x => .assembly { a with levels := put x })
  invoke d n
    | .species z state, cells =>
      ((z.lineage home).reflection.invoke d n state cells).map fun (o, state, cells) =>
        (o, .species z state, cells)
    | .assembly a, cells =>
      (Assembly.onFirst (Layer.invoke d n cells) a.levels).map fun ((o, cells), levels) =>
        (o, .assembly { a with levels }, cells)
  get d n
    | .species z state => (z.lineage home).reflection.get d n state
    | .assembly a => a.get d n
  set d n v
    | .species z state =>
      ((z.lineage home).reflection.set d n v state).map fun (r, state) => (r, .species z state)
    | .assembly a => (a.set d n v).map fun (r, a) => (r, .assembly a)

/-! ## Loaders -/

/-- What a loader does before it asks a registry. -/
structure LoaderScript where
  /-- Names that fail, with the error. -/
  failing : List (String × LoadError) := []
  /-- Other names of names. -/
  aliases : List (String × String) := []

/-- A loader that first looks at the names that fail, then at the other names of a name, one step,
and then at a registry. -/
def LoaderScript.loader (script : LoaderScript) (home : String) (registry : Registry world) :
    FiniteLoader world where
  load name :=
    match script.failing.lookup name with
    | some e => .error e
    | none => registry.load ((script.aliases.lookup name).getD name)
  linked z := z.declare home
  names := registry.types.map (·.name) ++ Species.all.map fun z => (z.declare home).name
  load_mem := by
    intro n c h
    split at h
    · cases h
    · rw [List.mem_append]
      exact .inl (List.mem_map_of_mem (Registry.mem_of_load h))
  linked_mem z := by
    rw [List.mem_append]
    exact .inr (List.mem_map_of_mem (Species.mem_all z))

end ComponentHooks.Sample
