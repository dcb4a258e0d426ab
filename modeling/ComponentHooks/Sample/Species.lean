import ComponentHooks.Lineage
import ComponentHooks.Sample.World

/-!
# The described structs

Each species has a shape, the shapes of its ancestors, and a component that says which fields and
hooks take part in the lifecycle. `home` is the module in which they are declared.

* `Species.shape`, `Species.parents`, `Species.lineage`;
* `Species.declare`, `Species.start`: the declaration, and a new instance.
-/

namespace ComponentHooks.Sample

open Species

/-! ## Shapes -/

/-- Every species. -/
def Species.all : List Species :=
  [base, derived, override, leaf, auditable, dataSource, signupForm, socket, templates, narcissus,
    plain]

theorem Species.mem_all (z : Species) : z ∈ Species.all := by cases z <;> decide

/-- The own fields of the struct. -/
@[reducible] def Species.shape : Species → Shape world
  | base =>
    ⟨"Base", [("name", .string), ("limit", .u32), ("handle", .optional), ("inits", .u32),
      ("closes", .u32)]⟩
  | derived => ⟨"Derived", []⟩
  | override =>
    ⟨"Override", [("name", .string), ("tags", .strings), ("inits", .u32), ("warms", .u32)]⟩
  | leaf => ⟨"Leaf", [("pool", .i64), ("audits", .u32)]⟩
  | auditable => ⟨"Auditable", [("level", .u8)]⟩
  | dataSource => ⟨"DataSource", []⟩
  | signupForm => ⟨"SignupForm", [("email", .string)]⟩
  | socket => ⟨"Socket", [("closed", .bool)]⟩
  | templates => ⟨"Templates", []⟩
  | narcissus => ⟨"Narcissus", [("mirror", .bool)]⟩
  | plain => ⟨"Plain", [("value", .u64)]⟩

/-- The identifier of the struct. -/
def Species.ident (z : Species) : String := z.shape.ident

/-- The field that embeds the parent, and the parent. -/
def Species.parent? : Species → Option (String × Species)
  | derived => some ("base", base)
  | override => some ("base", base)
  | leaf => some ("over", override)
  | _ => none

/-- The shapes of the ancestors. -/
@[reducible] def Species.parents : Species → Layout world
  | derived => [base.shape]
  | override => [base.shape]
  | leaf => [override.shape, base.shape]
  | _ => []

/-- The state of an instance. -/
abbrev Species.State (z : Species) : Type := Record world (z.shape :: z.parents)

/-! ## Hooks -/

/-- A hook on a struct of the species. -/
abbrev Species.Hook (z : Species) : Type := ComponentHooks.Hook world (z.shape :: z.parents)

/-- A body that changes its struct and cannot fail. Where there is no next state, a number is beyond
its type. -/
def changes {ls : Layout world} (f : Record world ls → Option (Record world ls)) :
    HookBody world ls :=
  .onSelf fun r cells =>
    match f r with
    | some r => (.ok (), r, cells)
    | none => (.ok (), r, { cells with overflowed := true })

/-- A body that changes its struct if a condition holds, and fails otherwise. -/
def changesIf {ls : Layout world} (p : Record world ls → Bool) (failure : Failure)
    (f : Record world ls → Option (Record world ls)) : HookBody world ls :=
  .onSelf fun r cells =>
    if p r then
      match f r with
      | some r => (.ok (), r, cells)
      | none => (.ok (), r, { cells with overflowed := true })
    else (.error failure, r, cells)

/-- A count that has gone up. -/
def raised (n : UInt32) (step : Nat := 1) : Option UInt32 := Ty.u32.ofInt? (n.toNat + step)

/-- The error of a service that refuses. -/
def refused : Failure := { message := "connection refused" }

/-- The hooks of a base. -/
def baseHooks : List base.Hook :=
  [{ name := "init", markers := [{ kind := .postConstruct }]
     body := changesIf (fun ((name, _), _) => name ≠ "")
       { message := "service.name is not configured" }
       fun ((name, limit, handle, inits, closes, _), _) =>
         (raised inits).map fun inits => ((name, limit, handle, inits, closes, ()), ()) },
   { name := "close", visibility := .exposed, markers := [{ kind := .preDestroy }]
     body := changesIf (fun ((_, limit, _), _) => limit ≠ 0)
       { message := "pool exhausted", causes := [refused.message] }
       fun ((name, limit, handle, inits, closes, _), _) =>
         (raised closes).map fun closes => ((name, limit, handle, inits, closes, ()), ()) },
   { name := "flush"
     body := changes fun ((name, limit, handle, inits, closes, _), _) =>
       (raised closes 10).map fun closes => ((name, limit, handle, inits, closes, ()), ()) }]

/-- The hooks of an override. -/
def overrideHooks : List override.Hook :=
  [{ name := "init", markers := [{ kind := .postConstruct }]
     body := changes fun ((name, tags, inits, warms, _), parent) =>
       (raised inits).map fun inits => ((name, tags, inits, warms, ()), parent) },
   { name := "start", visibility := .exposed
     markers := [{ kind := .postConstruct }, { kind := .warmUp }]
     body := changesIf (fun ((_, tags, _), _) => !tags.isEmpty)
       { message := "start failed", causes := ["no tags"] }
       fun ((name, tags, inits, warms, _), parent) =>
         (raised warms).map fun warms => ((name, tags, inits, warms, ()), parent) }]

/-- The hooks of a leaf. -/
def leafHooks : List leaf.Hook :=
  [{ name := "prepare", visibility := .exposed
     markers := [{ kind := .preConfiguration }, { kind := .resource, value := some "conf" }]
     body := changes fun ((pool, audits, _), parent) =>
       (Ty.i64.ofInt? (pool.toInt * 2 + 1)).map fun pool => ((pool, audits, ()), parent) },
   { name := "group", markers := [{ kind := .resources, entries := ["a", "b"] }]
     body := changesIf (fun ((pool, _), _) => 0 ≤ pool) refused some },
   { name := "audit"
     body := changes fun ((pool, audits, _), parent) =>
       (raised audits).map fun audits => ((pool, audits, ()), parent) }]

/-- The hooks of an auditable. -/
def auditableHooks : List auditable.Hook :=
  [{ name := "audit", markers := [{ kind := .warmUp }]
     body := changes fun ((level, _), _) =>
       (Ty.u8.ofInt? (level.toNat + 1)).map fun level => ((level, ()), ()) }]

/-- The hooks of a socket. -/
def socketHooks : List socket.Hook :=
  [{ name := "close", body := changes fun _ => some ((true, ()), ()) }]

/-- The hooks of templates, which belong to the type. -/
def templatesHooks : List templates.Hook :=
  [{ name := "warm", visibility := .exposed, markers := [{ kind := .warmUp }]
     body := .onShared fun cells => (.ok (), { cells with warmed := cells.warmed + 1 }) },
   { name := "verify", markers := [{ kind := .warmUp }]
     body := .onShared fun cells =>
       (if 2 < cells.warmed then .error refused else .ok (), cells) }]

/-- The hooks of a plain struct. -/
def plainHooks : List plain.Hook :=
  [{ name := "bump", visibility := .exposed
     markers := [{ kind := .preDestroy }, { kind := .resources }]
     body := changes fun ((value, _), _) =>
       (Ty.u64.ofInt? (value.toNat + 1)).map fun value => ((value, ()), ()) }]

/-! ## Components -/

/-- What a species adds to its parent. -/
abbrev Species.Part (z : Species) : Type := Component world z.shape z.parents

variable (home : String)

/-- The component of a base. -/
def baseComponent : base.Part where
  link := base
  path := home ++ "::Base"
  typeName := "zoo::Base"
  hooked := true
  fields :=
    [{ name := "name", typeText := "String"
       markers := [{ kind := .configuration, value := some "service.name" }] },
     { name := "limit", typeText := "u32", visibility := .exposed, validated := true
       markers := [{ kind := .configurationVariable, value := some "LIMIT" }] },
     { name := "handle", typeText := "Option < String >"
       markers := [{ kind := .resource, value := some "ds" }] }]
  hooks := baseHooks

/-- The component of a derived struct. -/
def derivedComponent : derived.Part where
  link := derived
  path := home ++ "::Derived"
  typeName := "zoo::Derived"

/-- The component of an override. -/
def overrideComponent : override.Part where
  link := override
  path := home ++ "::Override"
  typeName := "zoo::Override"
  markers := [{ kind := .resources, entries := ["primary", "replica"] }]
  implements := [.named "zoo::Closeable"]
  hooked := true
  fields :=
    [{ name := "name", typeText := "String"
       markers := [{ kind := .configuration, value := some "override.name" }] },
     { name := "tags", typeText := "Vec < String >", visibility := .exposed
       markers := [{ kind := .configuration }] }]
  hooks := overrideHooks

/-- The component of a leaf. -/
def leafComponent : leaf.Part where
  link := leaf
  path := home ++ "::Leaf"
  typeName := "zoo::Leaf"
  markers := [{ kind := .resource }, { kind := .resource, value := some "leaf" }]
  implements := [.linked auditable, .named "zoo::Closeable"]
  hooked := true
  fields :=
    [{ name := "pool", typeText := "i64", visibility := .exposed
       markers := [{ kind := .resources, entries := ["x", "y"] },
         { kind := .resource, value := some "z" }] }]
  hooks := leafHooks

/-- The component of an auditable. -/
def auditableComponent : auditable.Part where
  link := auditable
  path := home ++ "::Auditable"
  typeName := "zoo::Auditable"
  hooked := true
  fields :=
    [{ name := "level", typeText := "u8"
       markers := [{ kind := .configuration, value := some "audit.level" }] }]
  hooks := auditableHooks

/-- The component of a data source. -/
def dataSourceComponent : dataSource.Part where
  link := dataSource
  path := home ++ "::DataSource"
  typeName := "zoo::DataSource"
  markers := [{ kind := .resource, value := some "jdbc/main" },
    { kind := .resources, entries := ["a", "b"] }, { kind := .resource }]

/-- The component of a sign-up form. -/
def signupFormComponent : signupForm.Part where
  link := signupForm
  path := home ++ "::SignupForm"
  typeName := "zoo::SignupForm"
  fields := [{ name := "email", typeText := "String", validated := true }]

/-- The component of a socket. -/
def socketComponent : socket.Part where
  link := socket
  path := home ++ "::Socket"
  typeName := "zoo::Socket"
  implements := [.named "zoo::Closeable"]
  hooked := true
  hooks := socketHooks

/-- The component of templates. -/
def templatesComponent : templates.Part where
  link := templates
  path := home ++ "::Templates"
  typeName := "zoo::Templates"
  hooked := true
  hooks := templatesHooks

/-- The component of a narcissus, which appears in its own supertype chain. -/
def narcissusComponent : narcissus.Part where
  link := narcissus
  path := home ++ "::Narcissus"
  typeName := "zoo::Narcissus"
  implements := [.linked narcissus]
  fields :=
    [{ name := "mirror", typeText := "bool"
       markers := [{ kind := .configuration, value := some "mirror" }] }]

/-- The component of a plain struct, which has the name of its home. -/
def plainComponent : plain.Part where
  link := plain
  path := home ++ "::Plain"
  typeName := home ++ "::Plain"
  hooked := true
  fields :=
    [{ name := "value", typeText := "u64", visibility := .exposed
       markers := [{ kind := .resource }] }]
  hooks := plainHooks

/-- A species with its ancestors. -/
def Species.lineage : (z : Species) → Lineage world (z.shape :: z.parents)
  | base => .cons (baseComponent home) .nil
  | derived => .cons (derivedComponent home) (.cons (baseComponent home) .nil)
  | override => .cons (overrideComponent home) (.cons (baseComponent home) .nil)
  | leaf =>
    .cons (leafComponent home) (.cons (overrideComponent home) (.cons (baseComponent home) .nil))
  | auditable => .cons (auditableComponent home) .nil
  | dataSource => .cons (dataSourceComponent home) .nil
  | signupForm => .cons (signupFormComponent home) .nil
  | socket => .cons (socketComponent home) .nil
  | templates => .cons (templatesComponent home) .nil
  | narcissus => .cons (narcissusComponent home) .nil
  | plain => .cons (plainComponent home) .nil

/-- The declaration of a species. -/
def Species.declare (z : Species) : TypeDecl world := (z.lineage home).declare

/-- The species with exactly this identifier or type name. -/
def Species.named? (text : String) : Option Species :=
  Species.all.find? fun z => z.ident = text || (z.declare home).name = text

/-- A new instance. -/
def Species.start (z : Species) : z.State := Record.fill Ty.default _

end ComponentHooks.Sample
