import ComponentHooks.TypeDecl

/-!
# Loading declarations

* `LoadError`: why a name or a member table cannot be had;
* `Registry`: declarations by name, at most one for each name;
* `Loader`: what references are resolved against;
* `Loader.resolve`, `Loader.linkFailure?`: a reference, and the types that members need;
* `FiniteLoader`: a loader that answers with finitely many names.
-/

namespace ComponentHooks

/-! ## Errors -/

/-- Why a type or its members could not be had. -/
inductive LoadError where
  /-- The name is not known. -/
  | unresolved (typeName : String)
  /-- The members of a type need another type, and that one failed. -/
  | linkage (typeName : String) (cause : LoadError)
  /-- The loader itself failed. -/
  | loader (typeName : String) (message : String)
  deriving DecidableEq, Repr

namespace LoadError

/-- The text of the error, without its causes. -/
def message : LoadError → String
  | unresolved t => "Type " ++ t ++ " could not be resolved"
  | linkage t _ => "Failed to link " ++ t
  | loader t m => "Loader failed for " ++ t ++ ": " ++ m

/-- The texts of the further causes, outermost first. -/
def causes : LoadError → List String
  | linkage _ e => e.message :: e.causes
  | _ => []

/-- An unknown name sits somewhere along the chain of causes. -/
def isUnresolved : LoadError → Bool
  | unresolved _ => true
  | linkage _ e => e.isUnresolved
  | loader _ _ => false

end LoadError

/-! ## Registries -/

variable {U : Universe}

variable (U) in
/-- Declarations by name. -/
structure Registry where
  types : List (TypeDecl U)
  nodup : (types.map (·.name)).Nodup

namespace Registry

/-- No declarations. -/
def empty : Registry U := ⟨[], List.nodup_nil⟩

/-- The declaration of a name. -/
def find? (r : Registry U) (name : String) : Option (TypeDecl U) := r.types.find? (·.name = name)

/-- Without the declaration of a name. -/
def unregister (r : Registry U) (name : String) : Registry U where
  types := r.types.filter (·.name ≠ name)
  nodup := (List.filter_sublist.map _).nodup r.nodup

/-- With the declaration in place of any other of its name. -/
def register (r : Registry U) (c : TypeDecl U) : Registry U where
  types := c :: (r.unregister c.name).types
  nodup := by
    simp only [List.map_cons, List.nodup_cons]
    exact ⟨by simp [unregister], (r.unregister c.name).nodup⟩

/-- The number of declarations. -/
def size (r : Registry U) : Nat := r.types.length

/-- The declaration of a name, or the error that it is unknown. -/
def load (r : Registry U) (name : String) : Except LoadError (TypeDecl U) :=
  match r.find? name with
  | some c => .ok c
  | none => .error (.unresolved name)

theorem mem_of_load {r : Registry U} {name : String} {c : TypeDecl U} (h : r.load name = .ok c) :
    c ∈ r.types := by
  unfold load at h
  split at h
  · rename_i hf
    cases h
    exact List.mem_of_find?_eq_some hf
  · cases h

end Registry

/-! ## Loaders -/

variable (U) in
/-- What references are resolved against: by-name loading, which may fail, and the declarations of
linked types, which cannot. There can be an answer to every name. -/
structure Loader where
  load : String → Except LoadError (TypeDecl U)
  linked : U.Link → TypeDecl U

namespace Loader

/-- The declaration that a reference stands for. -/
def resolve (l : Loader U) : TypeRef U → Except LoadError (TypeDecl U)
  | .named n => l.load n
  | .linked t => .ok (l.linked t)

/-- The name that a reference mentions. -/
def label (l : Loader U) : TypeRef U → String
  | .named n => n
  | .linked t => (l.linked t).name

/-- Why the members of `c` cannot be told: the first of the types they need that does not load. -/
def linkFailure? (l : Loader U) (c : TypeDecl U) : Option LoadError :=
  c.links.findSome? fun n =>
    match l.load n with
    | .ok _ => none
    | .error e => some (.linkage c.name e)

end Loader

variable (U) in
/-- A loader whose declarations have finitely many names, `names`. -/
structure FiniteLoader extends Loader U where
  names : List String
  load_mem : ∀ {n c}, load n = .ok c → c.name ∈ names
  linked_mem : ∀ l, (linked l).name ∈ names

namespace FiniteLoader

instance : CoeOut (FiniteLoader U) (Loader U) := ⟨toLoader⟩

theorem name_mem_of_resolve {l : FiniteLoader U} {r : TypeRef U} {c : TypeDecl U}
    (h : l.resolve r = .ok c) : c.name ∈ l.names := by
  cases r with
  | named n => exact l.load_mem h
  | linked t => cases h; exact l.linked_mem t

end FiniteLoader

end ComponentHooks
