import ComponentHooks.Extraction

/-!
# Running and accessing members

Each operation asks for the member's slot first. A member with a handle is used directly, any other
through the target, by name.

* `InvokeError`: why a member could not be used, or how it failed;
* `Scene`: a target, if there is one, and the shared state;
* `runMethod`, `readField`, `writeField`: the use of a member, given its slot;
* `invoke`, `invokeAll`, `getField`, `getFieldAs`, `setField`: the same with the slot asked for.
-/

namespace ComponentHooks

variable {U : Universe} {τ : Type}

/-! ## Errors -/

/-- Why a member could not be used, or how it failed. -/
inductive InvokeError where
  /-- The hook itself failed. -/
  | targetThrew (member : MemberId) (target : String) (failure : Failure)
  /-- An instance member was used without a target. -/
  | missingTarget (member : MemberId)
  /-- The target does not contain the member's declaring type. -/
  | notApplicable (member : MemberId) (target : String)
  /-- A field was used with a value of a type that is not its own. -/
  | valueType (member : MemberId) (expected : String)
  deriving DecidableEq, Repr

namespace InvokeError

/-- The text of the error, without its causes. -/
def message : InvokeError → String
  | targetThrew m t _ => m.label ++ " failed on " ++ t
  | missingTarget m => m.label ++ " is an instance member and needs a target"
  | notApplicable m t => m.label ++ " is not reachable on " ++ t
  | valueType m t => "Value for " ++ m.label ++ " is not a " ++ t

/-- The texts of the further causes, outermost first. -/
def causes : InvokeError → List String
  | targetThrew _ _ f => f.message :: f.causes
  | _ => []

/-- The failure came from the hook. -/
def isTargetFailure : InvokeError → Bool
  | targetThrew .. => true
  | _ => false

end InvokeError

/-- The label of the target of a static member. -/
def staticTarget : String := "<static>"

/-! ## The use of a member -/

variable (U τ) in
/-- What a member is used on. -/
structure Scene where
  target : Option τ
  shared : U.Shared

/-- The end of a hook as the end of its invocation. -/
def Outcome.onTarget (o : Outcome) (m : MemberId) (target : String) : Except InvokeError Unit :=
  o.mapError (.targetThrew m target)

/-- The end of a write as the end of the operation. -/
def writeResult (f : Field U) (r : Except (Value U) Unit) : Except InvokeError Unit :=
  r.mapError fun _ => .valueType f.id f.typeName

variable (R : Reflection U τ)

/-- Runs a body on the shared state. -/
def runShared (m : Method U) (run : U.Shared → Outcome × U.Shared) (s : Scene U τ) :
    Except InvokeError Unit × Scene U τ :=
  let (o, shared) := run s.shared
  (o.onTarget m.id staticTarget, { s with shared })

/-- Runs a method, given its slot. -/
def runMethod (m : Method U) (slot : Except Refusal (MethodHandle U)) (s : Scene U τ) :
    Except InvokeError Unit × Scene U τ :=
  match slot with
  | .ok (.onShared run) => runShared m run s
  | .ok (.onState owner run) =>
    match s.target with
    | none => (.error (.missingTarget m.id), s)
    | some x =>
      match R.projectMut owner x with
      | none => (.error (.notApplicable m.id (R.typeName x)), s)
      | some (state, put) =>
        let (o, state, shared) := run owner state s.shared
        let x := put state
        (o.onTarget m.id (R.typeName x), ⟨some x, shared⟩)
  | .error _ =>
    match m.body with
    | some (.onShared run) => runShared m run s
    | _ =>
      match s.target with
      | none => (.error (.missingTarget m.id), s)
      | some x =>
        let declaring := if m.isAbstract then none else some m.id.declaring
        match R.invoke declaring m.id.name x s.shared with
        | none => (.error (.notApplicable m.id (R.typeName x)), s)
        | some (o, x, shared) => (o.onTarget m.id (R.typeName x), ⟨some x, shared⟩)

/-- Reads a field, given its slot. -/
def readField (f : Field U) (slot : Except Refusal (FieldHandle U)) (s : Scene U τ) :
    Except InvokeError (Value U) :=
  match slot with
  | .ok (.onShared get _) => .ok (get s.shared)
  | .ok (.onState owner get _) =>
    match s.target with
    | none => .error (.missingTarget f.id)
    | some x =>
      match (R.project owner x).bind (get owner) with
      | none => .error (.notApplicable f.id (R.typeName x))
      | some v => .ok v
  | .error _ =>
    match f.access with
    | some (.onShared get _) => .ok (get s.shared)
    | _ =>
      match s.target with
      | none => .error (.missingTarget f.id)
      | some x =>
        match R.get (some f.id.declaring) f.id.name x with
        | none => .error (.notApplicable f.id (R.typeName x))
        | some v => .ok v

/-- Writes a field of the shared state. -/
def writeShared (f : Field U) (set : Value U → U.Shared → Except (Value U) Unit × U.Shared)
    (v : Value U) (s : Scene U τ) : Except InvokeError Unit × Scene U τ :=
  let (r, shared) := set v s.shared
  (writeResult f r, { s with shared })

/-- Writes a field, given its slot. -/
def writeField (f : Field U) (slot : Except Refusal (FieldHandle U)) (v : Value U)
    (s : Scene U τ) : Except InvokeError Unit × Scene U τ :=
  match slot with
  | .ok (.onShared _ set) => writeShared f set v s
  | .ok (.onState owner _ set) =>
    match s.target with
    | none => (.error (.missingTarget f.id), s)
    | some x =>
      match R.projectMut owner x with
      | none => (.error (.notApplicable f.id (R.typeName x)), s)
      | some (state, put) =>
        let (r, state) := set owner v state
        (writeResult f r, { s with target := some (put state) })
  | .error _ =>
    match f.access with
    | some (.onShared _ set) => writeShared f set v s
    | _ =>
      match s.target with
      | none => (.error (.missingTarget f.id), s)
      | some x =>
        match R.set (some f.id.declaring) f.id.name v x with
        | none => (.error (.notApplicable f.id (R.typeName x)), s)
        | some (r, x) => (writeResult f r, { s with target := some x })

/-! ## The operations -/

/-- Runs a method. -/
def invoke (m : Method U) (s : Scene U τ) : Slotting U (Except InvokeError Unit × Scene U τ) := do
  let slot ← HandleTable.requestMethod m
  return runMethod R m slot s

/-- Runs methods in order and stops at the first failure. -/
def invokeEach : List (Method U) → Scene U τ → Slotting U (Except InvokeError Unit × Scene U τ)
  | [], s => return (.ok (), s)
  | m :: ms, s => do
    match ← invoke R m s with
    | (.ok (), s) => invokeEach ms s
    | (.error e, s) => return (.error e, s)

/-- Runs every method that the metadata records under a kind, in order; the answer is their number,
or the first failure. -/
def invokeAll (m : Metadata U) (k : Kind) (s : Scene U τ) :
    Slotting U (Except InvokeError Nat × Scene U τ) := do
  let (r, s) ← invokeEach R (m.methods k) s
  return (r.map fun _ => (m.methods k).length, s)

/-- Reads a field. -/
def getField (f : Field U) (s : Scene U τ) : Slotting U (Except InvokeError (Value U)) := do
  let slot ← HandleTable.requestField f
  return readField R f slot s

/-- Reads a field whose value is to have type `t`. -/
def getFieldAs (t : U.Ty) (f : Field U) (s : Scene U τ) :
    Slotting U (Except InvokeError (U.Val t)) := do
  let r ← getField R f s
  return r.bind fun v =>
    match v.as? t with
    | some x => .ok x
    | none => .error (.valueType f.id f.typeName)

/-- Writes a field. -/
def setField (f : Field U) (v : Value U) (s : Scene U τ) :
    Slotting U (Except InvokeError Unit × Scene U τ) := do
  let slot ← HandleTable.requestField f
  return writeField R f slot v s

end ComponentHooks
