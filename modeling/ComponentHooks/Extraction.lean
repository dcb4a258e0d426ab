import ComponentHooks.HandleTable
import ComponentHooks.Metadata

/-!
# Extracting metadata

The findings of a walk are recorded one by one. The first member of a name wins under each kind,
so a type shadows what the walk meets after it, and a recorded member gets its slot at once.

* `recordMethod`, `recordField`, `recordType`, `recordFinding`: what one finding adds;
* `extract`: the metadata of a type, or the cycle it sits on.
-/

namespace ComponentHooks

open Logged

variable {U : Universe}

/-- A step that may make handle slots. -/
abbrev Slotting (U : Universe) (α : Type) : Type := Logged (HandleTable U) α

/-- Records a method under one kind, if it carries the kind and its name is free there. -/
def recordMethodAs (x : Method U) (m : Metadata U) (k : Kind) : Slotting U (Metadata U) :=
  if x.carries k && !m.hasMethod k x.id.name then do
    let _ ← HandleTable.requestMethod x
    return m.addMethod k x
  else
    return m

/-- Records a field under one kind, if it carries the kind and its name is free there. -/
def recordFieldAs (x : Field U) (m : Metadata U) (k : Kind) : Slotting U (Metadata U) :=
  if x.carries k && !m.hasField k x.id.name then do
    let _ ← HandleTable.requestField x
    return m.addField k x
  else
    return m

/-- Records a method under every kind that methods can have. -/
def recordMethod (m : Metadata U) (x : Method U) : Slotting U (Metadata U) :=
  if x.isEligible then Site.method.kinds.foldlM (recordMethodAs x) m else return m

/-- Records a field under every kind that fields can have, and whether it is validated. -/
def recordField (m : Metadata U) (x : Field U) : Slotting U (Metadata U) :=
  if x.isEligible then
    Site.field.kinds.foldlM (recordFieldAs x) { m with validated := m.validated || x.validated }
  else
    return m

/-- Records a type: its markers, and its members if the types they need can be loaded. -/
def recordType (l : Loader U) (m : Metadata U) (c : TypeDecl U) : Slotting U (Metadata U) :=
  match l.linkFailure? c with
  | none => do
    let m ← c.fields.foldlM recordField (m.addMarkers c)
    c.methods.foldlM recordMethod m
  | some e => do
    if e.isUnresolved then
      emit (.membersSkipped c.name .fields e)
      emit (.membersSkipped c.name .methods e)
    return m.addMarkers c

/-- Records one finding of a walk. -/
def recordFinding (l : Loader U) (m : Metadata U) : Finding U → Slotting U (Metadata U)
  | .entered c => recordType l m c
  | .skipped c r e => do
    emit (.supertypeSkipped c.name (l.label r) e)
    return m

/-- **The metadata of `root`.** Slots made before a cycle is met stay. -/
def extract (l : FiniteLoader U) (root : TypeDecl U) : Slotting U (Except Cycle (Metadata U)) := do
  let w := l.walk root
  let m ← w.trace.foldlM (recordFinding l) { name := root.name }
  match h : w.stop with
  | none => do
    emit (.extracted root.name w.names.length m.methods.size m.fields.size)
    return .ok m
  | some (.cycle c) => return .error c
  | some .exhausted => absurd h (l.walk_stop_ne_exhausted root)

end ComponentHooks
