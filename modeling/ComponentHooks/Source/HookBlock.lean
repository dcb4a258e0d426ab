import ComponentHooks.Source.Struct

/-!
# Blocks of hooks

The methods of a struct stand in a block. Those with a marker, or with the attribute for hooks
without one, are hooks; all other methods are left alone.

* `HookBlock.ofTokens`: the block that tokens write;
* `DescribedHook`, `Expansion`: what becomes of it;
* `BlockMethod.hook?`: the hook that a method is;
* **`HookBlock.expand`**: the expansion of a block, or the first fault of its source.
-/

namespace ComponentHooks.Source

/-! ## Sources -/

/-- A block with attributes in front. -/
def Nested.attributedBlock (g : Nested) : Reader (HookBlock × Phrase) :=
  g.attributePhrase.before fun x => g.implementation.map fun (b, _, y) => (b, x ++ y)

/-- The block that tokens write. -/
def HookBlock.ofTokens : List Token → Except Fault HookBlock :=
  (Nested.throughout Nested.attributedBlock).whole

/-! ## Hooks -/

/-- A hook as the engine is told about it. -/
structure DescribedHook where
  name : String
  /-- The hook runs without a state. -/
  isStatic : Bool
  visibility : Visibility
  markers : List Marker
  deriving DecidableEq, Repr

/-- Hooks take the state by reference, or run without it. -/
def Receiver.check : Receiver → Except Fault Unit
  | shared | exclusive => .ok ()
  | owned | typed => .error .hookReceiver

namespace BlockMethod

/-- The method is a hook, if all its markers can be read. -/
def isHook (m : BlockMethod) : Bool := m.attributes.any fun a => a.isMarker || a.isHook

/-- What the method takes, apart from any more arguments, which are none in particular. -/
def parameters (m : BlockMethod) : List Parameter :=
  m.signature.parameters.filter (·.form ≠ .rest)

/-- Hooks take the state by reference, or nothing, and nothing else. -/
def checkParameters : List Parameter → Except Fault Unit
  | [] => .ok ()
  | p :: ps => do
    match p.form with
    | .receiver r => r.check
    | _ => throw .hookArguments
    unless ps.isEmpty do throw .hookArguments

/-- The hook that a method is, if it is one. Markers are read in any case; then a hook is neither
asynchronous nor generic, and takes what hooks take. -/
def hook? (m : BlockMethod) : Except Fault (Option DescribedHook) := do
  let markers ← readMarkers .method m.attributes
  if m.isHook then
    if m.signature.asynchronous then throw .hookAsynchronous
    unless m.signature.generics = "" do throw .hookGeneric
    checkParameters m.parameters
    return some { name := m.name, isStatic := m.parameters.isEmpty,
                  visibility := m.reach.visibility, markers }
  else return none

/-- The method without the attributes that make it a hook. -/
def bare (m : BlockMethod) : BlockMethod :=
  { m with attributes := m.attributes.filter fun a => !(a.isMarker || a.isHook) }

end BlockMethod

/-! ## Blocks -/

/-- An item without the attributes that make it a hook. -/
def BlockItem.bare : BlockItem → BlockItem
  | method m => method m.bare
  | constant n as => constant n as

/-- What becomes of a block: the block itself, with bare items, and its hooks. -/
structure Expansion where
  selfType : String
  items : List BlockItem
  hooks : List DescribedHook
  deriving Repr

/-- The hooks that can be run by name. -/
def Expansion.dispatched (x : Expansion) : List DescribedHook := x.hooks.filter (!·.isStatic)

/-- The hooks among methods, in their order. -/
def readHooks : List BlockMethod → Except Fault (List DescribedHook)
  | [] => .ok []
  | m :: ms => do
    let h ← m.hook?
    let hs ← readHooks ms
    return h.toList ++ hs

/-- **The expansion of a block**, or the first fault of its source. -/
def HookBlock.expand (b : HookBlock) : Except Fault Expansion := do
  unless b.generics = "" && b.interface?.isNone do throw .blockNotInherent
  let hooks ← readHooks (b.items.filterMap (·.method?))
  return { selfType := b.selfType, items := b.items.map (·.bare), hooks }

end ComponentHooks.Source
