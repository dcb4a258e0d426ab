import ComponentHooks.Source.Definition

/-!
# Blocks of methods

The methods and constants of a type stand in a block.

* `BlockMethod`, `BlockItem`, `HookBlock`: the source of a block;
* `Nested.blockMember`: a member of a block, which need not be a method or a constant;
* `Nested.implementation`: a block.
-/

namespace ComponentHooks.Source

/-! ## Sources -/

/-- A method in a block. -/
structure BlockMethod where
  signature : Signature
  reach : Reach := .inherited
  attributes : List Attribute := []
  deriving Repr

/-- The name of a method. -/
def BlockMethod.name (m : BlockMethod) : String := m.signature.name

/-- An item of a block. -/
inductive BlockItem where
  | method (m : BlockMethod)
  | constant (name : String) (attributes : List Attribute)
  deriving Repr

namespace BlockItem

/-- The name of an item. -/
def name : BlockItem → String
  | method m => m.name
  | constant n _ => n

/-- The attributes of an item. -/
def attributes : BlockItem → List Attribute
  | method m => m.attributes
  | constant _ as => as

/-- The method that an item is. -/
def method? : BlockItem → Option BlockMethod
  | method m => some m
  | constant _ _ => none

end BlockItem

/-- The methods of a type. -/
structure HookBlock where
  selfType : String
  /-- What stands between angle brackets, with the brackets; nothing if there are no parameters. -/
  generics : String := ""
  /-- The interface that the block implements, if it does. -/
  interface? : Option String := none
  items : List BlockItem
  deriving Repr

namespace Nested

variable (g : Nested)

/-! ## Members -/

/-- A member of a block behind its attributes `as`, who may use it and maybe `default`. A method
without a body is none. -/
def blockMemberRest (as : List Attribute) (r : Reach) (preset : Bool) :
    Reader (Option BlockItem × Bool × Phrase) :=
  .look fun ts =>
    let plain := r = .inherited && !preset
    if startsWithSignature false ts then
      (g.signature false).next fun s => .look fun ts =>
        if startsWith ";" ts then (sign ";").tail.map fun x => (none, true, s.phrase ++ x)
        else g.body.tail.map fun x =>
          (some (.method { signature := s, reach := r, attributes := as }), false, s.phrase ++ x)
    else if startsWithWord "const" ts then
      (keyword "const").next fun x => do
        let n ← constantName
        let (raw, y) ← g.constantRest true
        return (if raw then none else some (.constant n.text as), raw, x ++ n ++ y)
    else if startsWithWord "type" ts then
      (g.typeAlias false true).map fun t => (none, t.bounded || !t.defined, t.phrase)
    else if plain && startsWithCallPath ts then (callItem false).map (none, false, ·)
    else .fail <| noItem plain <|
      (if preset || startsWithWord "default" ts then [] else ["`default`"]) ++
        ["`fn`", "`const`", "`type`"]

/-- A member of a block. -/
def blockMember : Reader (Option BlockItem × Phrase) :=
  let front : Tail (List Attribute × Reach × Phrase × Phrase) := do
    let (as, x) ← g.attributes
    let r ← reach
    let y ← optional (fun ts => startsWithWord "default" ts && !startsWith "!" (ts.drop 1)) anyWord
    return (as, r, y, x ++ r.phrase ++ y)
  (front.before fun (as, r, preset, x) =>
    (g.blockMemberRest as r (preset.text ≠ "")).map fun (i?, raw, y) =>
      (i?, raw, x ++ y)).keptWith

/-- The members of a block, up to the end of the tokens. -/
def blockMembers : Tail (List BlockItem × Phrase) :=
  .loop (fun _ ts => !ts.isEmpty)
    (fun (is, x) => g.blockMember.map fun (i?, y) => (is ++ i?.toList, x ++ y)) ([], {})

/-! ## Blocks -/

/-- A block behind the type that it is for; `b` says what it is for. -/
def blockRest (b : HookBlock) : Tail (HookBlock × Phrase) := do
  let w ← g.whereClause
  let inner ← group .curly
  let a ← Tail.within inner <| g.innerAttributes.next fun a => g.blockMembers.map (a, ·)
  let ((a, items, x), _) := a
  return ({ b with items }, w ++ (a ++ x).bracketed .curly)

/-- A block, and whether it is kept as it is written: where it is for constants, or where what it
implements is no path. -/
def implementation : Reader (HookBlock × Bool × Phrase) :=
  (optionalWord "default" ++ optionalWord "unsafe" ++ keyword "impl").next fun x => do
    let p ← Tail.look fun ts => if opensParameters ts then g.parameters else blank
    let c ← optional (fun ts => startsWith "?" ts && startsWithWord "const" (ts.drop 1)) (sign "?")
    let k ← optionalWord "const"
    let n ← optional (fun ts => startsWith "!" ts && !startsWithGroup .curly (ts.drop 1)) (sign "!")
    let t ← g.type true
    let front := x ++ p ++ c ++ k ++ n ++ t.phrase
    let forConstants := k.text ≠ ""
    .look fun ts =>
      if startsWithWord "for" ts then do
        let f ← keyword "for"
        let s ← g.typePhrase true
        let isPath := match t with
          | .path _ => true
          | _ => false
        let (b, y) ← g.blockRest
          { selfType := s.text, generics := p.text, interface? := t.phrase.text, items := [] }
        return (b, forConstants || !isPath, front ++ f ++ s ++ y)
      else if n.text ≠ "" then .fail (.misuse .negativeBlock)
      else do
        let (b, y) ← g.blockRest { selfType := t.phrase.text, generics := p.text, items := [] }
        return (b, forConstants, front ++ y)

end Nested

end ComponentHooks.Source
