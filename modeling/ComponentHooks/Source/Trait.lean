import ComponentHooks.Source.Definition

/-!
# Traits and foreign code

A trait declares functions, constants and types that others define. Foreign code is declared without
definitions too.

* `Nested.traitMember`, `Nested.traitItem`: a member of a trait, and a trait or another name for
  bounds;
* `Nested.foreignMember`, `Nested.foreignItem`: a member of foreign code, and all of it.
-/

namespace ComponentHooks.Source

namespace Nested

variable (g : Nested)

/-! ## Traits -/

/-- A function with or without a body. -/
def traitFunction : Reader Phrase :=
  (g.signature false).next fun s => Tail.map (s.phrase ++ ·) <| .look fun ts =>
    if startsWithGroup .curly ts then g.body.tail
    else if startsWith ";" ts then (sign ";").tail
    else .fail ((Wanted.choice ["curly braces", "`;`"]).fault ts)

/-- A function or a constant of a trait, of which the tokens are known to begin with `const`. -/
def traitConstant : Reader (Bool × Phrase) :=
  .look fun ts =>
    if startsWithOneOf ["async", "unsafe", "extern", "fn"] (ts.drop 1) then
      g.traitFunction.map (false, ·)
    else (keyword "const").next fun x => .look fun ts =>
      if startsWithBinding ts then do
        let n ← constantName
        let (raw, y) ← g.constantRest false
        return (raw, x ++ n ++ y)
      else .fail <| (Wanted.choice ["identifier", "`_`", "`async`", "`unsafe`", "`extern`",
        "`fn`"]).fault ts

/-- A member of a trait behind its attributes. Where it says who may use it, or begins with
`default`, it is kept as it is written. -/
def traitMember : Reader (Bool × Phrase) :=
  let front : Tail Phrase := do
    let r ← reach
    let x ← optionalWord "default"
    return r.phrase ++ x
  front.before fun x => .look fun ts =>
    let plain := x.text = ""
    let r : Reader (Bool × Phrase) :=
      if startsWithWord "const" ts then g.traitConstant
      else if startsWithSignature false ts then g.traitFunction.map (false, ·)
      else if startsWithWord "type" ts then (g.typeAlias false true).map (false, ·.phrase)
      else if plain && startsWithCallPath ts then (callItem false).map (false, ·)
      else .fail (noItem plain ["`fn`", "`const`", "`type`"])
    r.map fun (raw, y) => (raw || !plain, x ++ y)

/-- What stands in the curly braces of a trait. -/
def traitBody : Tail Phrase :=
  g.whereClause ++ inside .curly
    (g.innerAttributes ++ several (!·.isEmpty) (g.attributed g.traitMember))

/-- What follows the name of a trait and its parameters. -/
def traitRest : Tail Phrase :=
  g.dueConstraint (fun ts => startsWithWord "where" ts || startsWithGroup .curly ts) ++ g.traitBody

/-- Bounds that a trait is another name for. -/
def traitAlias : Reader Phrase :=
  sign "=" ++
    items "+" (fun ts => startsWithWord "where" ts || startsWith ";" ts)
      ((g.boundOf false false).map (·.2)) ++
    g.whereClause ++ sign ";"

/-- A trait, or another name for bounds. -/
def traitItem : Reader Phrase :=
  .look fun ts =>
    let isBare := startsWithWord "trait" ts
    optionalWord "unsafe" ++ optionalWord "auto" ++ keyword "trait" ++ name ++ g.parameters ++
      Tail.look fun ts =>
        if !isBare || startsWithGroup .curly ts || startsWith ":" ts ||
          startsWithWord "where" ts then g.traitRest
        else if startsWith "=" ts then g.traitAlias.tail
        else .fail ((Wanted.choice ["curly braces", "`:`", "`where`", "`=`"]).fault ts)

/-! ## Foreign code -/

/-- A foreign function. One that is said to be safe, or has a body, is kept as it is written. -/
def foreignFunction : Reader (Bool × Phrase) :=
  (g.signature true).next fun s => .look fun ts =>
    if startsWithGroup .curly ts then g.body.tail.map fun x => (true, s.phrase ++ x)
    else (sign ";").tail.map fun x => (s.safe, s.phrase ++ x)

/-- A foreign variable. One that is said to be safe or not, or has a value, is kept as it is
written. -/
def foreignStatic : Reader (Bool × Phrase) :=
  (optional (startsWithOneOf ["unsafe", "safe"]) anyWord).before fun x =>
  (keyword "static" ++ optionalWord "mut" ++ name ++ sign ":" ++ g.typePhrase true).next fun y => do
    let v ← optional (startsWith "=") (sign "=" ++ g.valuePhrase)
    let z ← sign ";"
    let raw : Bool := x.text ≠ "" || v.text ≠ ""
    return (raw, x ++ y ++ v ++ z)

/-- A member of foreign code behind its attributes. -/
def foreignMember : Reader (Bool × Phrase) :=
  reach.before fun r => .look fun ts =>
    let plain := r = .inherited
    let m : Reader (Bool × Phrase) :=
      if startsWithSignature true ts then g.foreignFunction
      else if startsWithWord "static" ts ||
        startsWithOneOf ["unsafe", "safe"] ts && startsWithWord "static" (ts.drop 1) then
        g.foreignStatic
      else if startsWithWord "type" ts then
        (g.typeAlias true true).map fun t => (t.bounded || t.defined, t.phrase)
      else if plain && startsWithCallPath ts then (callItem false).map (false, ·)
      else .fail (noItem plain ["`fn`", "`static`", "`type`"])
    m.map fun (raw, x) => (raw, r.phrase ++ x)

/-- Foreign code with its calling convention. -/
def foreignItem : Reader Phrase :=
  optionalWord "unsafe" ++ keyword "extern" ++ optional startsWithText (anyToken .text) ++
    inside .curly (g.innerAttributes ++ several (!·.isEmpty) (g.attributed g.foreignMember))

end Nested

end ComponentHooks.Source
