import ComponentHooks.Source.Block
import ComponentHooks.Source.Trait

/-!
# Declarations

Functions, types, traits and blocks can be declared wherever statements stand, and in modules.

* `Nested.useTreeOf`: what is taken over from elsewhere;
* `Nested.moduleItem`, `Nested.staticItem`: some of the declarations;
* `Nested.itemOf`: any declaration.
-/

namespace ComponentHooks.Source

/-! ## Names from elsewhere -/

/-- Another name for what is taken over. -/
def rename : Reader Phrase :=
  keyword "as" ++ Reader.look fun ts =>
    if startsWithBinding ts then anyWord
    else .fail (Wanted.choice ["identifier", "underscore"]).fault

/-- Other code that is taken over as a whole. -/
def externItem : Reader Phrase :=
  keyword "extern" ++ keyword "crate" ++
    (Reader.look fun ts => if startsWithWord "self" ts then anyWord else name) ++
    optional (startsWithWord "as") (keyword "as" ++
      Reader.look fun ts => if startsWithWord "_" ts then anyWord else name) ++
    sign ";"

/-- A family of calls that are declared together; all of it is kept as it is written. -/
def macroItem : Reader Phrase :=
  keyword "macro" ++ name ++ Reader.look fun ts =>
    if startsWithGroup .curly ts then anyGroup
    else if startsWithGroup .round ts then anyGroup ++ groupPhrase .curly
    else .fail (Wanted.choice ["parentheses", "curly braces"]).fault

namespace Nested

variable (g : Nested)

/-- A path that is taken over, all that it leads to, or several of them in curly braces. With it
comes whether two colons stand in front of one in curly braces. -/
def useTreeOf (rooted : Bool) : Reader (Bool × Phrase) :=
  .look fun ts =>
    if startsWithIdentifier ts || startsWithOneOf ["self", "super", "crate", "try"] ts then
      .map (false, ·) <| anyWord ++ Tail.look fun ts =>
        if startsWith "::" ts then (sign "::" ++ (g.useTree false).map (·.2)).tail
        else if startsWithWord "as" ts then rename.tail
        else blank
    else if startsWith "*" ts then (sign "*").map (false, ·)
    else if startsWithGroup .curly ts then
      (group .curly).next fun inner => do
        let ((raw, x), _) ← Tail.within inner <| .loop (fun _ ts => !ts.isEmpty)
          (fun (raw, x) => (if rooted then optionalSign "::" else blank).before fun c =>
            (g.useTree (rooted && c.text = "")).next fun (deep, y) =>
              (optional (!·.isEmpty) (sign ",")).map fun z =>
                (raw || deep || c.text ≠ "", x ++ c ++ y ++ z))
          (false, {})
        return (raw, x.bracketed .curly)
    else .fail (Wanted.choice ["identifier", "`self`", "`super`", "`crate`", "`try`", "`*`",
      "curly braces"]).fault

/-- What is taken over from elsewhere. -/
def useItem : Reader (Bool × Phrase) :=
  (keyword "use").next fun x => do
    let c ← optionalSign "::"
    let (raw, y) ← g.useTree (c.text = "")
    let z ← sign ";"
    return (raw, x ++ c ++ y ++ z)

/-! ## Other declarations -/

/-- A function with a body. Without one it is kept as it is written. -/
def functionItem : Reader (Bool × Phrase) :=
  (g.signature false).next fun s => .look fun ts =>
    if startsWith ";" ts then (sign ";").tail.map fun x => (true, s.phrase ++ x)
    else g.body.tail.map fun x => (false, s.phrase ++ x)

/-- A variable with its type and its value. If one of them is missing, it is kept as it is
written. -/
def staticItem : Reader (Bool × Phrase) :=
  (keyword "static" ++ optionalWord "mut" ++ name).next fun x => do
    let untyped ← .ask (startsWith "=")
    let t ← if untyped then blank else (sign ":" ++ g.typePhrase true).tail
    let unvalued ← .ask (startsWith ";")
    let v ← if unvalued then blank else (sign "=" ++ g.valuePhrase).tail
    let y ← sign ";"
    return (untyped || unvalued, x ++ t ++ v ++ y)

/-- A constant. -/
def constantItem : Reader (Bool × Phrase) :=
  (keyword "const").next fun x => do
    let n ← constantName
    let (raw, y) ← g.constantRest true
    return (raw, x ++ n ++ y)

/-- A module with its declarations, or one that stands elsewhere. -/
def moduleItem : Reader Phrase :=
  optionalWord "unsafe" ++ keyword "mod" ++
    (Reader.look fun ts => if startsWithWord "try" ts then anyWord else name) ++
    Reader.look fun ts =>
      if startsWith ";" ts then sign ";"
      else if startsWithGroup .curly ts then
        inside .curly (g.innerAttributes ++ several (!·.isEmpty) (g.attributed g.item))
      else .fail (Wanted.choice ["`;`", "curly braces"]).fault

/-- A declaration that begins with `extern`. Nobody else may be said to use foreign code. -/
def externalItem (r : Reach) : Reader Phrase :=
  let foreign := if r = .inherited then g.foreignItem
    else .fail fun _ => .missing (.keyword "extern")
  .look fun ts =>
    let next := ts.drop 1
    if startsWithWord "crate" next then externItem
    else if startsWithGroup .curly next then foreign
    else if startsWithText next then
      if startsWithGroup .curly (ts.drop 2) then foreign
      else .fail fun _ => Wanted.fault (.group .curly) (ts.drop 2)
    else .fail fun _ => (Wanted.choice ["`crate`", "curly braces", "string literal"]).fault next

/-- The text of a block, and whether it is kept as it is written: also where it says who may use
it. -/
def blockItem (r : Reach) : Reader (Bool × Phrase) :=
  g.implementation.map fun (_, raw, x) => (raw || r ≠ .inherited, x)

/-- A declaration that begins with `unsafe` and is no function. -/
def unsafeItem (r : Reach) : Reader (Bool × Phrase) :=
  .look fun ts =>
    let next := ts.drop 1
    let isAuto := startsWithWord "auto" next
    if startsWithWord "trait" next || isAuto && startsWithWord "trait" (ts.drop 2) then
      g.traitItem.map (false, ·)
    else if startsWithWord "impl" next then g.blockItem r
    else if startsWithWord "extern" next then
      if r = .inherited then g.foreignItem.map (false, ·)
      else .fail fun _ => .missing (.keyword "extern")
    else if startsWithWord "mod" next then g.moduleItem.map (false, ·)
    else
      .fail fun _ => Wanted.fault (.choice (["`trait`"] ++ (if isAuto then [] else ["`auto`"]) ++
        ["`impl`", "`extern`", "`mod`"])) next

/-- The declarations that the tokens do not begin; of some of them there is the first word only. -/
def missingItems (ts : List Token) : List String :=
  let missing (word : String) : List String :=
    if startsWithWord word ts then [] else ["`" ++ word ++ "`"]
  ["`fn`", "`extern`", "`use`", "`static`", "`const`", "`unsafe`", "`mod`", "`type`", "`struct`",
    "`enum`"] ++ missing "union" ++ ["`trait`"] ++ missing "auto" ++ ["`impl`"] ++ missing "default" ++
    ["`macro`"]

/-- A declaration behind its attributes, and whether it is kept as it is written. -/
def itemOf : Reader (Bool × Phrase) :=
  reach.before fun r => .look fun ts =>
    let next := ts.drop 1
    let plain := r = .inherited
    let item : Reader (Bool × Phrase) :=
      if startsWithSignature false ts then g.functionItem
      else if startsWithWord "extern" ts then (g.externalItem r).map (false, ·)
      else if startsWithWord "use" ts then g.useItem
      else if startsWithWord "static" ts then g.staticItem
      else if startsWithWord "const" ts then g.constantItem
      else if startsWithWord "unsafe" ts then g.unsafeItem r
      else if startsWithWord "mod" ts then g.moduleItem.map (false, ·)
      else if startsWithWord "type" ts then
        (g.typeAlias true false).map fun t => (t.bounded || !t.defined, t.phrase)
      else if startsWithOneOf ["struct", "enum"] ts ||
        startsWithWord "union" ts && startsWithIdentifier next then
        g.dataType.map fun (_, x) => (false, x)
      else if startsWithWord "trait" ts ||
        startsWithWord "auto" ts && startsWithWord "trait" next then g.traitItem.map (false, ·)
      else if startsWithWord "impl" ts ||
        startsWithWord "default" ts && !startsWith "!" next then g.blockItem r
      else if startsWithWord "macro" ts then macroItem.map (true, ·)
      else if plain && startsWithCallPath ts then (callItem true).map (false, ·)
      else .fail (noItem plain (missingItems ts))
    item.map fun (raw, x) => (raw, r.phrase ++ x)

end Nested

end ComponentHooks.Source
