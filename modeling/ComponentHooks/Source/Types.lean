import ComponentHooks.Source.Generics

/-!
# Types

A type begins with a word, a sign or a bracket that says what kind of type it is.

* `Nested.pathType`, `Nested.enclosedType`: paths and traits, and what stands in parentheses;
* `Nested.functionType`, `Nested.sliceType`: functions, slices and arrays;
* `Nested.typeOf`: any type.
-/

namespace ComponentHooks.Source

/-- A type that no token begins. -/
def noType : List Token → Fault :=
  (Wanted.choice ["`for`", "parentheses", "`fn`", "`unsafe`", "`extern`", "identifier", "`::`", "`<`",
    "`dyn`", "square brackets", "`*`", "`&`", "`!`", "`impl`", "`_`", "lifetime"]).fault

/-- What is wanted behind lifetimes that are introduced for a type. -/
def noBoundType : List Token → Fault :=
  (Wanted.choice ["identifier", "`fn`", "`unsafe`", "`extern`", "`super`", "`self`", "`Self`",
    "`crate`"]).fault

/-- A group of any tokens in these brackets. -/
def groupPhrase (b : Bracket) : Reader Phrase := (group b).map fun ts => .ofToken (.group b ts)

/-- What only a compiler knows how to make. -/
def builtin : Reader Phrase :=
  (keyword "builtin" ++ sign "#" ++ name ++ groupPhrase .round).asWritten

/-- The tokens begin with a builtin. -/
def startsWithBuiltin (ts : List Token) : Bool :=
  startsWithWord "builtin" ts && startsWith "#" (ts.drop 1)

namespace Nested

variable (g : Nested)

/-! ## Paths and traits -/

/-- A path, or what can be made of one: a call with an exclamation mark, or bounds. Lifetimes that
are introduced for a call are not written. -/
def pathType (plus : Bool) (binder? : Option Phrase) : Reader Written :=
  g.pathToType.next fun p => .look fun ts =>
    let x := binder?.getD {} ++ p.phrase
    if startsWithBang ts && p.isPlain then do
      let y ← sign "!"
      let z ← anyGroup
      return .other (p.phrase ++ y ++ z)
    else if plus && startsWith "+" ts then
      (g.moreBounds false false (true, x)).map fun (_, y) => .other y
    else .done (if binder?.isSome then .trait x x else .path p)

/-- A type for which lifetimes are introduced. -/
def boundType (plus : Bool) : Reader Written :=
  g.binder.next fun x => .look fun ts =>
    if startsWithFunction ts then (g.type plus).tail.map fun t => .other (x ++ t.phrase)
    else if startsWithBuiltin ts then builtin.tail.map fun y => .other (x ++ y)
    else if startsWithPath ts then (g.pathType plus x).tail
    else .fail (noBoundType ts)

/-- Parts of a tuple behind the first one, if a comma follows it. -/
def moreParts : Tail Phrase :=
  optional (startsWith ",") (sign "," ++ list (g.typePhrase true))

/-- Bounds of which the first one stands in parentheses, if there are more. -/
def enclosedBounds (x : Phrase) : Tail Phrase := g.dueBounds.map (x ++ ·)

/-- What stands in parentheses: nothing, lifetimes and traits, a trait that need not hold, parts of
a tuple, or a type. A trait in parentheses can be the first of several bounds. -/
def enclosedType (plus : Bool) : Reader Written :=
  parentheses.next fun inner =>
    if inner.isEmpty then .done (.other { text := "()" })
    else if startsWithLifetime inner then do
      let (x, left) ← Tail.within inner (g.bounds true false false .noObjectTrait).tail
      return .other ((x.bracketed .round).leaving left .round)
    else if startsWith "?" inner then do
      let ((_, x), left) ← Tail.within inner (g.trait false).tail
      let y ← g.dueBounds
      let z := (x.bracketed .round ++ y).leaving left .round
      return if y.text = "" then .trait z x else .other z
    else do
      let ((t, more), left) ← Tail.within inner <| (g.type true).tail.next fun t =>
        g.moreParts.map (t, ·)
      let first? := match t with
        | .path p => if more.text = "" then some p.phrase else none
        | .trait _ bare => if more.text = "" then some bare else none
        | .other _ => none
      .look fun ts =>
        match first? with
        | some x =>
          if plus && startsWith "+" ts then
            (g.enclosedBounds (x.bracketed .round)).map fun y => .other (y.leaving left .round)
          else .done (.other (((t.phrase ++ more).bracketed .round).leaving left .round))
        | none => .done (.other (((t.phrase ++ more).bracketed .round).leaving left .round))

/-- A trait of which the type is known only at run time. -/
def dynamicType (plus : Bool) : Reader Phrase :=
  .look fun ts =>
    let r := keyword "dyn" ++ optionalSign "*" ++ g.bounds plus false false .noObjectTrait
    if startsWith "*" (ts.drop 1) then r.asWritten else r

/-! ## Functions -/

/-- Three dots, for any more arguments. -/
def variadic : Reader Phrase :=
  optional startsWithBinding (anyWord ++ sign ":") ++ sign "..." ++ optionalSign ","

/-- The tokens begin with three dots, maybe with a name. -/
def startsWithVariadic (ts : List Token) : Bool :=
  startsWith "..." ts ||
    startsWithBinding ts && startsWith ":" (ts.drop 1) && startsWith "..." (ts.drop 2)

/-- An argument of a function, maybe with a name. The first one may be the state of a method; a
state that may change is kept as it is written. -/
def functionArgument (isFirst : Bool) : Reader Phrase :=
  let named (ts : List Token) : Bool :=
    (startsWithBinding ts || isFirst && startsWithWord "self" ts) && startsWithColon (ts.drop 1)
  let typed := optional named (anyWord ++ sign ":") ++ g.typePhrase true
  .look fun ts =>
    if isFirst && startsWithWord "mut" ts && startsWithWord "self" (ts.drop 1) then
      (keyword "mut" ++ Reader.look fun ts =>
        if named ts then typed else keyword "self").asWritten
    else typed

/-- The arguments of a function. Nothing follows three dots. -/
def functionArguments : Tail Phrase :=
  .map (·.1) <| .loop (fun (_, _, open?) ts => open? && !ts.isEmpty)
    (fun (x, isFirst, _) => g.attributePhrase.before fun a => .look fun ts =>
      if startsWithVariadic ts then variadic.map fun y => (x ++ a ++ y, false, false)
      else (g.functionArgument isFirst).next fun y => .look fun ts =>
        if ts.isEmpty then .done (x ++ a ++ y, false, false)
        else (sign ",").tail.map fun z => (x ++ a ++ y ++ z, false, true))
    ({}, true, true)

/-- The calling convention of a function. -/
def convention : Tail Phrase :=
  optional (startsWithWord "extern")
    (keyword "extern" ++ optional startsWithText (anyToken .text))

/-- A function. -/
def functionType : Reader Phrase :=
  optionalWord "unsafe" ++ convention ++ keyword "fn" ++
    holding .round g.functionArguments (g.output false)

/-! ## Pointers and arrays -/

/-- A pointer. -/
def pointerType : Reader Phrase :=
  sign "*" ++ (Reader.look fun ts =>
    if startsWithOneOf ["const", "mut"] ts then anyWord
    else .fail (Wanted.choice ["`const`", "`mut`"]).fault) ++ g.typePhrase false

/-- A reference. -/
def referenceType : Reader Phrase :=
  sign "&" ++ optionalLifetime ++ optionalWord "mut" ++ g.typePhrase false

/-- A slice or an array. -/
def sliceType : Reader Phrase :=
  inside .square <|
    (g.typePhrase true).tail ++ optional (startsWith ";") (sign ";" ++ g.valuePhrase)

/-! ## All types -/

/-- A type. If asked, plus signs behind a trait belong to it. -/
def typeOf (plus : Bool) : Reader Written :=
  .look fun ts =>
    if startsWithWord "for" ts then g.boundType plus
    else if startsWithGroup .round ts then g.enclosedType plus
    else if startsWithFunction ts then g.functionType.map .other
    else if startsWithBuiltin ts then builtin.map .other
    else if startsWithPath ts || startsWith "::" ts then g.pathType plus none
    else if startsWith "<" ts then (g.qualifiedPath opensArguments).map .other
    else if startsWithWord "dyn" ts then (g.dynamicType plus).map .other
    else if startsWithGroup .square ts then g.sliceType.map .other
    else if startsWith "*" ts then g.pointerType.map .other
    else if startsWith "&" ts then g.referenceType.map .other
    else if startsWith "!" ts then (sign "!").map .other
    else if startsWithWord "impl" ts then
      (keyword "impl" ++ g.bounds plus true true .noTrait).map .other
    else if startsWithWord "_" ts then anyWord.map .other
    else if startsWithLifetime ts then (g.bounds true false false .noObjectTrait).map .other
    else .fail noType

end Nested

end ComponentHooks.Source
