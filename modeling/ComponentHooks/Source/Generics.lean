import ComponentHooks.Source.Attribute

/-!
# Generic arguments and parameters

The words of a path to a type can have generic arguments, and traits, functions and declarations can
have generic parameters with bounds on them.

* `Sorted`, `angled`: lists between angle brackets, in which lifetimes are written first;
* `Nested.argument`, `Nested.pathToType`, `Nested.qualifiedPath`: arguments, and paths with them;
* `Nested.boundOf`, `Nested.bounds`: what something must have;
* `Nested.parameterOf`, `Nested.parameters`: parameters of traits and of declarations.
-/

namespace ComponentHooks.Source

/-! ## Lifetimes first -/

/-- The items of a list between angle brackets, with the commas behind them. -/
structure Sorted where
  lifetimes : Phrase := {}
  others : Phrase := {}
  /-- The last lifetime has no comma behind it. -/
  ajar : Bool := false
  /-- The brackets of the first group in which something is left over. -/
  overfull? : Option Bracket := none

namespace Sorted

/-- The list with another item, which is a lifetime or not. -/
def push (s : Sorted) (isLifetime closed : Bool) (x : Phrase) : Sorted :=
  let s := { s with overfull? := s.overfull?.or x.overfull? }
  if isLifetime then { s with lifetimes := s.lifetimes ++ x, ajar := !closed }
  else { s with others := s.others ++ x }

/-- The list as it is written: lifetimes first. -/
def phrase (s : Sorted) : Phrase where
  text := s.lifetimes.text ++ (if s.ajar && s.others.text ≠ "" then "," else "") ++ s.others.text
  overfull? := s.overfull?

end Sorted

/-- Items up to a closing angle bracket, with commas between them. An item comes with the word
whether it is a lifetime. -/
def sortedItems (comma : Reader Phrase) (r : Reader (Bool × Phrase)) : Tail Sorted :=
  .loop (fun _ ts => !startsWith ">" ts)
    (fun s => r.next fun (isLifetime, x) => .look fun ts =>
      if startsWith ">" ts then .done (s.push isLifetime false x)
      else comma.tail.next fun z => .done (s.push isLifetime true (x ++ z)))
    {}

/-- Items between angle brackets. -/
def angled (comma : Reader Phrase) (r : Reader (Bool × Phrase)) : Reader Phrase :=
  sign "<" ++ (sortedItems comma r).map (·.phrase) ++ sign ">"

/-! ## Words and captures -/

/-- A word of a path to a type. -/
def segmentWord : Reader String :=
  .look fun ts =>
    if startsWithOneOf ["super", "self", "crate", "try", "Self"] ts then anyWord.map (·.text)
    else identifier

/-- What a value takes from its surroundings. -/
def captured : Reader Phrase :=
  keyword "use" ++ angled
    (.look fun ts =>
      if startsWith "," ts then sign "," else .fail (Wanted.choice ["`,`", "`>`"]).fault)
    (.look fun ts =>
      if startsWithLifetime ts then lifetime.map (true, ·)
      else if startsWithIdentifier ts || startsWithWord "Self" ts then anyWord.map (false, ·)
      else .fail (Wanted.choice ["lifetime", "identifier", "`>`"]).fault)

namespace Nested

variable (g : Nested)

/-! ## Arguments -/

/-- A constant: a literal, a name or a block. -/
def constant : Reader Phrase :=
  .look fun ts =>
    if startsWithLiteral ts then literal
    else if startsWithIdentifier ts then name
    else if startsWithGroup .curly ts then g.body
    else .fail fun ts => if ts.isEmpty then .exhausted else .leftover

/-- A generic argument, and whether it is a lifetime. A name can be given a value or bounds. -/
def argument : Reader (Bool × Phrase) :=
  .look fun ts =>
    if startsWithLifetime ts && !startsWith "+" (ts.drop 1) then lifetime.map (true, ·)
    else .map (false, ·) <|
      if startsWithConstant ts then g.constant
      else (g.type true).next fun
        | .path p => .look fun ts =>
          if p.isName && startsWith "=" ts then do
            let x ← sign "="
            let y ← (Reader.look fun ts =>
              if startsWithConstant ts then g.constant else g.typePhrase true)
            return p.phrase ++ x ++ y
          else if p.isName && startsWith ":" ts then do
            let x ← sign ":"
            let y ← separated "+" (startsWithSign [",", ">"]) g.bound
            return p.phrase ++ x ++ y
          else return p.phrase
        | t => .done t.phrase

/-- Generic arguments with the brackets around them. -/
def arguments : Reader Phrase := angled (sign ",") g.argument

/-- Generic arguments with two colons in front. -/
def announcedArguments : Reader Phrase := sign "::" ++ g.arguments

/-- A word of a path, with arguments if the tokens behind it open them. -/
def segment (opens : List Token → Bool) : Reader Segment :=
  segmentWord.next fun w => .look fun ts =>
    if !isPlace w && opens ts then
      (optionalSign "::" ++ g.arguments).tail.map fun x => { word := w, arguments := x }
    else .done { word := w }

/-- A path, whose words have arguments where the tokens open them. -/
def pathWith (opens : List Token → Bool) : Reader Path :=
  Path.reader continuesPath (g.segment opens) (g.segment opens)

/-- A path to a type. -/
def pathToType : Reader Path := g.pathWith opensArguments

/-- A path from a type: to what it has, or has as a trait. -/
def qualifiedPath (opens : List Token → Bool) : Reader Phrase :=
  sign "<" ++ g.typePhrase true ++
    optional (startsWithWord "as") (keyword "as" ++ g.pathToType.map (·.phrase)) ++ sign ">" ++
    (mark "::").next fun _ => do
      let s ← g.segment opens
      let p ← Path.more (startsWith "::") (g.segment opens) { rooted := true, segments := [s] }
      return p.phrase

/-! ## Bounds -/

/-- Lifetimes and other parameters that are introduced for what follows. -/
def binder : Reader Phrase :=
  keyword "for" ++ sign "<" ++ items "," (startsWith ">") g.parameter ++ sign ">"

/-- What may have been introduced for what follows. -/
def optionalBinder : Tail Phrase := optional (startsWithWord "for") g.binder

/-- The arguments and the answer of a function. -/
def call : Reader Phrase := inside .round (list (g.typePhrase true)) ++ g.output false

/-- The word that a trait has to hold for constants too, if it may stand there. -/
def constness (constants : Bool) : Tail Phrase :=
  let check (m : Misuse) (x : Phrase) : Tail Phrase :=
    if constants then .done x else .fail (.misuse m)
  .look fun ts =>
    if startsWithGroup .square ts then
      (inside .square (keyword "const").tail).tail.next (check .conditionalBound)
    else if startsWithWord "const" ts then
      (keyword "const").tail.next (check .constantBound)
    else blank

/-- A path to a trait, with the arguments of a function if they follow. -/
def pathToTrait : Reader Phrase :=
  g.pathToType.next fun p => .look fun ts =>
    if p.isBare && (startsWithGroup .round ts || startsWith "::" ts && !continuesPath ts) then
      optionalColons.next fun _ => g.call.tail.map fun x => (p.withArguments x).phrase
    else .done p.phrase

/-- A trait, and whether it is asked for constants. A question mark in front says that it need not
hold; then no lifetimes may be introduced. -/
def trait (constants : Bool) : Reader (Bool × Phrase) :=
  (do
    let x ← g.optionalBinder
    let y ← constness constants
    let z ← optionalSign "?"
    let w ← if x.text = "" && z.text ≠ "" then g.optionalBinder else blank
    return (x ++ w, y, z)).before fun (b, y, z) =>
  g.pathToTrait.next fun p =>
    if b.text ≠ "" && z.text ≠ "" then .fail (.misuse .optionalBinder)
    else .done (y.text ≠ "", b ++ y ++ z ++ p)

/-- A bound, and whether it is a trait. A trait for constants is kept as it is written. -/
def boundOf (captures constants : Bool) : Reader (Bool × Phrase) :=
  .look fun ts =>
    if startsWithLifetime ts then lifetime.map (false, ·)
    else if startsWithWord "use" ts then
      captured.next fun x => if captures then .done (false, x) else .fail (.misuse .capture)
    else
      let r := if startsWithGroup .round ts then
          (group .round).next fun inner => do
            let ((isConstant, x), left) ← Tail.within inner (g.trait constants).tail
            return (isConstant, (x.bracketed .round).leaving left .round)
        else g.trait constants
      r.withTokens.map fun ((isConstant, x), ts) =>
        (true, if isConstant then { x with text := spell ts } else x)

/-- More bounds behind plus signs; the last sign may stand alone. -/
def moreBounds (captures constants : Bool) (x : Bool × Phrase) : Tail (Bool × Phrase) :=
  .map (·.1) <| .loop (fun (_, open?) ts => open? && startsWith "+" ts)
    (fun ((isTrait, x), _) => (sign "+").next fun y => .look fun ts =>
      if startsWithBound constants ts then
        (g.boundOf captures constants).tail.next fun (b, z) =>
          .done ((isTrait || b, x ++ y ++ z), true)
      else .done ((isTrait, x ++ y), false))
    (x, true)

/-- Bounds behind plus signs, one behind each. -/
def dueBounds : Tail Phrase :=
  several (startsWith "+") (sign "+" ++ (g.boundOf false false).map (·.2))

/-- Bounds, more than one only if asked. There must be a trait among them, or else `m`. -/
def bounds (plus captures constants : Bool) (m : Misuse) : Reader Phrase :=
  (g.boundOf captures constants).next fun x => do
    let (isTrait, y) ← if plus then g.moreBounds captures constants x else .done x
    if isTrait then return y else .fail (.misuse m)

/-! ## Parameters -/

/-- A colon and bounds up to where `stop` holds. A colon without bounds is not written. -/
def constraint (stop : List Token → Bool) (r : Reader Phrase) : Tail Phrase :=
  .look fun ts =>
    if startsWith ":" ts then
      (sign ":").tail.next fun x => (separated "+" stop r).map fun y =>
        if y.text = "" then y else x ++ y
    else blank

/-- The tokens do not go on with bounds of a parameter. -/
def endsBounds (ts : List Token) : Bool := ts.isEmpty || startsWithSign [",", ">", "="] ts

/-- A parameter that stands for a type. -/
def typeParameter (r : Reader Phrase) : Reader Phrase :=
  r ++ constraint endsBounds ((g.boundOf false true).map (·.2)) ++
    optional (startsWith "=") (sign "=" ++ g.typePhrase true)

/-- A parameter that stands for a lifetime. -/
def lifetimeParameter : Reader Phrase :=
  lifetime ++ constraint (fun ts => ts.isEmpty || startsWithSign [",", ">"] ts) lifetime

/-- A parameter that stands for a constant. -/
def constantParameter : Reader Phrase :=
  keyword "const" ++ name ++ sign ":" ++ g.typePhrase true ++
    optional (startsWith "=") (sign "=" ++ g.constant)

/-- A parameter that is introduced for what follows. -/
def parameterOf : Reader Phrase :=
  g.attributePhrase ++ Reader.look fun ts =>
    if startsWithIdentifier ts then g.typeParameter name
    else if startsWithLifetime ts then lifetimeParameter
    else if startsWithWord "const" ts then g.constantParameter
    else .fail (Wanted.choice ["identifier", "lifetime", "`const`"]).fault

/-- A parameter of a declaration, and whether it stands for a lifetime. -/
def declaredParameter : Reader (Bool × Phrase) :=
  g.attributePhrase.before fun x => .look fun ts =>
    if startsWithLifetime ts then lifetimeParameter.map fun y => (true, x ++ y)
    else if startsWithIdentifier ts then (g.typeParameter name).map fun y => (false, x ++ y)
    else if startsWithWord "const" ts then g.constantParameter.map fun y => (false, x ++ y)
    else if startsWithWord "_" ts then anyWord.map fun y => (false, x ++ y)
    else .fail (Wanted.choice ["lifetime", "identifier", "`const`"]).fault

/-- The parameters of a declaration. Brackets around none are not written. -/
def parameters : Tail Phrase :=
  .look fun ts =>
    if startsWith "<" ts then
      (angled (sign ",") g.declaredParameter).tail.map fun x =>
        if x.text = "<>" then { x with text := "" } else x
    else blank

end Nested

end ComponentHooks.Source
