import ComponentHooks.Source.Data

/-!
# Constants, type aliases and calls

What can be declared alone can also be a member of a block, of a trait or of foreign code.

* `constantName`, `Nested.constantRest`: a constant;
* `callItem`: a call with an exclamation mark;
* `Nested.typeAlias`: another name for a type.
-/

namespace ComponentHooks.Source

/-- Another name for a type, as it is written. -/
structure Alias where
  /-- A colon stands behind the name. -/
  bounded : Bool
  /-- The type is given. -/
  defined : Bool
  phrase : Phrase

/-- The name of a constant, which can be an underscore. -/
def constantName : Reader Phrase :=
  .look fun ts =>
    if startsWithBinding ts then anyWord
    else .fail (Wanted.choice ["identifier", "`_`"]).fault

/-- The faults of tokens that begin none of these things; a call could begin too, if it is known to
be possible. -/
def noItem (call : Bool) (names : List String) : List Token → Fault :=
  (Wanted.choice (names ++
    if call then ["identifier", "`self`", "`super`", "`crate`", "`::`"] else [])).fault

/-- A call with an exclamation mark; if asked, it can name what it declares. It ends with a
semicolon unless its arguments stand in curly braces. -/
def callItem (named : Bool) : Reader Phrase :=
  plainPath.map (·.phrase) ++ sign "!" ++
    optional (fun ts => named && (startsWithIdentifier ts || startsWithWord "try" ts)) anyWord ++
    Reader.look fun ts =>
      if startsWithGroup .curly ts then anyGroup else anyGroup ++ sign ";"

namespace Nested

variable (g : Nested)

/-- What follows the name of a constant, and whether it is kept as it is written: for parameters and
requirements, and if asked where the value is missing. -/
def constantRest (valueDue : Bool) : Tail (Bool × Phrase) := do
  let generic ← .ask (startsWith "<")
  let x ← g.parameters
  let t ← sign ":" ++ g.typePhrase true
  let valued ← .ask (startsWith "=")
  let v ← optional (startsWith "=") (sign "=" ++ g.valuePhrase)
  let required ← .ask (startsWithWord "where")
  let w ← g.whereClause
  let y ← sign ";"
  return (generic || required || valueDue && !valued, x ++ t ++ v ++ w ++ y)

/-- A colon and bounds up to where `stop` holds, with plus signs between them; the last sign may
stand alone. A colon without bounds is not written. -/
def dueConstraint (stop : List Token → Bool) : Tail Phrase :=
  optional (startsWith ":") <| (sign ":").next fun x => (items "+" stop g.bound).map fun y =>
    if y.text = "" then y else x ++ y

/-- Another name for a type. If asked, requirements can stand in front of the type and behind it;
they stand in one place only. -/
def typeAlias (early late : Bool) : Reader Alias :=
  (keyword "type" ++ name ++ g.parameters).next fun x => do
    let bounded ← .ask (startsWith ":")
    let b ← g.dueConstraint fun ts => startsWithWord "where" ts || startsWithSign ["=", ";"] ts
    let required ← .ask fun ts => early && startsWithWord "where" ts
    let w ← if early then g.whereClause else blank
    let defined ← .ask (startsWith "=")
    let t ← optional (startsWith "=") (sign "=" ++ g.typePhrase true)
    let v ← if late && !required then g.whereClause else blank
    let y ← sign ";"
    return { bounded, defined, phrase := x ++ b ++ w ++ t ++ v ++ y }

end Nested

end ComponentHooks.Source
