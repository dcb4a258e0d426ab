import ComponentHooks.Source.Function

/-!
# Structs and other types

A type is declared with its fields or with its variants.

* `StructField`, `Shape`, `Struct`: the source of a type;
* `Nested.field`, `Nested.fieldsOf`: fields with names;
* `Nested.structShape`, `Nested.enumShape`, `Nested.unionShape`: what follows the name of a type;
* `Nested.dataType`: a type with its name.
-/

namespace ComponentHooks.Source

/-! ## Sources -/

/-- A field of a struct. -/
structure StructField where
  name : String
  typeText : String
  reach : Reach := .inherited
  attributes : List Attribute := []
  deriving Repr

/-- What follows the name of a type. -/
inductive Shape where
  | fields (fs : List StructField)
  | unit
  | tuple
  | enum
  | union
  deriving Repr

/-- A type with attributes. -/
structure Struct where
  name : String
  /-- What stands between angle brackets, with the brackets; nothing if there are no parameters. -/
  generics : String := ""
  shape : Shape
  attributes : List Attribute := []
  deriving Repr

namespace Nested

variable (g : Nested)

/-! ## Fields -/

/-- The type of a field; without a name, it can be a struct without one. -/
def fieldType (named : Bool) : Reader Phrase :=
  .look fun ts =>
    if !named && (startsWithWord "struct" ts ||
        startsWithWord "union" ts && startsWithGroup .curly (ts.drop 1)) then
      (anyWord ++ inside .curly g.fields).asWritten
    else g.typePhrase true

/-- A field with its name, which can be an underscore. -/
def field : Reader (StructField × Phrase) :=
  (do
    let as ← g.attributes
    let r ← reach
    return (as, r)).before fun ((attributes, x), r) => .look fun ts =>
  let named := !startsWithWord "_" ts
  (if named then name else anyWord).next fun n => do
    let c ← sign ":"
    let t ← g.fieldType named
    return ({ name := n.text, typeText := t.text, reach := r, attributes },
      x ++ r.phrase ++ n ++ c ++ t)

/-- Fields with names, up to the end of the tokens. -/
def fieldsOf : Tail Phrase := (collected g.field).map (·.2)

/-- Fields with names in curly braces. -/
def namedFields : Reader (List StructField × Phrase) :=
  (group .curly).next fun inner => do
    let ((fs, x), _) ← Tail.within inner (collected g.field)
    return (fs, x.bracketed .curly)

/-- Fields without names in parentheses. -/
def tupleFields : Reader Phrase :=
  inside .round (list (g.attributePhrase ++ reach.map (·.phrase) ++ g.typePhrase true))

/-! ## Shapes -/

/-- Fields without names, and the end of the struct. -/
def tupleShape : Reader Phrase :=
  g.tupleFields ++ Tail.look fun ts =>
    let wanted := if startsWithWord "where" ts then ["`;`"] else ["`where`", "`;`"]
    g.whereClause ++ Tail.look fun ts =>
      if startsWith ";" ts then (sign ";").tail else .fail ((Wanted.choice wanted).fault ts)

/-- What follows the name of a struct: fields, or nothing but a semicolon. Requirements stand in
front of fields with names, and behind fields without names. -/
def structShape : Reader (Shape × Phrase) :=
  .look fun ts =>
    if startsWithGroup .round ts then g.tupleShape.map (.tuple, ·)
    else
      let wanted := if startsWithWord "where" ts then [] else ["`where`", "parentheses"]
      g.whereClause.before fun w => .look fun ts =>
        if startsWithGroup .curly ts then g.namedFields.map fun (fs, x) => (.fields fs, w ++ x)
        else if startsWith ";" ts then (sign ";").map fun x => (.unit, w ++ x)
        else .fail (Wanted.choice (wanted ++ ["curly braces", "`;`"])).fault

/-- A variant of an enumeration, maybe with fields and with a value. Who may use it is not
written. -/
def variant : Reader Phrase :=
  g.attributePhrase ++ reach.map ({ ·.phrase with text := "" }) ++ name ++ (Tail.look fun ts =>
    if startsWithGroup .curly ts then (g.namedFields.map (·.2)).tail
    else if startsWithGroup .round ts then g.tupleFields.tail
    else blank) ++ optional (startsWith "=") (sign "=" ++ g.valuePhrase)

/-- What follows the name of an enumeration. -/
def enumShape : Reader (Shape × Phrase) :=
  (g.whereClause ++ inside .curly (list g.variant)).map (.enum, ·)

/-- What follows the name of a union. -/
def unionShape : Reader (Shape × Phrase) :=
  (g.whereClause ++ g.namedFields.map (·.2)).map (.union, ·)

/-! ## Types -/

/-- The tokens begin a type that is declared with fields or variants. -/
def startsWithDataType (ts : List Token) : Bool := startsWithOneOf ["struct", "enum", "union"] ts

/-- A type with its name and parameters. -/
def dataType : Reader (Struct × Phrase) :=
  (Reader.look fun ts =>
    if startsWithDataType ts then anyWord
    else .fail (Wanted.choice ["`struct`", "`enum`", "`union`"]).fault).next fun x => do
  let n ← name
  let generics ← g.parameters
  let (shape, y) ← (if x.text = "struct" then g.structShape
    else if x.text = "enum" then g.enumShape
    else g.unionShape)
  return ({ name := n.text, generics := generics.text, shape }, x ++ n ++ generics ++ y)

end Nested

end ComponentHooks.Source
