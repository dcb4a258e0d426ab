import ComponentHooks.Lineage
import ComponentHooks.Source.Markers
import ComponentHooks.Source.Options

/-!
# Described structs

A struct with attributes is expanded into what the engine is told about it.

* `Struct.ofTokens`: the struct that tokens write;
* `Description`: what the engine is told;
* `StructField.describe?`, `describeFields`: the fields that take part;
* **`Struct.describe`**: the description of a struct, or the first fault of its source.
-/

namespace ComponentHooks.Source

/-- Only what everybody may use is exposed. -/
def Reach.visibility : Reach → Visibility
  | everywhere => .exposed
  | inherited | restricted _ => .hidden

/-! ## Sources -/

/-- A type with its attributes. -/
def Nested.attributedType (g : Nested) : Reader (Struct × Phrase) :=
  let front : Tail (List Attribute × Phrase) := do
    let (as, x) ← g.attributes
    let r ← reach
    return (as, x ++ r.phrase)
  front.before fun (attributes, x) => g.dataType.map fun (s, y) => ({ s with attributes }, x ++ y)

/-- The type that tokens write. -/
def Struct.ofTokens : List Token → Except Fault Struct :=
  (Nested.throughout Nested.attributedType).whole

/-- The fields with names. A unit struct has none. -/
def Shape.named : Shape → Except Fault (List StructField)
  | fields fs => .ok fs
  | unit => .ok []
  | tuple => .error .tupleStruct
  | enum | union => .error .notAStruct

/-! ## Descriptions -/

/-- The field through which a struct answers for its ancestors. -/
structure Parent where
  name : String
  typeText : String
  deriving DecidableEq, Repr

/-- What the engine is told about a struct. -/
structure Description where
  name : String
  /-- The type name, if the struct gives one. -/
  typeName? : Option String
  markers : List Marker
  parent? : Option Parent
  implements : List Supertype
  hooked : Bool
  fields : List DescribedField
  deriving DecidableEq, Repr

namespace Description

/-- The type name of a struct that is declared in `home`. -/
def typeName (d : Description) (home : String) : String :=
  d.typeName?.getD (home ++ "::" ++ d.name)

/-- The fields that can be reached by name. -/
def reachable (d : Description) : List DescribedField := d.fields.filter (·.isAccessible)

end Description

/-- The description of a field that is not the parent. A field without a marker that is not
validated either takes no part. -/
def StructField.describe? (f : StructField) : Except Fault (Option DescribedField) :=
  (readMarkers .field f.attributes).map fun markers =>
    let validated := f.attributes.any (·.isValidate)
    if markers.isEmpty && !validated then none
    else some { name := f.name, typeText := f.typeText, visibility := f.reach.visibility,
                markers, validated }

/-- The parent among fields, of which `parent?` is known already, and the descriptions of the
others. -/
def describeFields (parent? : Option Parent) :
    List StructField → Except Fault (Option Parent × List DescribedField)
  | [] => .ok (parent?, [])
  | f :: fs => do
    if ← readsParent f.attributes then
      if parent?.isSome then throw .secondParent
      if f.attributes.any (·.isMarker) then throw .markedParent
      describeFields (some ⟨f.name, f.typeText⟩) fs
    else
      let d? ← f.describe?
      let (parent?, ds) ← describeFields parent? fs
      return (parent?, d?.toList ++ ds)

/-- **The description of a struct**, or the first fault: generics, the shape, options, the
struct's own markers, then the fields in their order. -/
def Struct.describe (s : Struct) : Except Fault Description := do
  unless s.generics = "" do throw .genericStruct
  let fields ← s.shape.named
  let options ← readOptions s.attributes
  let markers ← readMarkers .type s.attributes
  let (parent?, fields) ← describeFields none fields
  return { name := s.name, typeName? := options.typeName?, markers, parent?,
           implements := options.implements, hooked := options.hooked, fields }

end ComponentHooks.Source
