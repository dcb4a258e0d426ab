import ComponentHooks.Source.Nested

/-!
# Attributes

An attribute stands in front of what it says something about, or inside of it.

* `Attribute`, `Arguments`: a name with its arguments;
* `Nested.annotation`: one attribute, with its text;
* `Nested.attributes`, `Nested.innerAttributes`: attributes in front of a thing, and inside of it;
* `Nested.body`: statements in curly braces, with attributes inside.
-/

namespace ComponentHooks.Source

/-- What an attribute has behind its name. -/
inductive Arguments where
  | absent
  | list (tokens : List Token)
  | value (text : String)
  deriving Repr

/-- An attribute. A name of several segments has two colons between them. -/
structure Attribute where
  name : String
  arguments : Arguments := .absent
  deriving Repr

namespace Attribute

/-- The attribute holds options for the description. -/
def isOptions (a : Attribute) : Bool := a.name = "lifecycle"

/-- The attribute asks for validation. -/
def isValidate (a : Attribute) : Bool := a.name = "validate"

/-- The attribute makes a method a hook without a marker. -/
def isHook (a : Attribute) : Bool := a.name = "hook"

/-- The list of options. -/
def options (a : Attribute) : Except Fault (List Token) :=
  match a.arguments with
  | .absent => .error .optionsAbsent
  | .list ts => .ok ts
  | .value _ => .error .optionsAssigned

end Attribute

/-! ## Readers -/

/-- The name of an attribute. -/
def attributeName : Reader Phrase :=
  .look fun ts =>
    if startsWithWord "unsafe" ts then keyword "unsafe" else plainPath.map (·.phrase)

namespace Nested

variable (g : Nested)

/-- The value of an attribute behind its equals sign. -/
def attributeValue : Reader Phrase :=
  .look fun ts =>
    if startsWith "#" ts && startsWithGroup .square (ts.drop 1) then
      .fail fun _ => .misuse .attributedAttribute
    else g.valuePhrase

/-- What stands between the brackets of an attribute. -/
def attributeContent : Reader (Attribute × Phrase) :=
  attributeName.next fun x => .look fun
    | .group _ inner :: _ =>
      (anyGroup.map fun y => ({ name := x.text, arguments := .list inner }, x ++ y)).tail
    | ts =>
      if startsWith "=" ts then
        ((sign "=").followedBy g.attributeValue.tail).tail.map fun y =>
          ({ name := x.text, arguments := .value y.text }, x ++ y)
      else .done ({ name := x.text }, x)

/-- An attribute; an exclamation mark puts it inside what it says something about. -/
def annotation (inner : Bool) : Reader (Attribute × Phrase) :=
  (sign "#" ++ if inner then (sign "!").tail else blank).next fun x => do
    let tokens ← group .square
    let ((a, y), left) ← Tail.within tokens g.attributeContent.tail
    return (a, x ++ (y.bracketed .square).leaving left .square)

/-- The attributes in front of a thing. -/
def attributes : Tail (List Attribute × Phrase) :=
  .loop (fun _ ts => startsWith "#" ts)
    (fun (as, x) => (g.annotation false).map fun (a, y) => (as ++ [a], x ++ y)) ([], {})

/-- The text of the attributes in front of a thing. -/
def attributePhrase : Tail Phrase := g.attributes.map (·.2)

/-- The attributes inside a thing. -/
def innerAttributes : Tail Phrase :=
  several (fun ts => startsWith "#" ts && startsWith "!" (ts.drop 1))
    ((g.annotation true).map (·.2))

/-- A declaration with attributes in front, kept as it is written if `r` says so. -/
def attributed (r : Reader (Bool × Phrase)) : Reader Phrase :=
  (g.attributePhrase.before fun a => r.map fun (raw, x) => (raw, a ++ x)).kept

/-- Statements in curly braces, with attributes inside. -/
def body : Reader Phrase := inside .curly (g.innerAttributes ++ g.statements)

end Nested

end ComponentHooks.Source
