import ComponentHooks.Source.Path

/-!
# What is nested

Types, values, patterns and declarations are nested in each other. Readers for what is nested are
fields of a record, and all others are built from them.

* `Written`, `Value`, `Pattern`: types, values and patterns, with what their surroundings have to
  know about them;
* `Nested`: the readers for what is nested;
* `Nested.block`: statements in curly braces.
-/

namespace ComponentHooks.Source

/-- A type as it is written. -/
inductive Written where
  /-- A path that does not begin at a type. -/
  | path (p : Path)
  /-- One trait alone, and the trait without parentheses. -/
  | trait (x bare : Phrase)
  | other (x : Phrase)

/-- The text of a type. -/
def Written.phrase : Written → Phrase
  | path p => p.phrase
  | trait x _ => x
  | other x => x

/-- What the surroundings of a value have to know about it. -/
inductive ValueForm where
  | plain
  | comparison
  | range
  /-- The value ends with a block of its own, and is a statement without a semicolon. -/
  | block
  /-- A call with an exclamation mark, whose arguments may stand in curly braces. -/
  | call (curly : Bool)
  /-- The value is kept as it is written. -/
  | raw
  deriving DecidableEq, Repr

/-- A value as it is written. -/
structure Value where
  phrase : Phrase
  form : ValueForm := .plain

/-- The value is a statement without a semicolon. -/
def Value.isStatement (v : Value) : Bool := v.form = .block || v.form = .call true

/-- What the surroundings of a pattern have to know about it. -/
inductive PatternForm where
  | plain
  /-- Two dots, for all that is left. -/
  | rest
  /-- A range without a start or without an end. -/
  | openRange
  /-- The pattern is kept as it is written. -/
  | raw
  deriving DecidableEq, Repr

/-- A pattern as it is written. -/
structure Pattern where
  phrase : Phrase
  form : PatternForm := .plain

/-- The readers for what is nested. -/
structure Nested where
  /-- A type; if asked, plus signs behind a path belong to it. -/
  type : (plus : Bool) → Reader Written
  /-- A trait or a lifetime that something must have. -/
  bound : Reader Phrase
  /-- A generic parameter. -/
  parameter : Reader Phrase
  /-- A value with operators of at least this rank; if asked, a path can begin a struct. -/
  value : (struct : Bool) → (rank : Nat) → Reader Value
  pattern : Reader Pattern
  statements : Tail Phrase
  /-- Patterns, each with the value of what it fits. -/
  arms : Tail Phrase
  /-- Fields with names. -/
  fields : Tail Phrase
  /-- A declaration behind its attributes, and whether it is kept as it is written. -/
  item : Reader (Bool × Phrase)
  /-- What is taken over from elsewhere; if asked, two colons may stand in front of paths in curly
  braces, and it is told whether they do. -/
  useTree : (rooted : Bool) → Reader (Bool × Phrase)

namespace Nested

/-- Nothing can be nested any deeper. -/
def nothing : Nested where
  type _ := .fail fun _ => .exhausted
  bound := .fail fun _ => .exhausted
  parameter := .fail fun _ => .exhausted
  value _ _ := .fail fun _ => .exhausted
  pattern := .fail fun _ => .exhausted
  statements := .fail .exhausted
  arms := .fail .exhausted
  fields := .fail .exhausted
  item := .fail fun _ => .exhausted
  useTree _ := .fail fun _ => .exhausted

variable (g : Nested)

/-- The text of a type. -/
def typePhrase (plus : Bool) : Reader Phrase := (g.type plus).map (·.phrase)

/-- The text of any value. -/
def valuePhrase : Reader Phrase := (g.value true 0).map (·.phrase)

/-- The text of a value in front of a block. -/
def condition : Reader Phrase := (g.value false 0).map (·.phrase)

/-- Statements in curly braces. -/
def block : Reader Phrase := inside .curly g.statements

/-- The answer of a function. -/
def output (plus : Bool) : Tail Phrase :=
  optional (startsWith "->") (sign "->" ++ g.typePhrase plus)

end Nested

end ComponentHooks.Source
