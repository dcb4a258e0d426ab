import ComponentHooks.Source.Item

/-!
# Statements

A block holds statements: bindings, declarations, values and calls with an exclamation mark. With
them the grammar is complete: types, values, patterns and declarations are nested in each other to
any depth. What is nested in others is read from fewer tokens than these, so their number bounds the
depth.

* `Statement`: a statement as it is written;
* `Nested.bindingStatement`, `Nested.valueStatement`: some of the statements;
* `Nested.statement`, `Nested.statementsOf`: one statement, and all in a block;
* `Nested.around`: readers for what has the given readers for what is nested in it;
* `deep`, `Nested.throughout`: readers for what is nested up to some depth, and to any depth that
  the tokens allow;
* `path`: a path to a type.
-/

namespace ComponentHooks.Source

/-- A statement as it is written. -/
structure Statement where
  phrase : Phrase
  /-- Nothing but the end of the block may follow. -/
  isLast : Bool := false

/-- What follows the path of a call with an exclamation mark. -/
inductive CallForm where
  /-- The call names what it declares. -/
  | declaration
  /-- The arguments stand in curly braces, and nothing of a value follows them. -/
  | statement
  | value
  deriving DecidableEq

/-- How the tokens go on behind the path of a call with an exclamation mark. -/
def callForm (ts : List Token) : CallForm :=
  match plainPath.read ts with
  | .error _ => .value
  | .ok (_, rest) =>
    if startsWith "!" rest then
      let next := rest.drop 1
      if startsWithIdentifier next || startsWithWord "try" next then .declaration
      else if startsWithGroup .curly next &&
        !(startsWithDot (rest.drop 2) || startsWith "?" (rest.drop 2)) then .statement
      else .value
    else .value

/-- The tokens behind attributes begin a declaration. -/
def startsWithItem (ts : List Token) : Bool :=
  let next := ts.drop 1
  let third := ts.drop 2
  startsWithOneOf ["pub", "extern", "use", "fn", "mod", "type", "struct", "enum", "trait", "impl",
      "macro"] ts ||
    startsWithWord "crate" ts && !startsWith "::" next ||
    startsWithWord "static" ts && (startsWithWord "mut" next || startsWithIdentifier next) ||
    startsWithWord "const" ts && !(startsWithGroup .curly next ||
      startsWithOneOf ["static", "move"] next || startsWith "|" next ||
      startsWithWord "async" next && !startsWithFunction third) ||
    startsWithWord "unsafe" ts && !startsWithGroup .curly next ||
    startsWithWord "async" ts && startsWithFunction next ||
    startsWithWord "union" ts && startsWithIdentifier next ||
    startsWithWord "auto" ts && startsWithWord "trait" next ||
    startsWithWord "default" ts && startsWithOneOf ["unsafe", "impl"] next ||
    callForm ts = .declaration

namespace Nested

variable (g : Nested)

/-- A binding, maybe with a block for values that do not fit. -/
def bindingStatement : Reader Phrase :=
  keyword "let" ++ g.pattern.map (·.phrase) ++
    optional (startsWith ":") (sign ":" ++ g.typePhrase true) ++
    optional (startsWith "=") (sign "=" ++ g.valuePhrase.withTokens.next fun (x, ts) =>
      if startsWithGroup .curly (ts.drop (ts.length - 1)) then .done x
      else (optional (startsWithWord "else") (keyword "else" ++ g.block)).map (x ++ ·)) ++
    sign ";"

/-- A value, and whether a semicolon is missing behind it. -/
def valueStatement (a : Phrase) : Reader Statement :=
  (g.earlyValue a).next fun v => .look fun ts =>
    if startsWith ";" ts then (sign ";").tail.map fun y => { phrase := v.phrase ++ y }
    else .done { phrase := v.phrase, isLast := !v.isStatement }

/-- A statement behind its attributes `a`, and whether it is kept as it is written. -/
def statementRest (a : Phrase) : Reader (Bool × Statement) :=
  .look fun ts =>
    if callForm ts = .statement then
      (plainPath.map (·.phrase) ++ sign "!" ++ anyGroup ++ optionalSign ";").map fun x =>
        (false, { phrase := a ++ x })
    else if startsWithWord "let" ts then
      g.bindingStatement.map fun x => (false, { phrase := a ++ x })
    else if startsWithItem ts then
      g.itemOf.map fun (raw, x) => (raw, { phrase := a ++ x })
    else (g.valueStatement a).map (false, ·)

/-- A statement. -/
def statement : Reader Statement :=
  ((g.attributePhrase.before g.statementRest).map fun (raw, s) =>
    (s.isLast, raw, s.phrase)).keptWith.map fun (isLast, x) => { phrase := x, isLast }

/-- What follows statements: a semicolon that stands alone, or another statement. -/
def nextStatement (s : Statement) : Reader Statement :=
  .look fun ts =>
    if s.isLast then .fail fun _ => .misuse .unterminated
    else if startsWith ";" ts then (sign ";").map fun y => { phrase := s.phrase ++ y }
    else g.statement.map fun t => { phrase := s.phrase ++ t.phrase, isLast := t.isLast }

/-- All statements of a block. -/
def statementsOf : Tail Phrase :=
  (Tail.loop (fun _ ts => !ts.isEmpty) g.nextStatement { phrase := {} }).map Statement.phrase

end Nested

/-! ## The grammar -/

/-- The readers for what has these readers for what is nested in it. -/
def Nested.around (g : Nested) : Nested where
  type := g.typeOf
  bound := (g.boundOf false true).map (·.2)
  parameter := g.parameterOf
  value := g.valueOf
  pattern := g.patternOf
  statements := g.statementsOf
  arms := g.armsOf
  fields := g.fieldsOf
  item := g.itemOf
  useTree := g.useTreeOf

/-- The readers for what is nested up to this depth. -/
def deep : Nat → Nested
  | 0 => .nothing
  | n + 1 => (deep n).around

/-- A reader for what can be nested to any depth. Whatever is nested stands behind a token at
least. -/
def Nested.throughout {α : Type} (r : Nested → Reader α) : Reader α :=
  .look fun ts => r (deep (tokenCount ts + 1))

/-- A path to a type. -/
def path : Reader Path := Nested.throughout Nested.pathToType

end ComponentHooks.Source
