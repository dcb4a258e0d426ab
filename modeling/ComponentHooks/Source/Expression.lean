import ComponentHooks.Source.Operator
import ComponentHooks.Source.Pattern

/-!
# Values

A value is an operand, maybe with signs in front and with calls, fields and indices behind it, or
several operands that operators join.

* `Nested.trailers`: what follows an operand;
* `Nested.conditional`, `Nested.closure`: some of the operands;
* `Nested.atom`, `Nested.operand`: an operand without and with signs in front;
* `Nested.climb`, `Nested.valueOf`: operands with operators of at least some rank between them;
* `Nested.earlyValue`: a value that ends with the first block of a statement.
-/

namespace ComponentHooks.Source

/-- A phrase as a value. -/
def Reader.value (r : Reader Phrase) (form : ValueForm := .plain) : Reader Value :=
  r.map ({ phrase := ·, form })

/-- The value with a phrase in front of it. -/
def Value.after (x : Phrase) (v : Value) : Value := { v with phrase := x ++ v.phrase }

/-- A label of a loop or a block. -/
def label : Reader Phrase := lifetime ++ sign ":"

namespace Nested

variable (g : Nested)

/-! ## Behind an operand -/

/-- Values in parentheses. -/
def callArguments : Reader Phrase := inside .round (list g.valuePhrase)

/-- What stands behind a dot: a field, a method with its arguments, or a place in a tuple. Two
places may be written as one decimal number. -/
def selection : Reader Phrase :=
  .look fun
    | .literal .decimal source :: _ =>
      anyToken .literal ++ if source.endsWith "." then member.tail else blank
    | ts =>
      if startsWithWord "await" ts then anyWord
      else
        let named := startsWithIdentifier ts
        member ++ Tail.look fun ts =>
          if named && startsWith "::" ts then (g.announcedArguments ++ g.callArguments).tail
          else if named && startsWithGroup .round ts then g.callArguments.tail
          else blank

/-- The tokens go on with a call, a field, an index or a question mark. Ranges have no fields. -/
def continuesValue (v : Value) (ts : List Token) : Bool :=
  startsWithGroup .round ts || startsWithGroup .square ts ||
    v.form ≠ .range && (startsWithDot ts || startsWith "?" ts)

/-- Calls, fields, indices and question marks behind a value. -/
def trailers (v : Value) : Tail Value :=
  .loop continuesValue
    (fun v => (Reader.look fun ts =>
      if startsWithGroup .round ts then g.callArguments
      else if startsWithDot ts then sign "." ++ g.selection
      else if startsWithGroup .square ts then inside .square g.valuePhrase.tail
      else sign "?").map fun x => { phrase := v.phrase ++ x })
    v

/-! ## Paths, parentheses and brackets -/

/-- A field of a struct, with its value unless a value of its name is taken. -/
def fieldValue : Reader Phrase :=
  g.attributePhrase ++ Reader.look fun ts =>
    let named := startsWithIdentifier ts
    member ++ Tail.look fun ts =>
      if startsWith ":" ts || !named then (sign ":" ++ g.valuePhrase).tail else blank

/-- The fields of a struct; behind two dots, a value that has all others. -/
def fieldValues : Tail Phrase :=
  .map (·.1) <| .loop (fun (_, open?) ts => open? && !ts.isEmpty)
    (fun (x, _) => .look fun ts =>
      if startsWith ".." ts then
        (sign ".." ++ optional (!·.isEmpty) g.valuePhrase).map fun y => (x ++ y, false)
      else g.fieldValue.next fun y => .look fun ts =>
        if ts.isEmpty then .done (x ++ y, false)
        else (sign ",").tail.map fun z => (x ++ y ++ z, true))
    ({}, true)

/-- A path to a value, a call with an exclamation mark, or if asked a struct. -/
def pathValue (struct : Bool) : Reader Value :=
  let more (isPlain : Bool) (x : Phrase) : Tail Value := .look fun ts =>
    if startsWithBang ts && isPlain then do
      let curly := startsWithGroup .curly (ts.drop 1)
      let y ← sign "!"
      let z ← anyGroup
      return { phrase := x ++ y ++ z, form := .call curly }
    else if struct && startsWithGroup .curly ts then do
      let y ← inside .curly g.fieldValues
      return { phrase := x ++ y }
    else .done { phrase := x }
  .look fun ts =>
    if startsWith "<" ts then (g.qualifiedPath announcesArguments).next (more false)
    else (g.pathWith announcesArguments).next fun p => more p.isPlain p.phrase

/-- A value in parentheses, or the parts of a tuple. -/
def enclosedValue : Reader Phrase :=
  inside .round <| optional (!·.isEmpty) <|
    g.valuePhrase ++ optional (!·.isEmpty) (sign "," ++ list g.valuePhrase)

/-- Values in brackets, or one value and how often it is there. -/
def arrayValue : Reader Phrase :=
  inside .square <| optional (!·.isEmpty) <| g.valuePhrase ++ Tail.look fun ts =>
    if ts.isEmpty then blank
    else if startsWith "," ts then (sign "," ++ list g.valuePhrase).tail
    else if startsWith ";" ts then (sign ";" ++ g.valuePhrase).tail
    else .fail ((Wanted.choice ["`,`", "`;`"]).fault ts)

/-! ## Blocks -/

/-- A condition with a block, and maybe blocks for all other cases. -/
def conditional : Reader Phrase :=
  let branch := keyword "if" ++ g.condition ++ g.block
  branch ++ Tail.map (·.1) (.loop (fun (_, open?) ts => open? && startsWithWord "else" ts)
    (fun (x, _) => (keyword "else").next fun y => .look fun ts =>
      if startsWithWord "if" ts then branch.tail.map fun z => (x ++ y ++ z, true)
      else if startsWithGroup .curly ts then g.block.tail.map fun z => (x ++ y ++ z, false)
      else .fail ((Wanted.choice ["`if`", "curly braces"]).fault ts))
    (({} : Phrase), true))

/-- A loop, or a block. -/
def repetition : Reader Phrase :=
  .look fun ts =>
    if startsWithWord "while" ts then keyword "while" ++ g.condition ++ g.body
    else if startsWithWord "for" ts then
      keyword "for" ++ g.alternativesPhrase ++ keyword "in" ++ g.condition ++ g.body
    else if startsWithWord "loop" ts then keyword "loop" ++ g.body
    else g.body

/-- A loop or a block with a label. -/
def labelled : Reader Value :=
  (label ++ Reader.look fun ts =>
    if startsWithOneOf ["while", "for", "loop"] ts || startsWithGroup .curly ts then g.repetition
    else .fail Wanted.labelled.fault).value .block

/-- A function without a name. -/
def closure (struct : Bool) : Reader Phrase :=
  let argument := g.attributes.before fun (_, a) => g.pattern.next fun p => .look fun ts =>
    if startsWith ":" ts then
      (sign ":" ++ g.typePhrase true).tail.map fun t => a ++ p.phrase ++ t
    else .done (if p.form = .raw then p.phrase else a ++ p.phrase)
  g.optionalBinder ++ optionalWord "const" ++ optionalWord "static" ++ optionalWord "async" ++
    optionalWord "move" ++ sign "|" ++ items "," (startsWith "|") argument ++ sign "|" ++
    Reader.look fun ts =>
      if startsWith "->" ts then sign "->" ++ g.typePhrase true ++ g.block
      else (g.value struct 0).map (·.phrase)

/-! ## Jumps and bindings -/

/-- The value that a jump takes along, if there is one. -/
def carried : Tail Phrase := optional startsWithValue g.valuePhrase

/-- The end of a loop or a block. A label with a block of its own needs parentheses. -/
def breaking (struct : Bool) : Reader Phrase :=
  keyword "break" ++ Tail.look fun ts =>
    if startsWithLifetime ts && startsWith ":" (ts.drop 1) then
      (g.value true 0).tail.next fun _ => .fail (.misuse .labelledValue)
    else optionalLifetime ++ Tail.look fun ts =>
      if struct || !startsWithGroup .curly ts then g.carried else blank

/-- A condition that takes a value apart. -/
def binding (struct : Bool) : Reader Phrase :=
  keyword "let" ++ g.alternativesPhrase ++ sign "=" ++
    (g.value struct Precedence.comparison.rank).map (·.phrase)

/-- The end of a range, if there is one: what cannot begin a value ends a range that is open at its
end. -/
def rangeEnd (struct closed : Bool) : Tail Phrase :=
  .look fun ts =>
    if !closed && (ts.isEmpty || startsWithDot ts || !struct && startsWithGroup .curly ts ||
        startsWithWord "as" ts || startsWithSign [",", ";", "?", "=>", "=", "+", "/", "%", "^", ">",
          "<=", "!=", "-=", "*=", "&=", "|=", "<<="] ts) then blank
    else ((g.value struct Precedence.range.operandRank).map (·.phrase)).tail

/-- A range without a start. -/
def openRange (struct : Bool) : Reader Phrase :=
  (limits false).next fun (closed, x) => (g.rangeEnd struct closed).map (x ++ ·)

/-! ## Operands -/

/-- The tokens begin a function without a name. -/
def startsWithClosure (ts : List Token) : Bool :=
  let next := ts.drop 1
  startsWith "|" ts || startsWithOneOf ["move", "static"] ts || startsWithBinder ts ||
    startsWithWord "const" ts && !startsWithGroup .curly next ||
    startsWithWord "async" ts && (startsWith "|" next || startsWithWord "move" next)

/-- The tokens begin a block that is computed at another time. -/
def startsWithAsynchronous (ts : List Token) : Bool :=
  startsWithWord "async" ts && (startsWithGroup .curly (ts.drop 1) ||
    startsWithWord "move" (ts.drop 1) && startsWithGroup .curly (ts.drop 2))

/-- A value that ends with a block, of which the tokens are known to begin with one. -/
def blockValue : Reader Value :=
  (Reader.look fun ts =>
    if startsWithWord "if" ts then g.conditional
    else if startsWithWord "match" ts then
      keyword "match" ++ g.condition ++ inside .curly (g.innerAttributes ++ g.arms)
    else if startsWithOneOf ["unsafe", "const"] ts then anyWord ++ g.body
    else if startsWithWord "try" ts then keyword "try" ++ g.block
    else g.repetition).value .block

/-- An operand without signs in front and without anything behind it. -/
def atom (struct : Bool) : Reader Value :=
  .look fun ts =>
    let next := ts.drop 1
    if startsWithLiteral ts then literal.value
    else if startsWithAsynchronous ts then
      (keyword "async" ++ optionalWord "move" ++ g.block).value
    else if startsWithWord "try" ts && startsWithGroup .curly next then g.blockValue
    else if startsWithClosure ts then (g.closure struct).value
    else if startsWithBuiltin ts then builtin.value .raw
    else if startsWithPath ts || startsWithSign ["::", "<"] ts ||
        startsWithWord "try" ts && startsWithSign ["!", "::"] next then g.pathValue struct
    else if startsWithGroup .round ts then g.enclosedValue.value
    else if startsWithWord "break" ts then (g.breaking struct).value
    else if startsWithWord "continue" ts then (keyword "continue" ++ optionalLifetime).value
    else if startsWithOneOf ["return", "yield"] ts then (anyWord ++ g.carried).value
    else if startsWithWord "become" ts then (keyword "become" ++ g.valuePhrase).value .raw
    else if startsWithGroup .square ts then g.arrayValue.value
    else if startsWithWord "let" ts then (g.binding struct).value
    else if startsWithOneOf ["if", "while", "for", "loop", "match", "unsafe", "const"] ts ||
        startsWithGroup .curly ts then g.blockValue
    else if startsWith ".." ts then (g.openRange struct).value .range
    else if startsWithWord "_" ts then anyWord.value
    else if startsWithLifetime ts then g.labelled
    else .fail Wanted.expression.fault

/-- An operand with signs in front and with all that belongs to it behind it. -/
def operand (struct : Bool) : Reader Value :=
  let rest := (g.value struct operandOnly).map (·.phrase)
  let signed : Reader Value := .look fun ts =>
    if startsWith "&" ts then
      let next := ts.drop 1
      let raw := startsWithWord "raw" next && startsWithOneOf ["mut", "const"] (ts.drop 2)
      (sign "&" ++ (if raw then (anyWord ++ anyWord).tail else optionalWord "mut") ++ rest).value
    else if startsWith "*" ts then (sign "*" ++ rest).value
    else if startsWith "!" ts then (sign "!" ++ rest).value
    else if startsWith "-" ts then (sign "-" ++ rest).value
    else (g.atom struct).next g.trailers
  (g.attributePhrase.before fun a => signed.next fun v =>
    if a.text ≠ "" && v.form = .range then .fail (.misuse .attributedRange)
    else .done (v.after a)).withTokens.map fun (v, ts) =>
      if v.form = .raw then { v with phrase := { v.phrase with text := spell ts } } else v

/-! ## Operators -/

/-- The tokens join something to a value by an operator of at least this rank. A range is no
operand. -/
def joins (rank : Nat) (v : Value) (ts : List Token) : Bool :=
  v.form ≠ .range && (joins? ts).any (rank ≤ ·.rank)

/-- What must not follow the type of a cast: anything that would follow an operand. -/
def castFollower? (ts : List Token) : Option String :=
  if startsWithDot ts then
    let next := ts.drop 1
    some <|
      if startsWithWord "await" next then "`.await`"
      else if startsWithIdentifier next &&
        (startsWithGroup .round (ts.drop 2) || startsWith "::" (ts.drop 2)) then "a method call"
      else "a field access"
  else if startsWith "?" ts then some "`?`"
  else if startsWithGroup .square ts then some "indexing"
  else if startsWithGroup .round ts then some "a function call"
  else none

/-- A type behind `as`. -/
def cast : Reader Phrase :=
  keyword "as" ++ (g.typePhrase false).next fun x => .look fun ts =>
    match castFollower? ts with
    | some s => .fail (.misuse (.followedCast s))
    | none => .done x

/-- What is joined to a value. Comparisons cannot be compared. -/
def join (struct : Bool) (v : Value) : Reader Value :=
  let operand (p : Precedence) := (g.value struct p.operandRank).map (·.phrase)
  let joined : Reader Value := .look fun ts =>
    match operator? ts with
    | some (s, .comparison) =>
      if v.form = .comparison then .fail fun _ => .misuse .chainedComparison
      else (sign s ++ operand .comparison).value .comparison
    | some (s, p) => (sign s ++ operand p).value
    | none =>
      if startsWithEquals ts then (sign "=" ++ operand .assignment).value
      else if startsWith ".." ts then (g.openRange struct).value .range
      else g.cast.value
  joined.map (·.after v.phrase)

/-- The value with all that operators of at least this rank join to it. -/
def climb (struct : Bool) (rank : Nat) (v : Value) : Tail Value :=
  .loop (joins rank) (g.join struct) v

/-- A value with operators of at least this rank. -/
def valueOf (struct : Bool) (rank : Nat) : Reader Value :=
  (g.operand struct).next (g.climb struct rank)

/-! ## Statements -/

/-- The tokens begin with a block that ends a statement. -/
def startsWithBlock (ts : List Token) : Bool :=
  startsWithOneOf ["if", "while", "loop", "match", "unsafe"] ts || startsWithGroup .curly ts ||
    startsWithWord "for" ts && !startsWithBinder ts ||
    startsWithOneOf ["try", "const"] ts && startsWithGroup .curly (ts.drop 1)

/-- A value that ends with a block where it begins with one, unless a field or a question mark
follows. Attributes `a` stand in front of it. -/
def earlyValue (a : Phrase) : Reader Value :=
  (Reader.look fun ts =>
    if startsWithBlock ts then g.blockValue
    else if startsWithLifetime ts then g.labelled
    else g.operand true).next fun v => .look fun ts =>
    if v.form = .raw then g.climb true 0 v
    else if v.form ≠ .block then g.climb true 0 (v.after a)
    else if startsWithDot ts || startsWith "?" ts then do
      let v ← g.trailers v
      g.climb true 0 (v.after a)
    else .done (v.after a)

/-- A pattern with the value of what it fits; the comma behind a block may be left out. -/
def arm : Reader Phrase :=
  g.attributePhrase ++ g.alternativesPhrase ++
    optional (startsWithWord "if") (keyword "if" ++ g.valuePhrase) ++ sign "=>" ++
    g.attributePhrase.before fun a => (g.earlyValue a).next fun v => .look fun ts =>
      if v.form = .block || ts.isEmpty then (optionalSign ",").map (v.phrase ++ ·)
      else (sign ",").tail.map (v.phrase ++ ·)

/-- Patterns up to the end of the tokens, each with the value of what it fits. -/
def armsOf : Tail Phrase := several (!·.isEmpty) g.arm

end Nested

end ComponentHooks.Source
