import ComponentHooks.Source.Types

/-!
# Patterns

A pattern says how a value is taken apart, and gives names to its parts.

* `member`: a part of a value;
* `limits`, `Nested.rangeBound`: ranges of constants;
* `Nested.patternOf`, `Nested.alternatives`: a pattern, and several with bars between them.
-/

namespace ComponentHooks.Source

/-! ## Parts -/

/-- The number that digits write; underscores between them do not count. -/
def placeValue (source : String) : Except Text.NumeralError Nat :=
  Text.readDigits 0 (source.toList.filter (· ≠ '_'))

/-- The place of a part in a tuple: digits for a number below 2^32. -/
def place : Reader Phrase :=
  let check (n : Nat) : Tail Phrase :=
    if n < UInt32.size then .done { text := toString n } else .fail (.misuse (.place .tooLarge))
  .look fun
    | .number n :: _ => (anyToken .literal).next fun _ => check n
    | .literal .integer source :: _ => (anyToken .literal).next fun _ =>
      match placeValue source with
      | .ok n => check n
      | .error e => .fail (.misuse (.place e))
    | _ => literal.next fun _ => .fail (.misuse (.place .invalidDigit))

/-- A part of a value: a field, or a place in a tuple. -/
def member : Reader Phrase :=
  .look fun ts =>
    if startsWithIdentifier ts then name
    else if startsWithNumber true ts then place
    else .fail Wanted.member.fault

/-! ## Ranges -/

/-- The dots of a range, and whether its end belongs to it. Three dots are an old way to write that;
they are allowed only if asked. -/
def limits (dated : Bool) : Reader (Bool × Phrase) :=
  .look fun ts =>
    if startsWith "..=" ts then (sign "..=").map (true, ·)
    else if startsWith "..." ts then
      if dated then (sign "...").map fun _ => (true, { text := "..=" })
      else .fail fun _ => .missing (.mark "..=")
    else (sign "..").map (false, ·)

namespace Nested

variable (g : Nested)

/-- A path to a value. -/
def valuePath : Reader Phrase :=
  .look fun ts =>
    if startsWith "<" ts then g.qualifiedPath announcesArguments
    else (g.pathWith announcesArguments).map (·.phrase)

/-- A block whose value is known when the program is compiled. -/
def constantBlock : Reader Phrase := keyword "const" ++ g.body

/-- The end of a range, if there is one. -/
def rangeBound : Tail Phrase :=
  .look fun ts =>
    if ts.isEmpty || startsWithSign ["|", "=", ",", ";"] ts || startsWithColon ts ||
        startsWithWord "if" ts then blank
    else if startsWithLiteral ts then literal.tail
    else if startsWithPath ts || startsWithSign ["::", "<"] ts then g.valuePath.tail
    else if startsWithWord "const" ts then g.constantBlock.tail
    else .fail <| (Wanted.choice ["literal", "identifier", "`::`", "`<`", "`self`", "`Self`",
      "`super`", "`crate`", "`const`"]).fault ts

/-- A range of which the start has been read. -/
def rangePattern (x : Phrase) : Tail Pattern := do
  let (closed, y) ← limits true
  let z ← g.rangeBound
  if z.text ≠ "" then return { phrase := x ++ y ++ z }
  else if closed then .look fun ts => .fail (Wanted.upperBound.fault ts)
  else return { phrase := x ++ y, form := .openRange }

/-- A range without a start, or two dots for all that is left. -/
def openPattern : Reader Pattern :=
  (limits false).next fun (closed, x) => do
    let y ← g.rangeBound
    if y.text ≠ "" then return { phrase := x ++ y, form := .openRange }
    else if closed then .look fun ts => .fail (Wanted.upperBound.fault ts)
    else return { phrase := x, form := .rest }

/-- A constant, or a range that starts with one. -/
def constantPattern : Reader Pattern :=
  (Reader.look fun ts =>
    if startsWithLiteral ts then literal
    else if startsWithWord "const" ts then g.constantBlock
    else .fail <| (Wanted.choice ["literal", "identifier", "`::`", "`<`", "`self`", "`Self`",
      "`super`", "`crate`", "`const`"]).fault).next fun x => .look fun ts =>
    if startsWith ".." ts then g.rangePattern x else .done { phrase := x }

/-! ## Patterns with parts -/

/-- Patterns with bars between them; a bar may stand in front. -/
def alternatives : Reader Pattern :=
  (optionalSign "|").before fun x => g.pattern.next fun p => .look fun ts =>
    if x.text ≠ "" || startsWithBar ts then
      (several startsWithBar (sign "|" ++ g.pattern.map (·.phrase))).map fun y =>
        { phrase := x ++ p.phrase ++ y }
    else .done p

/-- The text of patterns with bars between them. -/
def alternativesPhrase : Reader Phrase := g.alternatives.map (·.phrase)

/-- A field that is taken out under its name, or its name and a pattern for it. A boxed field is
kept as it is written. -/
def fieldPattern : Reader Phrase :=
  .look fun ts =>
    if startsWithWord "box" ts then
      (keyword "box" ++ optionalWord "ref" ++ optionalWord "mut" ++ name).asWritten
    else if startsWithOneOf ["ref", "mut"] ts then
      optionalWord "ref" ++ optionalWord "mut" ++ name
    else
      let named := startsWithIdentifier ts
      member ++ Tail.look fun ts =>
        if startsWith ":" ts || !named then (sign ":" ++ g.alternativesPhrase).tail else blank

/-- The fields of a struct; two dots stand for all that are left. -/
def fieldPatterns : Tail Phrase :=
  .map (·.1) <| .loop (fun (_, open?) ts => open? && !ts.isEmpty)
    (fun (x, _) => g.attributePhrase.before fun a => .look fun ts =>
      if startsWith ".." ts then (sign "..").map fun y => (x ++ a ++ y, false)
      else g.fieldPattern.next fun y => .look fun ts =>
        if ts.isEmpty then .done (x ++ a ++ y, false)
        else (sign ",").tail.map fun z => (x ++ a ++ y ++ z, true))
    ({}, true)

/-- A path to a constant, the parts of a struct or a tuple behind one, a call with an exclamation
mark, or a range that starts with a constant. -/
def pathPattern : Reader Pattern :=
  .look fun ts =>
    let qualified := startsWith "<" ts
    let more (isPlain : Bool) (x : Phrase) : Tail Pattern := .look fun ts =>
      if startsWithBang ts && isPlain then do
        let y ← sign "!"
        let z ← anyGroup
        return { phrase := x ++ y ++ z }
      else if startsWithGroup .curly ts then do
        let y ← inside .curly g.fieldPatterns
        return { phrase := x ++ y }
      else if startsWithGroup .round ts then do
        let y ← inside .round (list g.alternativesPhrase)
        return { phrase := x ++ y }
      else if startsWith ".." ts then g.rangePattern x
      else .done { phrase := x }
    if qualified then (g.qualifiedPath announcesArguments).next (more false)
    else (g.pathWith announcesArguments).next fun p => more p.isPlain p.phrase

/-- A name for a value, and maybe a pattern that the value has too. -/
def namePattern : Reader Phrase :=
  optionalWord "ref" ++ optionalWord "mut" ++
    (Reader.look fun ts => if startsWithWord "self" ts then anyWord else name) ++
    optional (startsWith "@") (sign "@" ++ g.pattern.map (·.phrase))

/-- A pattern in parentheses, or the parts of a tuple. -/
def enclosedPattern : Reader Phrase := inside .round (list g.alternativesPhrase)

/-- A part of a slice: no range without an end or a start. -/
def slicePart : Reader Phrase :=
  g.alternatives.next fun p =>
    if p.form = .openRange then .fail (.misuse .openRange) else .done p.phrase

/-! ## All patterns -/

/-- The tokens begin a pattern with a path. -/
def startsWithPathPattern (ts : List Token) : Bool :=
  let next := ts.drop 1
  startsWithIdentifier ts && (startsWithSign ["::", "!", ".."] next ||
      startsWithGroup .curly next || startsWithGroup .round next) ||
    startsWithWord "self" ts && startsWith "::" next || startsWithSign ["::", "<"] ts ||
    startsWithOneOf ["Self", "super", "crate"] ts

/-- A pattern that no token begins. -/
def noPattern (ts : List Token) : Fault :=
  let dots := if startsWith "..." ts then [] else ["`..`"]
  (Wanted.choice (["identifier", "`::`", "`<`", "`_`", "literal", "`const`", "`ref`", "`mut`", "`&`",
    "parentheses", "square brackets"] ++ dots ++ ["`const`"])).fault ts

/-- A pattern. -/
def patternOf : Reader Pattern :=
  let plain (r : Reader Phrase) : Reader Pattern := r.map ({ phrase := · })
  .look fun ts =>
    if startsWithPathPattern ts then g.pathPattern
    else if startsWithWord "_" ts then plain anyWord
    else if startsWithWord "box" ts then
      (keyword "box" ++ g.pattern.map (·.phrase)).asWritten.map ({ phrase := ·, form := .raw })
    else if startsWith "-" ts || startsWithLiteral ts || startsWithWord "const" ts then
      g.constantPattern
    else if startsWithOneOf ["ref", "mut", "self"] ts || startsWithIdentifier ts then
      plain g.namePattern
    else if startsWith "&" ts then
      plain (sign "&" ++ optionalWord "mut" ++ g.pattern.map (·.phrase))
    else if startsWithGroup .round ts then plain g.enclosedPattern
    else if startsWithGroup .square ts then plain (inside .square (list g.slicePart))
    else if startsWith ".." ts && !startsWith "..." ts then g.openPattern
    else .fail noPattern

end Nested

end ComponentHooks.Source
