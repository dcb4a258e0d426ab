import ComponentHooks.Source.Token

/-!
# Lexemes

The text of a source is cut into lexemes: tokens, the brackets of groups, and what stands between
tokens. A comment that documents stands for an attribute.

* `Lexeme`: what a piece of text stands for;
* `front`: the lexeme in front of a text, and its length;
* `lexemes`: all lexemes of a text;
* `Nesting`, `tokens?`: the tokens that lexemes make when their brackets match.
-/

namespace ComponentHooks.Source

/-- What a piece of text stands for. -/
inductive Lexeme where
  /-- A blank or a comment. -/
  | gap
  | tokens (ts : List Token)
  | opening (b : Bracket)
  | closing (b : Bracket)
  /-- No token begins like this. -/
  | stray
  deriving Repr

/-! ## Characters -/

/-- The character is a blank, or tells the direction of the text. -/
def isGap (c : Char) : Bool := Text.isBlank c || c = '\u200E' || c = '\u200F'

/-- The character can stand in a word. -/
def isWordChar (c : Char) : Bool := c.isAlphanum || c = '_' || 0x80 ≤ c.toNat && !isGap c

/-- A word can begin with the character. -/
def startsWord (c : Char) : Bool := isWordChar c && !c.isDigit

/-- The character is punctuation. -/
def isPunctuation (c : Char) : Bool := "~!@#$%^&*-=+|;:,<.>/?'".contains c

/-- The number of characters of the word in front. -/
def wordLength (cs : List Char) : Nat := (cs.takeWhile isWordChar).length

/-! ## Comments -/

/-- The number of characters up to the end of the line. -/
def lineLength : List Char → Nat
  | [] => 0
  | '\n' :: _ => 0
  | '\r' :: '\n' :: _ => 0
  | _ :: cs => lineLength cs + 1

/-- The number of characters up to the end of a comment that stands inside `depth` others. -/
def blockLength : Nat → List Char → Nat
  | _, [] => 0
  | depth, '/' :: '*' :: cs => blockLength (depth + 1) cs + 2
  | 0, '*' :: '/' :: _ => 2
  | depth + 1, '*' :: '/' :: cs => blockLength depth cs + 2
  | depth, _ :: cs => blockLength depth cs + 1

/-- The attribute that a documenting comment stands for; an exclamation mark puts it inside the
thing that it documents. -/
def documentation (inside : Bool) (text : List Char) : Lexeme :=
  .tokens (.mark '#' false :: (if inside then [.mark '!' false] else []) ++
    [.group .square [.word "doc", .mark '=' false, .text (String.ofList text)]])

/-- A comment. -/
def comment? : List Char → Option (Nat × Lexeme)
  | '/' :: '/' :: cs =>
    let n := lineLength cs
    let text := (cs.take n).drop 1
    some (n + 2, match cs with
      | '!' :: _ => documentation true text
      | '/' :: '/' :: _ => .gap
      | '/' :: _ => documentation false text
      | _ => .gap)
  | '/' :: '*' :: cs =>
    let n := blockLength 0 cs
    let text := (cs.take (n - 2)).drop 1
    some (n + 2, match cs with
      | '!' :: _ => documentation true text
      | '*' :: '*' :: _ | '*' :: '/' :: _ => .gap
      | '*' :: _ => documentation false text
      | _ => .gap)
  | _ => none

/-! ## Literals -/

/-- The number of characters up to the closing quote. -/
def quoteLength (quote : Char) : List Char → Nat
  | [] => 0
  | '\\' :: _ :: cs => quoteLength quote cs + 2
  | c :: cs => if c = quote then 1 else quoteLength quote cs + 1

/-- The number of characters up to a closing quote with number signs behind it. -/
def rawLength (signs : Nat) : List Char → Nat
  | [] => 0
  | c :: cs =>
    if c = '"' && cs.take signs = List.replicate signs '#' then signs + 1 else rawLength signs cs + 1

/-- A literal in quotes, without what is written directly behind it. -/
def quoteSize? (cs : List Char) : Option (Nat × LiteralSort) :=
  let n := wordLength cs
  let word := String.ofList (cs.take n)
  let signs := ((cs.drop n).takeWhile (· = '#')).length
  let sort := if word = "" || word = "r" then .text else .other
  match cs.drop (n + signs) with
  | '"' :: rest =>
    if ["r", "br", "cr"].contains word then some (n + signs + 1 + rawLength signs rest, sort)
    else if ["", "b", "c"].contains word && signs = 0 then some (n + 1 + quoteLength '"' rest, sort)
    else none
  | '\'' :: '\\' :: rest =>
    if ["", "b"].contains word && signs = 0 then
      some (n + 1 + quoteLength '\'' ('\\' :: rest), .other)
    else none
  | '\'' :: _ :: '\'' :: _ =>
    if ["", "b"].contains word && signs = 0 then some (n + 3, .other) else none
  | _ => none

/-- The number of decimal digits in front, and of underscores between them. -/
def digitsLength (cs : List Char) : Nat := (cs.takeWhile fun c => c.isDigit || c = '_').length

/-- The length of a decimal point and the digits behind it. -/
def fractionLength : List Char → Nat
  | '.' :: cs => if cs.head?.any fun c => c = '.' || startsWord c then 0 else digitsLength cs + 1
  | _ => 0

/-- The length of an exponent. -/
def exponentLength : List Char → Nat
  | c :: cs =>
    let sign := if cs.head?.any fun d => d = '+' || d = '-' then 1 else 0
    let n := digitsLength (cs.drop sign)
    if (c = 'e' || c = 'E') && ((cs.drop sign).take n).any (·.isDigit) then 1 + sign + n else 0
  | [] => 0

/-- A number, without what is written directly behind it. -/
def numberSize? (cs : List Char) : Option (Nat × LiteralSort) :=
  if cs.head?.any (·.isDigit) then
    let whole := digitsLength cs
    let fraction := fractionLength (cs.drop whole)
    let exponent := exponentLength (cs.drop (whole + fraction))
    some (whole + fraction + exponent, if fraction + exponent = 0 then .integer else .decimal)
  else none

/-- A literal with its suffix. -/
def literal? (cs : List Char) : Option (Nat × Lexeme) :=
  (quoteSize? cs <|> numberSize? cs).map fun (n, sort) =>
    let n := n + wordLength (cs.drop n)
    (n, .tokens [.literal sort (String.ofList (cs.take n))])

/-! ## Words and punctuation -/

/-- The number of characters of an identifier or a keyword. -/
def nameLength : List Char → Nat
  | 'r' :: '#' :: cs => if cs.head?.any startsWord then wordLength cs + 2 else 1
  | cs => wordLength cs

/-- A word, or a lifetime. -/
def name? : List Char → Option (Nat × Lexeme)
  | '\'' :: cs =>
    some (nameLength cs + 1, .tokens [.lifetime (String.ofList (cs.take (nameLength cs)))])
  | cs =>
    if cs.head?.any startsWord then
      some (nameLength cs, .tokens [.word (String.ofList (cs.take (nameLength cs)))])
    else none

/-- A piece of punctuation belongs to another one that follows directly. -/
def isGlued : List Char → Bool
  | '/' :: '/' :: _ | '/' :: '*' :: _ => false
  | cs => cs.head?.any isPunctuation

/-- A blank, a bracket or a piece of punctuation. -/
def mark? : List Char → Option (Nat × Lexeme)
  | '(' :: _ => some (1, .opening .round)
  | '[' :: _ => some (1, .opening .square)
  | '\x7b' :: _ => some (1, .opening .curly)
  | ')' :: _ => some (1, .closing .round)
  | ']' :: _ => some (1, .closing .square)
  | '\x7d' :: _ => some (1, .closing .curly)
  | c :: cs =>
    if isGap c then some (1, .gap)
    else if isPunctuation c then some (1, .tokens [.mark c (isGlued cs)])
    else none
  | [] => none

/-! ## Texts -/

/-- The lexeme in front of a text, and its length. -/
def front (cs : List Char) : Nat × Lexeme :=
  (comment? cs <|> literal? cs <|> name? cs <|> mark? cs).getD (1, .stray)

/-- All lexemes of a text, with the characters that they stand for. -/
def lexemes (cs : List Char) : List (List Char × Lexeme) :=
  match cs with
  | [] => []
  | c :: cs =>
    let n := (front (c :: cs)).1 - 1
    (c :: cs.take n, (front (c :: cs)).2) :: lexemes (cs.drop n)
termination_by cs.length
decreasing_by
  simp only [List.length_drop, List.length_cons]
  omega

/-- The tokens in front of the bracket that is read next, the last one first, and those in front of
each bracket that is still open. -/
structure Nesting where
  current : List Token := []
  outer : List (Bracket × List Token) := []

/-- The nesting behind a lexeme. -/
def Nesting.step (n : Nesting) : Lexeme → Option Nesting
  | .gap => some n
  | .tokens ts => some { n with current := ts.reverse ++ n.current }
  | .opening b => some { current := [], outer := (b, n.current) :: n.outer }
  | .closing b =>
    match n.outer with
    | (c, before) :: outer =>
      if b = c then some { current := .group b n.current.reverse :: before, outer } else none
    | [] => none
  | .stray => none

/-- The tokens of a text, if its brackets match and all of it can be cut into lexemes. -/
def tokens? (text : String) : Option (List Token) := do
  let n ← ((lexemes text.toList).map (·.2)).foldlM Nesting.step {}
  if n.outer.isEmpty then some n.current.reverse else none

end ComponentHooks.Source
