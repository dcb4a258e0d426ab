import ComponentHooks.Text.Quoted

/-!
# Tokens

A source is a list of tokens, and some of them are groups of tokens in brackets.

* `Token`, `Bracket`, `LiteralSort`: tokens, the brackets around a group, and kinds of literals;
* `Token.punctuation`, `Token.integer`: several tokens that are written as one;
* `Token.text?`: the text of a string literal;
* `isKeyword`: the words that are no identifiers;
* `Token.spelling`, `spell`: a token and tokens as they are written, without blanks;
* `tokenCount`: the number of tokens, those in groups included.
-/

namespace ComponentHooks.Source

/-- The brackets around a group. -/
inductive Bracket where
  | round
  | square
  | curly
  deriving DecidableEq, Repr

namespace Bracket

/-- The bracket in front of a group. -/
def opening : Bracket → String
  | round => "("
  | square => "["
  | curly => "\x7b"

/-- The bracket behind a group. -/
def closing : Bracket → String
  | round => ")"
  | square => "]"
  | curly => "\x7d"

end Bracket

/-- What a literal writes. -/
inductive LiteralSort where
  | text
  | integer
  | decimal
  /-- A character, or bytes. -/
  | other
  deriving DecidableEq, Repr

/-- One token. -/
inductive Token where
  /-- A string literal with this content. -/
  | text (s : String)
  /-- The digits of a number. -/
  | number (n : Nat)
  /-- A literal as it is written. -/
  | literal (sort : LiteralSort) (source : String)
  /-- An identifier or a keyword. -/
  | word (s : String)
  /-- A lifetime, without the apostrophe in front. -/
  | lifetime (name : String)
  /-- One character of punctuation; `glued` if the next one belongs to it. -/
  | mark (c : Char) (glued : Bool)
  /-- Tokens in brackets. -/
  | group (b : Bracket) (tokens : List Token)
  deriving Repr

namespace Token

/-- The characters of one piece of punctuation. -/
def punctuation : List Char → List Token
  | [] => []
  | [c] => [.mark c false]
  | c :: cs => .mark c true :: punctuation cs

/-- The text that a string literal stands for. -/
def text? : Token → Option String
  | .text s => some s
  | .literal .text source => some (Text.unquoted source)
  | _ => none

/-- A whole number: its digits, and maybe a minus sign in front. -/
def integer (n : Int) : List Token :=
  if n < 0 then [.mark '-' false, .number n.natAbs] else [.number n.natAbs]

end Token

/-- The words that are no identifiers. -/
def keywords : List String :=
  ["_", "abstract", "as", "async", "await", "become", "box", "break", "const", "continue", "crate",
    "do", "dyn", "else", "enum", "extern", "false", "final", "fn", "for", "if", "impl", "in", "let",
    "loop", "macro", "match", "mod", "move", "mut", "override", "priv", "pub", "ref", "return",
    "Self", "self", "static", "struct", "super", "trait", "true", "try", "type", "typeof", "unsafe",
    "unsized", "use", "virtual", "where", "while", "yield"]

/-- The word is no identifier. -/
def isKeyword (word : String) : Bool := keywords.contains word

/-! ## Written tokens -/

mutual

/-- The token as it is written, without blanks. -/
def Token.spelling : Token → String
  | .text s => Text.dense (Text.quoted s)
  | .number n => toString n
  | .literal _ source => Text.dense source
  | .word w => w
  | .lifetime name => "'" ++ name
  | .mark c _ => c.toString
  | .group b ts => b.opening ++ spell ts ++ b.closing

/-- Tokens as they are written, without blanks. -/
def spell : List Token → String
  | [] => ""
  | t :: ts => t.spelling ++ spell ts

end

mutual

/-- The number of tokens that a token stands for: itself, and those inside. -/
def Token.count : Token → Nat
  | .group _ ts => tokenCount ts + 1
  | _ => 1

/-- The number of tokens, those in groups included. No thing that begins with a token can be
nested deeper. -/
def tokenCount : List Token → Nat
  | [] => 0
  | t :: ts => t.count + tokenCount ts

end

end ComponentHooks.Source
