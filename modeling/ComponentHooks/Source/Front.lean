import ComponentHooks.Source.Token

/-!
# The front of a list of tokens

How a list of tokens is read depends on what stands in front.

* `after`, `startsWith`: pieces of punctuation;
* `startsWithWord`, `startsWithGroup`, `startsWithLiteral`: other single tokens;
* `startsWithPath`, `startsWithConstant`, `startsWithBound`, `startsWithValue`: things that begin
  there;
* `opensArguments`, `opensParameters`: angle brackets that open a list;
* **`after_length`**: a piece of punctuation takes at least one token.
-/

namespace ComponentHooks.Source

/-! ## Punctuation -/

/-- The tokens behind the character `c` and others glued to it. -/
def afterMarks (c : Char) : List Char → List Token → Option (List Token)
  | [], .mark d _ :: ts => if d = c then some ts else none
  | e :: cs, .mark d true :: ts => if d = c then afterMarks e cs ts else none
  | _, _ => none

theorem afterMarks_length {c : Char} {cs : List Char} {ts rest : List Token}
    (h : afterMarks c cs ts = some rest) : rest.length < ts.length := by
  fun_induction afterMarks c cs ts <;> simp_all
  omega

/-- The tokens behind a piece of punctuation, whose characters are glued to each other. -/
def after (s : String) (ts : List Token) : Option (List Token) :=
  match s.toList with
  | [] => none
  | c :: cs => afterMarks c cs ts

theorem after_length {s : String} {ts rest : List Token} (h : after s ts = some rest) :
    rest.length < ts.length := by
  unfold after at h
  split at h
  · cases h
  · exact afterMarks_length h

/-- The tokens begin with this piece of punctuation. -/
def startsWith (s : String) (ts : List Token) : Bool := (after s ts).isSome

/-- The tokens begin with one of these pieces of punctuation. -/
def startsWithSign (signs : List String) (ts : List Token) : Bool := signs.any (startsWith · ts)

/-- The tokens begin with a colon that is not the first of two. -/
def startsWithColon (ts : List Token) : Bool := startsWith ":" ts && !startsWith "::" ts

/-- The tokens begin with a dot that is not the first of two. -/
def startsWithDot (ts : List Token) : Bool := startsWith "." ts && !startsWith ".." ts

/-- The tokens begin with an exclamation mark that is not part of a comparison. -/
def startsWithBang (ts : List Token) : Bool := startsWith "!" ts && !startsWith "!=" ts

/-- The tokens begin with an equals sign that is not part of an arrow. -/
def startsWithEquals (ts : List Token) : Bool := startsWith "=" ts && !startsWith "=>" ts

/-- The tokens begin with a bar that stands between alternatives. -/
def startsWithBar (ts : List Token) : Bool :=
  startsWith "|" ts && !startsWith "||" ts && !startsWith "|=" ts

/-! ## Other single tokens -/

/-- The tokens begin with this word. -/
def startsWithWord (word : String) : List Token → Bool
  | .word w :: _ => w = word
  | _ => false

/-- The tokens begin with one of these words. -/
def startsWithOneOf (words : List String) : List Token → Bool
  | .word w :: _ => words.contains w
  | _ => false

/-- The tokens begin with a word. -/
def startsWithAnyWord : List Token → Bool
  | .word _ :: _ => true
  | _ => false

/-- The tokens begin with an identifier. -/
def startsWithIdentifier : List Token → Bool
  | .word w :: _ => !isKeyword w
  | _ => false

/-- The tokens begin with an identifier or an underscore. -/
def startsWithBinding (ts : List Token) : Bool := startsWithIdentifier ts || startsWithWord "_" ts

/-- The tokens begin with a lifetime. -/
def startsWithLifetime : List Token → Bool
  | .lifetime _ :: _ => true
  | _ => false

/-- The tokens begin with a group in these brackets. -/
def startsWithGroup (b : Bracket) : List Token → Bool
  | .group c _ :: _ => c = b
  | _ => false

/-- The tokens begin with a group. -/
def startsWithAnyGroup : List Token → Bool
  | .group _ _ :: _ => true
  | _ => false

/-- The tokens begin with a string literal. -/
def startsWithText : List Token → Bool
  | t :: _ => t.text?.isSome
  | [] => false

/-- The token is a number, whole if asked. -/
def Token.isNumber (whole : Bool) : Token → Bool
  | .number _ => true
  | .literal .integer _ => true
  | .literal .decimal _ => !whole
  | _ => false

/-- The tokens begin with a number, maybe with a minus sign, and whole if asked. -/
def startsWithNumber (whole : Bool) : List Token → Bool
  | .mark '-' _ :: t :: _ => t.isNumber whole
  | t :: _ => t.isNumber whole
  | [] => false

/-- The tokens begin with a literal. -/
def startsWithLiteral (ts : List Token) : Bool :=
  startsWithText ts || startsWithNumber false ts || startsWithOneOf ["true", "false"] ts ||
    match ts with
    | .literal _ _ :: _ => true
    | _ => false

/-! ## Things -/

/-- Keywords that stand for a place in a path; they have no arguments. -/
def isPlace (word : String) : Bool := ["super", "self", "crate", "try"].contains word

/-- The tokens begin with the first word of a path. -/
def startsWithPath (ts : List Token) : Bool :=
  startsWithIdentifier ts || startsWithOneOf ["super", "self", "Self", "crate"] ts

/-- The tokens begin with the path of a call with an exclamation mark. -/
def startsWithCallPath (ts : List Token) : Bool :=
  startsWithIdentifier ts || startsWithOneOf ["self", "super", "crate"] ts || startsWith "::" ts

/-- The tokens begin the type of a function. -/
def startsWithFunction (ts : List Token) : Bool := startsWithOneOf ["fn", "unsafe", "extern"] ts

/-- The tokens begin with a constant: a literal or a block. -/
def startsWithConstant (ts : List Token) : Bool :=
  startsWithLiteral ts || startsWithGroup .curly ts

/-- The tokens begin a bound, maybe one that asks for constants. -/
def startsWithBound (constants : Bool) (ts : List Token) : Bool :=
  startsWithAnyWord ts || startsWithSign ["::", "?"] ts || startsWithLifetime ts ||
    startsWithGroup .round ts || constants && startsWithGroup .square ts

/-- The tokens begin a value. -/
def startsWithValue (ts : List Token) : Bool :=
  startsWithAnyWord ts && !startsWithWord "as" ts || startsWithAnyGroup ts ||
    startsWithLiteral ts || startsWithBang ts ||
    startsWith "-" ts && !startsWithSign ["-=", "->"] ts || startsWith "*" ts && !startsWith "*=" ts ||
    startsWith "|" ts && !startsWith "|=" ts || startsWith "&" ts && !startsWith "&=" ts ||
    startsWith "<" ts && !startsWithSign ["<=", "<<="] ts || startsWithSign ["..", "::", "#"] ts ||
    startsWithLifetime ts

/-! ## Angle brackets -/

/-- The tokens behind a word begin generic arguments that two colons announce. -/
def announcesArguments (ts : List Token) : Bool := startsWith "::" ts && startsWith "<" (ts.drop 2)

/-- The tokens behind a word begin generic arguments. -/
def opensArguments (ts : List Token) : Bool :=
  startsWith "<" ts && !startsWithSign ["<=", "<<="] ts || announcesArguments ts

/-- The tokens behind `impl`, `for` or `where` begin generic parameters, and no path from a type. -/
def opensParameters (ts : List Token) : Bool :=
  startsWith "<" ts &&
    (startsWithSign [">", "#"] (ts.drop 1) || startsWithWord "const" (ts.drop 1) ||
      (startsWithLifetime (ts.drop 1) || startsWithIdentifier (ts.drop 1)) &&
        (startsWithSign [">", ",", "="] (ts.drop 2) || startsWithColon (ts.drop 2)))

/-- The tokens begin with parameters that are introduced for a function without a name. -/
def startsWithBinder (ts : List Token) : Bool :=
  startsWithWord "for" ts && opensParameters (ts.drop 1)

/-- Two colons in front of parentheses do not belong to a path. -/
def continuesPath (ts : List Token) : Bool :=
  startsWith "::" ts && !startsWithGroup .round (ts.drop 2)

end ComponentHooks.Source
