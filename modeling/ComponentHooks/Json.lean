/-!
# JSON texts

A text is read into a tree that keeps numerals and strings as they are written, so that a member
nobody asks for is checked for its form only.

* `Piece`, `Json`: what strings are made of, and the trees;
* `Json.scanString`, `Json.scanNumber`, `Json.scanValue`: the front of a text;
* `Json.parse?`: the tree of a whole text;
* `Json.decode?`: the characters of a string.
-/

namespace ComponentHooks

/-- One piece of a written string: a character, by itself or behind a backslash, or a 16-bit unit
in hexadecimal. -/
inductive Piece where
  | char (c : Char)
  | unit (n : Nat)
  deriving DecidableEq, Repr

/-- A JSON text. Numerals and strings are kept as they are written, members in order. -/
inductive Json where
  | null
  | bool (b : Bool)
  | number (text : List Char)
  | string (text : List Piece)
  | array (items : List Json)
  | object (members : List (List Piece × Json))
  deriving Repr

namespace Json

/-! ## The front of a text -/

/-- Blanks between tokens. -/
def isSpace (c : Char) : Bool := c = ' ' || c = '\n' || c = '\t' || c = '\r'

/-- The text without blanks in front. -/
def skipSpace (cs : List Char) : List Char := cs.dropWhile isSpace

/-- The value of a hexadecimal digit. -/
def hexValue? (c : Char) : Option Nat :=
  if c.isDigit then some (c.toNat - '0'.toNat)
  else if 'a' ≤ c ∧ c ≤ 'f' then some (c.toNat - 'a'.toNat + 10)
  else if 'A' ≤ c ∧ c ≤ 'F' then some (c.toNat - 'A'.toNat + 10)
  else none

/-- The character that a letter behind a backslash stands for. -/
def escape? : Char → Option Char
  | '"' => some '"'
  | '\\' => some '\\'
  | '/' => some '/'
  | 'b' => some '\x08'
  | 'f' => some '\x0c'
  | 'n' => some '\n'
  | 'r' => some '\r'
  | 't' => some '\t'
  | _ => none

/-- Reads a string behind its opening quote, with the closing one. Control characters must be
written with a backslash. -/
def scanString : List Char → Option (List Piece × List Char)
  | [] => none
  | '"' :: cs => some ([], cs)
  | '\\' :: 'u' :: a :: b :: c :: d :: cs => do
    let n := 4096 * (← hexValue? a) + 256 * (← hexValue? b) + 16 * (← hexValue? c) + (← hexValue? d)
    let (ps, rest) ← scanString cs
    some (.unit n :: ps, rest)
  | '\\' :: e :: cs => do
    let c ← escape? e
    let (ps, rest) ← scanString cs
    some (.char c :: ps, rest)
  | c :: cs =>
    if c.toNat < 0x20 then none
    else do
      let (ps, rest) ← scanString cs
      some (.char c :: ps, rest)

/-- Digits in front of a text. -/
def scanDigits (cs : List Char) : List Char × List Char :=
  (cs.takeWhile Char.isDigit, cs.dropWhile Char.isDigit)

/-- Reads at least one digit. -/
def scanSomeDigits (cs : List Char) : Option (List Char × List Char) :=
  match scanDigits cs with
  | ([], _) => none
  | r => some r

/-- Reads the digits in front of a point: a zero stands alone. -/
def scanInteger (cs : List Char) : Option (List Char × List Char) :=
  match scanDigits cs with
  | ([], _) => none
  | ('0' :: _ :: _, _) => none
  | r => some r

/-- Reads a point and digits, if there is a point. -/
def scanFraction : List Char → Option (List Char × List Char)
  | '.' :: cs => do
    let (ds, cs) ← scanSomeDigits cs
    some ('.' :: ds, cs)
  | cs => some ([], cs)

/-- Reads the sign of an exponent, if there is one. -/
def scanSign : List Char → List Char × List Char
  | '+' :: cs => (['+'], cs)
  | '-' :: cs => (['-'], cs)
  | cs => ([], cs)

/-- Reads an exponent, if there is one. -/
def scanExponent : List Char → Option (List Char × List Char)
  | [] => some ([], [])
  | c :: cs =>
    if c = 'e' ∨ c = 'E' then do
      let (sign, cs) := scanSign cs
      let (ds, cs) ← scanSomeDigits cs
      some (c :: sign ++ ds, cs)
    else some ([], c :: cs)

/-- Reads a number without its sign. -/
def scanUnsigned (cs : List Char) : Option (List Char × List Char) := do
  let (int, cs) ← scanInteger cs
  let (frac, cs) ← scanFraction cs
  let (exp, cs) ← scanExponent cs
  some (int ++ frac ++ exp, cs)

/-- Reads a number. -/
def scanNumber : List Char → Option (List Char × List Char)
  | '-' :: cs => do
    let (t, cs) ← scanUnsigned cs
    some ('-' :: t, cs)
  | cs => scanUnsigned cs

/-- Reads a string with both quotes, blanks in front skipped. -/
def scanKey (cs : List Char) : Option (List Piece × List Char) :=
  match skipSpace cs with
  | '"' :: cs => scanString cs
  | _ => none

mutual

/-- Reads a value, blanks in front skipped; the number bounds the depth of the calls. -/
def scanValue : Nat → List Char → Option (Json × List Char)
  | 0, _ => none
  | n + 1, cs =>
    match skipSpace cs with
    | '{' :: cs =>
      match skipSpace cs with
      | '}' :: cs => some (.object [], cs)
      | cs => do
        let (ms, cs) ← scanMembers n cs
        some (.object ms, cs)
    | '[' :: cs =>
      match skipSpace cs with
      | ']' :: cs => some (.array [], cs)
      | cs => do
        let (vs, cs) ← scanItems n cs
        some (.array vs, cs)
    | '"' :: cs => do
      let (ps, cs) ← scanString cs
      some (.string ps, cs)
    | 'n' :: 'u' :: 'l' :: 'l' :: cs => some (.null, cs)
    | 't' :: 'r' :: 'u' :: 'e' :: cs => some (.bool true, cs)
    | 'f' :: 'a' :: 'l' :: 's' :: 'e' :: cs => some (.bool false, cs)
    | cs => do
      let (t, cs) ← scanNumber cs
      some (.number t, cs)

/-- Reads at least one item, and the closing bracket. -/
def scanItems : Nat → List Char → Option (List Json × List Char)
  | 0, _ => none
  | n + 1, cs => do
    let (v, cs) ← scanValue n cs
    match skipSpace cs with
    | ']' :: cs => some ([v], cs)
    | ',' :: cs => do
      let (vs, cs) ← scanItems n cs
      some (v :: vs, cs)
    | _ => none

/-- Reads at least one member, and the closing brace. -/
def scanMembers : Nat → List Char → Option (List (List Piece × Json) × List Char)
  | 0, _ => none
  | n + 1, cs => do
    let (k, cs) ← scanKey cs
    match skipSpace cs with
    | ':' :: cs => do
      let (v, cs) ← scanValue n cs
      match skipSpace cs with
      | '}' :: cs => some ([(k, v)], cs)
      | ',' :: cs => do
        let (ms, cs) ← scanMembers n cs
        some ((k, v) :: ms, cs)
      | _ => none
    | _ => none

end

/-! ## Whole texts -/

/-- The tree of a text. Every character opens two nested calls at most. -/
def parse? (cs : List Char) : Option Json := do
  let (v, rest) ← scanValue (2 * cs.length + 2) cs
  if (skipSpace rest).isEmpty then some v else none

/-- The character of a pair of surrogate units. -/
def pairValue (hi lo : Nat) : Nat := 0x10000 + (hi - 0xD800) * 0x400 + (lo - 0xDC00)

/-- The characters of a string; none if a surrogate unit stands alone. -/
def decode? : List Piece → Option (List Char)
  | [] => some []
  | .char c :: ps => (decode? ps).map (c :: ·)
  | .unit n :: ps =>
    if 0xD800 ≤ n ∧ n < 0xDC00 then
      match ps with
      | .unit m :: ps =>
        if 0xDC00 ≤ m ∧ m < 0xE000 then (decode? ps).map (Char.ofNat (pairValue n m) :: ·) else none
      | _ => none
    else if 0xDC00 ≤ n ∧ n < 0xE000 then none
    else (decode? ps).map (Char.ofNat n :: ·)

end Json

end ComponentHooks
