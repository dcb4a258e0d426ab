import ComponentHooks.Rate
import ComponentHooks.Settings.Document
import ComponentHooks.Settings.Variables

/-!
# Settings of a session

What a session shows of settings, by where they come from. A JSON text can be well formed and still
stand for no value: a surrogate stands alone, a numeral is beyond the range of binary64, or the
containers are nested too deep. Settings can be read from it, but a session that asks the text
itself for the number of threads has no answer. And not all variables can be those of a process.

* `Json.Numeral`, `Json.numeral`: the leading digits of a number and the power of ten behind them;
* `Json.nearestBinary`: rounding to binary64;
* `Json.isFinite`: the number is in range;
* `Json.hasValue`: the tree stands for a value;
* `Sample.textSettings`, `Sample.processSettings?`: settings from a text and from a process.
-/

namespace ComponentHooks.Json

/-! ## Numbers -/

/-- A number without its sign as it is taken in: a number below 2^64 and a power of ten. Digits that
do not fit are lost. -/
structure Numeral where
  significand : Nat
  exponent : Int
  deriving DecidableEq, Repr

/-- The value of a digit. -/
def digitValue (c : Char) : Nat := c.toNat - '0'.toNat

/-- Takes digits in behind the number `n`, up to the first one that does not fit into 64 bits. -/
def gather : Nat → List Char → Nat × List Char
  | n, [] => (n, [])
  | n, c :: cs =>
    let m := 10 * n + digitValue c
    if m < UInt64.size then gather m cs else (n, c :: cs)

/-- The exponent behind the digits of a number. -/
def exponentValue : List Char → Int
  | [] => 0
  | _ :: cs =>
    match scanSign cs with
    | (['-'], cs) => -(cs.foldl (fun n c => 10 * n + digitValue c) 0 : Nat)
    | (_, cs) => (cs.foldl (fun n c => 10 * n + digitValue c) 0 : Nat)

/-- A written number as it is taken in. Digits in front of the point that do not fit count for the
exponent, those behind it for nothing. -/
def numeral (text : List Char) : Numeral :=
  let (int, rest) := scanDigits (text.dropWhile (· = '-'))
  let (frac, rest) := scanDigits (rest.dropWhile (· = '.'))
  let (n, dropped) := gather 0 int
  let (n, ignored) := gather n frac
  { significand := n
    exponent := dropped.length - (frac.length - ignored.length : Nat) + exponentValue rest }

/-- The binary64 number nearest to a natural number, a tie to the even one. -/
def nearestBinary (n : Nat) : Nat :=
  if n < 1 <<< 53 then n
  else
    let unit := 1 <<< (n.log2 - 52)
    roundDiv n unit * unit

/-- The least number that rounds to infinity. -/
def overflow : Nat := (1 <<< 1024) - (1 <<< 970)

/-- The number does not come out as infinity: number and power are rounded each before they are
multiplied, and no power above 10^308 is finite. -/
def isFinite (n : Numeral) : Bool :=
  n.significand = 0 || n.exponent < 0 ||
    (n.exponent ≤ 308 &&
      nearestBinary n.significand * nearestBinary (Nat.pow 10 n.exponent.toNat) < overflow)

/-! ## Trees -/

/-- How deep containers may be nested. -/
def depthLimit : Nat := 127

mutual

/-- Every string of the tree has characters, every number is finite, and there is room for its
containers. -/
def fits : Nat → Json → Bool
  | _, .null => true
  | _, .bool _ => true
  | _, .number t => isFinite (numeral t)
  | _, .string ps => (decode? ps).isSome
  | 0, .array _ => false
  | n + 1, .array vs => itemsFit n vs
  | 0, .object _ => false
  | n + 1, .object ms => membersFit n ms

/-- Every item fits. -/
def itemsFit : Nat → List Json → Bool
  | _, [] => true
  | n, v :: vs => fits n v && itemsFit n vs

/-- Every member fits. -/
def membersFit : Nat → List (List Piece × Json) → Bool
  | _, [] => true
  | n, (k, v) :: ms => (decode? k).isSome && fits n v && membersFit n ms

end

/-- The tree stands for a value. -/
def hasValue (j : Json) : Bool := j.fits depthLimit

end ComponentHooks.Json

/-! ## Sources of settings -/

namespace ComponentHooks.Sample

/-- The settings of a text. The number of threads is shown if the text stands for a value. -/
def textSettings (text : String) : Except SettingsError Settings :=
  (Settings.ofText text).map fun s =>
    if (Json.parse? text.toList).any (·.hasValue) then s else { s with preloadThreads := none }

/-- The settings of a process with these variables, if there can be one: texts have no zero
character, and names are not empty and have no equals sign. -/
def processSettings? (vars : List (String × String)) : Option (Except SettingsError Settings) :=
  if vars.all fun (name, text) =>
      name ≠ "" && !name.contains '=' && !(name ++ text).contains '\x00' then
    some (Settings.ofVariables (vars.lookup ·))
  else none

end ComponentHooks.Sample
