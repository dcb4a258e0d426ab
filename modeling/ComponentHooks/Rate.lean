/-!
# Rates

A rate is a quotient of two counts, written with four decimals.

* `roundDiv`: a quotient rounded to the nearest natural number, a tie to the even one;
* `Binary`, `Binary.nearest`: binary fractions with a 53-bit numerator, and the one nearest to a
  quotient;
* `Binary.decimal`, `rateText`: a binary fraction with four decimals, and the written rate.
-/

namespace ComponentHooks

/-- `n / d` rounded to the nearest natural number; a tie goes to the even one. -/
def roundDiv (n d : Nat) : Nat :=
  let q := n / d
  let r := n % d
  if 2 * r < d then q
  else if 2 * r = d then q + q % 2
  else q + 1

/-- The fraction `mantissa / 2 ^ scale`. -/
structure Binary where
  mantissa : Nat
  scale : Nat
  deriving DecidableEq, Repr

/-- The binary fraction nearest to `n / d` among those with a numerator of 53 bits, for a quotient
of at most one. -/
def Binary.nearest (n d : Nat) : Binary :=
  if n = 0 then ⟨0, 0⟩
  else
    let scale := 52 + d.log2 - n.log2
    let scale := if n <<< scale < d <<< 52 then scale + 1 else scale
    ⟨roundDiv (n <<< scale) d, scale⟩

/-- A natural number with at least four digits. -/
def fourDigits (n : Nat) : String :=
  let s := toString n
  String.ofList (List.replicate (4 - s.length) '0') ++ s

/-- The fraction with four decimals; a tie goes to the even last digit. -/
def Binary.decimal (b : Binary) : String :=
  let n := roundDiv (b.mantissa * 10000) (1 <<< b.scale)
  toString (n / 10000) ++ "." ++ fourDigits (n % 10000)

/-- The part that `n` is of `total`, as text; zero where there is nothing to divide. -/
def rateText (n total : Nat) : String :=
  if total = 0 then "0.0000" else (Binary.nearest n total).decimal

end ComponentHooks
