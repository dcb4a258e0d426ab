/-!
# Numerals

Unsigned 64-bit numbers in decimal, and the blanks that may stand around a text. These are the
characters with the Unicode property `White_Space`.

* `isBlank`, `trim`, `dense`: the class, and a text without the blanks at its ends, or without any;
* `digitValue?`, `readDigits`: digits, and the number they write;
* `NumeralError`, `readNumeral`: numbers with an optional plus sign.

**`readDigits_ok_lt`**: what is read fits.
-/

namespace ComponentHooks.Text

/-! ## Blanks -/

/-- The ranges of code points with the property `White_Space`. -/
def blankRanges : List (Nat × Nat) :=
  [(0x0009, 0x000D), (0x0020, 0x0020), (0x0085, 0x0085), (0x00A0, 0x00A0), (0x1680, 0x1680),
    (0x2000, 0x200A), (0x2028, 0x2029), (0x202F, 0x202F), (0x205F, 0x205F), (0x3000, 0x3000)]

/-- The character has the property `White_Space`. -/
def isBlank (c : Char) : Bool := blankRanges.any fun (lo, hi) => lo ≤ c.toNat && c.toNat ≤ hi

/-- The text without the blanks at its ends. -/
def trim (cs : List Char) : List Char :=
  ((cs.dropWhile isBlank).reverse.dropWhile isBlank).reverse

/-- The text without any blanks. -/
def dense (text : String) : String := String.ofList (text.toList.filter (!isBlank ·))

/-! ## Digits -/

/-- Why a text is no number. -/
inductive NumeralError where
  | empty
  | invalidDigit
  | tooLarge
  deriving DecidableEq, Repr

/-- The text of the error. -/
def NumeralError.message : NumeralError → String
  | empty => "cannot parse integer from empty string"
  | invalidDigit => "invalid digit found in string"
  | tooLarge => "number too large to fit in target type"

/-- The value of an ASCII digit. -/
def digitValue? (c : Char) : Option Nat := if c.isDigit then some (c.toNat - '0'.toNat) else none

/-- Reads digits after the number `n`. A character that is no digit is found before the number in
front of it grows too large. -/
def readDigits : Nat → List Char → Except NumeralError Nat
  | n, [] => .ok n
  | n, c :: cs =>
    match digitValue? c with
    | none => .error .invalidDigit
    | some d => if 10 * n + d < UInt64.size then readDigits (10 * n + d) cs else .error .tooLarge

/-- Reads a number below 2^64: an optional plus sign and at least one digit. -/
def readNumeral (cs : List Char) : Except NumeralError UInt64 :=
  match cs with
  | [] => .error .empty
  | ['+'] => .error .invalidDigit
  | '+' :: cs => (readDigits 0 cs).map UInt64.ofNat
  | cs => (readDigits 0 cs).map UInt64.ofNat

/-- **What is read fits.** -/
theorem readDigits_ok_lt {n m : Nat} {cs : List Char} (hn : n < UInt64.size)
    (h : readDigits n cs = .ok m) : m < UInt64.size := by
  induction cs generalizing n with
  | nil => cases h; exact hn
  | cons c cs ih =>
    unfold readDigits at h
    split at h
    · cases h
    · split at h
      · exact ih (by assumption) h
      · cases h

end ComponentHooks.Text
