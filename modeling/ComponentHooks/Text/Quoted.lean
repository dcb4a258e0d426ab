import ComponentHooks.Text.Numeral
import ComponentHooks.Text.Printable

/-!
# Quoted texts

A text between double quotes, as it is written, where every character can be seen, and as it is
read.

* `escaped`, `escapes`, `quoted`: characters, and a text, as they are written between quotes;
* `hexValue`, `codePoint`: hexadecimal digits, and the character that they name;
* `escape`: what a backslash stands for, together with what follows it;
* `unescaped`, `raw`: the characters up to the closing quote, with and without escapes;
* `unquoted`: the text of a literal.

**`escape_length`**: an escape takes no more than there is.
-/

namespace ComponentHooks.Text

/-! ## Writing -/

/-- The character is an octal digit. -/
def isOctal (c : Char) : Bool := '0' ≤ c && c ≤ '7'

/-- A character as it is written between quotes, with `next?` behind it. An octal digit behind a NUL
must not be taken for a part of its escape. -/
def escaped (c : Char) (next? : Option Char) : String :=
  match c with
  | '\x00' => if next?.any isOctal then "\\x00" else "\\0"
  | '\t' => "\\t"
  | '\n' => "\\n"
  | '\r' => "\\r"
  | '"' => "\\\""
  | '\\' => "\\\\"
  | c =>
    if isPrintable c then c.toString
    else "\\u\x7b" ++ String.ofList (Nat.toDigits 16 c.toNat) ++ "\x7d"

/-- Characters as they are written between quotes. -/
def escapes : List Char → String
  | [] => ""
  | c :: cs => escaped c cs.head? ++ escapes cs

/-- A text with quotes around it. -/
def quoted (text : String) : String := "\"" ++ escapes text.toList ++ "\""

/-! ## Reading -/

/-- The value of a hexadecimal digit. -/
def hexValue (c : Char) : Nat :=
  if c.isDigit then c.toNat - '0'.toNat else c.toLower.toNat - 'a'.toNat + 10

/-- The character whose number hexadecimal digits write; underscores between them do not count. -/
def codePoint (digits : List Char) : Char :=
  .ofNat ((digits.filter (· ≠ '_')).foldl (fun n c => 16 * n + hexValue c) 0)

/-- The characters that a backslash stands for together with what follows it, and what is left. At
the end of a line it hides the blanks up to the next word. -/
def escape : List Char → List Char × List Char
  | [] => ([], [])
  | 'n' :: cs => (['\n'], cs)
  | 'r' :: cs => (['\r'], cs)
  | 't' :: cs => (['\t'], cs)
  | '0' :: cs => (['\x00'], cs)
  | 'x' :: cs => ([codePoint (cs.take 2)], cs.drop 2)
  | 'u' :: cs =>
    let digits := (cs.drop 1).takeWhile (· ≠ '\x7d')
    ([codePoint digits], cs.drop (digits.length + 2))
  | '\n' :: cs | '\r' :: cs => ([], cs.dropWhile isBlank)
  | c :: cs => ([c], cs)

/-- **An escape takes no more than there is.** -/
theorem escape_length (cs : List Char) : (escape cs).2.length ≤ cs.length := by
  unfold escape
  split <;> simp only [List.length_cons, List.length_drop, List.length_nil] <;> try omega
  all_goals exact Nat.le_succ_of_le (List.dropWhile_sublist _).length_le

/-- The characters up to a double quote. A return at the end of a line does not count. -/
def unescaped (cs : List Char) : List Char :=
  match cs with
  | [] => []
  | '"' :: _ => []
  | '\\' :: cs => (escape cs).1 ++ unescaped (escape cs).2
  | '\r' :: '\n' :: cs => '\n' :: unescaped cs
  | c :: cs => c :: unescaped cs
termination_by cs.length
decreasing_by
  all_goals simp only [List.length_cons]
  · exact Nat.lt_succ_of_le (escape_length _)
  · omega
  · omega

/-- The characters up to a double quote with this many number signs behind it. -/
def raw (signs : Nat) : List Char → List Char
  | [] => []
  | c :: cs =>
    if c = '"' && cs.take signs = List.replicate signs '#' then [] else c :: raw signs cs

/-- The text that a literal stands for. Behind an `r` nothing is an escape. -/
def unquoted (source : String) : String :=
  .ofList <| match source.toList with
    | 'r' :: cs =>
      let signs := (cs.takeWhile (· = '#')).length
      raw signs (cs.drop (signs + 1))
    | cs => unescaped (cs.drop 1)

end ComponentHooks.Text
