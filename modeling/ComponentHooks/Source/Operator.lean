import ComponentHooks.Source.Front

/-!
# Operators

Values are joined by operators, and some operators bind tighter than others.

* `Precedence`, `Precedence.rank`: how tightly operators bind;
* `Precedence.operandRank`: the operators that can stand in what follows an operator;
* `operators`, `operator?`: operators with two operands, and the one in front of tokens;
* `joins?`: whatever makes tokens go on with the value in front of them.
-/

namespace ComponentHooks.Source

/-- How tightly an operator binds. -/
inductive Precedence where
  | assignment
  | range
  | disjunction
  | conjunction
  | comparison
  | bitOr
  | bitXor
  | bitAnd
  | shift
  | sum
  | product
  | cast
  deriving DecidableEq, Repr

namespace Precedence

/-- Operators of higher rank bind tighter. -/
def rank : Precedence → Nat
  | assignment => 0
  | range => 1
  | disjunction => 2
  | conjunction => 3
  | comparison => 4
  | bitOr => 5
  | bitXor => 6
  | bitAnd => 7
  | shift => 8
  | sum => 9
  | product => 10
  | cast => 11

/-- The least rank of an operator that can stand in the right operand. Assignments are read from the
right. -/
def operandRank : Precedence → Nat
  | assignment => rank assignment
  | p => rank p + 1

end Precedence

/-- The rank above all operators: a value that no operator joins. -/
def operandOnly : Nat := 12

/-- The operators with two operands. One that begins with another stands in front of it. -/
def operators : List (String × Precedence) :=
  [("+=", .assignment), ("-=", .assignment), ("*=", .assignment), ("/=", .assignment),
    ("%=", .assignment), ("^=", .assignment), ("&=", .assignment), ("|=", .assignment),
    ("<<=", .assignment), (">>=", .assignment), ("&&", .conjunction), ("||", .disjunction),
    ("<<", .shift), (">>", .shift), ("==", .comparison), ("<=", .comparison), ("!=", .comparison),
    (">=", .comparison), ("+", .sum), ("-", .sum), ("*", .product), ("/", .product),
    ("%", .product), ("^", .bitXor), ("&", .bitAnd), ("|", .bitOr), ("<", .comparison),
    (">", .comparison)]

/-- The operator in front of tokens. -/
def operator? (ts : List Token) : Option (String × Precedence) :=
  operators.find? fun (s, _) => startsWith s ts

/-- How tightly the tokens join what follows to the value in front of them: by an operator, an
assignment, a range or a cast. -/
def joins? (ts : List Token) : Option Precedence :=
  match operator? ts with
  | some (_, p) => some p
  | none =>
    if startsWithEquals ts then some .assignment
    else if startsWith ".." ts then some .range
    else if startsWithWord "as" ts then some .cast
    else none

end ComponentHooks.Source
