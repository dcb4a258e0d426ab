import ComponentHooks.Marker
import ComponentHooks.Source.Token
import ComponentHooks.Text.Numeral

/-!
# Faults in a component's source

What can be wrong with a described struct or a block of hooks, and the text of each fault.

* `Wanted`: what a reader of tokens looks for;
* `Misuse`: what must not stand where it stands;
* `Fault`, `Fault.message`: the faults and their texts.
-/

namespace ComponentHooks

/-- The things at a site. -/
def Site.things : Site → String
  | .type => "types"
  | .field => "fields"
  | .method => "methods"

namespace Source

/-- What a reader of tokens looks for. -/
inductive Wanted where
  | text
  | identifier
  | group (b : Bracket)
  | mark (s : String)
  | keyword (word : String)
  /-- Any word. -/
  | word
  /-- A path inside an attribute. -/
  | nested
  /-- A segment of a path that has begun. -/
  | segment
  /-- Any group of tokens. -/
  | delimiter
  | literal
  | lifetime
  | expression
  /-- A part of a value: a field, or a place in a tuple. -/
  | member
  /-- What can have a label. -/
  | labelled
  | upperBound
  /-- One of several things, by their names. -/
  | choice (names : List String)
  deriving DecidableEq, Repr

/-- The words for what is wanted. -/
def Wanted.name : Wanted → String
  | text => "string literal"
  | identifier => "identifier"
  | group .round => "parentheses"
  | group .square => "square brackets"
  | group .curly => "curly braces"
  | mark s => "`" ++ s ++ "`"
  | keyword w => "`" ++ w ++ "`"
  | word => "ident"
  | nested => "nested attribute"
  | segment => "path segment after `::`"
  | delimiter => "delimiter"
  | literal => "literal"
  | lifetime => "lifetime"
  | expression => "an expression"
  | member => "identifier or integer"
  | labelled => "loop or block expression"
  | upperBound => "range upper bound"
  | choice [x, y] => x ++ " or " ++ y
  | choice [x] => x
  | choice xs => "one of: " ++ String.intercalate ", " xs

/-- Tokens that stand where they must not, although nothing is missing. -/
inductive Misuse where
  | chainedComparison
  /-- What takes a value as its own follows the type of a cast. -/
  | followedCast (follower : String)
  | constantBound
  | conditionalBound
  | capture
  /-- Lifetimes are introduced for a bound that need not hold. -/
  | optionalBinder
  | noTrait
  | noObjectTrait
  /-- A statement goes on where it should have ended. -/
  | unterminated
  | attributedRange
  | attributedAttribute
  /-- A range without an end stands among the parts of a slice. -/
  | openRange
  | labelledValue
  | secondReceiver
  | lateReceiver
  | negativeBlock
  | reservedParameters
  /-- A place in a tuple cannot be read. -/
  | place (e : Text.NumeralError)
  deriving DecidableEq, Repr

/-- The text of a misuse. -/
def Misuse.message : Misuse → String
  | chainedComparison => "comparison operators cannot be chained"
  | followedCast follower => "casts cannot be followed by " ++ follower
  | constantBound => "`const` is not allowed here"
  | conditionalBound => "`[const]` is not allowed here"
  | capture => "`use<...>` precise capturing syntax is not allowed here"
  | optionalBinder => "`for<...>` binder not allowed with `?` trait polarity modifier"
  | noTrait => "at least one trait must be specified"
  | noObjectTrait => "at least one trait is required for an object type"
  | unterminated => "unexpected token, expected `;`"
  | attributedRange => "attributes are not allowed on range expressions starting with `..`"
  | attributedAttribute => "unexpected attribute inside of attribute"
  | openRange => "range pattern is not allowed unparenthesized inside slice pattern"
  | labelledValue => "parentheses required"
  | secondReceiver => "unexpected second method receiver"
  | lateReceiver => "unexpected method receiver"
  | negativeBlock => "inherent impls cannot be negative"
  | reservedParameters => "generic parameters on `where` clauses are reserved for future use"
  | place e => e.message

/-- What is wrong with a source. -/
inductive Fault where
  /-- Another token stands where something is wanted. -/
  | missing (w : Wanted)
  /-- The tokens end where something is wanted. -/
  | ended (w : Wanted)
  /-- A keyword stands where an identifier is wanted. -/
  | keyword (word : String)
  /-- The tokens end where any of them would be read. -/
  | exhausted
  /-- Something follows what should be alone. -/
  | leftover
  /-- Something follows what should be alone in a group. -/
  | overfull (b : Bracket)
  | misuse (m : Misuse)
  /-- A literal stands where a path inside an attribute is wanted. -/
  | nestedLiteral
  /-- Any other token stands there. -/
  | nestedToken
  /-- An option of a struct that is none of the three. -/
  | unknownOption
  /-- An option of a field that is not `parent`. -/
  | notParent
  /-- A marker of a kind that has no place at the site. -/
  | misplaced (k : Kind) (s : Site)
  /-- A marker with arguments that takes none. -/
  | argued (k : Kind)
  /-- A marker with a value behind an equals sign. -/
  | assigned (k : Kind)
  /-- Options without a list. -/
  | optionsAbsent
  /-- Options with a value behind an equals sign. -/
  | optionsAssigned
  | genericStruct
  | tupleStruct
  | notAStruct
  | secondParent
  | markedParent
  | blockNotInherent
  | hookAsynchronous
  | hookGeneric
  | hookReceiver
  | hookArguments
  deriving DecidableEq, Repr

/-- The text of a fault. -/
def Fault.message : Fault → String
  | missing w => "expected " ++ w.name
  | ended w => "unexpected end of input, expected " ++ w.name
  | keyword word => "expected identifier, found keyword `" ++ word ++ "`"
  | exhausted => "unexpected end of input"
  | leftover => "unexpected token"
  | overfull b => "unexpected token, expected `" ++ b.closing ++ "`"
  | misuse m => m.message
  | nestedLiteral => "unexpected literal in nested attribute, expected ident"
  | nestedToken => "unexpected token in nested attribute, expected ident"
  | unknownOption => "expected `hooks`, `name = \"...\"` or `implements(...)`"
  | notParent => "expected `parent`"
  | misplaced k s => "#[" ++ k.name ++ "] cannot be used on " ++ s.things
  | argued k => "#[" ++ k.name ++ "] takes no arguments"
  | assigned k => "expected #[" ++ k.name ++ "] or #[" ++ k.name ++ "(\"...\")]"
  | optionsAbsent => "expected attribute arguments in parentheses: #[lifecycle(...)]"
  | optionsAssigned => "expected parentheses: #[lifecycle(...)]"
  | genericStruct => "#[derive(Lifecycle)] does not support generic types"
  | tupleStruct => "#[derive(Lifecycle)] only supports structs with named fields"
  | notAStruct => "#[derive(Lifecycle)] can only be applied to structs"
  | secondParent => "only one field can be marked #[lifecycle(parent)]"
  | markedParent => "the parent field cannot carry markers"
  | blockNotInherent => "#[hooks] only supports inherent impls of non-generic types"
  | hookAsynchronous => "lifecycle hooks must be synchronous"
  | hookGeneric => "lifecycle hooks cannot be generic"
  | hookReceiver => "lifecycle hooks take `&self` or `&mut self`"
  | hookArguments => "lifecycle hooks take no arguments"

end Source

end ComponentHooks
