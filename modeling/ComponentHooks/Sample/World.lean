import ComponentHooks.Member

/-!
# A small world of types

Ten types of values, four native parts, and a few described structs (`Species`).

* `Ty`, `Ty.name`, `Ty.Val`, `Ty.ofInt?`: the types of values, and the values;
* `Cells`: the state of static members;
* `Species`: the described structs;
* `PartState`, `world`: the native parts, and the universe of all these types.
-/

namespace ComponentHooks.Sample

/-- The types of values. A string slice is no string. -/
inductive Ty where
  | u8
  | u32
  | u64
  | i64
  | bool
  | string
  | slice
  | strings
  | optional
  | unit
  deriving DecidableEq, Repr

namespace Ty

/-- Every type. -/
def all : List Ty := [u8, u32, u64, i64, bool, string, slice, strings, optional, unit]

/-- The short name of a type. -/
def name : Ty → String
  | u8 => "u8"
  | u32 => "u32"
  | u64 => "u64"
  | i64 => "i64"
  | bool => "bool"
  | string => "String"
  | slice => "str"
  | strings => "Vec"
  | optional => "Option"
  | unit => "unit"

/-- The type with exactly this short name. -/
def ofName? (text : String) : Option Ty := all.find? (·.name = text)

/-- The values of a type. -/
@[reducible] def Val : Ty → Type
  | u8 => UInt8
  | u32 => UInt32
  | u64 => UInt64
  | i64 => Int64
  | bool => Bool
  | string => String
  | slice => String
  | strings => List String
  | optional => Option String
  | unit => Unit

/-- The value that a new struct starts with. -/
def default : (t : Ty) → t.Val
  | u8 => 0
  | u32 => 0
  | u64 => 0
  | i64 => 0
  | bool => false
  | string => ""
  | slice => ""
  | strings => []
  | optional => none
  | unit => ()

/-- The value of a whole number, if the type has it. -/
def ofInt? : (t : Ty) → Int → Option t.Val
  | u8, i => if 0 ≤ i ∧ i.toNat < UInt8.size then some (UInt8.ofNat i.toNat) else none
  | u32, i => if 0 ≤ i ∧ i.toNat < UInt32.size then some (UInt32.ofNat i.toNat) else none
  | u64, i => if 0 ≤ i ∧ i.toNat < UInt64.size then some (UInt64.ofNat i.toNat) else none
  | i64, i => if Int64.minValue.toInt ≤ i ∧ i ≤ Int64.maxValue.toInt then some (Int64.ofInt i) else none
  | _, _ => none

end Ty

/-- The state of static members. -/
structure Cells where
  ticks : Int64 := 0
  limit : UInt64 := 0
  title : String := ""
  warmed : Int64 := 0
  /-- A hook has come to a number that its type does not have. There is no going on from there. -/
  overflowed : Bool := false
  deriving DecidableEq, Repr

/-- The described structs. -/
inductive Species where
  | base
  | derived
  | override
  | leaf
  | auditable
  | dataSource
  | signupForm
  | socket
  | templates
  | narcissus
  | plain
  deriving DecidableEq, Repr

/-- The state of a native part: a counter, and slots for values. -/
structure PartState where
  counter : Int64
  slots : List ((t : Ty) × t.Val)

/-- The universe of these types, with four native parts. -/
@[reducible] def world : Universe where
  Ty := Ty
  Val := Ty.Val
  Native := Fin 4
  NativeState := fun _ => PartState
  Link := Species
  Shared := Cells

end ComponentHooks.Sample
