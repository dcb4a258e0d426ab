import ComponentHooks.Source.Statement

/-!
# Options of a struct

A struct is described with options: that it has hooks, its type name, and the interfaces that it
implements. They are written in any number of attributes, in any order and number.

* `Supertype`, `supertype`: an interface, linked or named;
* `Clause`, `clause`, `clauses`: one option as it is written, and a list of them;
* `Options`, `Options.ofClauses`: what the options say together;
* `readOptions`: the options among the attributes of a struct;
* `readsParent`: whether a field's options make it the parent.
-/

namespace ComponentHooks.Source

/-! ## Structs -/

/-- An interface: linked by its path, or named. -/
inductive Supertype where
  | linked (path : Path)
  | named (name : String)
  deriving DecidableEq, Repr

/-- The brackets of the first group in which something is left over. -/
def Supertype.overfull? : Supertype → Option Bracket
  | linked p => p.overfull?
  | named _ => none

/-- An interface. -/
def supertype : Reader Supertype :=
  .look fun ts => if startsWithText ts then text.map .named else path.map .linked

/-- One option as it is written. -/
inductive Clause where
  | hooks
  | name (s : String)
  | implements (ts : List Supertype)
  deriving DecidableEq, Repr

/-- The interfaces in parentheses. -/
def supertypes : Reader (List Supertype) where
  read ts := chain (parentheses.read ts) fun inner rest =>
    (supertype.closed.all inner).map (·, rest)
  shorter {ts a rest} h := by
    obtain ⟨inner, mid, hp, hs⟩ := chain_eq_ok_iff.1 h
    obtain ⟨_, _, he⟩ := map_eq_ok_iff.1 hs
    obtain ⟨_, rfl⟩ := Prod.mk.inj he
    exact parentheses.shorter hp

/-- What follows the word of an option. -/
def clauseTail (word : String) : Tail Clause :=
  if word = "hooks" then .done .hooks
  else if word = "name" then (mark "=").tail.next fun _ => text.tail.map .name
  else if word = "implements" then supertypes.tail.map .implements
  else .fail .unknownOption

/-- One option. -/
def clause : Reader Clause := identifier.next clauseTail

/-- What the options of a struct say. -/
structure Options where
  /-- The struct takes its hooks into its description. -/
  hooked : Bool := false
  typeName? : Option String := none
  implements : List Supertype := []
  deriving DecidableEq, Repr

namespace Clause

/-- The type name that the clause gives. -/
def typeName? : Clause → Option String
  | name s => some s
  | _ => none

/-- The interfaces that the clause gives. -/
def interfaces : Clause → List Supertype
  | implements ts => ts
  | _ => []

/-- The brackets of the first group in which something is left over. -/
def overfull? (c : Clause) : Option Bracket := c.interfaces.findSome? Supertype.overfull?

end Clause

/-- All clauses together: of several names the last one counts, and interfaces add up. -/
def Options.ofClauses (cs : List Clause) : Options where
  hooked := cs.contains .hooks
  typeName? := (cs.filterMap Clause.typeName?).getLast?
  implements := cs.flatMap Clause.interfaces

/-- The clauses in a list of options. That something is left over inside a group counts only if all
else is right. -/
def clauses (ts : List Token) : Except Fault (List Clause) := do
  let cs ← clause.relaxed.all ts
  match cs.findSome? Clause.overfull? with
  | some b => throw (.overfull b)
  | none => return cs

/-- The clauses in the attributes of a struct, in their order. -/
def readClauses : List Attribute → Except Fault (List Clause)
  | [] => .ok []
  | a :: as =>
    if a.isOptions then do
      let cs ← clauses (← a.options)
      let ds ← readClauses as
      return cs ++ ds
    else readClauses as

/-- The options of a struct with these attributes. -/
def readOptions (as : List Attribute) : Except Fault Options :=
  (readClauses as).map .ofClauses

/-! ## Fields -/

/-- The one option of a field. -/
def parentOption : Reader Unit :=
  nestedPath.next fun p =>
    if p = { segments := [{ word := "parent" }] } then .done () else .fail .notParent

/-- The field with these attributes is the parent. -/
def readsParent : List Attribute → Except Fault Bool
  | [] => .ok false
  | a :: as =>
    if a.isOptions then do
      let ps ← parentOption.closed.all (← a.options)
      let more ← readsParent as
      return !ps.isEmpty || more
    else readsParent as

end ComponentHooks.Source
