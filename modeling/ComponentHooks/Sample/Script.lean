import ComponentHooks.Sample.World

/-!
# Scripted members

Members of declarations that are written by hand take their bodies from a small set of scripts.

* `PartScript`, `CellScript`: the scripts for the state of a part, and for the cells;
* `PartScript.body`, `CellScript.body`: the bodies of methods;
* `slotAccess`, `CellName.access`: the access to fields.
-/

namespace ComponentHooks.Sample

/-! ## Parts -/

/-- What an instance method does to the state of a part. -/
inductive PartScript where
  | count
  | double
  | fail
  | chain
  | typed
  | need
  | halfway
  | wrong
  deriving DecidableEq, Repr

/-- The script's name. -/
def PartScript.name : PartScript → String
  | count => "count"
  | double => "double"
  | fail => "fail"
  | chain => "chain"
  | typed => "typed"
  | need => "need"
  | halfway => "partial"
  | wrong => "wrong"

/-- The script with exactly this name. -/
def PartScript.ofName? (text : String) : Option PartScript :=
  [count, double, fail, chain, typed, need, halfway, wrong].find? (·.name = text)

/-- The first slot holds a string that is not empty. -/
def PartState.isConfigured (p : PartState) : Bool :=
  match p.slots with
  | ⟨.string, s⟩ :: _ => s ≠ ""
  | _ => false

/-- Sets the counter, if it can hold the number. -/
def PartState.setCounter (i : Int) (o : Outcome) (p : PartState) (c : Cells) :
    Outcome × PartState × Cells :=
  match Ty.i64.ofInt? i with
  | some n => (o, { p with counter := n }, c)
  | none => (o, p, { c with overflowed := true })

/-- The script on the state of a part. -/
def PartScript.run (script : PartScript) (p : PartState) (c : Cells) :
    Outcome × PartState × Cells :=
  let n := p.counter.toInt
  match script with
  | count => p.setCounter (n + 1) (.ok ()) c
  | double => p.setCounter (n * 2) (.ok ()) c
  | fail => (.error { message := "boom" }, p, c)
  | chain => (.error { message := "outer", causes := ["middle", "root cause"] }, p, c)
  | typed => (.error { message := "worker crashed", causes := ["disk full"] }, p, c)
  | need =>
    if p.isConfigured then p.setCounter (n + 100) (.ok ()) c
    else (.error { message := "slot 0 is not configured" }, p, c)
  | halfway => p.setCounter (n + 1000) (.error { message := "half done" }) c
  | wrong => (.error { message := "target is not a u32" }, p, c)

/-- The error of a body for part `k` that is run on another state. -/
def notAPart (home : String) (k : Fin 4) : Failure :=
  { message := "target is not a " ++ home ++ "::Part<" ++ toString k.val ++ ">" }

/-- The script as a change of the state, which also answers with the cells. -/
def PartScript.change (script : PartScript) (c : Cells) (p : PartState) :
    (Outcome × Cells) × PartState :=
  let (o, p, c) := script.run p c
  ((o, c), p)

/-- A method body for states of part `k`. The script `wrong` fails the same way on every state. -/
def PartScript.body (home : String) (k : Fin 4) (script : PartScript) : Body world :=
  .onState fun _ x cells =>
    match Tag.change? (.native k) (script.change cells) x with
    | some ((o, cells), x) => (o, x, cells)
    | none =>
      if script = wrong then (.error { message := "target is not a u32" }, x, cells)
      else (.error (notAPart home k), x, cells)

/-- Writes a slot that holds a value of the same type. -/
def PartState.setSlot (slot : Nat) (v : Value world) (p : PartState) :
    Except (Value world) Unit × PartState :=
  match p.slots[slot]? with
  | some old =>
    if old.1 = v.1 then (.ok (), { p with slots := p.slots.set slot v }) else (.error v, p)
  | none => (.error v, p)

/-- The access to a slot of part `k`. -/
def slotAccess (k : Fin 4) (slot : Nat) : Access world :=
  .onState (fun _ x => (Tag.cast? (.native k) x).bind fun p => p.slots[slot]?)
    fun _ v x =>
      match Tag.change? (.native k) (PartState.setSlot slot v) x with
      | some (r, x) => (r, x)
      | none => (.error v, x)

/-! ## Cells -/

/-- What a static method does to the cells. -/
inductive CellScript where
  | tick
  | fail
  | third
  deriving DecidableEq, Repr

/-- The script's name. -/
def CellScript.name : CellScript → String
  | tick => "tick"
  | fail => "fail"
  | third => "third"

/-- The script with exactly this name. -/
def CellScript.ofName? (text : String) : Option CellScript :=
  [tick, fail, third].find? (·.name = text)

/-- The script on the cells. -/
def CellScript.run (script : CellScript) (c : Cells) : Outcome × Cells :=
  match script with
  | tick => (.ok (), { c with ticks := c.ticks + 1 })
  | fail => (.error { message := "static boom" }, c)
  | third =>
    (if 2 ≤ c.ticks then
        .error { message := "ticked " ++ toString c.ticks.toInt ++ " times before" }
      else .ok (),
      { c with ticks := c.ticks + 1 })

/-- A method body for the cells. -/
def CellScript.body (script : CellScript) : Body world := .onShared script.run

/-- A cell that a static field stands for. -/
inductive CellName where
  | limit
  | title
  deriving DecidableEq, Repr

/-- The cell with exactly this name. -/
def CellName.ofName? : String → Option CellName
  | "limit" => some limit
  | "title" => some title
  | _ => none

/-- The access to a cell. A value of another type is refused. -/
def CellName.access : CellName → Access world
  | limit =>
    .onShared (fun c => ⟨.u64, c.limit⟩) fun v c =>
      match v with
      | ⟨.u64, n⟩ => (.ok (), { c with limit := n })
      | v => (.error v, c)
  | title =>
    .onShared (fun c => ⟨.string, c.title⟩) fun v c =>
      match v with
      | ⟨.string, s⟩ => (.ok (), { c with title := s })
      | v => (.error v, c)

end ComponentHooks.Sample
