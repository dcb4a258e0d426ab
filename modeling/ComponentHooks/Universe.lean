/-!
# The types an engine works with

An engine never looks into the types of its targets: it compares type tags, projects a target onto
the state of a tag and hands that state to a hook. A `Universe` names the types there are.

* `Universe`, `Value`, `Value.as?`: value types, and values that carry their type;
* `Shape`, `Row`, `Record`: structs as lists of own fields, most-derived level first;
* `Row.get?`, `Row.set?`, `Row.toList`: own fields by name, and all of them;
* `Tag`, `Universe.State`: run-time types and their states;
* `Tag.cast?`, `Tag.change?`: a state whose type is found out.

**`Row.get?_set?`**: a field that was set reads as the new value, and every other field as before.
-/

namespace ComponentHooks

/-- The types of one program. -/
structure Universe where
  /-- Types of field values. -/
  Ty : Type
  /-- The values of a field type. -/
  Val : Ty → Type
  /-- Types that reflect themselves by hand. -/
  Native : Type
  /-- Their states. -/
  NativeState : Native → Type
  /-- Described types that a declaration can be linked to. -/
  Link : Type
  /-- What static members read and write. -/
  Shared : Type
  [decTy : DecidableEq Ty]
  [decNative : DecidableEq Native]

attribute [instance] Universe.decTy Universe.decNative

variable {U : Universe}

/-! ## Values -/

/-- A value together with its type. -/
abbrev Value (U : Universe) : Type := (t : U.Ty) × U.Val t

/-- The value, if it has type `t`. No conversion ever happens. -/
def Value.as? (t : U.Ty) (v : Value U) : Option (U.Val t) :=
  if h : v.1 = t then some (h ▸ v.2) else none

@[simp] theorem Value.as?_self (t : U.Ty) (x : U.Val t) : Value.as? t ⟨t, x⟩ = some x := by
  simp [Value.as?]

theorem Value.as?_eq_some {t : U.Ty} {v : Value U} {x : U.Val t} :
    v.as? t = some x ↔ v = ⟨t, x⟩ := by
  obtain ⟨s, y⟩ := v
  constructor
  · intro h
    unfold Value.as? at h
    split at h
    · rename_i e
      cases e
      cases h
      rfl
    · cases h
  · intro h
    rw [h, as?_self]

theorem Value.as?_eq_none {t : U.Ty} {v : Value U} : v.as? t = none ↔ v.1 ≠ t := by
  unfold Value.as?
  split <;> simp_all

/-! ## Structs -/

/-- The own fields of a struct: its identifier, and a name and a type for each field. -/
structure Shape (U : Universe) where
  ident : String
  fields : List (String × U.Ty)
  deriving DecidableEq

/-- The values of own fields. -/
@[reducible] def Row (U : Universe) : List (String × U.Ty) → Type
  | [] => Unit
  | f :: fs => U.Val f.2 × Row U fs

/-- A struct with the structs it embeds: its own shape first, then its parent's, and so on. -/
abbrev Layout (U : Universe) : Type := List (Shape U)

/-- The state of a struct: its own row, and the state of its parent. -/
@[reducible] def Record (U : Universe) : Layout U → Type
  | [] => Unit
  | s :: ss => Row U s.fields × Record U ss

/-- The value of the own field `name`. -/
def Row.get? (name : String) : {fs : List (String × U.Ty)} → Row U fs → Option (Value U)
  | [], _ => none
  | f :: _, (v, rest) => if f.1 = name then some ⟨f.2, v⟩ else Row.get? name rest

/-- Writes the own field `name`: nothing if there is none, the value handed back if its type is not
the field's. -/
def Row.set? (name : String) (v : Value U) :
    {fs : List (String × U.Ty)} → Row U fs → Option (Except (Value U) (Row U fs))
  | [], _ => none
  | f :: _, (old, rest) =>
    if f.1 = name then
      some (match v.as? f.2 with
        | some x => .ok (x, rest)
        | none => .error v)
    else (Row.set? name v rest).map (·.map (old, ·))

/-- The own fields with their values, in declaration order. -/
def Row.toList : {fs : List (String × U.Ty)} → Row U fs → List (String × Value U)
  | [], _ => []
  | f :: _, (v, rest) => (f.1, ⟨f.2, v⟩) :: Row.toList rest

/-- The row with the value `d t` in each field of type `t`. -/
def Row.fill (d : ∀ t, U.Val t) : (fs : List (String × U.Ty)) → Row U fs
  | [] => ()
  | f :: fs => (d f.2, Row.fill d fs)

/-- The record with the value `d t` in each field of type `t`. -/
def Record.fill (d : ∀ t, U.Val t) : (ls : Layout U) → Record U ls
  | [] => ()
  | s :: ss => (Row.fill d s.fields, Record.fill d ss)

/-- The type of the own field `name`. -/
def Shape.type? (s : Shape U) (name : String) : Option U.Ty :=
  (s.fields.find? (·.1 = name)).map (·.2)

/-! ## Run-time types -/

/-- A run-time type. Two structs are the same type when all their levels are. -/
inductive Tag (U : Universe) where
  | native (n : U.Native)
  | struct (levels : Layout U)
  deriving DecidableEq

/-- The states of a run-time type. -/
@[reducible] def Universe.State (U : Universe) : Tag U → Type
  | .native n => U.NativeState n
  | .struct levels => Record U levels

/-- The state, if its tag is `t`. -/
def Tag.cast? {s : Tag U} (t : Tag U) (x : U.State s) : Option (U.State t) :=
  if h : s = t then some (h ▸ x) else none

@[simp] theorem Tag.cast?_self (t : Tag U) (x : U.State t) : Tag.cast? t x = some x := by
  simp [Tag.cast?]

/-- Changes the state, if its tag is `t`. -/
def Tag.change? {α : Type} {s : Tag U} (t : Tag U) (f : U.State t → α × U.State t)
    (x : U.State s) : Option (α × U.State s) :=
  if h : s = t then some ((f (h ▸ x)).1, h ▸ (f (h ▸ x)).2) else none

@[simp] theorem Tag.change?_self {α : Type} (t : Tag U) (f : U.State t → α × U.State t)
    (x : U.State t) : Tag.change? t f x = some (f x) := by
  simp [Tag.change?]

/-! ## Lemmas on rows -/

namespace Row

variable {fs : List (String × U.Ty)}

theorem get?_isSome (name : String) (r : Row U fs) :
    (r.get? name).isSome = fs.any (·.1 = name) := by
  induction fs with
  | nil => rfl
  | cons f fs ih =>
    obtain ⟨v, rest⟩ := r
    by_cases h : f.1 = name <;> simp [Row.get?, h, ih]

/-- **What a successful write leaves behind.** -/
theorem get?_set? {name other : String} {v : Value U} {r r' : Row U fs}
    (h : r.set? name v = some (.ok r')) :
    r'.get? other = if other = name then some v else r.get? other := by
  induction fs with
  | nil => cases h
  | cons f fs ih =>
    obtain ⟨old, rest⟩ := r
    unfold Row.set? at h
    split at h
    · rename_i hf
      cases hv : v.as? f.2 with
      | none => simp [hv] at h
      | some x =>
        simp only [hv, Option.some.injEq, Except.ok.injEq] at h
        subst h
        have := Value.as?_eq_some.mp hv
        subst this
        by_cases ho : other = name
        · simp [Row.get?, hf, ho]
        · simp [Row.get?, hf, ho, Ne.symm ho]
    · rename_i hf
      cases hs : Row.set? name v rest with
      | none => simp [hs] at h
      | some e =>
        cases e with
        | error w => simp [hs, Except.map] at h
        | ok rest' =>
          simp only [hs, Option.map_some, Except.map, Option.some.injEq, Except.ok.injEq] at h
          subst h
          have := ih hs
          by_cases hfo : f.1 = other
          · subst hfo
            simp [Row.get?, hf]
          · simp [Row.get?, hfo, this]

end Row

end ComponentHooks
