import ComponentHooks.Logged

/-!
# The handle table

The table remembers the verdict on each member that was ever asked for, methods and fields apart. A
verdict is never taken back.

* `Slots`: verdicts by member;
* `HandleTable`, `HandleTable.requestMethod`, `HandleTable.requestField`: the table, and the slot
  of a member, made on its first request.

**`Slots.find?_add`**: a new slot changes one member.
-/

namespace ComponentHooks

/-! ## Slots -/

/-- Verdicts by member, in order of their first request. -/
structure Slots (H : Type) where
  entries : List (MemberId × Except Refusal H) := []

namespace Slots

variable {H : Type}

/-- The verdict on a member. -/
def find? (s : Slots H) (m : MemberId) : Option (Except Refusal H) :=
  (s.entries.find? (·.1 = m)).map (·.2)

/-- With the verdict on one more member. -/
def add (s : Slots H) (m : MemberId) (v : Except Refusal H) : Slots H :=
  ⟨s.entries ++ [(m, v)]⟩

/-- The number of slots. -/
def size (s : Slots H) : Nat := s.entries.length

/-- Whether a member has a handle; nothing if it was never asked for. -/
def bound? (s : Slots H) (m : MemberId) : Option Bool :=
  (s.find? m).map fun
    | .ok _ => true
    | .error _ => false

/-- **A new slot changes one member.** -/
theorem find?_add {s : Slots H} {m : MemberId} (h : s.find? m = none) (v : Except Refusal H)
    (n : MemberId) : (s.add m v).find? n = if m = n then some v else s.find? n := by
  simp only [find?, Option.map_eq_none_iff] at h
  simp only [find?, add, List.find?_append]
  by_cases hn : m = n
  · subst hn
    simp [h]
  · simp [hn]

end Slots

/-! ## The table -/

variable (U : Universe)

/-- The verdicts of one policy. -/
structure HandleTable where
  policy : BindPolicy
  methods : Slots (MethodHandle U) := {}
  fields : Slots (FieldHandle U) := {}

variable {U}

namespace HandleTable

/-- The slot of a method; a new one that holds no handle is told. -/
def requestMethod (m : Method U) : Logged (HandleTable U) (Except Refusal (MethodHandle U)) :=
  fun t =>
    match t.methods.find? m.id with
    | some v => (v, t, [])
    | none =>
      let v := t.policy.bindMethod m
      (v, { t with methods := t.methods.add m.id v },
        match v with
        | .ok _ => []
        | .error r => [.methodUnavailable m.id r])

/-- The slot of a field; a new one that holds no handle is told. -/
def requestField (f : Field U) : Logged (HandleTable U) (Except Refusal (FieldHandle U)) :=
  fun t =>
    match t.fields.find? f.id with
    | some v => (v, t, [])
    | none =>
      let v := t.policy.bindField f
      (v, { t with fields := t.fields.add f.id v },
        match v with
        | .ok _ => []
        | .error r => [.fieldUnavailable f.id r])

end HandleTable

end ComponentHooks
