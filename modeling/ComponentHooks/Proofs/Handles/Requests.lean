import ComponentHooks.HandleTable

/-!
# Requests of handle slots

What happens to a handle table is a list of requests. The table answers a request with the verdict
on the first member that was requested under its identity, whatever is requested later.

* `Slots.request`: one half of a table after a request;
* `Request`, `HandleTable.serve`, `HandleTable.serveAll`: requests, and tables after them;
* `firstMethod?`, `firstField?`: the first member requested under an identity;
* **`HandleTable.findMethod_serveAll`**, **`HandleTable.findField_serveAll`**: the slots of a table
  that has served requests.
-/

namespace ComponentHooks

variable {U : Universe}

/-! ## Slots -/

namespace Slots

variable {H α : Type}

/-- The slots after a request for `m`, on which the verdict would be `v`. -/
def request (s : Slots H) (m : MemberId) (v : Except Refusal H) : Slots H :=
  match s.find? m with
  | some _ => s
  | none => s.add m v

/-- **A request changes nothing but the slot of its member, and that only if it is new.** -/
theorem find?_request (s : Slots H) (m : MemberId) (v : Except Refusal H) (n : MemberId) :
    (s.request m v).find? n = (s.find? n).or (if m = n then some v else none) := by
  rw [request]
  cases h : s.find? m with
  | some u =>
    by_cases hn : m = n
    · rw [← hn, h, Option.some_or]
    · rw [if_neg hn, Option.or_none]
  | none =>
    rw [find?_add h]
    by_cases hn : m = n
    · rw [if_pos hn, if_pos hn, ← hn, h, Option.none_or]
    · rw [if_neg hn, if_neg hn, Option.or_none]

theorem find?_foldl_request (key : α → MemberId) (verdict : α → Except Refusal H) (xs : List α)
    (s : Slots H) (m : MemberId) :
    (xs.foldl (fun s x => s.request (key x) (verdict x)) s).find? m =
      (s.find? m).or ((xs.find? (key · = m)).map verdict) := by
  induction xs generalizing s with
  | nil => rw [List.foldl_nil, List.find?_nil, Option.map_none, Option.or_none]
  | cons x xs ih =>
    rw [List.foldl_cons, ih, find?_request, Option.or_assoc, List.find?_cons]
    by_cases hm : key x = m <;> simp [hm]

end Slots

/-! ## Requests -/

variable (U) in
/-- A member whose slot is asked for. -/
inductive Request where
  | method (x : Method U)
  | field (x : Field U)

/-- The method that is asked for. -/
def Request.method? : Request U → Option (Method U)
  | .method x => some x
  | .field _ => none

/-- The field that is asked for. -/
def Request.field? : Request U → Option (Field U)
  | .method _ => none
  | .field x => some x

/-- The first method requested under an identity. -/
def firstMethod? (rs : List (Request U)) (m : MemberId) : Option (Method U) :=
  (rs.filterMap Request.method?).find? (·.id = m)

/-- The first field requested under an identity. -/
def firstField? (rs : List (Request U)) (m : MemberId) : Option (Field U) :=
  (rs.filterMap Request.field?).find? (·.id = m)

theorem mem_filterMap_method? {rs : List (Request U)} {x : Method U} :
    x ∈ rs.filterMap Request.method? ↔ .method x ∈ rs := by
  refine List.mem_filterMap.trans ⟨?_, fun h => ⟨_, h, rfl⟩⟩
  rintro ⟨_ | _, hr, hx⟩
  · cases hx
    exact hr
  · cases hx

theorem mem_filterMap_field? {rs : List (Request U)} {x : Field U} :
    x ∈ rs.filterMap Request.field? ↔ .field x ∈ rs := by
  refine List.mem_filterMap.trans ⟨?_, fun h => ⟨_, h, rfl⟩⟩
  rintro ⟨_ | _, hr, hx⟩
  · cases hx
  · cases hx
    exact hr

theorem mem_of_firstMethod? {rs : List (Request U)} {m : MemberId} {x : Method U}
    (h : firstMethod? rs m = some x) : .method x ∈ rs ∧ x.id = m :=
  ⟨mem_filterMap_method?.mp (List.mem_of_find?_eq_some h), by simpa using List.find?_some h⟩

theorem mem_of_firstField? {rs : List (Request U)} {m : MemberId} {x : Field U}
    (h : firstField? rs m = some x) : .field x ∈ rs ∧ x.id = m :=
  ⟨mem_filterMap_field?.mp (List.mem_of_find?_eq_some h), by simpa using List.find?_some h⟩

/-! ## Tables -/

namespace HandleTable

/-- The table after a request. -/
def serve (t : HandleTable U) : Request U → HandleTable U
  | .method x => (requestMethod x t).2.1
  | .field x => (requestField x t).2.1

/-- The table after requests in order. -/
def serveAll (t : HandleTable U) (rs : List (Request U)) : HandleTable U := rs.foldl serve t

@[simp] theorem serveAll_nil (t : HandleTable U) : t.serveAll [] = t := rfl

@[simp] theorem serveAll_cons (t : HandleTable U) (r : Request U) (rs : List (Request U)) :
    t.serveAll (r :: rs) = (t.serve r).serveAll rs := rfl

@[simp] theorem serveAll_append (t : HandleTable U) (rs ss : List (Request U)) :
    t.serveAll (rs ++ ss) = (t.serveAll rs).serveAll ss := List.foldl_append

theorem requestMethod_fst (t : HandleTable U) (x : Method U) :
    (requestMethod x t).1 = (t.methods.find? x.id).getD (t.policy.bindMethod x) := by
  unfold requestMethod
  cases t.methods.find? x.id <;> rfl

theorem requestField_fst (t : HandleTable U) (x : Field U) :
    (requestField x t).1 = (t.fields.find? x.id).getD (t.policy.bindField x) := by
  unfold requestField
  cases t.fields.find? x.id <;> rfl

theorem serve_method (t : HandleTable U) (x : Method U) :
    t.serve (.method x) =
      { t with methods := t.methods.request x.id (t.policy.bindMethod x) } := by
  rw [serve, requestMethod, Slots.request]
  cases t.methods.find? x.id <;> rfl

theorem serve_field (t : HandleTable U) (x : Field U) :
    t.serve (.field x) = { t with fields := t.fields.request x.id (t.policy.bindField x) } := by
  rw [serve, requestField, Slots.request]
  cases t.fields.find? x.id <;> rfl

theorem serveAll_eq (t : HandleTable U) (rs : List (Request U)) :
    t.serveAll rs =
      { t with
        methods := (rs.filterMap Request.method?).foldl
          (fun s x => s.request x.id (t.policy.bindMethod x)) t.methods
        fields := (rs.filterMap Request.field?).foldl
          (fun s x => s.request x.id (t.policy.bindField x)) t.fields } := by
  induction rs generalizing t with
  | nil => rfl
  | cons r rs ih =>
    rw [serveAll_cons, ih]
    cases r with
    | method x => rw [serve_method]; rfl
    | field x => rw [serve_field]; rfl

@[simp] theorem policy_serveAll (t : HandleTable U) (rs : List (Request U)) :
    (t.serveAll rs).policy = t.policy := by rw [serveAll_eq]

/-- **The slots of methods after requests**: what was there before, and else the verdict on the
first method requested. -/
theorem findMethod_serveAll (t : HandleTable U) (rs : List (Request U)) (m : MemberId) :
    (t.serveAll rs).methods.find? m =
      (t.methods.find? m).or ((firstMethod? rs m).map t.policy.bindMethod) := by
  rw [serveAll_eq, Slots.find?_foldl_request fun x : Method U => x.id, firstMethod?]

/-- **The slots of fields after requests**: what was there before, and else the verdict on the
first field requested. -/
theorem findField_serveAll (t : HandleTable U) (rs : List (Request U)) (m : MemberId) :
    (t.serveAll rs).fields.find? m =
      (t.fields.find? m).or ((firstField? rs m).map t.policy.bindField) := by
  rw [serveAll_eq, Slots.find?_foldl_request fun x : Field U => x.id, firstField?]

end HandleTable

end ComponentHooks
