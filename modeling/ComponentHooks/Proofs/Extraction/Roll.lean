import ComponentHooks.Proofs.Extraction.Reference
import Mathlib.Data.List.Induction

/-!
# The order in which members are recorded

A member that carries several kinds is recorded under some of them and left out under others, and
two members can have one identity. A roll keeps, beside a table, every entry that came into it, in
order; the slots that a draft asks for are such a roll.

* `Roll`, `Roll.record`: a table with the order of its entries, and members recorded in it;
* `Table.Records`, `Roll.IsExact`: the table has a member under some kind; the roll has just those;
* `Table.IsFirst`: of the members in order, the first recorded one of an identity;
* **`Roll.isFirst_of_find?_log`**: the first entry of an identity is the first recorded member of
  it;
* `FiniteLoader.tell`: what types have of their own, where their members can be told;
* **`FiniteLoader.methodRoll_draft`**, **`FiniteLoader.fieldRoll_draft`**: a draft's members and
  requests are rolls of the types in its walk.
-/

namespace ComponentHooks

/-! ## Rolls -/

/-- A table, and every entry that came into it, in order. -/
structure Roll (α : Type) where
  table : Table α := .empty
  log : List α := []

/-- The table has the member under some kind. -/
def Table.Records {α : Type} (t : Table α) (x : α) : Prop := ∃ k, x ∈ t k

theorem Table.records_push_iff {α : Type} {t : Table α} {k : Kind} {x y : α} :
    (t.push k [x]).Records y ↔ t.Records y ∨ y = x := by
  constructor
  · rintro ⟨j, hj⟩
    by_cases hjk : j = k
    · rw [hjk, push_self, List.mem_append, List.mem_singleton] at hj
      exact hj.imp_left fun hj => ⟨k, hj⟩
    · rw [push_of_ne t hjk] at hj
      exact .inl ⟨j, hj⟩
  · rintro (⟨j, hj⟩ | rfl)
    · refine ⟨j, ?_⟩
      by_cases hjk : j = k
      · rw [hjk] at hj ⊢
        rw [push_self]
        exact List.mem_append_left _ hj
      · rwa [push_of_ne t hjk]
    · exact ⟨k, by rw [push_self]; exact List.mem_append_right _ (List.mem_singleton_self _)⟩

namespace Roll

variable {U : Universe} {α : Type} (member : α → Member U)

/-- A member is offered for one kind: it comes in if it carries the kind and its name is free
there. -/
def offer (x : α) (r : Roll α) (k : Kind) : Roll α :=
  if (member x).carries k && !(r.table k).any fun y => (member y).id.name = (member x).id.name then
    ⟨r.table.push k [x], r.log ++ [x]⟩
  else r

/-- Members one after the other, each offered for every one of the kinds. -/
def record (ks : List Kind) (r : Roll α) (xs : List α) : Roll α :=
  xs.foldl (fun r x => ks.foldl (offer member x) r) r

variable {member} {ks : List Kind} {r : Roll α} {x : α} {xs : List α}

theorem record_append (r : Roll α) (xs ys : List α) :
    r.record member ks (xs ++ ys) = (r.record member ks xs).record member ks ys :=
  List.foldl_append

theorem table_offer (r : Roll α) (x : α) (k : Kind) :
    (r.offer member x k).table = r.table.offer member x k := by
  unfold offer Table.offer
  split <;> rfl

theorem table_foldl_offer (ks : List Kind) (r : Roll α) (x : α) :
    (ks.foldl (offer member x) r).table = ks.foldl (Table.offer member x) r.table :=
  (List.foldl_hom table fun r k => (table_offer r x k).symm).symm

/-- **The table of a roll is recorded as tables are.** -/
theorem table_record (ks : List Kind) (r : Roll α) (xs : List α) :
    (r.record member ks xs).table = r.table.record member ks xs :=
  (List.foldl_hom table fun r x => (table_foldl_offer ks r x).symm).symm

/-! ### What the order says -/

/-- The entries in order are the members that the table has. -/
def IsExact (r : Roll α) : Prop := ∀ x, x ∈ r.log ↔ r.table.Records x

theorem isExact_empty : IsExact ({} : Roll α) := fun _ => by simp [Table.Records]

theorem IsExact.offer (h : r.IsExact) (x : α) (k : Kind) : (r.offer member x k).IsExact := by
  unfold Roll.offer
  split
  · intro y
    rw [List.mem_append, h y, List.mem_singleton, Table.records_push_iff]
  · exact h

theorem IsExact.record (h : r.IsExact) (ks : List Kind) (xs : List α) :
    (r.record member ks xs).IsExact :=
  List.foldlRecOn (motive := IsExact) xs _ h fun _ h x _ =>
    List.foldlRecOn (motive := IsExact) ks _ h fun _ h k _ => h.offer x k

theorem exists_log_foldl_offer (ks : List Kind) (r : Roll α) (x : α) :
    ∃ n, (ks.foldl (offer member x) r).log = r.log ++ List.replicate n x := by
  induction ks generalizing r with
  | nil => exact ⟨0, (List.append_nil _).symm⟩
  | cons k ks ih =>
    obtain ⟨n, hn⟩ := ih (r.offer member x k)
    rw [List.foldl_cons, hn]
    unfold offer
    split
    · exact ⟨n + 1, by rw [List.append_assoc, List.singleton_append, List.replicate_succ]⟩
    · exact ⟨n, rfl⟩

theorem exists_eq_append_of_find?_log {p : α → Bool}
    (h : (record member ks {} xs).log.find? p = some x) :
    ∃ as bs, xs = as ++ x :: bs ∧ (record member ks {} as).log.find? p = none := by
  induction xs using List.reverseRecOn with
  | nil => cases h
  | append_singleton xs y ih =>
    obtain ⟨n, hn⟩ : ∃ n, (record member ks {} (xs ++ [y])).log = _ ++ List.replicate n y := by
      rw [record_append]
      exact exists_log_foldl_offer ks (record member ks {} xs) y
    rw [hn, List.find?_append] at h
    cases hxs : (record member ks {} xs).log.find? p with
    | some z =>
      rw [hxs, Option.some_or] at h
      obtain ⟨as, bs, hsplit, hnone⟩ := ih (hxs.trans h)
      exact ⟨as, bs ++ [y], by rw [hsplit, List.append_assoc, List.cons_append], hnone⟩
    | none =>
      rw [hxs, Option.none_or] at h
      obtain rfl : x = y := List.eq_of_mem_replicate (List.mem_of_find?_eq_some h)
      exact ⟨xs, [], rfl, hxs⟩

end Roll

/-! ## The first recorded member of an identity -/

namespace Table

variable {U : Universe} {α : Type} {member : α → Member U} {s : Site} {x : α} {xs as bs : List α}

theorem mem_record_empty_iff {k : Kind} :
    x ∈ Table.record member s.kinds .empty xs k ↔ k.appliesTo s = true ∧
      (xs.filter fun y => (member y).carries k).find?
        (fun y => (member y).id.name = (member x).id.name) = some x := by
  rw [record_empty]
  split
  · rename_i hk
    rw [mem_firstOfName]
    simp [hk]
  · rename_i hk
    simp [hk]

theorem Records.mem (h : (Table.record member s.kinds .empty xs).Records x) :
    x ∈ xs ∧ ∃ k, k.appliesTo s = true ∧ (member x).carries k = true := by
  obtain ⟨k, hx⟩ := h
  obtain ⟨hk, hfind⟩ := mem_record_empty_iff.mp hx
  obtain ⟨hx, hcarries⟩ := List.mem_filter.mp (List.mem_of_find?_eq_some hfind)
  exact ⟨hx, k, hk, hcarries⟩

theorem Records.of_append (hx : x ∈ as)
    (h : (Table.record member s.kinds .empty (as ++ bs)).Records x) :
    (Table.record member s.kinds .empty as).Records x := by
  obtain ⟨k, h⟩ := h
  obtain ⟨hk, hfind⟩ := mem_record_empty_iff.mp h
  refine ⟨k, mem_record_empty_iff.mpr ⟨hk, ?_⟩⟩
  have hcarries := (List.mem_filter.mp (List.mem_of_find?_eq_some hfind)).2
  -- `x` itself is found among `as`, so the search does not go on to `bs`.
  obtain ⟨y, hy⟩ : ∃ y, (as.filter fun y => (member y).carries k).find?
      (fun y => (member y).id.name = (member x).id.name) = some y := by
    rw [← Option.isSome_iff_exists, List.find?_isSome]
    exact ⟨x, List.mem_filter.mpr ⟨hx, hcarries⟩, decide_eq_true rfl⟩
  rw [List.filter_append, List.find?_append, hy, Option.some_or] at hfind
  rw [hy, hfind]

/-- Of the members `xs` in order, `x` is the first one of the identity `m` that the table has under
some kind. -/
def IsFirst (member : α → Member U) (t : Table α) (xs : List α) (m : MemberId) (x : α) : Prop :=
  (member x).id = m ∧ t.Records x ∧
    ∃ as bs, xs = as ++ x :: bs ∧ ∀ y ∈ as, (member y).id = m → ¬ t.Records y

end Table

/-- **The first entry of an identity is the first recorded member of it.** -/
theorem Roll.isFirst_of_find?_log {U : Universe} {α : Type} {member : α → Member U} {s : Site}
    {xs : List α} {m : MemberId} {x : α}
    (h : (Roll.record member s.kinds {} xs).log.find? (fun x => (member x).id = m) = some x) :
    (Roll.record member s.kinds {} xs).table.IsFirst member xs m x := by
  have hexact : ∀ ys, (Roll.record member s.kinds {} ys).IsExact := fun ys =>
    Roll.isExact_empty.record s.kinds ys
  obtain ⟨as, bs, hsplit, hnone⟩ := Roll.exists_eq_append_of_find?_log h
  refine ⟨by simpa using List.find?_some h,
    (hexact xs x).mp (List.mem_of_find?_eq_some h), as, bs, hsplit, fun y hy hm hrecords => ?_⟩
  rw [Roll.table_record, hsplit] at hrecords
  have hlog : y ∈ (Roll.record member s.kinds {} as).log := by
    rw [hexact as y, Roll.table_record]
    exact hrecords.of_append hy
  exact List.find?_eq_none.mp hnone y hlog (decide_eq_true hm)

/-! ## The rolls of a draft -/

variable {U : Universe}

namespace Draft

/-- The methods recorded so far, with those whose slots were asked for. -/
def methodRoll (d : Draft U) : Roll (Method U) :=
  ⟨d.metadata.methods, d.requests.filterMap Request.method?⟩

/-- The fields recorded so far, with those whose slots were asked for. -/
def fieldRoll (d : Draft U) : Roll (Field U) :=
  ⟨d.metadata.fields, d.requests.filterMap Request.field?⟩

/-! ### One member more -/

theorem methodRoll_methodAs (d : Draft U) (x : Method U) (k : Kind) :
    (d.methodAs x k).methodRoll = d.methodRoll.offer Method.toMember x k := by
  unfold methodAs Roll.offer Metadata.hasMethod methodRoll
  split
  · rw [List.filterMap_append]
    rfl
  · rfl

theorem methodRoll_fieldAs (d : Draft U) (x : Field U) (k : Kind) :
    (d.fieldAs x k).methodRoll = d.methodRoll := by
  unfold fieldAs methodRoll
  split
  · rw [List.filterMap_append]
    simp [Request.method?, Metadata.addField]
  · rfl

theorem fieldRoll_fieldAs (d : Draft U) (x : Field U) (k : Kind) :
    (d.fieldAs x k).fieldRoll = d.fieldRoll.offer Field.toMember x k := by
  unfold fieldAs Roll.offer Metadata.hasField fieldRoll
  split
  · rw [List.filterMap_append]
    rfl
  · rfl

theorem fieldRoll_methodAs (d : Draft U) (x : Method U) (k : Kind) :
    (d.methodAs x k).fieldRoll = d.fieldRoll := by
  unfold methodAs fieldRoll
  split
  · rw [List.filterMap_append]
    simp [Request.field?, Metadata.addMethod]
  · rfl

/-! ### Members in order -/

theorem methodRoll_foldl_field (xs : List (Field U)) (d : Draft U) :
    (xs.foldl field d).methodRoll = d.methodRoll := by
  refine List.foldlRecOn (motive := fun e => e.methodRoll = d.methodRoll) xs field rfl
    fun e he x _ => ?_
  rw [← he, field]
  split
  · refine List.foldlRecOn (motive := fun e' => e'.methodRoll = e.methodRoll) _ (fieldAs x) ?_
      fun e' he' k _ => (methodRoll_fieldAs e' x k).trans he'
    rfl
  · rfl

theorem fieldRoll_foldl_method (xs : List (Method U)) (d : Draft U) :
    (xs.foldl method d).fieldRoll = d.fieldRoll := by
  refine List.foldlRecOn (motive := fun e => e.fieldRoll = d.fieldRoll) xs method rfl
    fun e he x _ => ?_
  rw [← he, method]
  split
  · refine List.foldlRecOn (motive := fun e' => e'.fieldRoll = e.fieldRoll) _ (methodAs x) ?_
      fun e' he' k _ => (fieldRoll_methodAs e' x k).trans he'
    rfl
  · rfl

theorem methodRoll_foldl_method (xs : List (Method U)) (d : Draft U) :
    (xs.foldl method d).methodRoll =
      d.methodRoll.record Method.toMember Site.method.kinds (xs.filter Method.isEligible) := by
  induction xs generalizing d with
  | nil => rfl
  | cons x xs ih =>
    rw [List.foldl_cons, ih, method]
    by_cases hx : x.isEligible = true
    · rw [if_pos hx, List.filter_cons_of_pos hx,
        ← List.foldl_hom methodRoll fun d k => (methodRoll_methodAs d x k).symm]
      rfl
    · rw [if_neg hx, List.filter_cons_of_neg hx]

theorem fieldRoll_foldl_field (xs : List (Field U)) (d : Draft U) :
    (xs.foldl field d).fieldRoll =
      d.fieldRoll.record Field.toMember Site.field.kinds (xs.filter Field.isEligible) := by
  induction xs generalizing d with
  | nil => rfl
  | cons x xs ih =>
    rw [List.foldl_cons, ih, field]
    by_cases hx : x.isEligible = true
    · rw [if_pos hx, List.filter_cons_of_pos hx,
        ← List.foldl_hom fieldRoll fun d k => (fieldRoll_fieldAs d x k).symm]
      rfl
    · rw [if_neg hx, List.filter_cons_of_neg hx]

end Draft

/-! ### Types in order -/

/-- The methods that a person wrote, in declaration order. -/
def TypeDecl.writtenMethods (c : TypeDecl U) : List (Method U) := c.methods.filter Method.isEligible

/-- The fields that a person wrote, in declaration order. -/
def TypeDecl.writtenFields (c : TypeDecl U) : List (Field U) := c.fields.filter Field.isEligible

/-- What types have of their own, type after type, where their members can be told. -/
def FiniteLoader.tell {α : Type} (l : FiniteLoader U) (own : TypeDecl U → List α)
    (cs : List (TypeDecl U)) : List α :=
  (cs.filter l.canLink).flatMap own

theorem FiniteLoader.tell_cons {α : Type} (l : FiniteLoader U) (own : TypeDecl U → List α)
    (c : TypeDecl U) (cs : List (TypeDecl U)) :
    l.tell own (c :: cs) = l.tell own [c] ++ l.tell own cs := by
  rw [tell, tell, tell, ← List.flatMap_append, ← List.filter_append, List.singleton_append]

namespace Draft

theorem roll_foldl_type {α : Type} {l : FiniteLoader U} {member : α → Member U} {ks : List Kind}
    {own : TypeDecl U → List α} (roll : Draft U → Roll α)
    (htype : ∀ d c, roll (d.type l c) = (roll d).record member ks (l.tell own [c]))
    (cs : List (TypeDecl U)) (d : Draft U) :
    roll (cs.foldl (type l) d) = (roll d).record member ks (l.tell own cs) := by
  induction cs generalizing d with
  | nil => rfl
  | cons c cs ih => rw [List.foldl_cons, ih, htype, ← Roll.record_append, ← FiniteLoader.tell_cons]

theorem type_of_canLink {l : FiniteLoader U} {c : TypeDecl U} (hc : l.canLink c = true)
    (d : Draft U) :
    d.type l c = c.methods.foldl method
      (c.fields.foldl field { d with metadata := d.metadata.addMarkers c }) := by
  rw [type, Loader.linkFailure?_eq_none_iff.mpr hc]

theorem type_of_not_canLink {l : FiniteLoader U} {c : TypeDecl U} (hc : ¬ l.canLink c = true)
    (d : Draft U) : d.type l c = { d with metadata := d.metadata.addMarkers c } := by
  obtain ⟨e, he⟩ := Option.ne_none_iff_exists'.mp (mt Loader.linkFailure?_eq_none_iff.mp hc)
  rw [type, he]

theorem methodRoll_type (l : FiniteLoader U) (d : Draft U) (c : TypeDecl U) :
    (d.type l c).methodRoll = d.methodRoll.record Method.toMember Site.method.kinds
      (l.tell TypeDecl.writtenMethods [c]) := by
  rw [FiniteLoader.tell]
  by_cases hc : l.canLink c = true
  · rw [type_of_canLink hc, methodRoll_foldl_method, methodRoll_foldl_field,
      List.filter_cons_of_pos hc, List.filter_nil, List.flatMap_singleton]
    rfl
  · rw [type_of_not_canLink hc, List.filter_cons_of_neg hc]
    rfl

theorem fieldRoll_type (l : FiniteLoader U) (d : Draft U) (c : TypeDecl U) :
    (d.type l c).fieldRoll = d.fieldRoll.record Field.toMember Site.field.kinds
      (l.tell TypeDecl.writtenFields [c]) := by
  rw [FiniteLoader.tell]
  by_cases hc : l.canLink c = true
  · rw [type_of_canLink hc, fieldRoll_foldl_method, fieldRoll_foldl_field,
      List.filter_cons_of_pos hc, List.filter_nil, List.flatMap_singleton]
    rfl
  · rw [type_of_not_canLink hc, List.filter_cons_of_neg hc]
    rfl

end Draft

namespace FiniteLoader

variable (l : FiniteLoader U) (root : TypeDecl U)

/-- **The methods of a draft and the slots it asks for are one roll** of the types in its walk. -/
theorem methodRoll_draft :
    (l.draft root).methodRoll = Roll.record Method.toMember Site.method.kinds {}
      (l.tell TypeDecl.writtenMethods (l.walk root).types) :=
  Draft.roll_foldl_type Draft.methodRoll (Draft.methodRoll_type l) _ _

/-- **The fields of a draft and the slots it asks for are one roll** of the types in its walk. -/
theorem fieldRoll_draft :
    (l.draft root).fieldRoll = Roll.record Field.toMember Site.field.kinds {}
      (l.tell TypeDecl.writtenFields (l.walk root).types) :=
  Draft.roll_foldl_type Draft.fieldRoll (Draft.fieldRoll_type l) _ _

end FiniteLoader

end ComponentHooks
