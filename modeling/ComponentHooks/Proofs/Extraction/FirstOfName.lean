import ComponentHooks.Metadata

/-!
# The first of every name

Members are recorded by kind, and under each kind the first of a name stays alone. Members of all
sorts are recorded alike, so `member` gives what a method or a field is as a member.

* `firstOfName`: a list without the elements whose name came before; `addNew`: one element more;
* `Table.Filled`, `Table.ofLists`: no key has an empty list; the one such table with these lists;
* `Table.offer`, `Table.record`: a member recorded under one kind, and members under many;
* **`mem_firstOfName`**: what stays is what comes first under its name;
* **`Table.record_apply`**: what is recorded under a kind is the first of every name among the
  members that carry it.
-/

namespace ComponentHooks

variable {α : Type}

/-- The elements whose name no earlier one has. -/
def firstOfName (name : α → String) (xs : List α) : List α :=
  xs.eraseDupsBy fun x y => name x = name y

/-- One element more, unless its name is there. -/
def addNew (name : α → String) (xs : List α) (x : α) : List α :=
  if xs.any (name · = name x) then xs else xs ++ [x]

section FirstOfName

variable (name : α → String)

@[simp] theorem firstOfName_nil : firstOfName name [] = [] := rfl

theorem firstOfName_cons (x : α) (xs : List α) :
    firstOfName name (x :: xs) = x :: firstOfName name (xs.filter (name · ≠ name x)) := by
  rw [firstOfName, List.eraseDupsBy_cons, firstOfName]
  simp

theorem foldl_addNew (ys xs : List α) :
    ys.foldl (addNew name) xs =
      xs ++ firstOfName name (ys.filter fun y => !xs.any (name · = name y)) := by
  induction ys generalizing xs with
  | nil => simp
  | cons y ys ih =>
    rw [List.foldl_cons, ih]
    -- If `y` comes in, the filter drops its name from what is left, as `firstOfName` does.
    by_cases h : xs.any (name · = name y) = true
    · rw [addNew, if_pos h, List.filter_cons_of_neg (by simp [h])]
    · rw [addNew, if_neg h, List.filter_cons_of_pos (by simp [h]), firstOfName_cons,
        List.filter_filter, List.append_assoc, List.singleton_append]
      congr 3
      refine List.filter_congr fun z _ => ?_
      rw [List.any_append, Bool.not_or, Bool.and_comm, List.any_cons, List.any_nil, Bool.or_false,
        decide_not, decide_eq_decide.mpr (eq_comm (a := name z))]

theorem foldl_addNew_nil (xs : List α) : xs.foldl (addNew name) [] = firstOfName name xs := by
  rw [foldl_addNew, List.nil_append]
  exact congrArg (firstOfName name) (List.filter_eq_self.mpr fun _ _ => rfl)

/-- **What stays is what comes first under its name.** -/
theorem mem_firstOfName {x : α} :
    ∀ xs : List α, x ∈ firstOfName name xs ↔ xs.find? (name · = name x) = some x
  | [] => by simp
  | y :: ys => by
    rw [firstOfName_cons, List.mem_cons, mem_firstOfName, List.find?_filter, List.find?_cons]
    by_cases h : name y = name x
    · have hnone : ys.find? (fun _ => false) = none := List.find?_eq_none.mpr (by simp)
      simp [h, hnone, eq_comm (a := x)]
    · have hleft : x ≠ y := fun hx => h (congrArg name hx).symm
      have hname : ∀ z, name z ≠ name y ∧ name z = name x ↔ name z = name x := fun z =>
        and_iff_right_of_imp fun hz hy => h (hy.symm.trans hz)
      simp [h, hleft, hname]
termination_by xs => xs.length
decreasing_by exact Nat.lt_succ_of_le (List.length_filter_le _ _)

theorem nodup_firstOfName : ∀ xs : List α, ((firstOfName name xs).map name).Nodup
  | [] => List.nodup_nil
  | x :: xs => by
    rw [firstOfName_cons, List.map_cons, List.nodup_cons]
    refine ⟨fun hx => ?_, nodup_firstOfName _⟩
    obtain ⟨y, hy, hname⟩ := List.mem_map.mp hx
    rw [mem_firstOfName] at hy
    have hne := (List.mem_filter.mp (List.mem_of_find?_eq_some hy)).2
    exact of_decide_eq_true hne hname
termination_by xs => xs.length
decreasing_by exact Nat.lt_succ_of_le (List.length_filter_le _ _)

theorem firstOfName_of_nodup {xs : List α} (h : (xs.map name).Nodup) : firstOfName name xs = xs := by
  induction xs with
  | nil => rfl
  | cons x xs ih =>
    obtain ⟨hx, hxs⟩ := List.nodup_cons.mp h
    have hfilter : xs.filter (name · ≠ name x) = xs := by
      rw [List.filter_eq_self]
      intro y hy
      exact decide_eq_true fun hname => hx (List.mem_map.mpr ⟨y, hy, hname⟩)
    rw [firstOfName_cons, hfilter, ih hxs]

theorem firstOfName_append {xs : List α} (h : (xs.map name).Nodup) (ys : List α) :
    firstOfName name (xs ++ ys) =
      xs ++ firstOfName name (ys.filter fun y => name y ∉ xs.map name) := by
  rw [← foldl_addNew_nil, List.foldl_append, foldl_addNew_nil, firstOfName_of_nodup name h,
    foldl_addNew]
  congr 2
  refine List.filter_congr fun y _ => ?_
  rw [Bool.eq_iff_iff]
  simp

theorem firstOfName_map {β : Type} (f : β → α) (xs : List β) :
    firstOfName name (xs.map f) = (firstOfName (name ∘ f) xs).map f := by
  have hadd : ∀ (ys : List β) (y : β),
      addNew name (ys.map f) (f y) = (addNew (name ∘ f) ys y).map f := by
    intro ys y
    have hany : (ys.map f).any (name · = name (f y)) = ys.any ((name ∘ f) · = (name ∘ f) y) :=
      List.any_map
    rw [addNew, addNew, hany]
    split
    · rfl
    · rw [List.map_append, List.map_singleton]
  have hfold : ∀ ys : List β,
      (xs.map f).foldl (addNew name) (ys.map f) = (xs.foldl (addNew (name ∘ f)) ys).map f := by
    induction xs with
    | nil => exact fun _ => rfl
    | cons x xs ih =>
      intro ys
      rw [List.map_cons, List.foldl_cons, hadd, ih, List.foldl_cons]
  rw [← foldl_addNew_nil, ← foldl_addNew_nil]
  exact hfold []

theorem exists_mem_firstOfName {n : String} {q : α → Prop} (xs : List α) :
    (∃ x ∈ firstOfName name xs, name x = n ∧ q x) ↔
      ∃ x, xs.find? (name · = n) = some x ∧ q x := by
  refine exists_congr fun x => ?_
  rw [mem_firstOfName, ← and_assoc, and_congr_left_iff]
  intro _
  constructor
  · rintro ⟨hx, rfl⟩
    exact hx
  · intro hx
    obtain rfl : name x = n := by simpa using List.find?_some hx
    exact ⟨hx, rfl⟩

end FirstOfName

namespace Table

/-! ## Keys and entries -/

/-- No key has an empty list. -/
def Filled (t : Table α) : Prop := ∀ k, t.list? k ≠ some []

/-- The table with these lists, in which a kind without entries is no key. -/
def ofLists (f : Kind → List α) : Table α :=
  ⟨fun k => if (f k).isEmpty then none else some (f k)⟩

@[simp] theorem ofLists_apply (f : Kind → List α) (k : Kind) : ofLists f k = f k := by
  cases h : f k <;> simp [get, ofLists, h]

theorem filled_ofLists (f : Kind → List α) : (ofLists f).Filled := by
  intro k
  cases h : f k <;> simp [ofLists, h]

theorem filled_empty : (empty : Table α).Filled := fun _ => (Option.some_ne_none _).symm

namespace Filled

variable {t : Table α}

/-- **A kind is a key exactly if it has entries.** -/
theorem hasKey_iff (h : t.Filled) (k : Kind) : t.hasKey k = true ↔ t k ≠ [] := by
  have hk := h k
  cases hentry : t.list? k with
  | none => simp [hasKey, get, hentry]
  | some xs => simpa [hasKey, get, hentry] using hk

theorem eq_ofLists (h : t.Filled) {f : Kind → List α} (hf : ∀ k, t k = f k) : t = ofLists f := by
  obtain ⟨list?⟩ := t
  refine congrArg Table.mk (funext fun k => ?_)
  have hk := h k
  rw [← hf k]
  cases hentry : list? k with
  | none => simp [get, hentry]
  | some xs => simpa [get, hentry] using hk

theorem push (h : t.Filled) (k : Kind) {xs : List α} (hxs : xs ≠ []) : (t.push k xs).Filled := by
  intro j
  by_cases hj : j = k
  · simp [Table.push, hj, hxs]
  · simpa [Table.push, hj] using h j

theorem extend (h : t.Filled) (ks : List Kind) (found : Kind → List α) :
    (t.extend ks found).Filled := by
  refine List.foldlRecOn (motive := Filled) ks _ h fun t ht k _ => ?_
  split
  · exact ht
  · rename_i hfound
    exact ht.push k fun hnil => hfound (List.isEmpty_iff.mpr hnil)

end Filled

/-! ## Members by kind -/

variable {U : Universe} (member : α → Member U)

/-- One member more under a kind, if it carries the kind and its name is free there. -/
def offer (x : α) (t : Table α) (k : Kind) : Table α :=
  if (member x).carries k && !(t k).any fun y => (member y).id.name = (member x).id.name then
    t.push k [x]
  else t

/-- Members one after the other, each under every one of the kinds. -/
def record (ks : List Kind) (t : Table α) (xs : List α) : Table α :=
  xs.foldl (fun t x => ks.foldl (offer member x) t) t

theorem record_append (ks : List Kind) (t : Table α) (xs ys : List α) :
    record member ks t (xs ++ ys) = record member ks (record member ks t xs) ys :=
  List.foldl_append

theorem offer_apply (x : α) (t : Table α) (j k : Kind) :
    offer member x t j k =
      if k = j ∧ (member x).carries k = true then addNew (fun y => (member y).id.name) (t k) x
      else t k := by
  unfold offer addNew
  by_cases hk : k = j
  · subst hk
    cases (member x).carries k
    · simp
    · cases (t k).any fun y => (member y).id.name = (member x).id.name <;> simp
  · have hright : ¬(k = j ∧ (member x).carries k = true) := fun h => hk h.1
    rw [if_neg hright]
    split
    · exact push_of_ne t hk _
    · rfl

theorem foldl_offer_apply {ks : List Kind} (hks : ks.Nodup) (x : α) (t : Table α) (k : Kind) :
    ks.foldl (offer member x) t k =
      if k ∈ ks ∧ (member x).carries k = true then addNew (fun y => (member y).id.name) (t k) x
      else t k := by
  induction ks generalizing t with
  | nil => simp
  | cons j ks ih =>
    obtain ⟨hj, hks⟩ := List.nodup_cons.mp hks
    -- No kind comes twice, so what the first one records is not looked at again.
    rw [List.foldl_cons, ih hks, offer_apply]
    by_cases hkj : k = j
    · subst hkj
      simp [hj]
    · simp [hkj]

/-- **What is recorded under a kind.** -/
theorem record_apply {ks : List Kind} (hks : ks.Nodup) (t : Table α) (xs : List α) (k : Kind) :
    record member ks t xs k =
      if k ∈ ks then
        (xs.filter fun x => (member x).carries k).foldl (addNew fun y => (member y).id.name) (t k)
      else t k := by
  induction xs generalizing t with
  | nil => simp [record]
  | cons x xs ih =>
    rw [record, List.foldl_cons, ← record, ih, foldl_offer_apply member hks]
    by_cases hk : k ∈ ks
    · cases h : (member x).carries k
      · simp [hk, h]
      · simp [hk, h]
    · simp [hk]

theorem Filled.record {t : Table α} (h : t.Filled) (ks : List Kind) (xs : List α) :
    (record member ks t xs).Filled := by
  refine List.foldlRecOn (motive := Filled) xs _ h fun t ht x _ => ?_
  refine List.foldlRecOn (motive := Filled) ks _ ht fun t ht k _ => ?_
  unfold offer
  split
  · exact ht.push k (List.cons_ne_nil _ _)
  · exact ht

end Table

end ComponentHooks
