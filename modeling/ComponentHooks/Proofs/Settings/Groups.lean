import ComponentHooks.Proofs.Settings.Decimal
import ComponentHooks.Settings.Document
import Mathlib.Data.List.Nodup

/-!
# Trees that write groups of settings

* `Json.WritesNumber`, `Json.WritesPolicy`: trees of single settings;
* `Json.WritesGroup`: objects with given members in any order, however their names are written;
* `Json.GivesGroup`: also arrays, and objects that have members of other names;
* `Json.orDefault_of_rel`: a setting that may be left out;
* **`Json.group?_of_givesGroup`**: the values of a group are found in the order of their names.
-/

namespace ComponentHooks.Json

/-! ## Values -/

/-- The tree writes the number. -/
inductive WritesNumber (n : UInt64) : Json → Prop where
  | mk {cs : List Char} (h : Text.Decimal n.toNat cs) : WritesNumber n (.number cs)

/-- The tree is a string with the policy's name. -/
inductive WritesPolicy (p : BindPolicy) : Json → Prop where
  | mk {ps : List Piece} (h : decode? ps = some p.name.toList) : WritesPolicy p (.string ps)

theorem number?_of_writesNumber {n : UInt64} {j : Json} (h : WritesNumber n j) :
    number? j = some n := by
  obtain ⟨h⟩ := h
  rw [number?, Text.readDigits_of_decimal h]
  exact congrArg some UInt64.ofNat_toNat

theorem optional?_of_writesNumber {n : UInt64} {j : Json} (h : WritesNumber n j) :
    optional? j = some (some n) := by
  have hnumber := number?_of_writesNumber h
  obtain ⟨h⟩ := h
  rw [optional?, hnumber]
  · rfl
  · rintro ⟨⟩

theorem policy?_of_writesPolicy {p : BindPolicy} {j : Json} (h : WritesPolicy p j) :
    policy? j = some p := by
  obtain ⟨h⟩ := h
  rw [policy?, policyName?, h]
  exact BindPolicy.ofName?_eq_some_iff.mpr (String.ofList_toList)

theorem orDefault_of_rel {α β : Type} {W : α → Json → Prop} {a? : Option α} {j? : Option Json}
    (h : Option.Rel W a? j?) {read? : Json → Option β} {f : α → β}
    (hread : ∀ a j, W a j → read? j = some (f a)) (d : β) :
    orDefault read? d j? = some ((a?.map f).getD d) := by
  cases h with
  | none => rfl
  | some h => exact hread _ _ h

theorem orDefault_number? {n? : Option UInt64} {j? : Option Json} (h : Option.Rel WritesNumber n? j?)
    (d : UInt64) : orDefault number? d j? = some (n?.getD d) := by
  rw [orDefault_of_rel h (f := id) (fun _ _ => number?_of_writesNumber), Option.map_id, id_eq]

/-! ## Groups -/

/-- The members that are there. -/
def present (es : List (String × Option Json)) : List (List Char × Json) :=
  es.filterMap fun e => e.2.map (e.1.toList, ·)

/-- The tree is an object with the members that are there, in any order. -/
inductive WritesGroup (es : List (String × Option Json)) : Json → Prop where
  | mk {ms : List (List Piece × Json)} {ds : List (List Char × Json)}
    (hdecode : ms.mapM decodeMember? = some ds) (hperm : ds.Perm (present es)) :
    WritesGroup es (.object ms)

/-- The tree is an object with the members that are there and others whose names the group has not,
in any order, or the array of the values up to some place behind which none is there. -/
inductive GivesGroup (es : List (String × Option Json)) : Json → Prop where
  | object {ms : List (List Piece × Json)} {ds others : List (List Char × Json)}
    (hdecode : ms.mapM decodeMember? = some ds) (hperm : ds.Perm (present es ++ others))
    (hothers : ∀ m ∈ others, ∀ e ∈ es, m.1 ≠ e.1.toList) : GivesGroup es (.object ms)
  | array {vs : List Json} {k : Nat}
    (h : es.map Prod.snd = vs.map some ++ List.replicate k none) : GivesGroup es (.array vs)

variable {es : List (String × Option Json)}

theorem name_mem_of_mem_present {m : List Char × Json} (h : m ∈ present es) :
    ∃ e ∈ es, e.1.toList = m.1 := by
  obtain ⟨e, he, hm⟩ := List.mem_filterMap.mp h
  obtain ⟨v, -, rfl⟩ := Option.map_eq_some_iff.mp hm
  exact ⟨e, he, rfl⟩

theorem filter_present (hnodup : (es.map Prod.fst).Nodup) {e : String × Option Json} (he : e ∈ es) :
    (present es).filter (·.1 = e.1.toList) = (e.2.map (e.1.toList, ·)).toList := by
  induction es with
  | nil => cases he
  | cons x es ih =>
    rw [List.map_cons, List.nodup_cons] at hnodup
    have hcons : present (x :: es) = (x.2.map (x.1.toList, ·)).toList ++ present es := by
      rw [present, List.filterMap_cons]
      cases x.2 <;> rfl
    rw [hcons, List.filter_append]
    rcases List.mem_cons.mp he with rfl | he
    · have hrest : (present es).filter (·.1 = e.1.toList) = [] := by
        rw [List.filter_eq_nil_iff]
        intro m hm hname
        obtain ⟨y, hy, hm⟩ := name_mem_of_mem_present hm
        have hye : y.1 = e.1 := String.toList_inj.mp (hm.trans (of_decide_eq_true hname))
        exact hnodup.1 (List.mem_map.mpr ⟨y, hy, hye⟩)
      rw [hrest, List.append_nil]
      cases e.2 <;> simp
    · have hne : x.1 ≠ e.1 := fun h => hnodup.1 (h ▸ List.mem_map_of_mem he)
      have hfirst : ((x.2.map (x.1.toList, ·)).toList).filter (·.1 = e.1.toList) = [] := by
        cases x.2 <;> simp [String.toList_inj, hne]
      rw [hfirst, List.nil_append, ih hnodup.2 he]

theorem member?_of_perm {ds others : List (List Char × Json)} (hperm : ds.Perm (present es ++ others))
    (hothers : ∀ m ∈ others, ∀ e ∈ es, m.1 ≠ e.1.toList) (hnodup : (es.map Prod.fst).Nodup)
    {e : String × Option Json} (he : e ∈ es) : member? ds e.1 = some e.2 := by
  have hnone : others.filter (·.1 = e.1.toList) = [] := by
    rw [List.filter_eq_nil_iff]
    intro m hm hname
    exact hothers m hm e he (of_decide_eq_true hname)
  have hfilter := hperm.filter (·.1 = e.1.toList)
  rw [List.filter_append, filter_present hnodup he, hnone, List.append_nil] at hfilter
  rw [member?]
  cases hv : e.2 with
  | none =>
    rw [hv] at hfilter
    rw [List.perm_nil.mp hfilter]
  | some v =>
    rw [hv] at hfilter
    rw [List.perm_singleton.mp hfilter]

theorem mapM_fst {f : String → Option (Option Json)} (h : ∀ e ∈ es, f e.1 = some e.2) :
    (es.map Prod.fst).mapM f = some (es.map Prod.snd) := by
  induction es with
  | nil => rfl
  | cons e es ih =>
    rw [List.map_cons, List.mapM_cons, h e List.mem_cons_self,
      ih fun x hx => h x (List.mem_cons_of_mem _ hx)]
    rfl

/-- **The values of a group are found in the order of their names.** -/
theorem group?_of_givesGroup (hnodup : (es.map Prod.fst).Nodup) {j : Json}
    (h : GivesGroup es j) : group? (es.map Prod.fst) j = some (es.map Prod.snd) := by
  cases h with
  | object hdecode hperm hothers =>
    rw [group?, hdecode]
    exact mapM_fst fun e he => member?_of_perm hperm hothers hnodup he
  | @array vs k h =>
    have hlength : (es.map Prod.fst).length = vs.length + k := by
      have hsnd := congrArg List.length h
      simpa using hsnd
    have hcut : (es.map Prod.fst).length - vs.length = k := by omega
    rw [group?, if_pos (by omega), hcut, h]

theorem group?_of_writesGroup (hnodup : (es.map Prod.fst).Nodup) {j : Json}
    (h : WritesGroup es j) : group? (es.map Prod.fst) j = some (es.map Prod.snd) := by
  obtain ⟨hdecode, hperm⟩ := h
  exact group?_of_givesGroup hnodup (.object hdecode (by rwa [List.append_nil]) (by simp))

end ComponentHooks.Json
