import ComponentHooks.Proofs.Hierarchy.Cycle
import ComponentHooks.Proofs.Hierarchy.Preorder

/-!
# Hierarchies without a fork

In a line every type has the next one as its only parent, and the last one has none. Such a
hierarchy has no cycle, and its preorder is the line itself.

* `Loader.IsLine`: each type is followed by its only parent;
* **`Loader.IsLine.preorder`**, **`Loader.IsLine.walk_stop`**: a walk meets the types of the line in
  order, and comes to its end.
-/

namespace ComponentHooks.Loader

variable {U : Universe}

/-- Every type of the list has the next one as its only parent, and the last one has none. -/
def IsLine (l : Loader U) : List (TypeDecl U) → Prop
  | [] => True
  | d :: ds => l.parents d = ds.head?.toList ∧ l.IsLine ds

namespace IsLine

variable {l : Loader U} {d : TypeDecl U} {ds : List (TypeDecl U)}

theorem parents_subset (h : l.IsLine ds) : ∀ c ∈ ds, l.parents c ⊆ ds := by
  induction ds with
  | nil => nofun
  | cons d ds ih =>
    rw [List.forall_mem_cons, h.1]
    refine ⟨fun c hc => ?_, fun c hc => List.subset_cons_of_subset d (ih h.2 c hc)⟩
    exact List.mem_cons_of_mem d (List.mem_of_mem_head? (Option.mem_toList.mp hc))

theorem acc (h : l.IsLine (d :: ds)) : Acc l.IsParent d := by
  induction ds generalizing d with
  | nil =>
    refine Acc.intro d fun c hc => ?_
    rw [← mem_parents, h.1] at hc
    cases hc
  | cons e ds ih =>
    refine Acc.intro d fun c hc => ?_
    rw [← mem_parents, h.1] at hc
    obtain rfl : c = e := by simpa using hc
    exact ih h.2

theorem order (h : l.IsLine ds) (hnodup : (ds.map TypeDecl.name).Nodup) {fresh : List String}
    (hfresh : ∀ c ∈ ds, c.name ∈ fresh) : l.order fresh ds.head?.toList = ds := by
  induction ds generalizing fresh with
  | nil => rw [List.head?_nil, Option.toList_none, Loader.order]
  | cons d ds ih =>
    obtain ⟨hd, hds⟩ := List.nodup_cons.mp hnodup
    -- The names further up the line are still fresh after `d`: they are different from that of `d`.
    have hfresh' : ∀ c ∈ ds, c.name ∈ fresh.removeAll [d.name] := by
      intro c hc
      have hne : c.name ≠ d.name := fun hname => hd (List.mem_map.mpr ⟨c, hc, hname⟩)
      simp [List.removeAll, hfresh c (List.mem_cons_of_mem d hc), hne]
    rw [List.head?_cons, Option.toList_some, Loader.order, if_pos (hfresh d List.mem_cons_self),
      List.append_nil, h.1, ih h.2 hds hfresh']

variable {l : FiniteLoader U}

theorem walk_stop (h : l.IsLine (d :: ds)) (hnodup : ((d :: ds).map TypeDecl.name).Nodup) :
    (l.walk d).stop = none :=
  walk_stop_of_acyclic (namesUnique_of_nodup (d :: ds) List.mem_cons_self h.parents_subset hnodup)
    (acyclic_of_acc h.acc)

theorem name_mem_names (h : l.IsLine (d :: ds)) : ∀ c ∈ ds, c.name ∈ l.names := by
  induction ds generalizing d with
  | nil => nofun
  | cons e ds ih =>
    have he : l.IsParent e d := by
      rw [← mem_parents, h.1]
      exact List.mem_singleton.mpr rfl
    obtain ⟨r, -, hr⟩ := he
    rw [List.forall_mem_cons]
    exact ⟨l.name_mem_of_resolve hr, ih h.2⟩

/-- **A walk meets the types of a line in order.** -/
theorem preorder (h : l.IsLine (d :: ds)) (hnodup : ((d :: ds).map TypeDecl.name).Nodup) :
    l.preorder d = d :: ds := by
  refine h.order hnodup ?_
  rw [List.forall_mem_cons]
  exact ⟨List.mem_cons_self, fun c hc => List.mem_cons_of_mem _ (h.name_mem_names c hc)⟩

end IsLine

end ComponentHooks.Loader
