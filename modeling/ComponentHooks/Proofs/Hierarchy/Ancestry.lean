import ComponentHooks.Hierarchy
import ComponentHooks.Sample.Hierarchies
import Mathlib.Data.List.Nodup
import Mathlib.Data.Set.Function
import Mathlib.Logic.Relation

/-!
# Ancestors

A type's parents are the supertypes that its loader can resolve; all else about a hierarchy is said
in terms of them.

* `Loader.IsParent`, `Loader.IsAncestor`: one reference upwards; one or more;
* `Loader.hierarchy`: the types that a walk from `root` can meet;
* `Loader.NamesUnique`, `Loader.Acyclic`: names tell the types of a hierarchy apart; no type is its
  own ancestor.

**`Loader.not_isAncestor_self`**: a type above which every ascent ends is not its own ancestor.
-/

namespace ComponentHooks.Loader

open Relation

variable {U : Universe} (l : Loader U)

/-- The supertypes of `c` that resolve: the superclass, then the interfaces in declaration order. -/
def parents (c : TypeDecl U) : List (TypeDecl U) :=
  c.supertypes.filterMap fun r => (l.resolve r).toOption

/-- `c` declares a supertype that resolves to `d`. -/
def IsParent (d c : TypeDecl U) : Prop := ∃ r ∈ c.supertypes, l.resolve r = .ok d

/-- One or more resolved references lead from `c` up to `d`. -/
def IsAncestor (d c : TypeDecl U) : Prop := TransGen l.IsParent d c

/-- `root` and its ancestors. -/
def hierarchy (root : TypeDecl U) : Set (TypeDecl U) := {c | ReflTransGen l.IsParent c root}

/-- No two different types of the hierarchy share a name. -/
def NamesUnique (root : TypeDecl U) : Prop := Set.InjOn TypeDecl.name (l.hierarchy root)

/-- No type of the hierarchy is its own ancestor. -/
def Acyclic (root : TypeDecl U) : Prop := ∀ c ∈ l.hierarchy root, ¬ l.IsAncestor c c

variable {l} {root c d e : TypeDecl U}

theorem mem_parents : d ∈ l.parents c ↔ l.IsParent d c := by
  simp only [parents, List.mem_filterMap, IsParent]
  refine exists_congr fun r => and_congr_right fun _ => ?_
  cases l.resolve r <;> simp [Except.toOption]

theorem root_mem_hierarchy : root ∈ l.hierarchy root := ReflTransGen.refl

theorem IsParent.mem_hierarchy (h : l.IsParent d c) (hc : c ∈ l.hierarchy root) :
    d ∈ l.hierarchy root := ReflTransGen.head h hc

theorem IsAncestor.mem_hierarchy (h : l.IsAncestor d c) (hc : c ∈ l.hierarchy root) :
    d ∈ l.hierarchy root := ReflTransGen.trans h.to_reflTransGen hc

theorem mem_of_mem_hierarchy {cs : List (TypeDecl U)} (hroot : root ∈ cs)
    (hcs : ∀ c ∈ cs, l.parents c ⊆ cs) (h : c ∈ l.hierarchy root) : c ∈ cs := by
  induction h using ReflTransGen.head_induction_on with
  | refl => exact hroot
  | head hp _ ih => exact hcs _ ih (mem_parents.mpr hp)

theorem namesUnique_of_nodup (cs : List (TypeDecl U)) (hroot : root ∈ cs)
    (hcs : ∀ c ∈ cs, l.parents c ⊆ cs) (hnodup : (cs.map TypeDecl.name).Nodup) :
    l.NamesUnique root := fun _ hc _ hd hname =>
  List.inj_on_of_nodup_map hnodup (mem_of_mem_hierarchy hroot hcs hc)
    (mem_of_mem_hierarchy hroot hcs hd) hname

/-- **A type above which every ascent ends is not its own ancestor.** -/
theorem not_isAncestor_self (h : Acc l.IsParent c) : ¬ l.IsAncestor c c := by
  induction h.transGen with
  | intro c _ ih => exact fun hc => ih c hc h hc

theorem acyclic_of_acc (h : Acc l.IsParent root) : l.Acyclic root := by
  intro c hc
  refine not_isAncestor_self ?_
  rcases reflTransGen_iff_eq_or_transGen.mp hc with rfl | hc
  · exact h
  · exact h.inv_of_transGen hc

end ComponentHooks.Loader

/-! ## A hierarchy -/

namespace ComponentHooks.Sample

open Loader Relation

namespace Diamond

theorem parents_bottom : loader.parents bottom = [base, side] := rfl

theorem parents_base : loader.parents base = [top] := rfl

theorem parents_side : loader.parents side = [top] := rfl

theorem parents_top : loader.parents top = [] := rfl

theorem namesUnique : loader.NamesUnique bottom := by
  refine namesUnique_of_nodup [bottom, base, side, top] (by simp) ?_ (by decide)
  simp [parents_bottom, parents_base, parents_side, parents_top]

theorem isAncestor_top : loader.IsAncestor top side :=
  TransGen.single (mem_parents.mp (by simp [parents_side]))

end Diamond

end ComponentHooks.Sample
