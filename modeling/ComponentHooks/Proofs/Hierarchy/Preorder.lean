import ComponentHooks.Proofs.Hierarchy.Walk

/-!
# The order of a walk

A walk that comes to its end has met the types of the hierarchy in depth-first preorder. The order
is said without a path and without a bound: types wait on an agenda, a type whose name is in the
order already is dropped, and any other is followed by its parents before what waits behind it.

* `Loader.order`, `FiniteLoader.preorder`: the order of an agenda, and of a root alone;
* `FiniteLoader.ahead`: the names that are still fresh when some were met;
* **`types_walk`**: the types of a walk stand in preorder;
* `FiniteLoader.Precedes`, `FiniteLoader.precedes_iff`: a type stands before another.
-/

namespace ComponentHooks

variable {U : Universe}

/-- The types of an agenda, each with what it leads to before the next. Names that are not in the
order yet are `fresh`; a type with any other name is dropped. -/
def Loader.order (l : Loader U) (fresh : List String) : List (TypeDecl U) → List (TypeDecl U)
  | [] => []
  | c :: cs =>
    if c.name ∈ fresh then c :: l.order (fresh.removeAll [c.name]) (l.parents c ++ cs)
    else l.order fresh cs
termination_by agenda => (fresh.length, agenda.length)
decreasing_by
  · rename_i h
    exact Prod.Lex.left _ _ (List.length_filter_lt_length_iff_exists.mpr ⟨c.name, h, by simp⟩)
  · exact Prod.Lex.right _ (Nat.lt_succ_self _)

namespace FiniteLoader

variable (l : FiniteLoader U)

/-- **Depth-first preorder**: `root`, then its superclass, then its interfaces in declaration order,
and so on upwards along the references that resolve, without the types whose name came before. Every
name that can come up is fresh at first. -/
def preorder (root : TypeDecl U) : List (TypeDecl U) := l.order (root.name :: l.names) [root]

/-- What is fresh for a walk from `root` that has met the names `met`. -/
def ahead (root : TypeDecl U) (met : List String) : List String :=
  (root.name :: l.names).filter (· ∉ met)

theorem ahead_nil (root : TypeDecl U) : l.ahead root [] = root.name :: l.names := by
  simp [ahead]

theorem ahead_concat (root : TypeDecl U) (met : List String) (n : String) :
    l.ahead root (met ++ [n]) = (l.ahead root met).removeAll [n] := by
  rw [ahead, ahead, List.removeAll, List.filter_filter]
  refine List.filter_congr fun m _ => ?_
  simp [and_comm]

theorem mem_ahead_iff {root : TypeDecl U} {n : String} (hn : n ∈ root.name :: l.names)
    (met : List String) : n ∈ l.ahead root met ↔ n ∉ met := by
  rw [ahead, List.mem_filter]
  simp only [hn, true_and, decide_eq_true_eq]

theorem order_ahead {root c : TypeDecl U} (hc : c.name ∈ root.name :: l.names) (met : List String)
    (cs : List (TypeDecl U)) :
    l.order (l.ahead root met) (c :: cs) =
      if c.name ∈ met then l.order (l.ahead root met) cs
      else c :: l.order (l.ahead root (met ++ [c.name])) (l.parents c ++ cs) := by
  have hfresh := l.mem_ahead_iff hc met
  rw [Loader.order, ahead_concat]
  by_cases h : c.name ∈ met
  · rw [if_neg (fun hf => hfresh.mp hf h), if_pos h]
  · rw [if_pos (hfresh.mpr h), if_neg h]

end FiniteLoader

variable {l : FiniteLoader U} {root : TypeDecl U}

variable (root) in
theorem preorder_rule : CleanRule l
    (fun _ c w w' => c.name ∈ root.name :: l.names → ∀ cs,
      w.types ++ l.order (l.ahead root w.names) (c :: cs) =
        w'.types ++ l.order (l.ahead root w'.names) cs)
    fun _ _ rs w w' => ∀ cs,
      w.types ++ l.order (l.ahead root w.names)
        ((rs.filterMap fun r => (l.resolve r).toOption) ++ cs) =
          w'.types ++ l.order (l.ahead root w'.names) cs where
  seen _ hn hc cs := by rw [l.order_ahead hc, if_pos hn]
  enter := by
    intro path c w w' _ hn hq hc cs
    rw [l.order_ahead hc, if_neg hn]
    have hrest := hq cs
    rw [Walk.types_entered, Walk.names_entered, List.append_assoc] at hrest
    exact hrest
  done _ := rfl
  skip := by
    intro path c r rs w w' e hr hq cs
    have hrest := hq cs
    rw [Walk.types_skipped, Walk.names_skipped] at hrest
    rw [List.filterMap_cons, hr]
    exact hrest
  go := by
    intro path c r rs d w w' w'' hr hp hq cs
    rw [List.filterMap_cons, hr]
    exact (hp (List.mem_cons_of_mem _ (l.name_mem_of_resolve hr)) _).trans (hq cs)

/-- **A walk that comes to its end has met the types of the hierarchy in preorder.** -/
theorem types_walk (h : (l.walk root).stop = none) : (l.walk root).types = l.preorder root := by
  have hrule := (preorder_rule root).walk h List.mem_cons_self []
  rw [Loader.order, List.append_nil] at hrule
  rw [← hrule, FiniteLoader.preorder, ← l.ahead_nil]
  rfl

theorem Sample.Diamond.preorder_bottom : loader.preorder bottom = [bottom, base, top, side] :=
  (types_walk (by decide)).symm

/-! ## What stands before a type -/

namespace Loader

variable (l : Loader U)

theorem names_order (fresh : List String) (agenda : List (TypeDecl U)) :
    (∀ c ∈ l.order fresh agenda, c.name ∈ fresh) ∧
      ((l.order fresh agenda).map TypeDecl.name).Nodup := by
  induction fresh, agenda using order.induct l with
  | case1 fresh => simp [order]
  | case2 fresh c cs h ih =>
    -- The name of `c` is not fresh for what stands behind `c`.
    have hmem : ∀ d ∈ l.order (fresh.removeAll [c.name]) (l.parents c ++ cs),
        d.name ∈ fresh ∧ d.name ≠ c.name := by
      intro d hd
      simpa [List.removeAll] using ih.1 d hd
    rw [order, if_pos h]
    refine ⟨?_, ?_⟩
    · rw [List.forall_mem_cons]
      exact ⟨h, fun d hd => (hmem d hd).1⟩
    · rw [List.map_cons, List.nodup_cons, List.mem_map]
      refine ⟨?_, ih.2⟩
      rintro ⟨d, hd, hname⟩
      exact (hmem d hd).2 hname
  | case3 fresh c cs h ih => rwa [order, if_neg h]

end Loader

namespace FiniteLoader

variable (l)

theorem nodup_preorder (root : TypeDecl U) : ((l.preorder root).map TypeDecl.name).Nodup :=
  (l.names_order _ _).2

/-- `d` stands before `c` in the preorder of `root`. -/
def Precedes (root d c : TypeDecl U) : Prop :=
  ∃ as bs, l.preorder root = as ++ c :: bs ∧ d ∈ as

variable {l}

theorem precedes_iff {c d : TypeDecl U} {as bs : List (TypeDecl U)}
    (h : l.preorder root = as ++ c :: bs) : l.Precedes root d c ↔ d ∈ as := by
  refine ⟨?_, fun hd => ⟨as, bs, h, hd⟩⟩
  rintro ⟨as', bs', h', hd⟩
  have hnodup := List.Nodup.of_map _ (l.nodup_preorder root)
  have hleft : ∀ {xs ys}, l.preorder root = xs ++ c :: ys → c ∉ xs ∧ c ∉ ys := by
    intro xs ys hxs
    rw [hxs, List.nodup_middle, List.nodup_cons, List.mem_append, not_or] at hnodup
    exact hnodup.1
  have heq := h.symm.trans h'
  rw [List.append_cons_inj_of_notMem (hleft h).1 (hleft h).2] at heq
  rwa [heq.1]

end FiniteLoader

end ComponentHooks
