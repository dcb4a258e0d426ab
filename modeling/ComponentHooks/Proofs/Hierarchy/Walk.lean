import ComponentHooks.Proofs.Hierarchy.Ancestry

/-!
# What holds along a walk

A walk is a recursion on the depth around a loop over supertypes. `WalkRule` is the induction over
both at once: a relation between the walk before and after, for one type (`P`) and for the remaining
supertypes of one (`Q`), holds of every walk if each way to go on keeps it.

* `Walk.types`: the types met so far;
* `WalkRule`, **`WalkRule.visit`**, `WalkRule.walk`: the rule;
* `CleanRule`, **`CleanRule.walk`**: the rule for walks that come to their end;
* **`mem_hierarchy_of_mem_types`**: a walk meets no types but the root and its ancestors.
-/

namespace ComponentHooks

variable {U : Universe}

/-- The type that is met for the first time. -/
def Finding.type? : Finding U → Option (TypeDecl U)
  | .entered c => some c
  | .skipped .. => none

namespace Walk

/-- The types met so far, in order. -/
def types (w : Walk U) : List (TypeDecl U) := w.trace.filterMap Finding.type?

theorem names_eq (w : Walk U) : w.names = w.types.map TypeDecl.name := by
  rw [names, types, List.map_filterMap]
  congr 1
  funext f
  cases f <;> rfl

@[simp] theorem types_entered (w : Walk U) (c : TypeDecl U) :
    (w.record (.entered c)).types = w.types ++ [c] := by
  simp [types, record, Finding.type?]

@[simp] theorem types_skipped (w : Walk U) (c : TypeDecl U) (r : TypeRef U) (e : LoadError) :
    (w.record (.skipped c r e)).types = w.types := by
  simp [types, record, Finding.type?]

theorem names_entered (w : Walk U) (c : TypeDecl U) :
    (w.record (.entered c)).names = w.names ++ [c.name] := by
  rw [names_eq, names_eq, types_entered, List.map_append, List.map_singleton]

theorem names_skipped (w : Walk U) (c : TypeDecl U) (r : TypeRef U) (e : LoadError) :
    (w.record (.skipped c r e)).names = w.names := by
  rw [names_eq, names_eq, types_skipped]

@[simp] theorem stop_record (w : Walk U) (f : Finding U) : (w.record f).stop = w.stop := rfl

@[simp] theorem stop_halt (w : Walk U) (s : Stop) : (w.halt s).stop = some s := rfl

end Walk

/-- Each way in which a walk goes on keeps `P path c w w'`, said of the walk `w` that turns to `c`
and of `w'` when it is done with it, and `Q path c rs w w'`, said of the walk `w` that has the
supertypes `rs` of `c` ahead and of `w'` when it has none. -/
structure WalkRule (l : Loader U) (P : List String → TypeDecl U → Walk U → Walk U → Prop)
    (Q : List String → TypeDecl U → List (TypeRef U) → Walk U → Walk U → Prop) : Prop where
  cycle : ∀ {path c w}, c.name ∈ path → P path c w (w.halt (.cycle ⟨c.name⟩))
  seen : ∀ {path c w}, c.name ∉ path → c.name ∈ w.names → P path c w w
  exhausted : ∀ {path c w}, P path c w (w.halt .exhausted)
  enter : ∀ {path c w w'}, c.name ∉ path → c.name ∉ w.names →
    Q (c.name :: path) c c.supertypes (w.record (.entered c)) w' → P path c w w'
  done : ∀ {path c w}, Q path c [] w w
  stopped : ∀ {path c r rs w}, w.stop ≠ none → Q path c (r :: rs) w w
  skip : ∀ {path c r rs w w' e}, w.stop = none → l.resolve r = .error e →
    Q path c rs (w.record (.skipped c r e)) w' → Q path c (r :: rs) w w'
  go : ∀ {path c r rs d w w' w''}, w.stop = none → l.resolve r = .ok d →
    P path d w w' → Q path c rs w' w'' → Q path c (r :: rs) w w''

section Rule

variable {l : Loader U}

theorem foldl_follow_of_stop {go : TypeDecl U → Walk U → Walk U} {c : TypeDecl U} {w : Walk U}
    (h : w.stop ≠ none) (rs : List (TypeRef U)) : rs.foldl (follow l.resolve go c) w = w := by
  induction rs with
  | nil => rfl
  | cons r rs ih =>
    rw [List.foldl_cons, follow, if_pos (Option.isSome_iff_ne_none.mpr h), ih]

namespace WalkRule

variable {P : List String → TypeDecl U → Walk U → Walk U → Prop}
  {Q : List String → TypeDecl U → List (TypeRef U) → Walk U → Walk U → Prop}

theorem follow (h : WalkRule l P Q) {go : TypeDecl U → Walk U → Walk U} {path : List String}
    (hgo : ∀ d w, P path d w (go d w)) (c : TypeDecl U) :
    ∀ (rs : List (TypeRef U)) (w : Walk U),
      Q path c rs w (rs.foldl (ComponentHooks.follow l.resolve go c) w)
  | [], _ => h.done
  | r :: rs, w => by
    by_cases hw : w.stop = none
    · have hsome : w.stop.isSome = false := by rw [hw]; rfl
      rw [List.foldl_cons]
      cases hr : l.resolve r with
      | error e =>
        rw [show ComponentHooks.follow l.resolve go c w r = w.record (.skipped c r e) by
          simp [ComponentHooks.follow, hsome, hr]]
        exact h.skip hw hr (h.follow hgo c rs _)
      | ok d =>
        rw [show ComponentHooks.follow l.resolve go c w r = go d w by
          simp [ComponentHooks.follow, hsome, hr]]
        exact h.go hw hr (hgo d w) (h.follow hgo c rs _)
    · rw [foldl_follow_of_stop hw]
      exact h.stopped hw

/-- **What each way to go on keeps holds of every walk.** -/
theorem visit (h : WalkRule l P Q) :
    ∀ (depth : Nat) (path : List String) (c : TypeDecl U) (w : Walk U),
      P path c w (ComponentHooks.visit l.resolve depth path c w) := by
  intro depth
  induction depth with
  | zero =>
    intro path c w
    rw [ComponentHooks.visit]
    split_ifs with hp hn
    · exact h.cycle hp
    · exact h.seen hp hn
    · exact h.exhausted
  | succ depth ih =>
    intro path c w
    rw [ComponentHooks.visit]
    split_ifs with hp hn
    · exact h.cycle hp
    · exact h.seen hp hn
    · exact h.enter hp hn (h.follow (fun d w => ih _ d w) c _ _)

theorem walk {l : FiniteLoader U} (h : WalkRule l P Q) (root : TypeDecl U) :
    P [] root {} (l.walk root) :=
  h.visit _ _ _ _

end WalkRule

/-- The ways to go on that do not end a walk keep `P` and `Q`. -/
structure CleanRule (l : Loader U) (P : List String → TypeDecl U → Walk U → Walk U → Prop)
    (Q : List String → TypeDecl U → List (TypeRef U) → Walk U → Walk U → Prop) : Prop where
  seen : ∀ {path c w}, c.name ∉ path → c.name ∈ w.names → P path c w w
  enter : ∀ {path c w w'}, c.name ∉ path → c.name ∉ w.names →
    Q (c.name :: path) c c.supertypes (w.record (.entered c)) w' → P path c w w'
  done : ∀ {path c w}, Q path c [] w w
  skip : ∀ {path c r rs w w' e}, l.resolve r = .error e →
    Q path c rs (w.record (.skipped c r e)) w' → Q path c (r :: rs) w w'
  go : ∀ {path c r rs d w w' w''}, l.resolve r = .ok d →
    P path d w w' → Q path c rs w' w'' → Q path c (r :: rs) w w''

namespace CleanRule

variable {P : List String → TypeDecl U → Walk U → Walk U → Prop}
  {Q : List String → TypeDecl U → List (TypeRef U) → Walk U → Walk U → Prop}

theorem toWalkRule (h : CleanRule l P Q) :
    WalkRule l (fun path c w w' => w'.stop = none → P path c w w')
      fun path c rs w w' => w'.stop = none → w.stop = none ∧ Q path c rs w w' where
  cycle _ hs := by simp at hs
  seen hp hn _ := h.seen hp hn
  exhausted hs := by simp at hs
  enter hp hn hq hs := h.enter hp hn (hq hs).2
  done hs := ⟨hs, h.done⟩
  stopped hw hs := absurd hs hw
  skip hw hr hq hs := ⟨hw, h.skip hr (hq hs).2⟩
  go hw hr hp hq hs := ⟨hw, h.go hr (hp (hq hs).1) (hq hs).2⟩

/-- **The rule for walks that come to their end.** -/
theorem walk {l : FiniteLoader U} (h : CleanRule l P Q) {root : TypeDecl U}
    (hs : (l.walk root).stop = none) : P [] root {} (l.walk root) :=
  h.toWalkRule.walk root hs

end CleanRule

/-! ## Where a walk leads -/

theorem types_rule {S : Set (TypeDecl U)} (hclosed : ∀ c ∈ S, ∀ d, l.IsParent d c → d ∈ S) :
    WalkRule l (fun _ c w w' => c ∈ S → (∀ x ∈ w.types, x ∈ S) → ∀ x ∈ w'.types, x ∈ S)
      fun _ c rs w w' => c ∈ S → rs ⊆ c.supertypes → (∀ x ∈ w.types, x ∈ S) →
        ∀ x ∈ w'.types, x ∈ S where
  cycle _ _ hw := hw
  seen _ _ _ hw := hw
  exhausted _ hw := hw
  enter := by
    intro path c w w' _ _ hq hc hw
    refine hq hc (List.Subset.refl _) fun x hx => ?_
    rw [Walk.types_entered, List.mem_append, List.mem_singleton] at hx
    rcases hx with hx | rfl
    · exact hw x hx
    · exact hc
  done _ _ hw := hw
  stopped _ _ _ hw := hw
  skip := by
    intro path c r rs w w' e _ _ hq hc hrs hw
    exact hq hc (List.cons_subset.mp hrs).2 (by rwa [Walk.types_skipped])
  go := by
    intro path c r rs d w w' w'' _ hr hp hq hc hrs hw
    obtain ⟨hmem, hrs⟩ := List.cons_subset.mp hrs
    exact hq hc hrs (hp (hclosed c hc d ⟨r, hmem, hr⟩) hw)

/-- **A walk meets no types but the root and its ancestors**, whether it ends on a cycle or not. -/
theorem mem_hierarchy_of_mem_types {l : FiniteLoader U} {root c : TypeDecl U}
    (h : c ∈ (l.walk root).types) : c ∈ l.hierarchy root :=
  (types_rule fun _ hc _ hd => Loader.IsParent.mem_hierarchy hd hc).walk root
    Loader.root_mem_hierarchy (fun _ hx => (List.not_mem_nil hx).elim) c h

end Rule

end ComponentHooks
