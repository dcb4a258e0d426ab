import ComponentHooks.Loader

/-!
# Walking a type hierarchy

The walk is depth-first: a type, then its superclass, then its interfaces in declaration order. A
type whose name was met before is passed over, a name that is still being walked is a cycle, and a
reference that does not resolve is skipped.

* `Finding`, `Walk`: what a walk meets, in order;
* `Cycle`, `Stop`: why it ends early;
* `visit`: one type and what lies above it, with a bound on the depth;
* `FiniteLoader.walk`: the walk from a root, with a bound that suffices.

**`FiniteLoader.walk_stop_ne_exhausted`**: the bound of `FiniteLoader.walk` is never reached.
-/

namespace ComponentHooks

variable {U : Universe}

variable (U) in
/-- One event of a walk. -/
inductive Finding where
  /-- A type is met for the first time. -/
  | entered (c : TypeDecl U)
  /-- A supertype of `c` does not resolve. -/
  | skipped (c : TypeDecl U) (supertype : TypeRef U) (error : LoadError)

/-- The name of a type that is met for the first time. -/
def Finding.entered? : Finding U → Option String
  | .entered c => some c.name
  | .skipped .. => none

/-- A type that appears in its own supertype chain. -/
structure Cycle where
  name : String
  deriving DecidableEq, Repr

/-- The text of the error. -/
def Cycle.message (c : Cycle) : String :=
  "Type " ++ c.name ++ " appears in its own supertype chain"

/-- Why a walk ends early. -/
inductive Stop where
  /-- A name is met while it is still being walked. -/
  | cycle (c : Cycle)
  /-- The bound on the depth is reached. -/
  | exhausted
  deriving DecidableEq, Repr

variable (U) in
/-- A walk so far. -/
structure Walk where
  trace : List (Finding U) := []
  stop : Option Stop := none

namespace Walk

/-- The names met so far, in order. -/
def names (w : Walk U) : List String := w.trace.filterMap Finding.entered?

/-- The walk with one more finding. -/
def record (w : Walk U) (f : Finding U) : Walk U := { w with trace := w.trace ++ [f] }

/-- The walk, ended. -/
def halt (w : Walk U) (s : Stop) : Walk U := { w with stop := some s }

end Walk

section Visit

variable (resolve : TypeRef U → Except LoadError (TypeDecl U))

/-- Goes on from `c` to one supertype, if the walk has not ended. -/
def follow (go : TypeDecl U → Walk U → Walk U) (c : TypeDecl U) (w : Walk U) (r : TypeRef U) :
    Walk U :=
  if w.stop.isSome then w
  else
    match resolve r with
    | .ok d => go d w
    | .error e => w.record (.skipped c r e)

/-- Walks `c` and what lies above it; `path` holds the names that are still being walked. -/
def visit : Nat → List String → TypeDecl U → Walk U → Walk U
  | depth, path, c, w =>
    if c.name ∈ path then w.halt (.cycle ⟨c.name⟩)
    else if c.name ∈ w.names then w
    else
      match depth with
      | 0 => w.halt .exhausted
      | depth + 1 =>
        c.supertypes.foldl (follow resolve (visit depth (c.name :: path)) c) (w.record (.entered c))

end Visit

namespace FiniteLoader

/-- The walk from `root`. -/
def walk (l : FiniteLoader U) (root : TypeDecl U) : Walk U :=
  visit l.resolve (root.name :: l.names).length [] root {}

end FiniteLoader

/-! ## The bound on the depth -/

theorem visit_stop_ne_exhausted {resolve : TypeRef U → Except LoadError (TypeDecl U)}
    (names : List String) (hr : ∀ r c, resolve r = .ok c → c.name ∈ names) :
    ∀ (depth : Nat) (path : List String) (c : TypeDecl U) (w : Walk U), path.Nodup → path ⊆ names →
      c.name ∈ names → names.length ≤ path.length + depth → w.stop ≠ some .exhausted →
      (visit resolve depth path c w).stop ≠ some .exhausted := by
  intro depth
  induction depth with
  | zero =>
    intro path c w hn hs hc hd hw
    unfold visit
    split
    · simp [Walk.halt]
    · rename_i hp
      split
      · exact hw
      · have hlength := (List.nodup_cons.mpr ⟨hp, hn⟩).length_le_of_subset
          (List.cons_subset.mpr ⟨hc, hs⟩)
        simp only [List.length_cons] at hlength
        omega
  | succ depth ih =>
    intro path c w hn hs hc hd hw
    unfold visit
    split
    · simp [Walk.halt]
    · rename_i hp
      split
      · exact hw
      · simp only
        have hrec : (w.record (.entered c)).stop ≠ some .exhausted := hw
        generalize w.record (.entered c) = v at hrec
        induction c.supertypes generalizing v with
        | nil => exact hrec
        | cons r rs ihr =>
          rw [List.foldl_cons]
          apply ihr
          unfold follow
          split
          · exact hrec
          · cases hres : resolve r with
            | error e => exact hrec
            | ok d =>
              exact ih (c.name :: path) d v (List.nodup_cons.mpr ⟨hp, hn⟩)
                (List.cons_subset.mpr ⟨hc, hs⟩) (hr r d hres) (by simp; omega) hrec

/-- **The bound on the depth is never reached.** Every name on the path is the root's or one that
the loader can answer with, and none is there twice. -/
theorem FiniteLoader.walk_stop_ne_exhausted (l : FiniteLoader U) (root : TypeDecl U) :
    (l.walk root).stop ≠ some .exhausted :=
  visit_stop_ne_exhausted (root.name :: l.names)
    (fun _ _ h => List.mem_cons_of_mem _ (l.name_mem_of_resolve h)) _ _ _ _ List.nodup_nil (by simp)
    List.mem_cons_self (by simp) (by simp)

end ComponentHooks
