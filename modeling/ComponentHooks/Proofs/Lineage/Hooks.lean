import ComponentHooks.Lineage
import ComponentHooks.Proofs.Extraction.Reference
import ComponentHooks.Proofs.Hierarchy.Line

/-!
# The hooks of a struct and its ancestors

What hooks a struct has is said without an engine: its own of a kind, in source order, then those of
its parent whose names are free, run on the embedded state, and so on. The metadata of the struct
has these hooks, in this order.

* `HookBody.run`, `HookBody.embedded`: a body on a struct, and on one that embeds it;
* `InheritedHook`: a hook as it runs on the whole, with the method that describes it;
* `Lineage.inherited`, `Lineage.hooks`: all hooks, and those of a kind whose names are free;
* `Lineage.decls`, `Lineage.LinkedIn`: the declarations of a struct and its ancestors, and loaders
  that link to them;
* **`Lineage.isLine`**, **`Lineage.methods_ofTypes`**: such declarations stand in a line, and their
  metadata has the hooks of the struct.
-/

namespace ComponentHooks

variable {U : Universe}

/-! ## Hooks on a whole struct -/

namespace HookBody

variable {ls : Layout U}

/-- Runs the body on a struct. Static bodies leave it as it is. -/
def run (b : HookBody U ls) (r : Record U ls) (shared : U.Shared) :
    Outcome × Record U ls × U.Shared :=
  match b with
  | .onSelf f => f r shared
  | .onShared f => ((f shared).1, r, (f shared).2)

/-- The body on a struct that embeds the one it is for: it changes the embedded state alone. -/
def embedded (s : Shape U) (b : HookBody U ls) : HookBody U (s :: ls) :=
  match b with
  | .onSelf f => .onSelf fun r shared =>
    let (o, p, shared) := f r.2 shared
    (o, (r.1, p), shared)
  | .onShared f => .onShared f

theorem run_embedded (s : Shape U) (b : HookBody U ls) (r : Record U (s :: ls))
    (shared : U.Shared) :
    (b.embedded s).run r shared =
      let (o, p, shared) := b.run r.2 shared
      (o, (r.1, p), shared) := by
  cases b <;> rfl

/-- The body belongs to its type and not to an instance. -/
def isStatic (b : HookBody U ls) : Bool :=
  match b with
  | .onSelf _ => false
  | .onShared _ => true

end HookBody

/-- The hook has a marker of the kind. -/
def Hook.carries {ls : Layout U} (h : Hook U ls) (k : Kind) : Bool := h.markers.any (·.kind = k)

/-- The hook on a struct that embeds the one it is for. -/
def Hook.embedded {ls : Layout U} (s : Shape U) (h : Hook U ls) : Hook U (s :: ls) :=
  { h with body := h.body.embedded s }

variable (U) in
/-- A hook of a struct or of one of its ancestors, as it runs on the whole struct, with the method
that describes it to an engine. -/
structure InheritedHook (ls : Layout U) where
  hook : Hook U ls
  method : Method U
  name_eq : method.id.name = hook.name := by rfl
  markers_eq : method.markers = hook.markers := by rfl
  isEligible : method.isEligible = true := by rfl
  onSelf : ∀ f, hook.body = .onSelf f → ∃ run, method.body = some (.onState run)
  onShared : ∀ f, hook.body = .onShared f → method.body = some (.onShared f)

namespace InheritedHook

variable {ls : Layout U}

/-- The identity of the hook: the struct that declares it, and its name. -/
def id (h : InheritedHook U ls) : MemberId := h.method.id

/-- The hook on a struct that embeds the one it is for. -/
def embedded (s : Shape U) (h : InheritedHook U ls) : InheritedHook U (s :: ls) where
  hook := h.hook.embedded s
  method := h.method
  name_eq := h.name_eq
  markers_eq := h.markers_eq
  isEligible := h.isEligible
  onSelf f hf := by
    cases hbody : h.hook.body with
    | onSelf f' => exact h.onSelf f' hbody
    | onShared f' =>
      rw [Hook.embedded, hbody] at hf
      cases hf
  onShared f hf := by
    cases hbody : h.hook.body with
    | onSelf f' =>
      rw [Hook.embedded, hbody] at hf
      cases hf
    | onShared f' =>
      rw [Hook.embedded, hbody] at hf
      cases hf
      exact h.onShared f hbody

@[simp] theorem body_embedded (s : Shape U) (h : InheritedHook U ls) :
    (h.embedded s).hook.body = h.hook.body.embedded s := rfl

@[simp] theorem method_embedded (s : Shape U) (h : InheritedHook U ls) :
    (h.embedded s).method = h.method := rfl

theorem filter_map_embedded (s : Shape U) (names : List String) (hs : List (InheritedHook U ls)) :
    (hs.map (·.embedded s)).filter (·.hook.name ∉ names) =
      (hs.filter (·.hook.name ∉ names)).map (·.embedded s) := List.filter_map

theorem carries_method (h : InheritedHook U ls) (k : Kind) :
    h.method.carries k = h.hook.carries k := by
  rw [Member.carries, h.markers_eq, Hook.carries]

end InheritedHook

namespace Component

variable {s : Shape U} {ps : Layout U} (c : Component U s ps)

/-- The method that describes an own hook. -/
def method (h : Hook U (s :: ps)) : Method U where
  id := ⟨c.typeName, h.name, "()"⟩
  owner := some c.tag
  visibility := h.visibility
  markers := h.markers
  body := some (c.body h.body)

/-- An own hook. -/
def ownHook (h : Hook U (s :: ps)) : InheritedHook U (s :: ps) where
  hook := h
  method := c.method h
  onSelf f hf := by
    rw [method, hf]
    exact ⟨_, rfl⟩
  onShared f hf := by
    rw [method, hf]
    rfl

theorem methods_declare (parent? : Option U.Link) :
    (c.declare parent?).methods = c.table.map c.method := by
  simp [declare, TypeDecl.declare, Member.declaredBy, Function.comp_def, method]

theorem nodup_table : (c.table.map Hook.name).Nodup := by
  unfold table
  split
  · exact c.hooks_nodup
  · exact List.nodup_nil

end Component

/-! ## Hooks of a struct with its ancestors -/

namespace Lineage

variable {ls : Layout U}

/-- The declarations of the struct and its ancestors. -/
def decls : {ls : Layout U} → Lineage U ls → List (TypeDecl U)
  | _, nil => []
  | _, cons c parents => c.declare parents.link? :: parents.decls

/-- All hooks in the descriptions of the struct and its ancestors. -/
def inherited : {ls : Layout U} → Lineage U ls → List (InheritedHook U ls)
  | _, nil => []
  | _, cons c parents => c.table.map c.ownHook ++ parents.inherited.map (·.embedded _)

/-- The hooks of a kind: the struct's own in source order, then those of its ancestors, each without
those whose names are taken, be it by a hook of the kind of a more derived struct. -/
def hooks (k : Kind) : {ls : Layout U} → Lineage U ls → List String → List (InheritedHook U ls)
  | _, nil, _ => []
  | _, cons c parents, taken =>
    let own := c.table.filter (·.carries k)
    (own.filter (·.name ∉ taken)).map c.ownHook ++
      (parents.hooks k (taken ++ own.map (·.name))).map (·.embedded _)

theorem mem_inherited_cons {s : Shape U} {ps : Layout U} {c : Component U s ps}
    {parents : Lineage U ps} {h : InheritedHook U (s :: ps)} :
    h ∈ (cons c parents).inherited ↔
      (∃ g ∈ c.table, c.ownHook g = h) ∨ ∃ g ∈ parents.inherited, g.embedded s = h := by
  rw [inherited, List.mem_append, List.mem_map, List.mem_map]

theorem flatMap_methods_decls (T : Lineage U ls) :
    T.decls.flatMap (·.methods) = T.inherited.map (·.method) := by
  induction T with
  | nil => rfl
  | cons c parents ih =>
    rw [decls, inherited, List.flatMap_cons, ih, c.methods_declare, List.map_append, List.map_map,
      List.map_map]
    rfl

theorem flatMap_methodsOf_decls (T : Lineage U ls) (k : Kind) :
    T.decls.flatMap (·.methodsOf k) =
      (T.inherited.filter (·.hook.carries k)).map (·.method) := by
  have hfilter : T.decls.flatMap (·.methodsOf k) =
      (T.decls.flatMap (·.methods)).filter fun x => x.isEligible && x.carries k :=
    List.filter_flatMap.symm
  rw [hfilter, flatMap_methods_decls, List.filter_map]
  congr 1
  refine List.filter_congr fun h _ => ?_
  rw [Function.comp_apply, h.isEligible, h.carries_method, Bool.true_and]

theorem firstOfName_inherited (T : Lineage U ls) (k : Kind) (taken : List String) :
    firstOfName (·.hook.name)
      ((T.inherited.filter (·.hook.carries k)).filter (·.hook.name ∉ taken)) =
        T.hooks k taken := by
  induction T generalizing taken with
  | nil => rfl
  | @cons s ps c parents ih =>
    let own := c.table.filter (·.carries k)
    have hown : ((c.table.map c.ownHook).filter (·.hook.carries k)).filter (·.hook.name ∉ taken) =
        (own.filter (·.name ∉ taken)).map c.ownHook := by
      rw [List.filter_map, List.filter_map]
      rfl
    have hnames : ((own.filter (·.name ∉ taken)).map c.ownHook).map (·.hook.name) =
        (own.map (·.name)).filter (· ∉ taken) := by
      rw [List.map_map, List.filter_map]
      rfl
    have hnodup : ((own.map (·.name)).filter (· ∉ taken)).Nodup :=
      ((List.filter_sublist.map _).nodup c.nodup_table).filter _
    -- A name is free further up if it was not taken before, nor by an own hook.
    have hfree : (((parents.inherited.map (·.embedded s)).filter (·.hook.carries k)).filter
          (·.hook.name ∉ taken)).filter (·.hook.name ∉ (own.map (·.name)).filter (· ∉ taken)) =
        ((parents.inherited.filter (·.hook.carries k)).filter
          (·.hook.name ∉ taken ++ own.map (·.name))).map (·.embedded s) := by
      have hcarries : (parents.inherited.map (·.embedded s)).filter (·.hook.carries k) =
          (parents.inherited.filter (·.hook.carries k)).map (·.embedded s) := List.filter_map
      rw [hcarries, InheritedHook.filter_map_embedded, InheritedHook.filter_map_embedded,
        List.filter_filter]
      congr 1
      refine List.filter_congr fun h _ => ?_
      rw [Bool.eq_iff_iff]
      simp only [Bool.and_eq_true, decide_eq_true_eq, List.mem_filter, List.mem_append]
      tauto
    rw [← hnames] at hnodup
    rw [inherited, List.filter_append, List.filter_append, hown, firstOfName_append _ hnodup,
      hnames, hfree, firstOfName_map, hooks, ← ih]
    rfl

theorem hooks_eq (T : Lineage U ls) (k : Kind) :
    T.hooks k [] = firstOfName (·.hook.name) (T.inherited.filter (·.hook.carries k)) := by
  rw [← firstOfName_inherited]
  congr 1
  exact List.filter_eq_self.mpr fun _ _ => rfl

theorem hooks_subset (T : Lineage U ls) (k : Kind) : T.hooks k [] ⊆ T.inherited := by
  intro h hh
  rw [hooks_eq, mem_firstOfName] at hh
  exact (List.mem_filter.mp (List.mem_of_find?_eq_some hh)).1

theorem nodup_ids_hooks (T : Lineage U ls) (k : Kind) :
    ((T.hooks k []).map InheritedHook.id).Nodup := by
  have hnames : ((T.hooks k []).map (·.hook.name)).Nodup := by
    rw [hooks_eq]
    exact nodup_firstOfName _ _
  have hname : (fun h : InheritedHook U ls => h.hook.name) = MemberId.name ∘ InheritedHook.id := by
    funext h
    exact h.name_eq.symm
  rw [hname, ← List.map_map] at hnames
  exact hnames.of_map

theorem hooks_of_not_appliesTo (T : Lineage U ls) {k : Kind} (hk : k.appliesTo .method = false) :
    T.hooks k [] = [] := by
  have hcarries : ∀ h ∈ T.inherited, h.hook.carries k = false := by
    intro h _
    rw [Hook.carries, List.any_eq_false]
    intro m hm hkind
    have happlies := h.hook.markers_apply m hm
    rw [of_decide_eq_true hkind, hk] at happlies
    cases happlies
  have hnone : T.inherited.filter (·.hook.carries k) = [] :=
    List.filter_eq_nil_iff.mpr fun h hh => by rw [hcarries h hh]; exact Bool.false_ne_true
  rw [hooks_eq, hnone, firstOfName_nil]

/-! ## The engine's view -/

/-- The loader links to the declarations of the struct and its ancestors. -/
def LinkedIn (l : FiniteLoader U) : {ls : Layout U} → Lineage U ls → Prop
  | _, nil => True
  | _, cons c parents => l.linked c.link = c.declare parents.link? ∧ parents.LinkedIn l

/-- **The declarations of structs without interfaces stand in a line.** -/
theorem isLine (T : Lineage U ls) {l : FiniteLoader U} (hlinked : T.LinkedIn l)
    (himplements : ∀ d ∈ T.decls, d.implements = []) : l.IsLine T.decls := by
  induction T with
  | nil => trivial
  | cons c parents ih =>
    rw [decls, List.forall_mem_cons] at himplements
    refine ⟨?_, ih hlinked.2 himplements.2⟩
    rw [Loader.parents, TypeDecl.supertypes, himplements.1, List.append_nil]
    cases parents with
    | nil => rfl
    | cons c' parents => exact congrArg (fun d => [d]) hlinked.2.1

theorem canLink_of_mem_decls (T : Lineage U ls) (l : FiniteLoader U) :
    ∀ d ∈ T.decls, l.canLink d = true := by
  induction T with
  | nil => nofun
  | cons c parents ih =>
    rw [decls, List.forall_mem_cons]
    exact ⟨rfl, ih⟩

/-- **The metadata of these declarations has the hooks of the struct.** -/
theorem methods_ofTypes (T : Lineage U ls) (l : FiniteLoader U) (name : String) (k : Kind) :
    (Metadata.ofTypes l name T.decls).methods k = (T.hooks k []).map (·.method) := by
  rw [Metadata.methods_ofTypes]
  split
  · rw [List.filter_eq_self.mpr (T.canLink_of_mem_decls l), flatMap_methodsOf_decls,
      firstOfName_map, hooks_eq]
    congr 2
    funext h
    exact h.name_eq
  · rename_i hk
    rw [T.hooks_of_not_appliesTo (Bool.not_eq_true _ ▸ hk), List.map_nil]

end Lineage

end ComponentHooks
