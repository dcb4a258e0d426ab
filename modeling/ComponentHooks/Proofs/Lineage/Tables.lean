import ComponentHooks.Proofs.Lineage.RunOnce
import ComponentHooks.Proofs.Lineage.Sources
import ComponentHooks.Proofs.Source.Blocks

/-!
# Two tables from one block

The hooks of a block are declared as methods, which an engine runs on the state of the struct, and
the struct runs them by name. Both come from one list, and what one of them runs the other one runs
too.

* `Source.BlockMethod.IsDeclaredBy`: a hook in a declaration;
* `Component.IsInStep`, **`Component.isInStep`**: by name, the struct runs what its methods run;
* **`expands_in_step`**: which blocks are expanded, what is wrong with others, and what the two
  tables have.
-/

namespace ComponentHooks

open Source

variable {U : Universe}

/-- The hook is declared as it is written. -/
structure Source.BlockMethod.IsDeclaredBy (m : BlockMethod) (typeName : String) (x : Method U) :
    Prop where
  id_eq : x.id = ⟨typeName, m.name, "()"⟩
  markers : Transcribes .method m.attributes x.markers
  isStatic_eq : x.isStatic = !m.signature.parameters.any (·.isReceiver)
  exposed_iff : x.visibility = .exposed ↔ m.reach = .everywhere

namespace Component

variable {s : Shape U} {ps : Layout U} (c : Component U s ps) (parent? : Option U.Link)

theorem isDeclaredBy_method {m : BlockMethod} {h : Hook U (s :: ps)}
    (hm : m.IsDescribedBy h.described) : m.IsDeclaredBy c.typeName (c.method h) where
  id_eq := by rw [← hm.name_eq]; rfl
  markers := hm.markers
  isStatic_eq := (c.isStatic_method h).trans hm.isStatic_eq
  exposed_iff := hm.exposed_iff

theorem isDeclaredBy_methods_declare {b : HookBlock} {x : Expansion} (hx : b.IsExpandedBy x)
    (hc : c.table.map Hook.described = x.hooks) :
    List.Forall₂ (·.IsDeclaredBy c.typeName ·) (b.methods.filter (·.isHook))
      (c.declare parent?).methods := by
  have hhooks := hx.hooks
  rw [← hc, List.forall₂_map_right_iff] at hhooks
  rw [c.methods_declare, List.forall₂_map_right_iff]
  exact hhooks.imp fun _ _ hm => c.isDeclaredBy_method hm

/-- By name, the struct runs its methods that run on a state, and no others; and it runs them as
they run on its own state. -/
structure IsInStep : Prop where
  answers_iff : ∀ n r shared, (c.dispatch n r shared).isSome = true ↔
    ∃ x ∈ (c.declare parent?).methods, x.id.name = n ∧ x.isStatic = false
  agrees : ∀ x ∈ (c.declare parent?).methods, x.isStatic = false →
    ∃ run, x.body = some (.onState run) ∧
      ∀ r shared, c.dispatch x.id.name r shared = some (run c.tag r shared)

/-- **The two tables agree.** -/
theorem isInStep : c.IsInStep parent? where
  answers_iff n r shared := by
    rw [c.dispatch_eq_find?, Option.isSome_map, List.find?_isSome, c.methods_declare]
    constructor
    · rintro ⟨h, hh, hfound⟩
      rw [Bool.and_eq_true, decide_eq_true_eq, Bool.not_eq_true'] at hfound
      exact ⟨c.method h, List.mem_map_of_mem hh, hfound.1,
        (c.isStatic_method h).trans hfound.2⟩
    · rintro ⟨x, hx, rfl, hstatic⟩
      obtain ⟨h, hh, rfl⟩ := List.mem_map.mp hx
      rw [c.isStatic_method] at hstatic
      exact ⟨h, hh, by simp [hstatic, method]⟩
  agrees x hx hstatic := by
    rw [c.methods_declare] at hx
    obtain ⟨h, hh, rfl⟩ := List.mem_map.mp hx
    rw [c.isStatic_method] at hstatic
    obtain ⟨f, hbody⟩ := HookBody.exists_onSelf hstatic
    obtain ⟨run, hrun, heq⟩ := c.body_onSelf f
    refine ⟨run, ?_, fun r shared => ?_⟩
    · rw [method, hbody, hrun]
    · rw [heq]
      exact c.dispatch_of_mem hh hbody r shared

end Component

/-- **The blocks that are expanded.** A block is expanded exactly if its source is in order; and
otherwise the fault is that of the first check that does not hold. An expansion tells of the hooks
in the block, and the two tables that come of it agree. -/
theorem expands_in_step (b : HookBlock) :
    ((∃ x, b.expand = .ok x) ↔ b.IsExpandable) ∧
      (∀ e, b.expand = .error e ↔ ∃ before check after, b.checks = before ++ check :: after ∧
        (∀ c ∈ before, c.Holds) ∧ check.fault? = some e) ∧
      ∀ x, b.expand = .ok x → b.IsExpandedBy x ∧
        ∀ {U : Universe} {s : Shape U} {ps : Layout U} {c : Component U s ps},
          c.table.map Hook.described = x.hooks → ∀ parent? : Option U.Link,
            List.Forall₂ (·.IsDeclaredBy c.typeName ·) (b.methods.filter (·.isHook))
              (c.declare parent?).methods ∧ c.IsInStep parent? := by
  refine ⟨exists_expand_iff b, expand_eq_error_iff b, fun x hx => ?_⟩
  have hexpanded := isExpandedBy_of_expand hx
  exact ⟨hexpanded, fun {U s ps c} hc parent? =>
    ⟨c.isDeclaredBy_methods_declare parent? hexpanded hc, c.isInStep parent?⟩⟩

namespace Sample

theorem Override.expands_in_step_override :
    Override.block.IsExpandable ∧ Override.block.IsExpandedBy Override.expansion ∧
      List.Forall₂ (·.IsDeclaredBy "zoo::Override" ·)
        (Override.block.methods.filter (·.isHook))
        ((overrideComponent "zoo").declare (some .base)).methods ∧
      (overrideComponent "zoo").IsInStep (some .base) := by
  obtain ⟨haccepts, -, htells⟩ := expands_in_step Override.block
  obtain ⟨hexpanded, htables⟩ := htells Override.expansion Override.expand_block
  exact ⟨haccepts.mp ⟨_, Override.expand_block⟩, hexpanded,
    htables (c := overrideComponent "zoo") rfl (some .base)⟩

/-- A block with a hook that takes any arguments. -/
def variadicBlock : HookBlock where
  selfType := "Mailer"
  items :=
    [.method
      { signature := { name := "x", parameters := [{ form := .rest, phrase := { text := "..." } }] }
        attributes := [{ name := "hook" }] }]

/-- Three dots for any more arguments are let through. -/
theorem not_forall_parameterless :
    ¬ ∀ (b : HookBlock) (x : Expansion), b.expand = .ok x → ∀ m ∈ b.methods, m.isHook = true →
      ∀ p ∈ m.signature.parameters, p.isReceiver = true := by
  intro h
  have hexpand : ∃ x, variadicBlock.expand = .ok x := ⟨_, rfl⟩
  obtain ⟨x, hx⟩ := hexpand
  have hreceiver := h variadicBlock x hx _ List.mem_cons_self rfl _ List.mem_cons_self
  cases hreceiver

end Sample

end ComponentHooks
