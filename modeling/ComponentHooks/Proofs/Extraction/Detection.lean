import ComponentHooks.Proofs.Extraction.Termination
import ComponentHooks.Proofs.Hierarchy.Cycle

/-!
# Detecting cycles

A cycle that an extraction tells is there, whatever its loader answers. That a cycle which is there
is told takes more. An extraction that comes to its end has met every type that can be reached, so
where names tell types apart there are finitely many, and none is above itself; but one that climbs
for ever before it turns to a cycle never tells it. It ends if finitely many names can be reached.

* `Loader.EndsWith`, `Loader.Fails`, `Loader.Succeeds`: how the extraction of a type ends;
* `Tour.Explores`, **`Tour.Explores.next?`**: what a supertype resolves to was met, or waits;
* `Loader.DetectsCycles`, **`Loader.detectsCycles`**: which cycles are told;
* **`Sample.not_forall_detected`**: an extraction that never tells the cycle at its root.
-/

namespace ComponentHooks

open Relation Tour

variable {U : Universe}

namespace Loader

variable (l : Loader U) (root : TypeDecl U)

/-- The extraction of `root` ends: the machine comes to a halt, and `w` is what it has met. -/
def EndsWith (w : Walk U) : Prop := ∃ path, Runs l.resolve (start root) ⟨[], path, w⟩

/-- The extraction of `root` fails, and tells this cycle. -/
def Fails (e : Cycle) : Prop := ∃ w, l.EndsWith root w ∧ w.stop = some (.cycle e)

/-- The extraction of `root` has metadata to give. -/
def Succeeds : Prop := ∃ w, l.EndsWith root w ∧ w.stop = none

variable {l root}

theorem EndsWith.unique {v w : Walk U} (hv : l.EndsWith root v) (hw : l.EndsWith root w) :
    v = w := by
  obtain ⟨_, hv⟩ := hv
  obtain ⟨_, hw⟩ := hw
  exact congrArg Tour.walk (hv.unique hw rfl rfl)

end Loader

/-! ## Nothing is left out -/

namespace Tour

variable {l : Loader U} {root : TypeDecl U} {tour tour' : Tour U}

/-- The name of the type was met, or the type waits to be visited. -/
def Sees (tour : Tour U) (d : TypeDecl U) : Prop :=
  d.name ∈ tour.walk.names ∨ .visit d ∈ tour.agenda

variable (l root) in
/-- `root` and all that supertypes of the types met so far resolve to are seen, or still to be
looked for. -/
structure Explores (tour : Tour U) : Prop where
  root : tour.Sees root
  supertypes : ∀ c ∈ tour.walk.types, ∀ r ∈ c.supertypes, ∀ d, l.resolve r = .ok d →
    tour.Sees d ∨ .supertype c r ∈ tour.agenda

section Step

variable (hstep : next? l.resolve tour = some tour') (hgoing : tour'.walk.stop = none)

include hstep hgoing

theorem Sees.next? {d : TypeDecl U} (h : tour.Sees d) : tour'.Sees d := by
  cases step_of_next? hstep with
  | cycle hpath => simp at hgoing
  | @seen c ts path w hnames =>
    rcases h with h | h
    · exact .inl h
    · rcases List.mem_cons.mp h with h | h
      · cases h
        exact .inl hnames
      · exact .inr h
  | @enter c ts path w hpath hnames =>
    rw [Sees, Walk.names_entered, List.mem_append, List.mem_singleton]
    rcases h with h | h
    · exact .inl (.inl h)
    · rcases List.mem_cons.mp h with h | h
      · cases h
        exact .inl (.inr rfl)
      · exact .inr (List.mem_append_right _ (List.mem_cons_of_mem _ h))
  | found hres =>
    exact h.imp_right fun hd =>
      List.mem_cons_of_mem _ ((List.mem_cons.mp hd).resolve_left (by simp))
  | skip hres =>
    rw [Sees, Walk.names_skipped]
    exact h.imp_right fun hd => (List.mem_cons.mp hd).resolve_left (by simp)
  | leave => exact h.imp_right fun hd => (List.mem_cons.mp hd).resolve_left (by simp)

theorem sees_or_mem_agenda_of_next? {c d : TypeDecl U} {r : TypeRef U}
    (h : .supertype c r ∈ tour.agenda) (hd : l.resolve r = .ok d) :
    tour'.Sees d ∨ .supertype c r ∈ tour'.agenda := by
  cases step_of_next? hstep with
  | cycle hpath => simp at hgoing
  | seen hnames => exact .inr ((List.mem_cons.mp h).resolve_left (by simp))
  | enter hpath hnames =>
    have hts := (List.mem_cons.mp h).resolve_left (by simp)
    exact .inr (List.mem_append_right _ (List.mem_cons_of_mem _ hts))
  | found hres =>
    rcases List.mem_cons.mp h with h | h
    · cases h
      cases hd.symm.trans hres
      exact .inl (.inr List.mem_cons_self)
    · exact .inr (List.mem_cons_of_mem _ h)
  | skip hres =>
    rcases List.mem_cons.mp h with h | h
    · cases h
      cases hd.symm.trans hres
    · exact .inr h
  | leave => exact .inr ((List.mem_cons.mp h).resolve_left (by simp))

omit hgoing in
theorem mem_types_of_next? {c : TypeDecl U} (h : c ∈ tour'.walk.types) :
    c ∈ tour.walk.types ∨ ∀ r ∈ c.supertypes, .supertype c r ∈ tour'.agenda := by
  cases step_of_next? hstep with
  | cycle hpath => exact .inl h
  | seen hnames => exact .inl h
  | enter hpath hnames =>
    rw [Walk.types_entered, List.mem_append, List.mem_singleton] at h
    refine h.imp_right ?_
    rintro rfl r hr
    exact List.mem_append_left _ (List.mem_map_of_mem hr)
  | found hres => exact .inl h
  | skip hres =>
    rw [Walk.types_skipped] at h
    exact .inl h
  | leave => exact .inl h

/-- **No step leaves a supertype out**, unless it ends the walk. -/
theorem Explores.next? (h : tour.Explores l root) : tour'.Explores l root := by
  refine ⟨h.root.next? hstep hgoing, fun c hc r hr d hd => ?_⟩
  rcases mem_types_of_next? hstep hc with hc | hnew
  · rcases h.supertypes c hc r hr d hd with hsees | hwaits
    · exact .inl (hsees.next? hstep hgoing)
    · exact sees_or_mem_agenda_of_next? hstep hgoing hwaits hd
  · exact .inr (hnew r hr)

end Step

/-- A walk that has ended on a cycle stays ended. -/
theorem stop_of_next? (hstep : next? l.resolve tour = some tour') (h : tour'.walk.stop = none) :
    tour.walk.stop = none := by
  cases step_of_next? hstep with
  | cycle hpath => simp at h
  | _ => exact h

theorem explores_of_runs (hruns : Runs l.resolve (start root) tour) (h : tour.walk.stop = none) :
    tour.Explores l root := by
  induction hruns with
  | refl => exact ⟨.inr (List.mem_singleton_self _), fun c hc => (List.not_mem_nil hc).elim⟩
  | tail _ hstep ih => exact (ih (stop_of_next? hstep h)).next? hstep h

end Tour

/-! ## Which cycles are told -/

namespace Loader

variable {l : Loader U} {root : TypeDecl U}

/-- **An extraction that comes to its end has met all that can be reached**, where names tell types
apart. -/
theorem EndsWith.hierarchy_subset {w : Walk U} (h : l.EndsWith root w) (hstop : w.stop = none)
    (hu : l.NamesUnique root) : ∀ c ∈ l.hierarchy root, c ∈ w.types := by
  obtain ⟨path, hruns⟩ := h
  have hexplores := explores_of_runs hruns hstop
  have hmet : ∀ d ∈ w.types, d ∈ l.hierarchy root :=
    ((Sound.start root_mem_hierarchy).runs hierarchy_closed hruns).types_mem
  have hmem : ∀ d ∈ l.hierarchy root, Sees ⟨[], path, w⟩ d → d ∈ w.types := by
    rintro d hd (hname | hwaits)
    · rw [w.names_eq, List.mem_map] at hname
      obtain ⟨b, hb, hname⟩ := hname
      rwa [← hu (hmet b hb) hd hname]
    · exact (List.not_mem_nil hwaits).elim
  intro c hc
  induction hc using ReflTransGen.head_induction_on with
  | refl => exact hmem root root_mem_hierarchy hexplores.root
  | head hp hc ih =>
    obtain ⟨r, hr, hd⟩ := hp
    rcases hexplores.supertypes _ ih r hr _ hd with hsees | hwaits
    · exact hmem _ (ReflTransGen.head ⟨r, hr, hd⟩ hc) hsees
    · exact (List.not_mem_nil hwaits).elim

theorem EndsWith.finite_reachableNames {w : Walk U} (h : l.EndsWith root w) (hstop : w.stop = none)
    (hu : l.NamesUnique root) : (l.reachableNames root).Finite :=
  (w.types.finite_toSet.subset (h.hierarchy_subset hstop hu)).image _

end Loader

namespace FiniteLoader.Serves

variable {l : Loader U} {root : TypeDecl U} {f : FiniteLoader U} (hf : f.Serves l root)

include hf

theorem isParent_iff {c d : TypeDecl U} (hc : c ∈ l.hierarchy root) :
    f.IsParent d c ↔ l.IsParent d c :=
  exists_congr fun r => and_congr_right fun hr => by rw [hf.resolve c hc r hr]

theorem hierarchy_subset : f.hierarchy root ⊆ l.hierarchy root := by
  intro c hc
  induction hc using ReflTransGen.head_induction_on with
  | refl => exact Loader.root_mem_hierarchy
  | head hp _ ih => exact ((hf.isParent_iff ih).mp hp).mem_hierarchy ih

theorem mem_hierarchy {c : TypeDecl U} (hc : c ∈ l.hierarchy root) : c ∈ f.hierarchy root := by
  induction hc using ReflTransGen.head_induction_on with
  | refl => exact Loader.root_mem_hierarchy
  | head hp hc ih => exact ((hf.isParent_iff hc).mpr hp).mem_hierarchy ih

theorem isAncestor {c d : TypeDecl U} (hc : c ∈ l.hierarchy root) (h : l.IsAncestor d c) :
    f.IsAncestor d c := by
  induction h with
  | single hp => exact .single ((hf.isParent_iff hc).mpr hp)
  | tail _ hp ih => exact .tail (ih (hp.mem_hierarchy hc)) ((hf.isParent_iff hc).mpr hp)

theorem endsWith : l.EndsWith root (f.walk root) := by
  obtain ⟨p, hruns, -⟩ := hf.exists_runs_walk
  exact ⟨p, hruns⟩

theorem fails_iff {e : Cycle} : l.Fails root e ↔ (f.walk root).stop = some (.cycle e) := by
  refine ⟨?_, fun h => ⟨_, hf.endsWith, h⟩⟩
  rintro ⟨w, hw, hstop⟩
  rwa [hf.endsWith.unique hw]

theorem succeeds_iff : l.Succeeds root ↔ (f.walk root).stop = none := by
  refine ⟨?_, fun h => ⟨_, hf.endsWith, h⟩⟩
  rintro ⟨w, hw, hstop⟩
  rwa [hf.endsWith.unique hw]

theorem succeeds_or_fails : l.Succeeds root ∨ ∃ e, l.Fails root e := by
  rw [hf.succeeds_iff]
  refine (Walk.stop_eq_none_or_cycle (f.walk_stop_ne_exhausted root)).imp_right ?_
  rintro ⟨e, he⟩
  exact ⟨e, hf.fails_iff.mpr he⟩

theorem not_succeeds (hu : l.NamesUnique root) {c : TypeDecl U} (hc : c ∈ l.hierarchy root)
    (hcc : l.IsAncestor c c) : ¬ l.Succeeds root := fun h => by
  have hacc : Acc f.IsParent root :=
    acc_of_walk_stop (hu.mono hf.hierarchy_subset) (hf.succeeds_iff.mp h)
  exact Loader.acyclic_of_acc hacc c (hf.mem_hierarchy hc) (hf.isAncestor hc hcc)

end FiniteLoader.Serves

namespace Loader

variable {l : Loader U} {root : TypeDecl U}

/-- Which cycles are told, whatever the loader answers. -/
structure DetectsCycles (l : Loader U) (root : TypeDecl U) : Prop where
  /-- A cycle that is told is one of references that resolve. -/
  sound : ∀ e, l.Fails root e → l.CycleIn root e.name
  /-- Where names tell types apart and one is above itself, no extraction succeeds. It fails with
  a cycle if finitely many names can be reached. -/
  complete : l.NamesUnique root → (∃ c ∈ l.hierarchy root, l.IsAncestor c c) →
    ¬ l.Succeeds root ∧ ((l.reachableNames root).Finite → ∃ e, l.Fails root e)
  /-- Shared ancestors and references that do not resolve do no harm. -/
  spares : (∀ name, ¬ l.CycleIn root name) →
    (∀ e, ¬ l.Fails root e) ∧ ((l.reachableNames root).Finite → l.Succeeds root)
  /-- These are the answers of `extract`, with each loader that answers alike. -/
  extracts : ∀ f : FiniteLoader U, f.Serves l root → ∀ t : HandleTable U,
    (∀ e, (extract f root t).1 = .error e ↔ l.Fails root e) ∧
      ((∃ m, (extract f root t).1 = .ok m) ↔ l.Succeeds root)
  served : (l.reachableNames root).Finite → ∃ f : FiniteLoader U, f.Serves l root

/-- **Cycle detection is sound, and complete where extractions end.** -/
theorem detectsCycles (l : Loader U) (root : TypeDecl U) : l.DetectsCycles root where
  sound := by
    rintro e ⟨w, ⟨_, hruns⟩, he⟩
    exact cycleIn_of_runs hruns he
  complete := by
    rintro hu ⟨c, hc, hcc⟩
    have hsucceeds : ¬ l.Succeeds root := by
      rintro ⟨w, hw, hstop⟩
      obtain ⟨f, hf⟩ := (l.completes root (hw.finite_reachableNames hstop hu)).loader
      exact hf.not_succeeds hu hc hcc ⟨w, hw, hstop⟩
    refine ⟨hsucceeds, fun hfinite => ?_⟩
    obtain ⟨f, hf⟩ := (l.completes root hfinite).loader
    exact hf.succeeds_or_fails.resolve_left hsucceeds
  spares h := by
    have hfails : ∀ e, ¬ l.Fails root e := by
      rintro e ⟨w, ⟨_, hruns⟩, he⟩
      exact h e.name (cycleIn_of_runs hruns he)
    refine ⟨hfails, fun hfinite => ?_⟩
    obtain ⟨f, hf⟩ := (l.completes root hfinite).loader
    exact hf.succeeds_or_fails.resolve_right fun hfailed => hfailed.elim hfails
  extracts f hf t := by
    refine ⟨fun e => extract_eq_error_iff.trans hf.fails_iff.symm, ?_⟩
    rw [hf.succeeds_iff]
    constructor
    · rintro ⟨m, hm⟩
      exact (extract_eq_ok_iff.mp hm).1
    · exact fun h => ⟨_, extract_eq_ok_iff.mpr ⟨h, rfl⟩⟩
  served hfinite := (l.completes root hfinite).loader

end Loader

namespace Sample

theorem namesUnique_endless (n : String) : endless.NamesUnique (belowTop n) := by
  intro c hc d hd hname
  rcases eq_or_eq_of_mem_hierarchy hc with rfl | rfl <;>
    rcases eq_or_eq_of_mem_hierarchy hd with rfl | rfl <;> exact congrArg belowTop hname

theorem isAncestor_top (n : String) :
    ∃ c ∈ endless.hierarchy (belowTop n), endless.IsAncestor c c := by
  have hparent : ∀ m, endless.IsParent (belowTop "Top") (belowTop m) := fun m =>
    ⟨.named "Top", List.mem_singleton_self _, rfl⟩
  exact ⟨belowTop "Top", (hparent n).mem_hierarchy Loader.root_mem_hierarchy,
    .single (hparent "Top")⟩

/-- The cycle is told, though there is a type of every name. -/
theorem detectsCycles_endless : ∃ e, endless.Fails (belowTop "Bottom") e ∧
    endless.CycleIn (belowTop "Bottom") e.name := by
  have hdetects := endless.detectsCycles (belowTop "Bottom")
  obtain ⟨e, he⟩ := (hdetects.complete (namesUnique_endless _) (isAncestor_top _)).2
    (finite_names_endless _)
  exact ⟨e, he, hdetects.sound e he⟩

/-! ## A cycle that is never told -/

/-- A type that implements itself, below a type with a longer name. -/
def climber (n : String) : TypeDecl world :=
  .declare n .concrete none [] [] [] (some (.named (n ++ "+"))) [.named n]

/-- Every name is that of a climber. -/
def climbing : Loader world where
  load n := .ok (climber n)
  linked _ := climber ""

theorem supertypes_climber (n : String) :
    (climber n).supertypes = [.named (n ++ "+"), .named n] := rfl

theorem eq_climber_of_mem_hierarchy {n : String} {c : TypeDecl world}
    (hc : c ∈ climbing.hierarchy (climber n)) : c = climber c.name := by
  rcases ReflTransGen.cases_head hc with rfl | ⟨b, ⟨r, hr, hres⟩, -⟩
  · rfl
  · cases r with
    | named m =>
      cases hres
      rfl
    | linked t =>
      cases hres
      rfl

theorem namesUnique_climbing (n : String) : climbing.NamesUnique (climber n) :=
  fun c hc d hd hname => by
    rw [eq_climber_of_mem_hierarchy hc, eq_climber_of_mem_hierarchy hd, hname]

/-- The tour turns to a name that is longer than all names on its path and all that were met. -/
def Climbs (tour : Tour world) : Prop :=
  tour.walk.stop = none ∧ ∃ n ts,
    (tour.agenda = .visit (climber n) :: ts ∧
      ∀ m ∈ tour.path ++ tour.walk.names, m.length < n.length) ∨
    (tour.agenda = .supertype (climber n) (.named (n ++ "+")) :: ts ∧
      ∀ m ∈ tour.path ++ tour.walk.names, m.length ≤ n.length)

theorem Climbs.next? {tour tour' : Tour world} (h : Climbs tour)
    (hstep : next? climbing.resolve tour = some tour') : Climbs tour' := by
  obtain ⟨agenda, path, w⟩ := tour
  obtain ⟨hgoing, n, ts, ⟨rfl, hlength⟩ | ⟨rfl, hlength⟩⟩ := h
  · have hfresh : (climber n).name ∉ path ++ w.names := fun hn => Nat.lt_irrefl _ (hlength n hn)
    rw [List.mem_append, not_or] at hfresh
    rw [Tour.next?, if_neg hfresh.1, if_neg hfresh.2, supertypes_climber] at hstep
    cases hstep
    refine ⟨hgoing, n, _, .inr ⟨rfl, fun m hm => ?_⟩⟩
    rw [Walk.names_entered] at hm
    simp only [List.cons_append, List.mem_cons, List.mem_append, List.not_mem_nil, or_false] at hm
    rcases hm with rfl | hm | hm | rfl
    · exact Nat.le_refl _
    · exact (hlength m (List.mem_append_left _ hm)).le
    · exact (hlength m (List.mem_append_right _ hm)).le
    · exact Nat.le_refl _
  · cases hstep
    refine ⟨hgoing, n ++ "+", _, .inl ⟨rfl, fun m hm => ?_⟩⟩
    rw [String.length_append]
    exact Nat.lt_succ_of_le (hlength m hm)

theorem climbs_of_runs {n : String} {tour : Tour world}
    (hruns : Runs climbing.resolve (start (climber n)) tour) : Climbs tour := by
  induction hruns with
  | refl => exact ⟨rfl, n, [], .inl ⟨rfl, fun m hm => (List.not_mem_nil hm).elim⟩⟩
  | tail _ hstep ih => exact ih.next? hstep

/-- **A cycle that is never told.** The type implements itself, but the extraction climbs from
superclass to superclass before it turns to interfaces, and there is always one more. -/
theorem not_forall_detected : ¬ ∀ (l : Loader world) (root : TypeDecl world), l.NamesUnique root →
    (∃ c ∈ l.hierarchy root, l.IsAncestor c c) → ∃ e, l.Fails root e := by
  intro h
  have hself : climbing.IsParent (climber "T") (climber "T") :=
    ⟨.named "T", by simp [supertypes_climber], rfl⟩
  obtain ⟨e, w, ⟨_, hruns⟩, -⟩ := h climbing (climber "T") (namesUnique_climbing _)
    ⟨climber "T", Loader.root_mem_hierarchy, .single hself⟩
  obtain ⟨-, n, ts, ⟨hagenda, -⟩ | ⟨hagenda, -⟩⟩ := climbs_of_runs hruns
  · cases hagenda
  · cases hagenda

end Sample

end ComponentHooks
