import ComponentHooks.Proofs.Extraction.Draft
import ComponentHooks.Proofs.Hierarchy.Tour
import Mathlib.Data.Set.Card

/-!
# Extractions end

A `FiniteLoader` comes with the names that it can answer with, and they bound its walks. A `Loader`
need not have such a bound. If from a root only finitely many names can be reached, the walk ends
all the same, whatever the hierarchy looks like, and some finite loader answers all that it asks.

* `Loader.reachableNames`: the names that can be reached from a root;
* `FiniteLoader.Serves`, `Loader.within`: a finite loader answers all that an extraction asks; there
  is one;
* `Loader.Completes`: the walk ends, and what holds of its path on the way;
* **`Loader.completes`**: it does so if finitely many names can be reached.
-/

namespace ComponentHooks

open Relation Tour

variable {U : Universe}

namespace Loader

variable (s : Loader U) (root : TypeDecl U)

/-- The names that can be reached from `root`. -/
def reachableNames : Set String := TypeDecl.name '' s.hierarchy root

variable {s root}

theorem hierarchy_closed :
    ∀ c ∈ s.hierarchy root, ∀ r ∈ c.supertypes, ∀ d, s.resolve r = .ok d → d ∈ s.hierarchy root :=
  fun _ hc r hr _ hd => ReflTransGen.head ⟨r, hr, hd⟩ hc

end Loader

/-! ## Loaders that answer alike -/

/-- `l` answers all that an extraction of `root` asks as `s` does: references of the
types that can be reached, and which names do not load. -/
structure FiniteLoader.Serves (l : FiniteLoader U) (s : Loader U) (root : TypeDecl U) : Prop where
  resolve : ∀ c ∈ s.hierarchy root, ∀ r ∈ c.supertypes, s.resolve r = l.resolve r
  load_error : ∀ n e, l.load n = .error e ↔ s.load n = .error e

namespace Loader

/-- The loader that answers as `s` does if the declaration has one of the names, and with
`root` else. -/
def within (s : Loader U) (root : TypeDecl U) (names : List String)
    (hroot : root.name ∈ names) : FiniteLoader U where
  load n := (s.load n).map fun d => if d.name ∈ names then d else root
  linked t := if (s.linked t).name ∈ names then s.linked t else root
  names
  load_mem := by
    intro n c h
    cases hn : s.load n with
    | error e =>
      rw [hn] at h
      cases h
    | ok d =>
      rw [hn] at h
      cases h
      dsimp only
      split <;> assumption
  linked_mem t := by split <;> assumption

theorem serves_within {s : Loader U} {root : TypeDecl U} {names : List String}
    (hnames : ∀ c ∈ s.hierarchy root, c.name ∈ names) :
    (s.within root names (hnames root root_mem_hierarchy)).Serves s root where
  resolve c hc r hr := by
    cases r with
    | named n =>
      change s.load n = (s.load n).map _
      cases hn : s.load n with
      | error e => rfl
      | ok d => rw [Except.map, if_pos (hnames d (hierarchy_closed c hc _ hr d hn))]
    | linked t =>
      change Except.ok _ = Except.ok (if _ then _ else _)
      rw [if_pos (hnames _ (hierarchy_closed c hc _ hr _ rfl))]
  load_error n e := by
    change (s.load n).map _ = _ ↔ _
    cases s.load n <;> simp [Except.map]

end Loader

namespace FiniteLoader.Serves

variable {s : Loader U} {root : TypeDecl U} {l : FiniteLoader U}

theorem name_mem (hl : l.Serves s root) {c : TypeDecl U} (hc : c ∈ s.hierarchy root) :
    c.name ∈ root.name :: l.names := by
  rcases ReflTransGen.cases_head hc with rfl | ⟨d, ⟨r, hr, hres⟩, hd⟩
  · exact List.mem_cons_self
  · rw [hl.resolve d hd r hr] at hres
    exact List.mem_cons_of_mem _ (l.name_mem_of_resolve hres)

theorem runs (hl : l.Serves s root) {tour tour' : Tour U} (h : tour.Sound (s.hierarchy root))
    (hruns : Runs l.resolve tour tour') : Runs s.resolve tour tour' := by
  have hagree : ∀ c ∈ s.hierarchy root, ∀ r ∈ c.supertypes, l.resolve r = s.resolve r :=
    fun c hc r hr => (hl.resolve c hc r hr).symm
  refine Runs.congr (fun c hc r hr d hd => ?_) hagree h hruns
  rw [hagree c hc r hr] at hd
  exact Loader.hierarchy_closed c hc r hr d hd

/-- The recursion with the bound of the loader does what a visit says: the path is too short for the
bound to be reached. -/
theorem does (hl : l.Serves s root) {c : TypeDecl U} {ts : List (Task U)} {path : List String}
    {w : Walk U} (h : Sound (s.hierarchy root) ⟨.visit c :: ts, path, w⟩) :
    (visit l.resolve (root.name :: l.names).length path c w).stop ≠ some .exhausted ∧
      Does l.resolve [.visit c] path w
        (visit l.resolve (root.name :: l.names).length path c w) := by
  have hmem : ∀ n ∈ path, n ∈ root.name :: l.names := fun n hn => by
    obtain ⟨d, hd, rfl⟩ := h.names_mem n (h.path_subset hn)
    exact hl.name_mem hd
  have hanswers : ∀ r d, l.resolve r = .ok d → d.name ∈ root.name :: l.names := fun _ _ hd =>
    List.mem_cons_of_mem _ (l.name_mem_of_resolve hd)
  have hgoing : w.stop = none := h.going (List.cons_ne_nil _ _)
  have hstop := visit_stop_ne_exhausted (root.name :: l.names) hanswers _ path c w h.nodup_path hmem
    (hl.name_mem (h.tasks _ List.mem_cons_self)) (Nat.le_add_left _ _) (by simp [hgoing])
  exact ⟨hstop, (does_rule l).visit _ path c w hgoing hstop⟩

theorem exists_runs_walk (hl : l.Serves s root) :
    ∃ p, Runs s.resolve (start root) ⟨[], p, l.walk root⟩ ∧
      ((l.walk root).stop = none → p = []) := by
  have hsound : (start root).Sound (s.hierarchy root) := .start Loader.root_mem_hierarchy
  obtain ⟨p, hp, hruns⟩ := (hl.does hsound).2
  have hwalk := hruns []
  rw [ite_self] at hwalk
  exact ⟨p, hl.runs hsound hwalk, hp⟩

end FiniteLoader.Serves

/-! ## The walk that ends -/

/-- The extraction of `root` ends. The machine comes to a halt, and its walk is the one from which
any loader that answers alike has metadata or a cycle. All along, the path is a list of different
names that were met, and is no longer than there are names that can be reached; no name is met
twice; and a visit that succeeds leaves the path as it was. -/
structure Loader.Completes (s : Loader U) (root : TypeDecl U) : Prop where
  loader : ∃ l : FiniteLoader U, l.Serves s root
  returns : ∃ tour, Runs s.resolve (start root) tour ∧ next? s.resolve tour = none ∧
    ∀ l : FiniteLoader U, l.Serves s root → l.walk root = tour.walk ∧ ∀ t : HandleTable U,
      tour.walk.stop = none ∧ tour.path = [] ∧ (∃ m, (extract l root t).1 = .ok m) ∨
        ∃ e, tour.walk.stop = some (.cycle e) ∧ (extract l root t).1 = .error e
  throughout : ∀ tour, Runs s.resolve (start root) tour →
    tour.path.Nodup ∧ tour.path ⊆ tour.walk.names ∧ tour.walk.names.Nodup ∧
      tour.path.length ≤ (s.reachableNames root).ncard
  restores : ∀ c ts path w, Runs s.resolve (start root) ⟨.visit c :: ts, path, w⟩ →
    ∃ p w', Runs s.resolve ⟨[.visit c], path, w⟩ ⟨[], p, w'⟩ ∧
      (w'.stop = none ∧ p = path ∧ Runs s.resolve ⟨.visit c :: ts, path, w⟩ ⟨ts, p, w'⟩ ∨
        (∃ e, w'.stop = some (.cycle e)) ∧ Runs s.resolve ⟨.visit c :: ts, path, w⟩ ⟨[], p, w'⟩)

theorem Tour.Sound.length_path_le {s : Loader U} {root : TypeDecl U} {tour : Tour U}
    (hfinite : (s.reachableNames root).Finite) (h : tour.Sound (s.hierarchy root)) :
    tour.path.length ≤ (s.reachableNames root).ncard := by
  rw [← List.toFinset_card_of_nodup h.nodup_path, ← Set.ncard_coe_finset]
  refine Set.ncard_le_ncard (fun n hn => ?_) hfinite
  exact h.names_mem n (h.path_subset (List.mem_toFinset.mp hn))

theorem Walk.stop_eq_none_or_cycle {w : Walk U} (h : w.stop ≠ some .exhausted) :
    w.stop = none ∨ ∃ e, w.stop = some (.cycle e) := by
  rcases hstop : w.stop with _ | e | _
  · exact .inl rfl
  · exact .inr ⟨e, rfl⟩
  · exact absurd hstop h

theorem FiniteLoader.Serves.restores {s : Loader U} {root : TypeDecl U} {l : FiniteLoader U}
    (hl : l.Serves s root) {c : TypeDecl U} {ts : List (Task U)} {path : List String} {w : Walk U}
    (h : Sound (s.hierarchy root) ⟨.visit c :: ts, path, w⟩) :
    ∃ p w', Runs s.resolve ⟨[.visit c], path, w⟩ ⟨[], p, w'⟩ ∧
      (w'.stop = none ∧ p = path ∧ Runs s.resolve ⟨.visit c :: ts, path, w⟩ ⟨ts, p, w'⟩ ∨
        (∃ e, w'.stop = some (.cycle e)) ∧
          Runs s.resolve ⟨.visit c :: ts, path, w⟩ ⟨[], p, w'⟩) := by
  have halone : Sound (s.hierarchy root) ⟨[.visit c], path, w⟩ :=
    { h with
      tasks := by
        rw [List.forall_mem_singleton]
        exact h.tasks _ List.mem_cons_self
      going := fun _ => h.going (List.cons_ne_nil _ _) }
  obtain ⟨hstop, hdoes⟩ := hl.does h
  generalize visit l.resolve (root.name :: l.names).length path c w = w' at hstop hdoes
  obtain ⟨p, hp, hruns⟩ := hdoes
  have hfirst := hl.runs halone (hruns [])
  have hall := hl.runs h (hruns ts)
  rw [ite_self] at hfirst
  refine ⟨p, w', hfirst, ?_⟩
  rcases Walk.stop_eq_none_or_cycle hstop with hnone | ⟨e, he⟩
  · rw [if_pos hnone] at hall
    exact .inl ⟨hnone, hp hnone, hall⟩
  · rw [if_neg (by simp [he])] at hall
    exact .inr ⟨⟨e, he⟩, hall⟩

/-- **Extractions end** if no more than finitely many names can be reached, whatever cycles, forks
or different declarations of a name there are. -/
theorem Loader.completes (s : Loader U) (root : TypeDecl U)
    (hfinite : (s.reachableNames root).Finite) : s.Completes root := by
  have hnames : ∀ c ∈ s.hierarchy root, c.name ∈ hfinite.toFinset.toList := fun c hc => by
    rw [Finset.mem_toList, Set.Finite.mem_toFinset]
    exact Set.mem_image_of_mem _ hc
  obtain ⟨l₀, hl₀⟩ : ∃ l : FiniteLoader U, l.Serves s root := ⟨_, serves_within hnames⟩
  have hsound : ∀ tour, Runs s.resolve (start root) tour → tour.Sound (s.hierarchy root) :=
    fun _ hruns => (Sound.start root_mem_hierarchy).runs hierarchy_closed hruns
  refine ⟨⟨l₀, hl₀⟩, ?_, fun tour hruns => ?_, fun c ts path w hruns => ?_⟩
  · obtain ⟨p, hruns, hp⟩ := hl₀.exists_runs_walk
    refine ⟨_, hruns, rfl, fun l hl => ?_⟩
    -- A run ends in one way, so every loader that answers alike has the same walk.
    obtain ⟨q, hruns', -⟩ := hl.exists_runs_walk
    have hwalk : l.walk root = l₀.walk root :=
      congrArg Tour.walk (hruns'.unique hruns rfl rfl)
    refine ⟨hwalk, fun t => ?_⟩
    dsimp only
    rw [← hwalk] at hp ⊢
    rcases Walk.stop_eq_none_or_cycle (l.walk_stop_ne_exhausted root) with hstop | ⟨e, hstop⟩
    · exact .inl ⟨hstop, hp hstop, _, extract_eq_ok_iff.mpr ⟨hstop, rfl⟩⟩
    · exact .inr ⟨e, hstop, extract_eq_error_iff.mpr hstop⟩
  · have h := hsound tour hruns
    exact ⟨h.nodup_path, h.path_subset, h.nodup_names, h.length_path_le hfinite⟩
  · exact hl₀.restores (hsound _ hruns)

namespace Sample

/-- A type below the one called `Top`. -/
def belowTop (n : String) : TypeDecl world :=
  .declare n .concrete none [] [] [] (some (.named "Top"))

/-- Every name is that of a type below `Top`, also `Top` itself. -/
def endless : Loader world where
  load n := .ok (belowTop n)
  linked _ := belowTop "Top"

theorem eq_or_eq_of_mem_hierarchy {n : String} {c : TypeDecl world}
    (hc : c ∈ endless.hierarchy (belowTop n)) : c = belowTop n ∨ c = belowTop "Top" := by
  induction hc using ReflTransGen.head_induction_on with
  | refl => exact .inl rfl
  | head hparent _ ih =>
    obtain ⟨r, hr, hres⟩ := hparent
    have hsupertypes : r ∈ [TypeRef.named "Top"] := by rcases ih with rfl | rfl <;> exact hr
    rw [List.mem_singleton.mp hsupertypes] at hres
    exact .inr (Except.ok.inj hres).symm

theorem finite_names_endless (n : String) : (endless.reachableNames (belowTop n)).Finite := by
  refine Set.Finite.subset (Set.toFinite {n, "Top"}) ?_
  rintro _ ⟨c, hc, rfl⟩
  rcases eq_or_eq_of_mem_hierarchy hc with rfl | rfl
  · exact .inl rfl
  · exact .inr rfl

/-- Infinitely many names have answers, and one of two reachable types is its own superclass. -/
theorem completes_endless :
    (∀ n, ∃ d, endless.load n = .ok d ∧ d.name = n) ∧
      (endless.reachableNames (belowTop "Bottom")).Finite ∧ endless.Completes (belowTop "Bottom") :=
  ⟨fun n => ⟨belowTop n, rfl, rfl⟩, finite_names_endless "Bottom",
    endless.completes (belowTop "Bottom") (finite_names_endless "Bottom")⟩

end Sample

end ComponentHooks
