import ComponentHooks.Proofs.Hierarchy.Tour

/-!
# Cycles

A walk keeps the names on its path, and passes over names that it has met before. It tells a cycle
only if there is one (`Loader.cycleIn_of_runs`), whatever its loader answers. Where names tell types
apart and a walk comes to its end, it tells every cycle: a type that it is done with has no infinite
ascent above it (`acc_of_walk_stop`), for all its parents were done with before.

* `Loader.CycleIn`: the hierarchy leads from a type of a name back to a type of that name;
* `Tour.Ascends`, **`Tour.TellsTruth.next?`**: the path leads up to what is on the agenda;
* `Walk.Settled`, **`walk_stop_of_acyclic`**: a walk without a cycle comes to its end.
-/

namespace ComponentHooks

open Relation Tour

variable {U : Universe} {l : Loader U} {root : TypeDecl U}

variable (l root) in
/-- One or more resolved references lead from a type of the hierarchy to one of the same name. -/
def Loader.CycleIn (name : String) : Prop :=
  ∃ c ∈ l.hierarchy root, ∃ d, l.IsAncestor d c ∧ c.name = name ∧ d.name = name

theorem Loader.CycleIn.isAncestor_self {name : String} (h : l.CycleIn root name)
    (hu : l.NamesUnique root) : ∃ c ∈ l.hierarchy root, l.IsAncestor c c := by
  obtain ⟨c, hc, d, hd, hname, hname'⟩ := h
  obtain rfl := hu hc (hd.mem_hierarchy hc) (hname.trans hname'.symm)
  exact ⟨c, hc, hd⟩

/-! ## A cycle that is told is there -/

namespace Tour

variable (l root) in
/-- The names on the path are those of types from which the first task was reached; below the end of
a visit, one name less. -/
def Ascends : List (Task U) → List String → Prop
  | [], _ => True
  | .visit c :: ts, path =>
    c ∈ l.hierarchy root ∧ (∀ n ∈ path, ∃ p ∈ l.hierarchy root, p.name = n ∧ l.IsAncestor c p) ∧
      Ascends ts path
  | .supertype c r :: ts, path =>
    (c ∈ l.hierarchy root ∧ r ∈ c.supertypes) ∧
      (∀ n ∈ path, ∃ p ∈ l.hierarchy root, p.name = n ∧ ReflTransGen l.IsParent c p) ∧
        Ascends ts path
  | .leave :: ts, path => Ascends ts path.tail

theorem Ascends.supertypes {c : TypeDecl U} (hc : c ∈ l.hierarchy root) {path : List String}
    (hpath : ∀ n ∈ path, ∃ p ∈ l.hierarchy root, p.name = n ∧ l.IsAncestor c p)
    {ts : List (Task U)} (h : Ascends l root ts path) {rs : List (TypeRef U)}
    (hrs : rs ⊆ c.supertypes) :
    Ascends l root (rs.map (.supertype c) ++ .leave :: ts) (c.name :: path) := by
  have hnames : ∀ n ∈ c.name :: path, ∃ p ∈ l.hierarchy root, p.name = n ∧
      ReflTransGen l.IsParent c p := by
    rw [List.forall_mem_cons]
    refine ⟨⟨c, hc, rfl, .refl⟩, fun n hn => ?_⟩
    obtain ⟨p, hp, hname, hanc⟩ := hpath n hn
    exact ⟨p, hp, hname, hanc.to_reflTransGen⟩
  induction rs with
  | nil => exact h
  | cons r rs ih =>
    obtain ⟨hr, hrs⟩ := List.cons_subset.mp hrs
    exact ⟨⟨hc, hr⟩, hnames, ih hrs⟩

variable (l root) in
/-- The path leads up to what is to be done, and if the tour has ended on a cycle, it is one of the
hierarchy. -/
structure TellsTruth (tour : Tour U) : Prop where
  ascends : Ascends l root tour.agenda tour.path
  cycle : ∀ e : Cycle, tour.walk.stop = some (.cycle e) → l.CycleIn root e.name

/-- **A name that comes up again on its path is that of a cycle.** -/
theorem TellsTruth.next? {tour tour' : Tour U} (h : tour.TellsTruth l root)
    (hstep : next? l.resolve tour = some tour') : tour'.TellsTruth l root := by
  cases step_of_next? hstep with
  | cycle hmem =>
    obtain ⟨hc, hpath, -⟩ := h.ascends
    refine ⟨trivial, fun e he => ?_⟩
    obtain ⟨p, hp, hname, hanc⟩ := hpath _ hmem
    cases he
    exact ⟨p, hp, _, hanc, hname, rfl⟩
  | seen hnames => exact ⟨h.ascends.2.2, h.cycle⟩
  | enter hmem hnames =>
    obtain ⟨hc, hpath, hts⟩ := h.ascends
    exact ⟨.supertypes hc hpath hts (List.Subset.refl _), h.cycle⟩
  | @found c r d ts path w hres =>
    obtain ⟨⟨hc, hr⟩, hpath, hts⟩ := h.ascends
    have hd : l.IsParent d c := ⟨r, hr, hres⟩
    refine ⟨⟨hd.mem_hierarchy hc, fun n hn => ?_, hts⟩, h.cycle⟩
    obtain ⟨p, hp, hname, hanc⟩ := hpath n hn
    exact ⟨p, hp, hname, TransGen.head' hd hanc⟩
  | skip hres => exact ⟨h.ascends.2.2, h.cycle⟩
  | leave => exact ⟨h.ascends, h.cycle⟩

theorem tellsTruth_of_runs {tour : Tour U} (hruns : Runs l.resolve (start root) tour) :
    tour.TellsTruth l root := by
  induction hruns with
  | refl => exact ⟨⟨Loader.root_mem_hierarchy, nofun, trivial⟩, nofun⟩
  | tail _ hstep ih => exact ih.next? hstep

end Tour

/-- **A cycle that is told is there**, however far the hierarchy reaches. -/
theorem Loader.cycleIn_of_runs {tour : Tour U} (hruns : Runs l.resolve (start root) tour)
    {e : Cycle} (he : tour.walk.stop = some (.cycle e)) : l.CycleIn root e.name :=
  (tellsTruth_of_runs hruns).cycle e he

/-! ## A cycle that is there is told -/

variable (l root) in
/-- The types met so far belong to the hierarchy, and those that the walk is done with have no
infinite ascent above them. -/
def Walk.Settled (path : List String) (w : Walk U) : Prop :=
  ∀ d ∈ w.types, d ∈ l.hierarchy root ∧ (d.name ∉ path → Acc l.IsParent d)

theorem Walk.Settled.mem_types {path : List String} {w : Walk U} (hw : w.Settled l root path)
    (hu : l.NamesUnique root) {c : TypeDecl U} (hc : c ∈ l.hierarchy root) (hn : c.name ∈ w.names) :
    c ∈ w.types := by
  rw [w.names_eq, List.mem_map] at hn
  obtain ⟨d, hd, hname⟩ := hn
  rwa [← hu (hw d hd).1 hc hname]

theorem Walk.Settled.record {path : List String} {w : Walk U} (hw : w.Settled l root path)
    {c : TypeDecl U} (hc : c ∈ l.hierarchy root) :
    (w.record (.entered c)).Settled l root (c.name :: path) := by
  intro d hd
  rw [Walk.types_entered, List.mem_append, List.mem_singleton] at hd
  rcases hd with hd | rfl
  · exact ⟨(hw d hd).1, fun hn => (hw d hd).2 (List.not_mem_of_not_mem_cons hn)⟩
  · exact ⟨hc, fun hn => absurd List.mem_cons_self hn⟩

theorem Walk.Settled.leave {path : List String} {w : Walk U} {c : TypeDecl U}
    (hw : w.Settled l root (c.name :: path)) (hu : l.NamesUnique root) (hc : c ∈ l.hierarchy root)
    (hparents : ∀ d, l.IsParent d c → d.name ∉ c.name :: path ∧ d ∈ w.types) :
    w.Settled l root path := by
  have hacc : Acc l.IsParent c := Acc.intro c fun d hd =>
    (hw d (hparents d hd).2).2 (hparents d hd).1
  intro d hd
  refine ⟨(hw d hd).1, fun hn => ?_⟩
  by_cases hname : d.name = c.name
  · rwa [hu (hw d hd).1 hc hname]
  · exact (hw d hd).2 fun h => (List.mem_cons.mp h).elim hname hn

theorem settled_rule (hu : l.NamesUnique root) : CleanRule l
    (fun path c w w' => c ∈ l.hierarchy root → w.Settled l root path →
      w'.Settled l root path ∧ w.types ⊆ w'.types ∧ c.name ∉ path ∧ c ∈ w'.types)
    fun path c rs w w' => c ∈ l.hierarchy root → rs ⊆ c.supertypes → w.Settled l root path →
      w'.Settled l root path ∧ w.types ⊆ w'.types ∧
        ∀ r ∈ rs, ∀ d, l.resolve r = .ok d → d.name ∉ path ∧ d ∈ w'.types where
  seen hp hn hc hw := ⟨hw, List.Subset.refl _, hp, hw.mem_types hu hc hn⟩
  enter := by
    intro path c w w' hp _ hq hc hw
    obtain ⟨hw', hsub, hparents⟩ := hq hc (List.Subset.refl _) (hw.record hc)
    rw [Walk.types_entered] at hsub
    refine ⟨hw'.leave hu hc ?_, fun d hd => hsub (List.mem_append_left _ hd), hp, hsub (by simp)⟩
    rintro d ⟨r, hr, hd⟩
    exact hparents r hr d hd
  done _ _ hw := ⟨hw, List.Subset.refl _, by simp⟩
  skip := by
    intro path c r rs w w' e hr hq hc hrs hw
    obtain ⟨hw', hsub, hparents⟩ := hq hc (List.subset_of_cons_subset hrs)
      (by simpa [Walk.Settled] using hw)
    rw [Walk.types_skipped] at hsub
    refine ⟨hw', hsub, fun s hs d hd => ?_⟩
    rcases List.mem_cons.mp hs with rfl | hs
    · rw [hr] at hd
      cases hd
    · exact hparents s hs d hd
  go := by
    intro path c r rs d w w' w'' hr hp hq hc hrs hw
    have hd : l.IsParent d c := ⟨r, hrs List.mem_cons_self, hr⟩
    -- The parent is done with, and stays so while the walk goes on to the others.
    obtain ⟨hw', hsub, hfresh, hmem⟩ := hp (hd.mem_hierarchy hc) hw
    obtain ⟨hw'', hsub', hparents⟩ := hq hc (List.subset_of_cons_subset hrs) hw'
    refine ⟨hw'', List.Subset.trans hsub hsub', fun s hs b hb => ?_⟩
    rcases List.mem_cons.mp hs with rfl | hs
    · rw [hr] at hb
      cases hb
      exact ⟨hfresh, hsub' hmem⟩
    · exact hparents s hs b hb

variable {l : FiniteLoader U}

theorem acc_of_walk_stop (hu : l.NamesUnique root) (h : (l.walk root).stop = none) :
    Acc l.IsParent root := by
  obtain ⟨hw, -, hn, hmem⟩ := (settled_rule hu).walk h Loader.root_mem_hierarchy
    fun d hd => by cases hd
  exact (hw root hmem).2 hn

theorem Sample.Diamond.acyclic : loader.Acyclic bottom :=
  Loader.acyclic_of_acc (acc_of_walk_stop namesUnique (by decide))

theorem walk_stop_of_acyclic (hu : l.NamesUnique root) (ha : l.Acyclic root) :
    (l.walk root).stop = none := by
  cases h : (l.walk root).stop with
  | none => rfl
  | some s =>
    cases s with
    | cycle e =>
      obtain ⟨p, -, hruns⟩ := l.does_walk root
      obtain ⟨c, hc, hcc⟩ := (Loader.cycleIn_of_runs (hruns []) h).isAncestor_self hu
      exact absurd hcc (ha c hc)
    | exhausted => exact absurd h (l.walk_stop_ne_exhausted root)

end ComponentHooks
