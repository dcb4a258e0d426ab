import ComponentHooks.Proofs.Hierarchy.Walk

/-!
# A walk, step by step

A tour is a walk as a machine. What is left to do waits on an agenda, and there is one path, to
which a name is added when a type is entered and from which it is taken when its supertypes are
done. The machine knows no bound: that its runs end is to be shown.

* `Task`, `Tour`, `Tour.next?`, `Tour.Runs`: the machine, its step and its runs;
* `Tour.Step`, **`Tour.step_of_next?`**: the six things that a step can do;
* `Tour.Sound`, **`Tour.Sound.runs`**: what a step keeps, and so what holds throughout a run;
* `Tour.Runs.congr`: a run depends on no references but those it meets;
* `Tour.Does`, **`Tour.does_rule`**: tasks as a part of a run, and that the recursion over
  supertypes does them.
-/

namespace ComponentHooks

open Relation

variable {U : Universe}

/-! ## The machine -/

variable (U) in
/-- What is left to do on a walk. -/
inductive Task where
  /-- Turn to a type. -/
  | visit (c : TypeDecl U)
  /-- Go on from a type to one of its supertypes. -/
  | supertype (c : TypeDecl U) (r : TypeRef U)
  /-- Take the last name from the path. -/
  | leave

/-- The task is one on the types of `S`. -/
def Task.In (S : Set (TypeDecl U)) : Task U → Prop
  | visit c => c ∈ S
  | supertype c r => c ∈ S ∧ r ∈ c.supertypes
  | leave => True

variable (U) in
/-- A walk on its way: what is left to do, the names that are being walked, last one first, and what
was met so far. -/
structure Tour where
  agenda : List (Task U)
  path : List String := []
  walk : Walk U := {}

namespace Tour

/-- The beginning of the walk from `root`. -/
def start (root : TypeDecl U) : Tour U := { agenda := [.visit root] }

section Machine

variable (resolve : TypeRef U → Except LoadError (TypeDecl U))

/-- One step. A cycle ends the walk: nothing is left to do, and the path stays as it is. -/
def next? : Tour U → Option (Tour U)
  | ⟨[], _, _⟩ => none
  | ⟨.visit c :: ts, path, w⟩ =>
    if c.name ∈ path then some ⟨[], path, w.halt (.cycle ⟨c.name⟩)⟩
    else if c.name ∈ w.names then some ⟨ts, path, w⟩
    else some ⟨c.supertypes.map (.supertype c) ++ .leave :: ts, c.name :: path,
      w.record (.entered c)⟩
  | ⟨.supertype c r :: ts, path, w⟩ =>
    match resolve r with
    | .ok d => some ⟨.visit d :: ts, path, w⟩
    | .error e => some ⟨ts, path, w.record (.skipped c r e)⟩
  | ⟨.leave :: ts, path, w⟩ => some ⟨ts, path.tail, w⟩

/-- What a step can do. -/
inductive Step : Tour U → Tour U → Prop where
  /-- End the walk at a name that comes up again on its path. -/
  | cycle {c ts path w} (hpath : c.name ∈ path) :
    Step ⟨.visit c :: ts, path, w⟩ ⟨[], path, w.halt (.cycle ⟨c.name⟩)⟩
  /-- Pass over a name that was met before. -/
  | seen {c ts path w} (hnames : c.name ∈ w.names) : Step ⟨.visit c :: ts, path, w⟩ ⟨ts, path, w⟩
  | enter {c ts path w} (hpath : c.name ∉ path) (hnames : c.name ∉ w.names) :
    Step ⟨.visit c :: ts, path, w⟩ ⟨c.supertypes.map (.supertype c) ++ .leave :: ts, c.name :: path,
      w.record (.entered c)⟩
  | found {c r d ts path w} (hres : resolve r = .ok d) :
    Step ⟨.supertype c r :: ts, path, w⟩ ⟨.visit d :: ts, path, w⟩
  | skip {c r e ts path w} (hres : resolve r = .error e) :
    Step ⟨.supertype c r :: ts, path, w⟩ ⟨ts, path, w.record (.skipped c r e)⟩
  | leave {ts path w} : Step ⟨.leave :: ts, path, w⟩ ⟨ts, path.tail, w⟩

/-- Any number of steps. -/
def Runs : Tour U → Tour U → Prop := ReflTransGen fun tour tour' => next? resolve tour = some tour'

end Machine

variable {resolve resolve' : TypeRef U → Except LoadError (TypeDecl U)} {tour tour' : Tour U}

/-- **A step does one of six things.** -/
theorem step_of_next? (h : next? resolve tour = some tour') : Step resolve tour tour' := by
  obtain ⟨_ | ⟨_ | ⟨c, r⟩ | _, ts⟩, path, w⟩ := tour
  · cases h
  · rw [next?] at h
    split_ifs at h with hpath hnames <;> cases h
    · exact .cycle hpath
    · exact .seen hnames
    · exact .enter hpath hnames
  · rw [next?] at h
    split at h <;> rename_i hres <;> cases h
    · exact .found hres
    · exact .skip hres
  · cases h
    exact .leave

theorem Runs.unique {a b : Tour U} (ha : Runs resolve tour a) (hb : Runs resolve tour b)
    (hadone : next? resolve a = none) (hbdone : next? resolve b = none) : a = b := by
  have hstay : ∀ {x y : Tour U}, next? resolve x = none → Runs resolve x y → x = y := by
    intro x y hx hxy
    rcases hxy.cases_head with rfl | ⟨z, hz, -⟩
    · rfl
    · rw [hx] at hz
      cases hz
  have hone : Relator.RightUnique fun tour tour' : Tour U => next? resolve tour = some tour' :=
    fun _ _ _ hy hz => Option.some.inj (hy.symm.trans hz)
  rcases ReflTransGen.total_of_right_unique hone ha hb with h | h
  · exact hstay hadone h
  · exact (hstay hbdone h).symm

/-! ## What holds throughout -/

/-- All tasks are on types of `S`, and no others were met; the path is a list of different names
that were met, and no name was met twice; and while there is something to do, the walk has not
ended. -/
structure Sound (S : Set (TypeDecl U)) (tour : Tour U) : Prop where
  tasks : ∀ task ∈ tour.agenda, task.In S
  nodup_path : tour.path.Nodup
  path_subset : tour.path ⊆ tour.walk.names
  nodup_names : tour.walk.names.Nodup
  types_mem : ∀ c ∈ tour.walk.types, c ∈ S
  going : tour.agenda ≠ [] → tour.walk.stop = none

namespace Sound

variable {S : Set (TypeDecl U)}

theorem start {root : TypeDecl U} (hroot : root ∈ S) : (start root).Sound S where
  tasks task htask := by
    rw [List.mem_singleton.mp htask]
    exact hroot
  nodup_path := List.nodup_nil
  path_subset := List.nil_subset _
  nodup_names := List.nodup_nil
  types_mem _ hc := (List.not_mem_nil hc).elim
  going _ := rfl

theorem names_mem (h : tour.Sound S) : ∀ n ∈ tour.walk.names, n ∈ TypeDecl.name '' S := by
  intro n hn
  rw [Walk.names_eq, List.mem_map] at hn
  obtain ⟨c, hc, rfl⟩ := hn
  exact Set.mem_image_of_mem _ (h.types_mem c hc)

theorem tasks_tail {task : Task U} {ts : List (Task U)} {path : List String} {w : Walk U}
    (h : Sound S ⟨task :: ts, path, w⟩) : ∀ task ∈ ts, task.In S := fun x hx =>
  h.tasks x (List.mem_cons_of_mem _ hx)

theorem enter {c : TypeDecl U} {ts : List (Task U)} {path : List String} {w : Walk U}
    (h : Sound S ⟨.visit c :: ts, path, w⟩) (hpath : c.name ∉ path) (hnames : c.name ∉ w.names) :
    Sound S ⟨c.supertypes.map (.supertype c) ++ .leave :: ts, c.name :: path,
      w.record (.entered c)⟩ := by
  have hc : c ∈ S := h.tasks _ List.mem_cons_self
  refine ⟨fun task htask => ?_, List.nodup_cons.mpr ⟨hpath, h.nodup_path⟩, ?_, ?_, fun b hb => ?_,
    fun _ => h.going (List.cons_ne_nil _ _)⟩
  · rcases List.mem_append.mp htask with htask | htask
    · obtain ⟨r, hr, rfl⟩ := List.mem_map.mp htask
      exact ⟨hc, hr⟩
    · rcases List.mem_cons.mp htask with rfl | htask
      · trivial
      · exact h.tasks task (List.mem_cons_of_mem _ htask)
  · rw [Walk.names_entered, List.cons_subset]
    exact ⟨List.mem_append_right _ (List.mem_singleton_self _),
      fun n hn => List.mem_append_left _ (h.path_subset hn)⟩
  · rw [Walk.names_entered, ← List.concat_eq_append, List.nodup_concat]
    exact ⟨hnames, h.nodup_names⟩
  · rw [Walk.types_entered, List.mem_append, List.mem_singleton] at hb
    rcases hb with hb | rfl
    · exact h.types_mem b hb
    · exact hc

end Sound

section Closed

variable {S : Set (TypeDecl U)}
  (hclosed : ∀ c ∈ S, ∀ r ∈ c.supertypes, ∀ d, resolve r = .ok d → d ∈ S)

include hclosed

/-- **A step keeps a tour sound.** -/
theorem Sound.next? (h : tour.Sound S) (hstep : next? resolve tour = some tour') :
    tour'.Sound S := by
  cases step_of_next? hstep with
  | cycle hpath =>
    exact ⟨fun _ ht => (List.not_mem_nil ht).elim, h.nodup_path, h.path_subset, h.nodup_names,
      h.types_mem, fun hne => absurd rfl hne⟩
  | seen hnames =>
    exact ⟨h.tasks_tail, h.nodup_path, h.path_subset, h.nodup_names, h.types_mem,
      fun _ => h.going (List.cons_ne_nil _ _)⟩
  | enter hpath hnames => exact h.enter hpath hnames
  | @found c r d ts path w hres =>
    obtain ⟨hc, hr⟩ := h.tasks _ List.mem_cons_self
    refine ⟨?_, h.nodup_path, h.path_subset, h.nodup_names, h.types_mem,
      fun _ => h.going (List.cons_ne_nil _ _)⟩
    rw [List.forall_mem_cons]
    exact ⟨hclosed c hc r hr d hres, h.tasks_tail⟩
  | @skip c r e ts path w hres =>
    have hnames := w.names_skipped c r e
    exact ⟨h.tasks_tail, h.nodup_path, hnames ▸ h.path_subset, hnames ▸ h.nodup_names,
      w.types_skipped c r e ▸ h.types_mem, fun _ => h.going (List.cons_ne_nil _ _)⟩
  | @leave ts path w =>
    exact ⟨h.tasks_tail, h.nodup_path.sublist (List.tail_sublist path),
      fun n hn => h.path_subset (List.mem_of_mem_tail hn), h.nodup_names, h.types_mem,
      fun _ => h.going (List.cons_ne_nil _ _)⟩

/-- **What holds throughout a run.** -/
theorem Sound.runs (h : tour.Sound S) (hruns : Runs resolve tour tour') : tour'.Sound S := by
  induction hruns with
  | refl => exact h
  | tail _ hstep ih => exact ih.next? hclosed hstep

/-- **A run depends on no references but those it meets.** -/
theorem Runs.congr (hagree : ∀ c ∈ S, ∀ r ∈ c.supertypes, resolve r = resolve' r)
    (h : tour.Sound S) (hruns : Runs resolve tour tour') : Runs resolve' tour tour' := by
  induction hruns with
  | refl => exact .refl
  | @tail a b hrun hstep ih =>
    refine ih.tail ?_
    rw [← hstep]
    obtain ⟨_ | ⟨_ | ⟨c, r⟩ | _, ts⟩, path, w⟩ := a
    · rfl
    · rfl
    · obtain ⟨hc, hr⟩ := (h.runs hclosed hrun).tasks _ List.mem_cons_self
      rw [Tour.next?, Tour.next?, hagree c hc r hr]
    · rfl

end Closed

/-! ## Visits as parts of a run -/

/-- Whatever is left to do behind `rest`, a run does what `rest` says until it is done or the walk
ends, and makes `w'` of `w`. If the walk has not ended, the path is what it was. -/
def Does (resolve : TypeRef U → Except LoadError (TypeDecl U)) (rest : List (Task U))
    (path : List String) (w w' : Walk U) : Prop :=
  ∃ p, (w'.stop = none → p = path) ∧
    ∀ ts, Runs resolve ⟨rest ++ ts, path, w⟩ ⟨if w'.stop = none then ts else [], p, w'⟩

namespace Does

variable {rest more : List (Task U)} {path : List String} {v w w' : Walk U}

theorem nil (hw : w.stop = none) : Does resolve [] path w w :=
  ⟨path, fun _ => rfl, fun ts => by
    rw [if_pos hw]
    exact .refl⟩

theorem head (hstep : ∀ ts, next? resolve ⟨rest ++ ts, path, w⟩ = some ⟨more ++ ts, path, v⟩)
    (h : Does resolve more path v w') : Does resolve rest path w w' := by
  obtain ⟨p, hp, hruns⟩ := h
  exact ⟨p, hp, fun ts => (hruns ts).head (hstep ts)⟩

theorem append (h : Does resolve rest path w v) (hv : v.stop = none)
    (h' : Does resolve more path v w') : Does resolve (rest ++ more) path w w' := by
  obtain ⟨p, hp, hruns⟩ := h
  obtain ⟨p', hp', hruns'⟩ := h'
  obtain rfl := hp hv
  refine ⟨p', hp', fun ts => ?_⟩
  have hrest := hruns (more ++ ts)
  rw [if_pos hv] at hrest
  rw [List.append_assoc]
  exact hrest.trans (hruns' ts)

theorem append_of_stop (h : Does resolve rest path w v) (hv : v.stop ≠ none) :
    Does resolve (rest ++ more) path w v := by
  obtain ⟨p, hp, hruns⟩ := h
  refine ⟨p, hp, fun ts => ?_⟩
  have hrest := hruns (more ++ ts)
  rw [if_neg hv] at hrest ⊢
  rwa [List.append_assoc]

theorem enter {c : TypeDecl U} (hpath : c.name ∉ path) (hnames : c.name ∉ w.names)
    (h : Does resolve (c.supertypes.map (.supertype c)) (c.name :: path) (w.record (.entered c))
      w') :
    Does resolve [.visit c] path w w' := by
  obtain ⟨p, hp, hruns⟩ := h
  have henter : ∀ ts, next? resolve ⟨[.visit c] ++ ts, path, w⟩ =
      some ⟨c.supertypes.map (.supertype c) ++ .leave :: ts, c.name :: path,
        w.record (.entered c)⟩ := fun ts => by
    rw [List.singleton_append, next?, if_neg hpath, if_neg hnames]
  by_cases hw' : w'.stop = none
  · refine ⟨path, fun _ => rfl, fun ts => ?_⟩
    have hsupertypes := hruns (.leave :: ts)
    rw [if_pos hw', hp hw'] at hsupertypes
    rw [if_pos hw']
    exact (hsupertypes.tail rfl).head (henter ts)
  · refine ⟨p, fun h => absurd h hw', fun ts => ?_⟩
    have hsupertypes := hruns (.leave :: ts)
    rw [if_neg hw'] at hsupertypes
    rw [if_neg hw']
    exact hsupertypes.head (henter ts)

end Does

theorem does_rule (l : Loader U) : WalkRule l
    (fun path c w w' => w.stop = none → w'.stop ≠ some .exhausted →
      Does l.resolve [.visit c] path w w')
    fun path c rs w w' => (w.stop ≠ none → w' = w) ∧ (w.stop = none → w'.stop ≠ some .exhausted →
      Does l.resolve (rs.map (.supertype c)) path w w') where
  cycle {path c w} hp _ _ := by
    refine ⟨path, fun _ => rfl, fun ts => ReflTransGen.single ?_⟩
    rw [List.singleton_append, next?, if_pos hp, if_neg (by simp)]
  seen {path c w} hp hn hw _ := by
    refine .head (fun ts => ?_) (.nil hw)
    rw [List.singleton_append, next?, if_neg hp, if_pos hn, List.nil_append]
  exhausted _ h := absurd (Walk.stop_halt _ _) h
  enter hp hn hq hw hstop := .enter hp hn (hq.2 hw hstop)
  done := ⟨fun _ => rfl, fun hw _ => .nil hw⟩
  stopped hw := ⟨fun _ => rfl, fun h => absurd h hw⟩
  skip {path c r rs w w' e} hw hr hq := by
    refine ⟨fun h => absurd hw h, fun _ hstop => .head (fun ts => ?_) (hq.2 hw hstop)⟩
    rw [List.map_cons, List.cons_append, next?, hr]
  go {path c r rs d w w' w''} hw hr hp hq := by
    refine ⟨fun h => absurd hw h, fun _ hstop => ?_⟩
    have hdoes : Does l.resolve ([.visit d] ++ rs.map (.supertype c)) path w w'' := by
      by_cases hw' : w'.stop = none
      · exact (hp hw (by simp [hw'])).append hw' (hq.2 hw' hstop)
      · -- The walk has ended above `d`, so the loop passes over the other supertypes.
        obtain rfl := hq.1 hw'
        exact (hp hw hstop).append_of_stop hw'
    refine hdoes.head fun ts => ?_
    rw [List.map_cons, List.cons_append, next?, hr]
    rfl

end Tour

/-- **The machine takes the walk**, and comes to a halt. -/
theorem FiniteLoader.does_walk (l : FiniteLoader U) (root : TypeDecl U) :
    Tour.Does l.resolve [.visit root] [] {} (l.walk root) :=
  WalkRule.walk (l := l) (Tour.does_rule l.toLoader) root rfl (l.walk_stop_ne_exhausted root)

end ComponentHooks
