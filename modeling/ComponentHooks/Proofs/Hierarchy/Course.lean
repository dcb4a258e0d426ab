import ComponentHooks.Proofs.Hierarchy.Preorder
import ComponentHooks.Proofs.Hierarchy.Tour

/-!
# The course of a walk

All that a walk meets, one finding after the other, said without a bound and for walks that end on a
cycle too. Types and references wait on an agenda, each with the names that lead to it: a type
stands before its references, and what a reference leads to stands before the next one.

* `Place`, `Course`: what waits on the agenda, and what comes of it;
* `Loader.courseFrom`, `FiniteLoader.course`: the course of an agenda, and of a root alone;
* **`course_eq`**: a walk takes this course;
* `Course.Skips`, `Loader.failures`: the references of a type that are skipped, and those that do
  not resolve;
* **`skips_course`**: of each type in the course, these are skipped in order, and if the course ends
  on no cycle none is left out.
-/

namespace ComponentHooks

variable {U : Universe}

variable (U) in
/-- What waits on the way up, with the names that are being walked there. -/
inductive Place where
  | type (path : List String) (c : TypeDecl U)
  /-- A supertype of `c`. -/
  | reference (path : List String) (c : TypeDecl U) (r : TypeRef U)

/-- How much is left to do on an agenda. A reference may lead to a type. -/
def Place.work : List (Place U) → Nat
  | [] => 0
  | type .. :: places => work places + 1
  | reference .. :: places => work places + 2

variable (U) in
/-- What is met, in order, and the cycle on which it ends. -/
structure Course where
  findings : List (Finding U) := []
  cycle? : Option Cycle := none

namespace Course

/-- The course with one finding in front. -/
def after (f : Finding U) (way : Course U) : Course U := { way with findings := f :: way.findings }

/-- The types that are met, in order. -/
def types (way : Course U) : List (TypeDecl U) := way.findings.filterMap Finding.type?

end Course

namespace Loader

variable (l : Loader U)

/-- The course of an agenda. Names that were not met yet are `fresh`. A type on its own path is a
cycle, which ends the course. -/
def courseFrom (fresh : List String) : List (Place U) → Course U
  | [] => {}
  | .type path c :: places =>
    if c.name ∈ path then { cycle? := some ⟨c.name⟩ }
    else if c.name ∈ fresh then
      .after (.entered c) (courseFrom (fresh.removeAll [c.name])
        (c.supertypes.map (.reference (c.name :: path) c) ++ places))
    else courseFrom fresh places
  | .reference path c r :: places =>
    match l.resolve r with
    | .ok d => courseFrom fresh (.type path d :: places)
    | .error e => .after (.skipped c r e) (courseFrom fresh places)
termination_by places => (fresh.length, Place.work places)
decreasing_by
  · rename_i h
    exact Prod.Lex.left _ _ (List.length_filter_lt_length_iff_exists.mpr ⟨c.name, h, by simp⟩)
  · exact Prod.Lex.right _ (Nat.lt_succ_self _)
  · exact Prod.Lex.right _ (Nat.lt_succ_self _)
  · exact Prod.Lex.right _ (Nat.lt_add_of_pos_right Nat.two_pos)

section Equations

variable {l} {fresh path : List String} {c d : TypeDecl U} {r : TypeRef U} {places : List (Place U)}

@[simp] theorem courseFrom_nil : l.courseFrom fresh [] = {} := by rw [courseFrom]

theorem courseFrom_cycle (h : c.name ∈ path) :
    l.courseFrom fresh (.type path c :: places) = { cycle? := some ⟨c.name⟩ } := by
  rw [courseFrom, if_pos h]

theorem courseFrom_enter (hp : c.name ∉ path) (hf : c.name ∈ fresh) :
    l.courseFrom fresh (.type path c :: places) =
      .after (.entered c) (l.courseFrom (fresh.removeAll [c.name])
        (c.supertypes.map (.reference (c.name :: path) c) ++ places)) := by
  rw [courseFrom, if_neg hp, if_pos hf]

theorem courseFrom_seen (hp : c.name ∉ path) (hf : c.name ∉ fresh) :
    l.courseFrom fresh (.type path c :: places) = l.courseFrom fresh places := by
  rw [courseFrom, if_neg hp, if_neg hf]

theorem courseFrom_go (h : l.resolve r = .ok d) :
    l.courseFrom fresh (.reference path c r :: places) =
      l.courseFrom fresh (.type path d :: places) := by
  conv_lhs => rw [courseFrom, h]

theorem courseFrom_skip {e : LoadError} (h : l.resolve r = .error e) :
    l.courseFrom fresh (.reference path c r :: places) =
      .after (.skipped c r e) (l.courseFrom fresh places) := by
  rw [courseFrom, h]

end Equations

end Loader

/-- **The course of a walk** from `root`, where every name that can come up is fresh at first. -/
def FiniteLoader.course (l : FiniteLoader U) (root : TypeDecl U) : Course U :=
  l.courseFrom (root.name :: l.names) [.type [] root]

/-! ## Walks take this course -/

variable {l : FiniteLoader U} {root : TypeDecl U}

variable (l root) in
/-- What a walk has met, and what comes of the places if it has not ended. -/
def Walk.resume (w : Walk U) (places : List (Place U)) : Course U :=
  match w.stop with
  | none =>
    let rest := l.courseFrom (l.ahead root w.names) places
    ⟨w.trace ++ rest.findings, rest.cycle?⟩
  | some (.cycle e) => ⟨w.trace, some e⟩
  | some .exhausted => ⟨w.trace, none⟩

namespace Walk

variable {w : Walk U}

theorem resume_of_stop (h : w.stop ≠ none) (places places' : List (Place U)) :
    w.resume l root places = w.resume l root places' := by
  rw [resume, resume]
  rcases hstop : w.stop with _ | _ | _
  · exact absurd hstop h
  · rfl
  · rfl

theorem resume_type (hw : w.stop = none) {c : TypeDecl U} (hc : c.name ∈ root.name :: l.names)
    (path : List String) (places : List (Place U)) :
    w.resume l root (.type path c :: places) =
      if c.name ∈ path then (w.halt (.cycle ⟨c.name⟩)).resume l root places
      else if c.name ∈ w.names then w.resume l root places
      else (w.record (.entered c)).resume l root
        (c.supertypes.map (.reference (c.name :: path) c) ++ places) := by
  have hfresh := l.mem_ahead_iff hc w.names
  rw [resume, hw]
  dsimp only
  by_cases hpath : c.name ∈ path
  · rw [if_pos hpath, Loader.courseFrom_cycle hpath]
    exact congrArg (Course.mk · _) (List.append_nil _)
  · rw [if_neg hpath]
    by_cases hnames : c.name ∈ w.names
    · rw [if_pos hnames, Loader.courseFrom_seen hpath (fun h => hfresh.mp h hnames), resume, hw]
    · rw [if_neg hnames, Loader.courseFrom_enter hpath (hfresh.mpr hnames), resume, stop_record, hw,
        names_entered, FiniteLoader.ahead_concat]
      exact congrArg (Course.mk · _) (List.append_cons _ _ _)

theorem resume_reference (hw : w.stop = none) (path : List String) (c : TypeDecl U) (r : TypeRef U)
    (places : List (Place U)) :
    w.resume l root (.reference path c r :: places) =
      match l.resolve r with
      | .ok d => w.resume l root (.type path d :: places)
      | .error e => (w.record (.skipped c r e)).resume l root places := by
  rw [resume, hw]
  dsimp only
  cases hr : l.resolve r with
  | ok d =>
    dsimp only
    rw [Loader.courseFrom_go hr, resume, hw]
  | error e =>
    dsimp only
    rw [Loader.courseFrom_skip hr, resume, stop_record, hw, names_skipped]
    exact congrArg (Course.mk · _) (List.append_cons _ _ _)

end Walk

variable (root) in
theorem course_rule : WalkRule l
    (fun path c w w' => c.name ∈ root.name :: l.names → w.stop = none →
      w'.stop ≠ some .exhausted → ∀ places,
        w.resume l root (.type path c :: places) = w'.resume l root places)
    fun path c rs w w' => (w.stop ≠ none → w' = w) ∧ (w'.stop ≠ some .exhausted → ∀ places,
      w.resume l root (rs.map (.reference path c) ++ places) = w'.resume l root places) where
  cycle hp hc hw _ places := by rw [Walk.resume_type hw hc, if_pos hp]
  seen hp hn hc hw _ places := by rw [Walk.resume_type hw hc, if_neg hp, if_pos hn]
  -- Walks that run out of steps are left aside, for none from a root does.
  exhausted _ _ h := absurd (Walk.stop_halt _ _) h
  enter hp hn hq hc hw hstop places := by
    rw [Walk.resume_type hw hc, if_neg hp, if_neg hn]
    exact hq.2 hstop places
  done := ⟨fun _ => rfl, fun _ _ => rfl⟩
  stopped hw := ⟨fun _ => rfl, fun _ _ => Walk.resume_of_stop hw _ _⟩
  skip {path c r rs w w' e} hw hr hq := by
    refine ⟨fun h => absurd hw h, fun hstop places => ?_⟩
    rw [List.map_cons, List.cons_append, Walk.resume_reference hw, hr]
    exact hq.2 hstop places
  go {path c r rs d w w' w''} hw hr hp hq := by
    refine ⟨fun h => absurd hw h, fun hstop places => ?_⟩
    have hd : d.name ∈ root.name :: l.names := List.mem_cons_of_mem _ (l.name_mem_of_resolve hr)
    have hstop' : w'.stop ≠ some .exhausted := fun h => by
      -- The walk has ended above `d`, so the loop passes over the other supertypes.
      obtain rfl := hq.1 (by simp [h])
      exact hstop h
    rw [List.map_cons, List.cons_append, Walk.resume_reference hw, hr]
    exact (hp hd hw hstop' _).trans (hq.2 hstop places)

/-- **A walk takes this course**, and ends on a cycle where the course does. -/
theorem course_eq (l : FiniteLoader U) (root : TypeDecl U) :
    (l.course root).findings = (l.walk root).trace ∧
      ∀ e, (l.course root).cycle? = some e ↔ (l.walk root).stop = some (.cycle e) := by
  have hrule := (course_rule root).walk root List.mem_cons_self rfl (l.walk_stop_ne_exhausted root) []
  have hstart : Walk.resume l root {} [.type [] root] = l.course root := by
    rw [FiniteLoader.course, ← l.ahead_nil]
    rfl
  rw [hstart] at hrule
  rw [hrule, Walk.resume]
  rcases hstop : (l.walk root).stop with _ | _ | _
  · simp
  · simp
  · exact absurd hstop (l.walk_stop_ne_exhausted root)

theorem types_course (l : FiniteLoader U) (root : TypeDecl U) :
    (l.course root).types = (l.walk root).types := by
  rw [Course.types, (course_eq l root).1, Walk.types]

/-! ## References that are skipped -/

/-- The name of the type of which a reference is skipped. -/
def Finding.from? : Finding U → Option String
  | .entered _ => none
  | .skipped c .. => some c.name

/-- Of the type called `n`, the course skips these references, in order: all of them, or those
before the cycle on which it ends. -/
structure Course.Skips (way : Course U) (n : String) (fs : List (Finding U)) : Prop where
  upTo : way.findings.filter (·.from? = some n) <+: fs
  all : way.cycle? = none → way.findings.filter (·.from? = some n) = fs

namespace Course.Skips

variable {way : Course U} {n : String} {fs : List (Finding U)} {c : TypeDecl U}

theorem nil (n : String) : Skips (U := U) {} n [] := ⟨List.prefix_rfl, fun _ => rfl⟩

theorem cycle (e : Cycle) : Skips { cycle? := some e } n fs := ⟨List.nil_prefix, nofun⟩

theorem entered (h : way.Skips n fs) : (way.after (.entered c)).Skips n fs := ⟨h.upTo, h.all⟩

theorem skipped (h : way.Skips c.name fs) (r : TypeRef U) (e : LoadError) :
    (way.after (.skipped c r e)).Skips c.name (.skipped c r e :: fs) := by
  have hfilter : (way.after (.skipped c r e)).findings.filter (·.from? = some c.name) =
      .skipped c r e :: way.findings.filter (·.from? = some c.name) :=
    List.filter_cons_of_pos (decide_eq_true rfl)
  refine ⟨?_, fun hcycle => ?_⟩
  · rw [hfilter, List.cons_prefix_cons]
    exact ⟨rfl, h.upTo⟩
  · rw [hfilter, h.all hcycle]

theorem skipped_of_ne (h : way.Skips n fs) (hc : c.name ≠ n) (r : TypeRef U) (e : LoadError) :
    (way.after (.skipped c r e)).Skips n fs := by
  have hfilter : (way.after (.skipped c r e)).findings.filter (·.from? = some n) =
      way.findings.filter (·.from? = some n) :=
    List.filter_cons_of_neg (by simpa [Finding.from?] using hc)
  refine ⟨?_, fun hcycle => ?_⟩
  · rw [hfilter]
    exact h.upTo
  · rw [hfilter, h.all hcycle]

end Course.Skips

namespace Loader

variable (l : Loader U)

/-- The reference of `c`, if it does not resolve. -/
def failure? (c : TypeDecl U) (r : TypeRef U) : Option (Finding U) :=
  match l.resolve r with
  | .ok _ => none
  | .error e => some (.skipped c r e)

/-- The references of `c` that do not resolve, in order. -/
def failures (c : TypeDecl U) : List (Finding U) := c.supertypes.filterMap (l.failure? c)

/-- The references of the type called `n` that wait on an agenda and do not resolve, in order. -/
def pending (n : String) (places : List (Place U)) : List (Finding U) :=
  places.filterMap fun
    | .type .. => none
    | .reference _ c r => if c.name = n then l.failure? c r else none

variable {l}

theorem pending_references (path : List String) (c : TypeDecl U) (places : List (Place U)) :
    l.pending c.name (c.supertypes.map (.reference path c) ++ places) =
      l.failures c ++ l.pending c.name places := by
  rw [pending, List.filterMap_append, List.filterMap_map, failures, pending]
  simp

theorem pending_references_of_ne {c : TypeDecl U} {n : String} (hc : c.name ≠ n)
    (path : List String) (places : List (Place U)) :
    l.pending n (c.supertypes.map (.reference path c) ++ places) = l.pending n places := by
  rw [pending, List.filterMap_append, List.filterMap_map, pending]
  simp [hc]

theorem skips_courseFrom (fresh : List String) (places : List (Place U)) {n : String}
    (hn : n ∉ fresh) : (l.courseFrom fresh places).Skips n (l.pending n places) := by
  induction fresh, places using courseFrom.induct l with
  | case1 fresh =>
    rw [courseFrom_nil]
    exact .nil n
  | case2 fresh path c places hpath =>
    rw [courseFrom_cycle hpath]
    exact .cycle _
  | case3 fresh path c places hpath hc ih =>
    have hne : c.name ≠ n := fun h => hn (h ▸ hc)
    have hn' : n ∉ fresh.removeAll [c.name] := fun h => hn (List.mem_filter.mp h).1
    rw [courseFrom_enter hpath hc]
    have hskips := ih hn'
    rw [pending_references_of_ne hne] at hskips
    exact hskips.entered
  | case4 fresh path c places hpath hc ih =>
    rw [courseFrom_seen hpath hc]
    exact ih hn
  | case5 fresh path c r places d hr ih =>
    have hpending : l.pending n (.reference path c r :: places) = l.pending n places :=
      List.filterMap_cons_none (by simp [failure?, hr])
    rw [courseFrom_go hr, hpending]
    exact ih hn
  | case6 fresh path c r places e hr ih =>
    rw [courseFrom_skip hr]
    by_cases hc : c.name = n
    · subst hc
      have hpending : l.pending c.name (.reference path c r :: places) =
          .skipped c r e :: l.pending c.name places :=
        List.filterMap_cons_some (by simp [failure?, hr])
      rw [hpending]
      exact (ih hn).skipped r e
    · have hpending : l.pending n (.reference path c r :: places) = l.pending n places :=
        List.filterMap_cons_none (by simp [hc])
      rw [hpending]
      exact (ih hn).skipped_of_ne hc r e

theorem name_mem_of_mem_types (fresh : List String) (places : List (Place U)) {c : TypeDecl U}
    (hc : c ∈ (l.courseFrom fresh places).types) : c.name ∈ fresh := by
  induction fresh, places using courseFrom.induct l with
  | case1 fresh =>
    rw [courseFrom_nil] at hc
    cases hc
  | case2 fresh path d places hpath =>
    rw [courseFrom_cycle hpath] at hc
    cases hc
  | case3 fresh path d places hpath hd ih =>
    rw [courseFrom_enter hpath hd] at hc
    rcases List.mem_cons.mp hc with rfl | hc
    · exact hd
    · exact (List.mem_filter.mp (ih hc)).1
  | case4 fresh path d places hpath hd ih =>
    rw [courseFrom_seen hpath hd] at hc
    exact ih hc
  | case5 fresh path d r places b hr ih =>
    rw [courseFrom_go hr] at hc
    exact ih hc
  | case6 fresh path d r places e hr ih =>
    rw [courseFrom_skip hr] at hc
    exact ih hc

/-- The references that wait on an agenda are of types that were met. -/
def IsMet (fresh : List String) (places : List (Place U)) : Prop :=
  ∀ path c r, .reference path c r ∈ places → c.name ∉ fresh

namespace IsMet

variable {fresh : List String} {places : List (Place U)}

theorem tail {place : Place U} (h : IsMet fresh (place :: places)) : IsMet fresh places :=
  fun path c r hr => h path c r (List.mem_cons_of_mem _ hr)

theorem enter {path : List String} {c : TypeDecl U} (h : IsMet fresh (.type path c :: places)) :
    IsMet (fresh.removeAll [c.name])
      (c.supertypes.map (.reference (c.name :: path) c) ++ places) := by
  intro path' d r hr hd
  obtain ⟨hfresh, hne⟩ : d.name ∈ fresh ∧ d.name ≠ c.name := by simpa [List.removeAll] using hd
  rcases List.mem_append.mp hr with hr | hr
  · obtain ⟨s, -, hs⟩ := List.mem_map.mp hr
    cases hs
    exact hne rfl
  · exact h.tail path' d r hr hfresh

theorem pending_eq_nil (h : IsMet fresh places) {n : String} (hn : n ∈ fresh) :
    l.pending n places = [] := by
  rw [pending, List.filterMap_eq_nil_iff]
  rintro (⟨path, c⟩ | ⟨path, c, r⟩) hplace
  · rfl
  · exact if_neg fun hc : c.name = n => h path c r hplace (hc ▸ hn)

end IsMet

theorem skips_of_mem_types {fresh : List String} {places : List (Place U)}
    (h : IsMet fresh places) {c : TypeDecl U} (hc : c ∈ (l.courseFrom fresh places).types) :
    (l.courseFrom fresh places).Skips c.name (l.failures c) := by
  -- While the name of `c` is fresh nothing of it waits, so its references all come with itself.
  induction fresh, places using courseFrom.induct l with
  | case1 fresh =>
    rw [courseFrom_nil] at hc
    cases hc
  | case2 fresh path d places hpath =>
    rw [courseFrom_cycle hpath]
    exact .cycle _
  | case3 fresh path d places hpath hd ih =>
    rw [courseFrom_enter hpath hd] at hc ⊢
    rcases List.mem_cons.mp hc with rfl | hc
    · -- Its references are on the agenda from here on, and no others of its name.
      have hgone : c.name ∉ fresh.removeAll [c.name] := by simp [List.removeAll]
      have hskips := skips_courseFrom (l := l) (fresh.removeAll [c.name])
        (c.supertypes.map (.reference (c.name :: path) c) ++ places) hgone
      rw [pending_references, h.tail.pending_eq_nil hd, List.append_nil] at hskips
      exact hskips.entered
    · exact (ih h.enter hc).entered
  | case4 fresh path d places hpath hd ih =>
    rw [courseFrom_seen hpath hd] at hc ⊢
    exact ih h.tail hc
  | case5 fresh path d r places b hr ih =>
    rw [courseFrom_go hr] at hc ⊢
    refine ih (fun path' a s hs => ?_) hc
    rcases List.mem_cons.mp hs with hs | hs
    · cases hs
    · exact h.tail path' a s hs
  | case6 fresh path d r places e hr ih =>
    rw [courseFrom_skip hr] at hc ⊢
    have hfresh : c.name ∈ fresh := name_mem_of_mem_types fresh places hc
    have hne : d.name ≠ c.name := fun hd => h path d r List.mem_cons_self (hd ▸ hfresh)
    exact (ih h.tail hc).skipped_of_ne hne r e

end Loader

/-- **Of each type in a course, the references that do not resolve are skipped in order**, and if
the course ends on no cycle none is left out. -/
theorem skips_course {c : TypeDecl U} (hc : c ∈ (l.course root).types) :
    (l.course root).Skips c.name (l.failures c) :=
  Loader.skips_of_mem_types (fun path d r hr => by simp at hr) hc

end ComponentHooks
