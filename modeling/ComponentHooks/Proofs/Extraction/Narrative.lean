import ComponentHooks.Proofs.Extraction.Draft
import ComponentHooks.Proofs.Hierarchy.Course
import Mathlib.Data.Finset.Card

/-!
# What an extraction tells

An extraction tells what it leaves out, finding by finding along the course of its walk: the members
of a type, if a type they need is not known, and every supertype that cannot be loaded. If it
succeeds, it tells last how much it has found.

* `LoadError.chain`, `LoadError.HasUnresolved`: an error with its causes, and an unknown name there;
* `Loader.FailsFirst`, `FiniteLoader.Tells`: the first needed type that fails, and what is told of a
  finding;
* `Says`: the events of a step at debug level, whatever the handle table is;
* **`says_recordWalk`**: a walk is told finding by finding;
* `FiniteLoader.Narrates`, **`narrates_extract`**: all that is told of an extraction.
-/

namespace ComponentHooks

open Logged

variable {U : Universe}

/-! ## Errors -/

namespace LoadError

/-- The error and its causes, outermost first. -/
def chain : LoadError → List LoadError
  | linkage t e => linkage t e :: e.chain
  | e => [e]

/-- One of the errors in the chain is that a name is not known. -/
def HasUnresolved (e : LoadError) : Prop := ∃ t, unresolved t ∈ e.chain

theorem isUnresolved_iff (e : LoadError) : e.isUnresolved = true ↔ e.HasUnresolved := by
  induction e with
  | unresolved t => exact iff_of_true rfl ⟨t, List.mem_singleton_self _⟩
  | linkage t e ih =>
    rw [isUnresolved, ih]
    exact exists_congr fun u => by simp [chain]
  | loader t m => simp [isUnresolved, HasUnresolved, chain]

end LoadError

namespace Loader

variable (l : Loader U)

/-- Of the types that the members of `c` need, the first one that does not load has this error. -/
def FailsFirst (c : TypeDecl U) (e : LoadError) : Prop :=
  ∃ before n after, c.links = before ++ n :: after ∧ (∀ m ∈ before, ∃ d, l.load m = .ok d) ∧
    l.load n = .error e

variable {l}

theorem linkFailure?_eq_some_iff {c : TypeDecl U} {e : LoadError} :
    l.linkFailure? c = some e ↔ ∃ cause, e = .linkage c.name cause ∧ l.FailsFirst c cause := by
  rw [linkFailure?, List.findSome?_eq_some_iff]
  constructor
  · rintro ⟨before, n, after, hlinks, hn, hbefore⟩
    cases hload : l.load n with
    | ok d =>
      rw [hload] at hn
      cases hn
    | error cause =>
      rw [hload] at hn
      cases hn
      refine ⟨cause, rfl, before, n, after, hlinks, fun m hm => ?_, hload⟩
      have hnone := hbefore m hm
      cases hm' : l.load m with
      | ok d => exact ⟨d, rfl⟩
      | error e' => simp [hm'] at hnone
  · rintro ⟨cause, rfl, before, n, after, hlinks, hbefore, hn⟩
    refine ⟨before, n, after, hlinks, by rw [hn], fun m hm => ?_⟩
    obtain ⟨d, hd⟩ := hbefore m hm
    rw [hd]

end Loader

/-! ## What is told of a finding -/

/-- What is told of a finding. The members of a type are skipped without a word where what they need
fails for another reason. -/
inductive FiniteLoader.Tells (l : FiniteLoader U) : Finding U → List Event → Prop where
  | membersSkipped {c : TypeDecl U} {e : LoadError} (h : l.FailsFirst c e) (hu : e.HasUnresolved) :
    Tells l (.entered c) [.membersSkipped c.name .fields (.linkage c.name e),
      .membersSkipped c.name .methods (.linkage c.name e)]
  | silent {c : TypeDecl U} (h : ∀ e, l.FailsFirst c e → ¬ e.HasUnresolved) : Tells l (.entered c) []
  | supertypeSkipped (c : TypeDecl U) (r : TypeRef U) (e : LoadError) :
    Tells l (.skipped c r e) [.supertypeSkipped c.name (l.label r) e]

/-- The events of the step at debug level, whatever the handle table is. -/
def Says {α : Type} (x : Slotting U α) (es : List Event) : Prop :=
  ∀ t, (x t).2.2.filter (·.level = .debug) = es

namespace Says

variable {α β : Type}

theorem pure (a : α) : Says (return a : Slotting U α) [] := fun _ => rfl

theorem bind {x : Slotting U α} {f : α → Slotting U β} {es es' : List Event} (hx : Says x es)
    (hf : ∀ a, Says (f a) es') : Says (x >>= f) (es ++ es') := by
  intro t
  rw [bind_apply, List.filter_append, hx t, hf]

theorem emit {e : Event} (he : e.level = .debug) : Says (Logged.emit e : Slotting U Unit) [e] :=
  fun _ => List.filter_cons_of_pos (decide_eq_true he)

theorem foldlM {f : β → α → Slotting U β} {g : α → List Event} (h : ∀ b a, Says (f b a) (g a)) :
    ∀ (as : List α) (b : β), Says (as.foldlM f b) (as.flatMap g)
  | [], b => pure b
  | a :: as, b => by
    rw [List.foldlM_cons, List.flatMap_cons]
    exact (h b a).bind (foldlM h as)

theorem foldlM_nil {f : β → α → Slotting U β} (h : ∀ b a, Says (f b a) []) (as : List α) (b : β) :
    Says (as.foldlM f b) [] := by
  have hfold := foldlM h as b
  rwa [List.flatMap_eq_nil_iff.mpr fun _ _ => rfl] at hfold

end Says

/-! ### Members are recorded in silence -/

theorem says_requestMethod (x : Method U) : Says (HandleTable.requestMethod x) [] := by
  intro t
  unfold HandleTable.requestMethod
  cases t.methods.find? x.id with
  | some v => rfl
  | none =>
    dsimp only
    cases t.policy.bindMethod x <;> rfl

theorem says_requestField (x : Field U) : Says (HandleTable.requestField x) [] := by
  intro t
  unfold HandleTable.requestField
  cases t.fields.find? x.id with
  | some v => rfl
  | none =>
    dsimp only
    cases t.policy.bindField x <;> rfl

theorem says_recordMethod (m : Metadata U) (x : Method U) : Says (recordMethod m x) [] := by
  have hkind : ∀ m k, Says (recordMethodAs x m k) [] := fun m k => by
    unfold recordMethodAs
    split_ifs
    · exact (says_requestMethod x).bind fun _ => .pure _
    · exact .pure m
  unfold recordMethod
  split_ifs
  · exact .foldlM_nil hkind _ m
  · exact .pure m

theorem says_recordField (m : Metadata U) (x : Field U) : Says (recordField m x) [] := by
  have hkind : ∀ m k, Says (recordFieldAs x m k) [] := fun m k => by
    unfold recordFieldAs
    split_ifs
    · exact (says_requestField x).bind fun _ => .pure _
    · exact .pure m
  unfold recordField
  split_ifs
  · exact .foldlM_nil hkind _ _
  · exact .pure m

/-! ### Findings -/

variable (l : FiniteLoader U)

theorem exists_says_recordType (c : TypeDecl U) :
    ∃ es, l.Tells (.entered c) es ∧ ∀ m, Says (recordType l m c) es := by
  -- The error that the type fails with is the only one it fails first with.
  have hfirst : ∀ {e cause}, l.linkFailure? c = e → l.FailsFirst c cause →
      e = some (.linkage c.name cause) := fun he hcause =>
    he.symm.trans (Loader.linkFailure?_eq_some_iff.mpr ⟨_, rfl, hcause⟩)
  cases hlink : l.linkFailure? c with
  | none =>
    refine ⟨[], .silent fun e he => (nomatch hfirst hlink he), fun m => ?_⟩
    rw [recordType, hlink]
    exact (Says.foldlM_nil says_recordField _ _).bind fun m => .foldlM_nil says_recordMethod _ m
  | some e =>
    obtain ⟨cause, rfl, hcause⟩ := Loader.linkFailure?_eq_some_iff.mp hlink
    by_cases hu : cause.isUnresolved = true
    · refine ⟨_, .membersSkipped hcause (cause.isUnresolved_iff.mp hu), fun m => ?_⟩
      rw [recordType, hlink]
      simp only [LoadError.isUnresolved, hu, if_true]
      exact (Says.emit rfl).bind fun _ => (Says.emit rfl).bind fun _ => .pure _
    · refine ⟨[], .silent fun e he => ?_, fun m => ?_⟩
      · cases hfirst hlink he
        rwa [← cause.isUnresolved_iff]
      · rw [recordType, hlink]
        simp only [LoadError.isUnresolved, hu]
        exact .pure _

theorem exists_says_recordFinding (f : Finding U) :
    ∃ es, l.Tells f es ∧ ∀ m, Says (recordFinding l m f) es := by
  cases f with
  | entered c => exact exists_says_recordType l c
  | skipped c r e =>
    exact ⟨_, .supertypeSkipped c r e, fun m => (Says.emit rfl).bind fun _ => .pure m⟩

/-- **A walk is told finding by finding**, along its course. -/
theorem says_recordWalk (root : TypeDecl U) :
    ∃ told, List.Forall₂ l.Tells (l.course root).findings told ∧
      Says (recordWalk l root) told.flatten := by
  choose tell htells hspoken using exists_says_recordFinding l
  refine ⟨(l.course root).findings.map tell, ?_, ?_⟩
  · rw [List.forall₂_map_right_iff, List.forall₂_same]
    exact fun f _ => htells f
  · rw [(course_eq l root).1, ← List.flatMap_def]
    exact .foldlM (fun m f => hspoken f m) _ _

/-! ## The whole extraction -/

namespace FiniteLoader

/-- The last event of an extraction that succeeds: how many types have come up, which all have
different names, and how many methods and fields are recorded over all kinds. -/
def closing (root : TypeDecl U) : Except Cycle (Metadata U) → List Event
  | .ok m => [.extracted root.name ((l.course root).types.map TypeDecl.name).toFinset.card
      (Kind.all.flatMap m.methods).length (Kind.all.flatMap m.fields).length]
  | .error _ => []

/-- The events that an extraction of `root` with this answer tells at debug level. -/
structure Narrates (root : TypeDecl U) (answer : Except Cycle (Metadata U)) (events : List Event) :
    Prop where
  /-- The extraction fails on the cycle on which the course ends. -/
  answer_eq_error_iff : ∀ e, answer = .error e ↔ (l.course root).cycle? = some e
  /-- Up to there, no reference that does not resolve is left out. -/
  skips : ∀ c ∈ (l.course root).types, (l.course root).Skips c.name (l.failures c)
  /-- The findings are told one by one, and the counts last. -/
  events_eq : ∃ told, List.Forall₂ l.Tells (l.course root).findings told ∧
    events = told.flatten ++ l.closing root answer

end FiniteLoader

theorem length_names_walk {l : FiniteLoader U} {root : TypeDecl U} (h : (l.walk root).stop = none) :
    (l.walk root).names.length = ((l.course root).types.map TypeDecl.name).toFinset.card := by
  have hnodup := l.nodup_preorder root
  rw [types_course, Walk.names_eq, List.toFinset_card_of_nodup]
  rwa [types_walk h]

/-- **What an extraction tells.** -/
theorem says_extract (root : TypeDecl U) (t : HandleTable U) :
    ∃ told, List.Forall₂ l.Tells (l.course root).findings told ∧
      (extract l root t).2.2.filter (·.level = .debug) =
        told.flatten ++ l.closing root (extract l root t).1 := by
  obtain ⟨told, htells, hspoken⟩ := says_recordWalk l root
  refine ⟨told, htells, ?_⟩
  cases h : (l.walk root).stop with
  | none =>
    rw [extract_of_stop_none h]
    simp only [bind_apply, emit_apply, pure_apply, List.filter_append, hspoken t,
      FiniteLoader.closing, length_names_walk h]
    rfl
  | some s =>
    cases s with
    | cycle e =>
      rw [extract_of_cycle h]
      exact (hspoken.bind fun _ => .pure _) t
    | exhausted => exact absurd h (l.walk_stop_ne_exhausted root)

/-- **The log of an extraction is faithful.** At debug level it tells the findings along the course
of the walk, and at the end of an extraction that succeeds what it has found. A supertype that is
skipped is told with whether an unknown name is in the chain of its error. -/
theorem narrates_extract (root : TypeDecl U) (t : HandleTable U) :
    l.Narrates root (extract l root t).1 ((extract l root t).2.2.filter (·.level = .debug)) ∧
      ∀ (c s : String) (e : LoadError) (b : Bool),
        ("unresolved", .flag b) ∈ (Event.supertypeSkipped c s e).fields ↔
          (b = true ↔ e.HasUnresolved) := by
  refine ⟨⟨fun e => ?_, fun c hc => skips_course hc, says_extract l root t⟩, fun c s e b => ?_⟩
  · rw [extract_eq_error_iff, (course_eq l root).2]
  · rw [← e.isUnresolved_iff, ← Bool.eq_iff_iff]
    simp [Event.fields]

open Sample Diamond in
/-- On the diamond: the supertype of the bottom that is not known is skipped, and so are the members
of its superclass, before the four types and the one method are told. -/
theorem narrates_extract_diamond :
    bottom ∈ (loader.course bottom).types ∧
      (loader.course bottom).Skips "Bottom" [.skipped bottom (.named "Gone") (.unresolved "Gone")] ∧
      ∃ told, List.Forall₂ loader.Tells (loader.course bottom).findings told ∧
        (extract loader bottom { policy := .all }).2.2.filter (·.level = .debug) =
          told.flatten ++ [.extracted "Bottom" 4 1 0] := by
  have hmem : bottom ∈ (loader.course bottom).types := by
    rw [types_course]
    exact List.mem_cons_self
  have hm : (extract loader bottom { policy := .all }).1 = .ok (loader.draft bottom).metadata :=
    extract_eq_ok_iff.mpr ⟨by decide, rfl⟩
  obtain ⟨⟨-, hskips, told, htells, hevents⟩, -⟩ :=
    narrates_extract loader bottom { policy := .all }
  refine ⟨hmem, hskips bottom hmem, told, htells, hevents.trans ?_⟩
  rw [hm, FiniteLoader.closing, types_course]
  rfl

namespace Sample.Knot

/-- A type that is its own superclass, with an interface that is not known. -/
def root : TypeDecl world :=
  .declare "Root" .concrete none [] [] [] (some (.named "Root")) [.named "Missing"]

def loader : FiniteLoader world := loaderOf [] [root]

theorem events_extract (t : HandleTable world) : (extract loader root t).2.2 = [] := by
  rw [extract_of_cycle (e := ⟨"Root"⟩) (by decide)]
  rfl

end Sample.Knot

open Sample in
/-- What stands behind a cycle is not told. -/
theorem not_forall_told :
    ¬ ∀ (l : FiniteLoader world) (root : TypeDecl world) (t : HandleTable world),
      ∀ c ∈ (l.walk root).types, ∀ r ∈ c.supertypes, ∀ e, l.resolve r = .error e →
        .supertypeSkipped c.name (l.label r) e ∈ (extract l root t).2.2 := by
  intro h
  have htold := h Knot.loader Knot.root { policy := .all } Knot.root List.mem_cons_self
    (.named "Missing") (by simp [Knot.root, TypeDecl.declare, TypeDecl.supertypes])
    (.unresolved "Missing") rfl
  rw [Knot.events_extract] at htold
  cases htold

end ComponentHooks
