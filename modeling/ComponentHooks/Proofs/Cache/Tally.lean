import ComponentHooks.Proofs.Cache.Preload

/-!
# What a cache counts

Calls come in any order, each with the loader as it is by then. A lookup is answered from an entry
that stands, from a new extraction, or not at all, if its name cannot be loaded. The first is
counted as a hit, the second as a miss, and the third is not counted.

* `Reply`, `Call`: where the answer of a lookup comes from, and the calls on a cache;
* `Cache.Tallies`: the counters go up by what the replies say;
* `tallies_get`, `tallies_preload`, **`tallies_after`**: so they do with every call;
* **`counts_lookups`**: after a run, hits and misses are the lookups without the failed loads.
-/

namespace ComponentHooks.Cache

open Logged

variable {U : Universe}

/-! ## Replies -/

variable (U) in
/-- Where the answer of a lookup comes from. -/
inductive Reply where
  /-- From an entry that stands. -/
  | stored (e : Entry U)
  /-- From a new extraction, which may have failed. -/
  | extracted (x : Except LookupError (Entry U))
  /-- The name could not be loaded. -/
  | unloaded (e : LoadError)

namespace Reply

def answer : Reply U → Except LookupError (Entry U)
  | stored e => .ok e
  | extracted x => x
  | unloaded e => .error (.load e)

def isStored : Reply U → Bool
  | stored _ => true
  | _ => false

def isExtracted : Reply U → Bool
  | extracted _ => true
  | _ => false

/-- A new extraction failed. -/
def isFailure : Reply U → Bool
  | extracted (.error _) => true
  | _ => false

def isUnloaded : Reply U → Bool
  | unloaded _ => true
  | _ => false

theorem countP_add_countP (rs : List (Reply U)) :
    rs.countP (·.isStored) + rs.countP (·.isExtracted) + rs.countP (·.isUnloaded) = rs.length := by
  induction rs with
  | nil => rfl
  | cons r rs ih =>
    have hone : (if r.isStored then 1 else 0) + (if r.isExtracted then 1 else 0) +
        (if r.isUnloaded then 1 else 0) = 1 := by
      cases r <;> rfl
    rw [List.countP_cons, List.countP_cons, List.countP_cons, List.length_cons]
    omega

end Reply

/-- The reply to a lookup of a type. -/
def reply (l : FiniteLoader U) (d : TypeDecl U) (c : Cache U) : Reply U :=
  match c.find? d.name with
  | some e => .stored e
  | none => .extracted (load l d c.countMiss).1

/-- The reply to a lookup of a name: also a name that has no entry may lead to a type that has
one. -/
def replyByName (l : FiniteLoader U) (name : String) (c : Cache U) : Reply U :=
  match c.find? name with
  | some e => .stored e
  | none =>
    match l.load name with
    | .ok d => reply l d c
    | .error e => .unloaded e

def preloadReplies (l : FiniteLoader U) : List (TypeDecl U) → Cache U → List (Reply U)
  | [], _ => []
  | d :: ds, c => reply l d c :: preloadReplies l ds (get l d c).2.1

section Answers

variable (l : FiniteLoader U) (d : TypeDecl U) (c : Cache U)

theorem answer_reply : (reply l d c).answer = (get l d c).1 := by
  unfold reply
  cases h : c.find? d.name with
  | some e => rw [get_of_find?_eq_some h]; rfl
  | none => rw [get_of_find?_eq_none h]; rfl

theorem answer_replyByName (name : String) :
    (replyByName l name c).answer = (getByName l name c).1 := by
  unfold replyByName
  cases h : c.find? name with
  | some e => rw [getByName_of_find?_eq_some h]; rfl
  | none =>
    cases hl : l.load name with
    | ok d => rw [getByName_of_load_eq_ok h hl]; exact answer_reply l d c
    | error e => rw [getByName_of_load_eq_error h hl]; rfl

theorem answer_preloadReplies (ds : List (TypeDecl U)) :
    (preloadReplies l ds c).map Reply.answer = lookups l ds c := by
  induction ds generalizing c with
  | nil => rfl
  | cons d ds ih => rw [preloadReplies, List.map_cons, answer_reply, ih, lookups]

theorem load_ne_error_load (e : LoadError) : (load l d c).1 ≠ .error (.load e) := by
  cases h : (extract l d c.handles).1 with
  | ok m => rw [(load_of_ok h).1]; nofun
  | error cause => rw [(load_of_error h).1]; nofun

theorem isUnloaded_reply_iff : (reply l d c).isUnloaded = true ↔
    ∃ e, (reply l d c).answer = .error (.load e) := by
  unfold reply
  cases c.find? d.name with
  | some e => simp [Reply.isUnloaded, Reply.answer]
  | none =>
    have hne := load_ne_error_load l d c.countMiss
    simp [Reply.isUnloaded, Reply.answer, hne]

theorem isUnloaded_replyByName_iff (name : String) : (replyByName l name c).isUnloaded = true ↔
    ∃ e, (replyByName l name c).answer = .error (.load e) := by
  unfold replyByName
  cases c.find? name with
  | some e => simp [Reply.isUnloaded, Reply.answer]
  | none =>
    cases l.load name with
    | ok d => exact isUnloaded_reply_iff l d c
    | error e => simp [Reply.isUnloaded, Reply.answer]

theorem isUnloaded_iff_of_mem_preloadReplies (ds : List (TypeDecl U)) {r : Reply U}
    (hr : r ∈ preloadReplies l ds c) :
    r.isUnloaded = true ↔ ∃ e, r.answer = .error (.load e) := by
  induction ds generalizing c with
  | nil => cases hr
  | cons d ds ih =>
    rw [preloadReplies, List.mem_cons] at hr
    rcases hr with rfl | hr
    · exact isUnloaded_reply_iff l d c
    · exact ih _ hr

end Answers

/-! ## Counters -/

/-- The counters go up by what the replies say. -/
structure Tallies (c : Cache U) (rs : List (Reply U)) (c' : Cache U) : Prop where
  hits : c'.stats.hits = c.stats.hits + rs.countP (·.isStored)
  misses : c'.stats.misses = c.stats.misses + rs.countP (·.isExtracted)
  extractions : c'.stats.extractions = c.stats.extractions + rs.countP (·.isExtracted)
  failures : c'.stats.failures = c.stats.failures + rs.countP (·.isFailure)

theorem Tallies.of_stats_eq {c c' : Cache U} (h : c'.stats = c.stats) : c.Tallies [] c' := by
  constructor <;> rw [h] <;> rfl

theorem Tallies.trans {c c' c'' : Cache U} {rs ss : List (Reply U)} (h : c.Tallies rs c')
    (h' : c'.Tallies ss c'') : c.Tallies (rs ++ ss) c'' := by
  obtain ⟨h1, h2, h3, h4⟩ := h
  obtain ⟨h1', h2', h3', h4'⟩ := h'
  constructor <;> rw [List.countP_append] <;> omega

section Lookups

variable (l : FiniteLoader U) (d : TypeDecl U) (c : Cache U)

theorem tallies_load :
    c.Tallies [.extracted (load l d c.countMiss).1] (load l d c.countMiss).2.1 := by
  cases h : (extract l d c.countMiss.handles).1 with
  | ok m =>
    rw [(load_of_ok h).1, (load_of_ok h).2]
    constructor <;> rfl
  | error cause =>
    rw [(load_of_error h).1, (load_of_error h).2]
    constructor <;> rfl

theorem tallies_get : c.Tallies [reply l d c] (get l d c).2.1 := by
  unfold reply
  cases h : c.find? d.name with
  | some e =>
    rw [get_of_find?_eq_some h]
    constructor <;> rfl
  | none =>
    rw [get_of_find?_eq_none h]
    exact tallies_load l d c

theorem tallies_getByName (name : String) :
    c.Tallies [replyByName l name c] (getByName l name c).2.1 := by
  unfold replyByName
  cases h : c.find? name with
  | some e =>
    rw [getByName_of_find?_eq_some h]
    constructor <;> rfl
  | none =>
    cases hl : l.load name with
    | ok d =>
      rw [getByName_of_load_eq_ok h hl]
      exact tallies_get l d c
    | error e =>
      rw [getByName_of_load_eq_error h hl]
      constructor <;> rfl

theorem tallies_preload (threads : Option UInt64) (ds : List (TypeDecl U)) :
    c.Tallies (preloadReplies l ds c) (preload l threads ds c).2.1 := by
  have hfold : ∀ (report : PreloadReport) (c : Cache U),
      c.Tallies (preloadReplies l ds c) (ds.foldlM (preloadOne l) report c).2.1 := by
    induction ds with
    | nil => exact fun _ c => .of_stats_eq rfl
    | cons d ds ih =>
      intro report c
      have hget := tallies_get l d c
      rw [← preloadOne_state report] at hget
      rw [List.foldlM_cons, bind_apply, preloadReplies, ← preloadOne_state report]
      exact hget.trans (ih _ _)
  exact hfold {} c

end Lookups

/-! ## Calls -/

variable (U) in
/-- A call on a cache. -/
inductive Call where
  | get (d : TypeDecl U)
  | getByName (name : String)
  | getLinked (t : U.Link)
  | preload (threads : Option UInt64) (ds : List (TypeDecl U))
  /-- An entry goes; also one that has stood too long, or makes room. -/
  | invalidate (name : String)
  | invalidateAll

namespace Call

variable (l : FiniteLoader U)

/-- The cache after the call. -/
def after : Call U → Cache U → Cache U
  | get d, c => (Cache.get l d c).2.1
  | getByName name, c => (Cache.getByName l name c).2.1
  | getLinked t, c => (Cache.get l (l.linked t) c).2.1
  | preload threads ds, c => (Cache.preload l threads ds c).2.1
  | invalidate name, c => c.invalidate name
  | invalidateAll, c => c.invalidateAll

/-- The answers of the lookups that the call makes, in order. -/
def answers : Call U → Cache U → List (Except LookupError (Entry U))
  | get d, c => [(Cache.get l d c).1]
  | getByName name, c => [(Cache.getByName l name c).1]
  | getLinked t, c => [(Cache.get l (l.linked t) c).1]
  | preload _ ds, c => lookups l ds c
  | invalidate _, _ => []
  | invalidateAll, _ => []

def replies : Call U → Cache U → List (Reply U)
  | get d, c => [reply l d c]
  | getByName name, c => [replyByName l name c]
  | getLinked t, c => [reply l (l.linked t) c]
  | preload _ ds, c => preloadReplies l ds c
  | invalidate _, _ => []
  | invalidateAll, _ => []

/-- The number of lookups that the call makes. -/
def size : Call U → Nat
  | get _ => 1
  | getByName _ => 1
  | getLinked _ => 1
  | preload _ ds => ds.length
  | invalidate _ => 0
  | invalidateAll => 0

variable (call : Call U) (c : Cache U)

theorem answer_replies : (call.replies l c).map Reply.answer = call.answers l c := by
  cases call with
  | get d => exact congrArg (fun x => [x]) (answer_reply l d c)
  | getByName name => exact congrArg (fun x => [x]) (answer_replyByName l c name)
  | getLinked t => exact congrArg (fun x => [x]) (answer_reply l (l.linked t) c)
  | preload threads ds => exact answer_preloadReplies l c ds
  | invalidate name => rfl
  | invalidateAll => rfl

theorem length_answers : (call.answers l c).length = call.size := by
  cases call with
  | preload threads ds =>
    change (lookups l ds c).length = ds.length
    induction ds generalizing c with
    | nil => rfl
    | cons d ds ih => rw [lookups, List.length_cons, List.length_cons, ih]
  | _ => rfl

/-- **Every call is counted by its replies.** -/
theorem tallies_after : c.Tallies (call.replies l c) (call.after l c) := by
  cases call with
  | get d => exact tallies_get l d c
  | getByName name => exact tallies_getByName l c name
  | getLinked t => exact tallies_get l (l.linked t) c
  | preload threads ds => exact tallies_preload l c threads ds
  | invalidate name => exact .of_stats_eq rfl
  | invalidateAll => exact .of_stats_eq rfl

theorem isUnloaded_iff {r : Reply U} (hr : r ∈ call.replies l c) :
    r.isUnloaded = true ↔ ∃ e, r.answer = .error (.load e) := by
  cases call with
  | get d =>
    rw [List.mem_singleton.mp hr]
    exact isUnloaded_reply_iff l d c
  | getLinked t =>
    rw [List.mem_singleton.mp hr]
    exact isUnloaded_reply_iff l (l.linked t) c
  | getByName name =>
    rw [List.mem_singleton.mp hr]
    exact isUnloaded_replyByName_iff l c name
  | preload threads ds => exact isUnloaded_iff_of_mem_preloadReplies l c ds hr
  | invalidate name => cases hr
  | invalidateAll => cases hr

end Call

/-! ## Runs -/

/-- The cache after calls in order, each with the loader as it is by then. -/
def afterAll : List (FiniteLoader U × Call U) → Cache U → Cache U
  | [], c => c
  | (l, call) :: cs, c => afterAll cs (call.after l c)

/-- The answers of all lookups of a run, in order. -/
def allAnswers : List (FiniteLoader U × Call U) → Cache U → List (Except LookupError (Entry U))
  | [], _ => []
  | (l, call) :: cs, c => call.answers l c ++ allAnswers cs (call.after l c)

/-- The number of lookups of a run. -/
def allSize : List (FiniteLoader U × Call U) → Nat
  | [] => 0
  | (_, call) :: cs => call.size + allSize cs

def allReplies : List (FiniteLoader U × Call U) → Cache U → List (Reply U)
  | [], _ => []
  | (l, call) :: cs, c => call.replies l c ++ allReplies cs (call.after l c)

section Runs

variable (cs : List (FiniteLoader U × Call U)) (c : Cache U)

theorem answer_allReplies : (allReplies cs c).map Reply.answer = allAnswers cs c := by
  induction cs generalizing c with
  | nil => rfl
  | cons x cs ih => rw [allReplies, List.map_append, Call.answer_replies, ih, allAnswers]

theorem length_allAnswers : (allAnswers cs c).length = allSize cs := by
  induction cs generalizing c with
  | nil => rfl
  | cons x cs ih => rw [allAnswers, List.length_append, Call.length_answers, ih, allSize]

theorem tallies_afterAll : c.Tallies (allReplies cs c) (afterAll cs c) := by
  induction cs generalizing c with
  | nil => exact .of_stats_eq rfl
  | cons x cs ih => exact (x.2.tallies_after x.1 c).trans (ih _)

theorem isUnloaded_iff_of_mem {r : Reply U} (hr : r ∈ allReplies cs c) :
    r.isUnloaded = true ↔ ∃ e, r.answer = .error (.load e) := by
  induction cs generalizing c with
  | nil => cases hr
  | cons x cs ih =>
    rcases List.mem_append.mp hr with hr | hr
    · exact x.2.isUnloaded_iff x.1 c hr
    · exact ih _ hr

/-- **What a run counts.** A lookup that is answered from an entry is a hit, one that makes an
extraction is a miss. Hits, misses and the lookups of names that could not be loaded are all
lookups; so none is left out exactly if no answer is the error of a load. -/
theorem counts_lookups :
    (allReplies cs c).map Reply.answer = allAnswers cs c ∧
      (allReplies cs c).length = allSize cs ∧
      (afterAll cs c).stats.hits = c.stats.hits + (allReplies cs c).countP (·.isStored) ∧
      (afterAll cs c).stats.misses = c.stats.misses + (allReplies cs c).countP (·.isExtracted) ∧
      (afterAll cs c).stats.hits + (afterAll cs c).stats.misses +
          (allReplies cs c).countP (·.isUnloaded) =
        c.stats.hits + c.stats.misses + allSize cs ∧
      ((afterAll cs c).stats.hits + (afterAll cs c).stats.misses =
          c.stats.hits + c.stats.misses + allSize cs ↔
        ∀ x ∈ allAnswers cs c, ∀ e, x ≠ .error (.load e)) := by
  have hanswers := answer_allReplies cs c
  have hlength : (allReplies cs c).length = allSize cs := by
    rw [← List.length_map Reply.answer, hanswers]
    exact length_allAnswers cs c
  obtain ⟨hhits, hmisses, -, -⟩ := tallies_afterAll cs c
  have hkinds := Reply.countP_add_countP (allReplies cs c)
  refine ⟨hanswers, hlength, hhits, hmisses, by omega, ?_⟩
  have hnone : (allReplies cs c).countP (·.isUnloaded) = 0 ↔
      ∀ x ∈ allAnswers cs c, ∀ e, x ≠ .error (.load e) := by
    rw [List.countP_eq_zero, ← hanswers, List.forall_mem_map]
    refine forall₂_congr fun r hr => ?_
    rw [isUnloaded_iff_of_mem cs c hr, not_exists]
  rw [← hnone]
  omega

end Runs

section Sample

open ComponentHooks.Sample

/-- A cache without entries, on which a name is looked up that no type has. -/
def missed : Cache world :=
  afterAll [(loaderOf [] [], .getByName "Gone")] { capacity := 1, handles := { policy := .all } }

/-- So a lookup may be neither a hit nor a miss. -/
theorem not_forall_counted :
    ¬ ∀ (cs : List (FiniteLoader world × Call world)) (c : Cache world), c.stats = {} →
      (afterAll cs c).stats.hits + (afterAll cs c).stats.misses = allSize cs := by
  intro h
  have hmissed : missed.stats.hits + missed.stats.misses = 1 := h _ _ rfl
  cases hmissed

end Sample

end ComponentHooks.Cache
