import ComponentHooks.Proofs.Cache.Tally

/-!
# The balance of extractions

What happens to a cache is one lookup after the other, and between any two of them, also in the
middle of a preload, entries may go. A lookup is looked at as it happens: the cache that it meets,
its answer, and the cache that it leaves. It finds an entry, makes one, fails to make one, or does
not know what to look up; and only in the two middle cases is anything extracted.

* `Visit`, `Visit.isHit`, `Visit.stores`: a lookup as it happens; whether it is counted as a hit,
  and whether it leaves an entry that was not there;
* `Visit.Happens`: the four ways in which a lookup can happen;
* `Moment`, `Moment.visits`, **`Moment.happens_of_mem`**: lookups and losses; every lookup happens
  in one of these ways;
* `Balances`, **`Moment.balances_run`**: hits, failures and stored entries against the counters;
* **`afterAll_eq_run`**: calls are moments;
* **`extractions_balance`**: what the counters of a cache come to.
-/

namespace ComponentHooks.Cache

open Logged

variable {U : Universe}

/-! ## Visits -/

/-- The answer says that the metadata of the type could not be extracted. -/
def isExtractionFailure : Except LookupError (Entry U) → Bool
  | .error (.caching _ _) => true
  | _ => false

variable (U) in
/-- A lookup as it happens. -/
structure Visit where
  before : Cache U
  answer : Except LookupError (Entry U)
  after : Cache U
  events : List Event

theorem find?_name (c : Cache U) {name : String} {e : Entry U} (h : c.find? name = some e) :
    c.find? e.name = some e := by
  have hname : e.name = name := by simpa using List.find?_some h
  rwa [hname]

theorem contains_of_mem {c : Cache U} {e : Entry U} (h : e ∈ c.entries) :
    c.contains e.name = true := by
  rw [contains, find?, List.find?_isSome]
  exact ⟨e, h, decide_eq_true rfl⟩

theorem mem_insert_self {c : Cache U} (h : 0 < c.capacity) (e : Entry U) :
    e ∈ (c.insert e).entries := by
  simp only [insert]
  rw [List.drop_append_of_le_length (by simp; omega)]
  exact List.mem_append_right _ (List.mem_singleton_self e)

namespace Visit

/-- The lookup that a step makes on a cache. -/
def of (x : Logged (Cache U) (Except LookupError (Entry U))) (c : Cache U) : Visit U :=
  ⟨c, (x c).1, (x c).2.1, (x c).2.2⟩

/-- The lookup is counted as a hit. -/
def isHit (v : Visit U) : Bool := v.before.stats.hits < v.after.stats.hits

/-- The lookup leaves an entry of a name that had none. -/
def stores (v : Visit U) : Bool := v.after.entries.any fun e => !v.before.contains e.name

theorem isHit_of_hits_eq {v : Visit U} (h : v.after.stats.hits = v.before.stats.hits) :
    v.isHit = false := by
  rw [isHit, h]
  exact decide_eq_false (Nat.lt_irrefl _)

theorem stores_of_entries_eq {v : Visit U} (h : v.after.entries = v.before.entries) :
    v.stores = false := by
  rw [stores, h, List.any_eq_false]
  intro e he
  rw [contains_of_mem he]
  exact Bool.false_ne_true

theorem stores_of_mem {v : Visit U} {e : Entry U} (he : e ∈ v.after.entries)
    (hnew : v.before.find? e.name = none) : v.stores = true := by
  rw [stores, List.any_eq_true]
  refine ⟨e, he, ?_⟩
  rw [contains, hnew]
  rfl

/-- How a lookup can happen. -/
inductive Happens (l : FiniteLoader U) : Visit U → Prop where
  | hit {c : Cache U} {e : Entry U} (old : c.find? e.name = some e) :
    Happens l ⟨c, .ok e, c.countHit, []⟩
  | made {c : Cache U} {d : TypeDecl U} {e : Entry U} {events : List Event}
    (new : c.find? d.name = none) (name_eq : e.name = d.name) :
    Happens l ⟨c, .ok e, (c.countMiss.extracted l d).insert e, events⟩
  | failed {c : Cache U} {d : TypeDecl U} {cause : Cycle} {events : List Event} :
    Happens l ⟨c, .error (.caching d.name cause), (c.countMiss.extracted l d).countFailure, events⟩
  | unloaded {c : Cache U} {e : LoadError} : Happens l ⟨c, .error (.load e), c, []⟩

end Visit

section Lookups

variable (l : FiniteLoader U) (d : TypeDecl U) (c : Cache U)

theorem happens_load (h : c.find? d.name = none) :
    Visit.Happens l ⟨c, (load l d c.countMiss).1, (load l d c.countMiss).2.1,
      (load l d c.countMiss).2.2⟩ := by
  cases hx : (extract l d c.countMiss.handles).1 with
  | ok m =>
    rw [(load_of_ok hx).1, (load_of_ok hx).2]
    exact .made h rfl
  | error cause =>
    rw [(load_of_error hx).1, (load_of_error hx).2]
    exact .failed

theorem happens_get : Visit.Happens l (.of (get l d) c) := by
  rw [Visit.of]
  cases h : c.find? d.name with
  | some e =>
    rw [get_of_find?_eq_some h]
    exact .hit (c.find?_name h)
  | none =>
    rw [get_of_find?_eq_none h]
    exact happens_load l d c h

theorem happens_getByName (name : String) : Visit.Happens l (.of (getByName l name) c) := by
  rw [Visit.of]
  cases h : c.find? name with
  | some e =>
    rw [getByName_of_find?_eq_some h]
    exact .hit (c.find?_name h)
  | none =>
    cases hl : l.load name with
    | ok d =>
      rw [getByName_of_load_eq_ok h hl]
      exact happens_get l d c
    | error e =>
      rw [getByName_of_load_eq_error h hl]
      exact .unloaded

end Lookups

namespace Visit.Happens

variable {l : FiniteLoader U} {v : Visit U}

/-- **A hit finds its answer among the entries**, and changes nothing but the number of hits. -/
theorem of_isHit (h : v.Happens l) (hhit : v.isHit = true) :
    v.after = v.before.countHit ∧ v.events = [] ∧ ∃ e ∈ v.before.entries, v.answer = .ok e := by
  rw [isHit, decide_eq_true_eq] at hhit
  cases h with
  | hit old => exact ⟨rfl, rfl, _, List.mem_of_find?_eq_some old, rfl⟩
  | made _ _ => exact absurd hhit (Nat.lt_irrefl _)
  | failed => exact absurd hhit (Nat.lt_irrefl _)
  | unloaded => exact absurd hhit (Nat.lt_irrefl _)

/-- **What a lookup stores is its answer**; else it leaves the entries as they are. -/
theorem of_stores (h : v.Happens l) (hcapacity : 0 < v.before.capacity) :
    if v.stores then
      ∃ e, v.answer = .ok e ∧ e ∈ v.after.entries ∧ v.before.contains e.name = false
    else v.after.entries = v.before.entries := by
  cases h with
  | hit old => rw [stores_of_entries_eq rfl]; rfl
  | @made c d e events new name_eq =>
    have hnew : c.find? e.name = none := name_eq ▸ new
    have hmem : e ∈ ((c.countMiss.extracted l d).insert e).entries :=
      mem_insert_self hcapacity e
    rw [if_pos (stores_of_mem hmem hnew)]
    exact ⟨e, rfl, hmem, by rw [contains, hnew]; rfl⟩
  | failed => rw [stores_of_entries_eq rfl]; rfl
  | unloaded => rw [stores_of_entries_eq rfl]; rfl

end Visit.Happens

/-! ## Moments -/

variable (U) in
/-- What happens to a cache: a lookup, alone or in a preload, with the loader as it is by then; or
entries go, for they are invalidated, have stood too long or make room. -/
inductive Moment where
  | get (l : FiniteLoader U) (d : TypeDecl U)
  | getByName (l : FiniteLoader U) (name : String)
  | lose (gone : String → Bool)

namespace Moment

/-- The cache after the moment. -/
def after (c : Cache U) : Moment U → Cache U
  | get l d => (Cache.get l d c).2.1
  | getByName l name => (Cache.getByName l name c).2.1
  | lose gone => { c with entries := c.entries.filter fun e => !gone e.name }

/-- The lookup that happens, if one does. -/
def visit? (c : Cache U) : Moment U → Option (Visit U)
  | get l d => some (.of (Cache.get l d) c)
  | getByName l name => some (.of (Cache.getByName l name) c)
  | lose _ => none

/-- The lookups that happen, in order. -/
def visits : List (Moment U) → Cache U → List (Visit U)
  | [], _ => []
  | m :: ms, c => (m.visit? c).toList ++ visits ms (m.after c)

/-- The cache after moments in order. -/
def run (ms : List (Moment U)) (c : Cache U) : Cache U := ms.foldl after c

theorem happens_of_mem_visit? {m : Moment U} {c : Cache U} {v : Visit U} (hv : v ∈ m.visit? c) :
    v.before = c ∧ ∃ l, v.Happens l := by
  cases m with
  | get l d =>
    cases hv
    exact ⟨rfl, l, happens_get l d c⟩
  | getByName l name =>
    cases hv
    exact ⟨rfl, l, happens_getByName l c name⟩
  | lose gone => cases hv

end Moment

/-! ## Counters -/

/-- The counters go up by hits, by failed extractions, and by these and stored entries together. -/
structure Balances (c : Cache U) (vs : List (Visit U)) (c' : Cache U) : Prop where
  capacity : c'.capacity = c.capacity
  hits : c'.stats.hits = c.stats.hits + vs.countP (·.isHit)
  misses : c'.stats.extractions + c.stats.misses = c.stats.extractions + c'.stats.misses
  failures : c'.stats.failures =
    c.stats.failures + vs.countP fun v => isExtractionFailure v.answer
  stored : 0 < c.capacity → c'.stats.extractions + c.stats.failures =
    c.stats.extractions + c'.stats.failures + vs.countP (·.stores)

theorem Balances.of_stats_eq {c c' : Cache U} (hcapacity : c'.capacity = c.capacity)
    (h : c'.stats = c.stats) : c.Balances [] c' := by
  refine ⟨hcapacity, ?_, ?_, ?_, fun _ => ?_⟩ <;> rw [h] <;> rfl

theorem Balances.trans {c c' c'' : Cache U} {vs ws : List (Visit U)} (h : c.Balances vs c')
    (h' : c'.Balances ws c'') : c.Balances (vs ++ ws) c'' := by
  obtain ⟨hcapacity, hhits, hmisses, hfailures, hstored⟩ := h
  obtain ⟨hcapacity', hhits', hmisses', hfailures', hstored'⟩ := h'
  refine ⟨hcapacity'.trans hcapacity, ?_, by omega, ?_, fun h => ?_⟩
  · rw [List.countP_append]
    omega
  · rw [List.countP_append]
    omega
  · have hleft := hstored h
    have hright := hstored' (hcapacity ▸ h)
    rw [List.countP_append]
    omega

theorem Visit.Happens.balances {l : FiniteLoader U} {v : Visit U} (h : v.Happens l) :
    v.before.Balances [v] v.after := by
  cases h with
  | @hit c e old =>
    have hhit : Visit.isHit ⟨c, .ok e, c.countHit, []⟩ = true :=
      decide_eq_true (Nat.lt_succ_self _)
    refine ⟨rfl, ?_, rfl, rfl, fun _ => ?_⟩
    · rw [List.countP_singleton, hhit, if_pos rfl]
      rfl
    · rw [List.countP_singleton, Visit.stores_of_entries_eq rfl]
      rfl
  | @made c d e events new name_eq =>
    refine ⟨rfl, ?_, Nat.add_right_comm _ 1 _, rfl, fun hcapacity => ?_⟩
    · rw [List.countP_singleton, Visit.isHit_of_hits_eq rfl]
      rfl
    · have hmem : e ∈ ((c.countMiss.extracted l d).insert e).entries :=
        mem_insert_self hcapacity e
      rw [List.countP_singleton, Visit.stores_of_mem hmem (name_eq ▸ new)]
      exact Nat.add_right_comm _ 1 _
  | failed =>
    refine ⟨rfl, ?_, Nat.add_right_comm _ 1 _, rfl, fun _ => ?_⟩
    · rw [List.countP_singleton, Visit.isHit_of_hits_eq rfl]
      rfl
    · rw [List.countP_singleton, Visit.stores_of_entries_eq rfl]
      exact Nat.add_right_comm _ 1 _
  | unloaded =>
    refine ⟨rfl, ?_, rfl, rfl, fun _ => ?_⟩
    · rw [List.countP_singleton, Visit.isHit_of_hits_eq rfl]
      rfl
    · rw [List.countP_singleton, Visit.stores_of_entries_eq rfl]
      rfl

namespace Moment

theorem balances_after (m : Moment U) (c : Cache U) :
    c.Balances (m.visit? c).toList (m.after c) := by
  cases m with
  | get l d => exact (happens_get l d c).balances
  | getByName l name => exact (happens_getByName l c name).balances
  | lose gone => exact .of_stats_eq rfl rfl

/-- **Every moment keeps the balance**, and so does every run of them. -/
theorem balances_run (ms : List (Moment U)) (c : Cache U) :
    c.Balances (visits ms c) (run ms c) := by
  induction ms generalizing c with
  | nil => exact .of_stats_eq rfl rfl
  | cons m ms ih => exact (m.balances_after c).trans (ih _)

/-- **Every lookup happens in one of the four ways**, on a cache of the same capacity. -/
theorem happens_of_mem {ms : List (Moment U)} {c : Cache U} {v : Visit U} (hv : v ∈ visits ms c) :
    v.before.capacity = c.capacity ∧ ∃ l, v.Happens l := by
  induction ms generalizing c with
  | nil => cases hv
  | cons m ms ih =>
    rcases List.mem_append.mp hv with hv | hv
    · obtain ⟨rfl, hhappens⟩ := happens_of_mem_visit? (Option.mem_toList.mp hv)
      exact ⟨rfl, hhappens⟩
    · obtain ⟨hcapacity, hhappens⟩ := ih hv
      exact ⟨hcapacity.trans (m.balances_after c).capacity, hhappens⟩

theorem visits_append (ms ns : List (Moment U)) (c : Cache U) :
    visits (ms ++ ns) c = visits ms c ++ visits ns (run ms c) := by
  induction ms generalizing c with
  | nil => rfl
  | cons m ms ih => rw [List.cons_append, visits, ih, visits, List.append_assoc]; rfl

end Moment

/-! ## Calls -/

/-- What happens in a call, one after the other. -/
def Call.moments (l : FiniteLoader U) : Call U → List (Moment U)
  | get d => [.get l d]
  | getByName name => [.getByName l name]
  | getLinked t => [.get l (l.linked t)]
  | preload _ ds => ds.map (.get l)
  | invalidate name => [.lose (· = name)]
  | invalidateAll => [.lose fun _ => true]

/-- A preload leaves what its lookups leave, one after the other. -/
theorem state_preload (l : FiniteLoader U) (threads : Option UInt64) (ds : List (TypeDecl U))
    (c : Cache U) : (preload l threads ds c).2.1 = Moment.run (ds.map (.get l)) c := by
  have hfold : ∀ (report : PreloadReport) (c : Cache U),
      (ds.foldlM (preloadOne l) report c).2.1 = Moment.run (ds.map (.get l)) c := by
    induction ds with
    | nil => exact fun _ _ => rfl
    | cons d ds ih =>
      intro report c
      rw [List.foldlM_cons, bind_apply, ih, preloadOne_state report]
      rfl
  exact hfold {} c

theorem answer_visits_preload (l : FiniteLoader U) (ds : List (TypeDecl U)) (c : Cache U) :
    (Moment.visits (ds.map (.get l)) c).map Visit.answer = lookups l ds c := by
  induction ds generalizing c with
  | nil => rfl
  | cons d ds ih => exact congrArg (_ :: ·) (ih _)

namespace Call

variable (l : FiniteLoader U) (call : Call U) (c : Cache U)

theorem after_eq_run : call.after l c = Moment.run (call.moments l) c := by
  cases call with
  | preload threads ds => exact state_preload l threads ds c
  | invalidate name => simp [after, moments, Moment.run, Moment.after, Cache.invalidate]
  | invalidateAll => simp [after, moments, Moment.run, Moment.after, Cache.invalidateAll]
  | _ => rfl

theorem answers_eq_visits :
    call.answers l c = (Moment.visits (call.moments l) c).map Visit.answer := by
  cases call with
  | preload threads ds => exact (answer_visits_preload l ds c).symm
  | _ => rfl

end Call

/-- What happens in calls in order. -/
def allMoments (cs : List (FiniteLoader U × Call U)) : List (Moment U) :=
  cs.flatMap fun x => x.2.moments x.1

theorem allMoments_cons (x : FiniteLoader U × Call U) (cs : List (FiniteLoader U × Call U)) :
    allMoments (x :: cs) = x.2.moments x.1 ++ allMoments cs :=
  List.flatMap_cons

section Runs

variable (cs : List (FiniteLoader U × Call U)) (c : Cache U)

/-- **Calls are moments.** -/
theorem afterAll_eq_run : afterAll cs c = Moment.run (allMoments cs) c := by
  induction cs generalizing c with
  | nil => rfl
  | cons x cs ih =>
    rw [afterAll, ih, Call.after_eq_run, allMoments_cons, Moment.run, Moment.run, Moment.run,
      List.foldl_append]

theorem allAnswers_eq_visits :
    allAnswers cs c = (Moment.visits (allMoments cs) c).map Visit.answer := by
  induction cs generalizing c with
  | nil => rfl
  | cons x cs ih =>
    rw [allAnswers, ih, Call.answers_eq_visits, Call.after_eq_run, allMoments_cons,
      Moment.visits_append, List.map_append]

end Runs

/-! ## The balance -/

/-- **What the counters of a cache come to**, whatever handle table it shares, with any loader at
each lookup, and with entries that go at any time. Extractions are misses; failures are the lookups
that are answered so; if there is room for an entry, all other extractions are lookups that stored
their answer, and no other lookup changes the entries; and a hit finds its answer there, and leaves
the cache as it is but for the number of hits. -/
theorem extractions_balance (capacity : Nat) (handles : HandleTable U) (ms : List (Moment U)) :
    let c : Cache U := { capacity, handles }
    let stats := (Moment.run ms c).stats
    let vs := Moment.visits ms c
    stats.extractions = stats.misses ∧
      stats.failures = vs.countP (fun v => isExtractionFailure v.answer) ∧
      (0 < capacity → stats.extractions = stats.failures + vs.countP (·.stores) ∧
        ∀ v ∈ vs, if v.stores then
          ∃ e, v.answer = .ok e ∧ e ∈ v.after.entries ∧ v.before.contains e.name = false
        else v.after.entries = v.before.entries) ∧
      stats.hits = vs.countP (·.isHit) ∧
      (∀ v ∈ vs, v.isHit = true → v.after = v.before.countHit ∧ v.events = [] ∧
        ∃ e ∈ v.before.entries, v.answer = .ok e) ∧
      ∀ cs : List (FiniteLoader U × Call U), ms = allMoments cs →
        (afterAll cs c).stats = stats ∧ allAnswers cs c = vs.map Visit.answer := by
  intro c stats vs
  obtain ⟨-, hhits, hmisses, hfailures, hstored⟩ := Moment.balances_run ms c
  have hstart : c.stats = {} := rfl
  rw [hstart] at hhits hmisses hfailures hstored
  refine ⟨?_, ?_, fun hcapacity => ⟨?_, fun v hv => ?_⟩, ?_, fun v hv hhit => ?_, fun cs hms => ?_⟩
  · exact hmisses.trans (Nat.zero_add _)
  · exact hfailures.trans (Nat.zero_add _)
  · exact (hstored hcapacity).trans (congrArg (· + _) (Nat.zero_add _))
  · obtain ⟨hv, l, hhappens⟩ := Moment.happens_of_mem hv
    exact hhappens.of_stores (hv.symm ▸ hcapacity)
  · exact hhits.trans (Nat.zero_add _)
  · obtain ⟨-, l, hhappens⟩ := Moment.happens_of_mem hv
    exact hhappens.of_isHit hhit
  · subst hms
    exact ⟨congrArg (·.stats) (afterAll_eq_run cs c), allAnswers_eq_visits cs c⟩

section Sample

open ComponentHooks.Sample

/-- A type is looked up twice, and once more after its entry has gone; then one that sits below a
ring, and a name that no type has. -/
def reruns : List (Moment world) :=
  [.get Diamond.loader Diamond.bottom, .get Diamond.loader Diamond.bottom, .lose (· = "Bottom"),
    .get Diamond.loader Diamond.bottom, .get Ring.loader Ring.below, .getByName Ring.loader "Gone"]

theorem stats_reruns :
    (Moment.run reruns { capacity := 1, handles := { policy := .all } }).stats =
      { hits := 1, misses := 3, extractions := 3, failures := 1 } := by
  decide +kernel

/-- Three extractions are one that failed and two that were stored. -/
theorem extractions_balance_reruns :
    0 < 1 ∧ (Moment.visits reruns { capacity := 1, handles := { policy := .all } }).countP
      (·.stores) = 2 := by
  have hbalance := ((extractions_balance 1 { policy := .all } reruns).2.2.1 Nat.one_pos).1
  rw [stats_reruns] at hbalance
  exact ⟨Nat.one_pos, (Nat.add_left_cancel hbalance).symm⟩

end Sample

end ComponentHooks.Cache
