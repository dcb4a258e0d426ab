import ComponentHooks.Proofs.Cache.Chronicle
import ComponentHooks.Proofs.Handles.Coherence

/-!
# What a cached lookup answers

The answer of a lookup is given by the past: the entry of the making that stands for the type's
name, and without one a new extraction. As long as nothing changes under a name, nobody can tell the
answer from that of a new extraction.

* `FiniteLoader.outcome`, `Lookup.afresh`: an extraction, and a lookup that knows no cache;
* `World.FollowsPast`: all lookups answer as the past has it;
* `World.UpToDate`, `Lookup.Steady`: nothing has changed under any name, and nothing will;
* **`World.follows_past`**: every world that comes about follows its past, and its answers are those
  of new extractions while types do not change.
-/

namespace ComponentHooks

open Logged

variable {U : Universe} {τ : Type}

/-! ## Lookups without a cache -/

/-- The outcome of an extraction, which is the same on every handle table. -/
def FiniteLoader.outcome (l : FiniteLoader U) (d : TypeDecl U) : Except Cycle (Metadata U) :=
  (extract l d { policy := .disabled }).1

theorem FiniteLoader.extract_fst_eq_outcome (l : FiniteLoader U) (d : TypeDecl U)
    (t : HandleTable U) : (extract l d t).1 = l.outcome d := by
  rw [FiniteLoader.outcome, extract_fst, extract_fst]

/-- The metadata of a type, or why it has none, by a new extraction. -/
def FiniteLoader.afresh (l : FiniteLoader U) (d : TypeDecl U) : Except LookupError (Metadata U) :=
  (l.outcome d).mapError (.caching d.name)

/-- What a lookup would answer without a cache. -/
def Lookup.afresh (l : FiniteLoader U) : Lookup U → Except LookupError (Metadata U)
  | .type d => l.afresh d
  | .name n => (l.load n).mapError .load >>= l.afresh
  | .link t => l.afresh (l.linked t)

/-- A lookup comes to the declaration that `D` has for the name. -/
def Lookup.Steady (l : FiniteLoader U) (D : String → TypeDecl U) : Lookup U → Prop
  | .type d => d = D d.name
  | .name n => l.load n = .ok (D n) ∧ (D n).name = n
  | .link t => l.linked t = D (l.linked t).name

/-- The operation changes what is registered. -/
def Operation.registers : Operation U τ → Bool
  | .register _ => true
  | .unregister _ => true
  | _ => false

/-! ## Lookups and the past -/

namespace World

variable (loaderOf : Registry U → FiniteLoader U)

/-- All lookups answer as the past has it. -/
structure FollowsPast (past : List (Deed U)) (w : World U) : Prop where
  /-- The entries are those of the makings that stand; a making is an extraction of its declaration
  against its registry, and no two have the same serial. -/
  remembers : w.engine.cache.Remembers loaderOf past
  /-- The answer is the entry of the making that stands for the type's name. -/
  type_hit : ∀ d m, standing? d.name past = some m → ∀ l : FiniteLoader U,
    (Lookup.type d).run l w.engine =
      (.ok m.entry, { w.engine with cache := w.engine.cache.countHit }, [])
  /-- Where none stands, the answer is a new making of the type. -/
  type_miss : ∀ d m, standing? d.name past = none → (w.loader loaderOf).outcome d = .ok m →
    let x := (Lookup.type d).run (w.loader loaderOf) w.engine
    let n := w.engine.cache.stats.extractions + 1
    x.1 = .ok ⟨d.name, n, m⟩ ∧ x.2.1.cache.stats.extractions = n ∧
      ∃ gone : List String,
        w.lookupDeeds loaderOf (.type d) = .made ⟨w.registry, d, ⟨d.name, n, m⟩⟩ :: gone.map .dropped
  /-- A failed extraction leaves all entries as they were, and so the next one is made anew. -/
  type_fail : ∀ d c, standing? d.name past = none → (w.loader loaderOf).outcome d = .error c →
    let x := (Lookup.type d).run (w.loader loaderOf) w.engine
    x.1 = .error (.caching d.name c) ∧ x.2.1.cache.entries = w.engine.cache.entries ∧
      x.2.1.cache.stats.extractions = w.engine.cache.stats.extractions + 1 ∧
        w.lookupDeeds loaderOf (.type d) = []
  link : ∀ t (l : FiniteLoader U),
    (Lookup.link t).run l w.engine = (Lookup.type (l.linked t)).run l w.engine
  /-- No loader is asked for a name that has an entry. -/
  name_hit : ∀ n m, standing? n past = some m → ∀ l : FiniteLoader U,
    (Lookup.name n).run l w.engine =
      (.ok m.entry, { w.engine with cache := w.engine.cache.countHit }, [])
  /-- Every other name is loaded, and the lookup is that of the loaded type. -/
  name_miss : ∀ n, standing? n past = none → ∀ l : FiniteLoader U,
    (∀ d, l.load n = .ok d → (Lookup.name n).run l w.engine = (Lookup.type d).run l w.engine) ∧
      ∀ e, l.load n = .error e → (Lookup.name n).run l w.engine = (.error (.load e), w.engine, [])
  /-- Only a failed load makes the error that is one of loading. -/
  load_error : ∀ (q : Lookup U) (e : LoadError),
    (q.run (w.loader loaderOf) w.engine).1 = .error (.load e) ↔
      ∃ n, q = .name n ∧ standing? n past = none ∧ (w.loader loaderOf).load n = .error e

/-- The making that stands for a name, if there is one, is of the declaration that `D` has for the
name, against the registry as it stands now. -/
def UpToDate (D : String → TypeDecl U) (past : List (Deed U)) (w : World U) : Prop :=
  ∀ n m, standing? n past = some m → m.registry = w.registry ∧ m.decl = D n

section Remembered

variable {loaderOf} {R : Reflection U τ} {s : Settings} {past : List (Deed U)} {w : World U}

theorem find?_eq_none_of_standing? (h : w.engine.cache.Remembers loaderOf past) {n : String}
    (hn : standing? n past = none) : w.engine.cache.find? n = none := by
  rw [h.find?, hn, Option.map_none]

theorem find?_eq_some_of_standing? (h : w.engine.cache.Remembers loaderOf past) {n : String}
    {m : Making U} (hn : standing? n past = some m) :
    w.engine.cache.find? n = some m.entry := by
  rw [h.find?, hn, Option.map_some]

theorem run_type_of_find?_eq_some {d : TypeDecl U} {e : Entry U}
    (h : w.engine.cache.find? d.name = some e) (l : FiniteLoader U) :
    (Lookup.type d).run l w.engine =
      (.ok e, { w.engine with cache := w.engine.cache.countHit }, []) := by
  change Engine.onCache (Cache.get l d) w.engine = _
  rw [Engine.onCache, onPart_apply, Cache.get_of_find?_eq_some h]

theorem run_type_of_find?_eq_none {d : TypeDecl U} (h : w.engine.cache.find? d.name = none)
    (l : FiniteLoader U) :
    (Lookup.type d).run l w.engine =
      Engine.onCache (Cache.load l d) { w.engine with cache := w.engine.cache.countMiss } := by
  change Engine.onCache (Cache.get l d) w.engine = _
  rw [Engine.onCache, onPart_apply, Cache.get_of_find?_eq_none h]
  rfl

theorem run_name_of_find?_eq_some {n : String} {e : Entry U}
    (h : w.engine.cache.find? n = some e) (l : FiniteLoader U) :
    (Lookup.name n).run l w.engine =
      (.ok e, { w.engine with cache := w.engine.cache.countHit }, []) := by
  change Engine.onCache (Cache.getByName l n) w.engine = _
  rw [Engine.onCache, onPart_apply, Cache.getByName_of_find?_eq_some h]

theorem run_name_of_load_eq_ok {n : String} {d : TypeDecl U} {l : FiniteLoader U}
    (h : w.engine.cache.find? n = none) (hl : l.load n = .ok d) :
    (Lookup.name n).run l w.engine = (Lookup.type d).run l w.engine := by
  change Engine.onCache (Cache.getByName l n) w.engine = Engine.onCache (Cache.get l d) w.engine
  rw [Engine.onCache, Engine.onCache, onPart_apply, onPart_apply,
    Cache.getByName_of_load_eq_ok h hl]

theorem run_name_of_load_eq_error {n : String} {e : LoadError} {l : FiniteLoader U}
    (h : w.engine.cache.find? n = none) (hl : l.load n = .error e) :
    (Lookup.name n).run l w.engine = (.error (.load e), w.engine, []) := by
  change Engine.onCache (Cache.getByName l n) w.engine = _
  rw [Engine.onCache, onPart_apply, Cache.getByName_of_load_eq_error h hl]

theorem run_type_ne_load_error (d : TypeDecl U) (l : FiniteLoader U) (w : World U) (e : LoadError) :
    ((Lookup.type d).run l w.engine).1 ≠ .error (.load e) := by
  cases h : w.engine.cache.find? d.name with
  | some entry =>
    rw [run_type_of_find?_eq_some h]
    nofun
  | none =>
    rw [run_type_of_find?_eq_none h]
    change (Cache.load l d w.engine.cache.countMiss).1 ≠ _
    cases hx : (extract l d w.engine.cache.countMiss.handles).1 with
    | ok m =>
      rw [(Cache.load_of_ok hx).1]
      nofun
    | error c =>
      rw [(Cache.load_of_error hx).1]
      nofun

variable (h : w.engine.cache.Remembers loaderOf past)

include h

theorem run_type_miss {d : TypeDecl U} {m : Metadata U} (hd : standing? d.name past = none)
    (hm : (w.loader loaderOf).outcome d = .ok m) :
    let x := (Lookup.type d).run (w.loader loaderOf) w.engine
    let n := w.engine.cache.stats.extractions + 1
    x.1 = .ok ⟨d.name, n, m⟩ ∧ x.2.1.cache.stats.extractions = n ∧
      ∃ gone : List String, w.lookupDeeds loaderOf (.type d) =
        .made ⟨w.registry, d, ⟨d.name, n, m⟩⟩ :: gone.map .dropped := by
  intro x n
  have hfind := find?_eq_none_of_standing? h hd
  have hextract : (extract (w.loader loaderOf) d w.engine.cache.countMiss.handles).1 = .ok m := by
    rw [FiniteLoader.extract_fst_eq_outcome, hm]
  obtain ⟨hanswer, hstate⟩ := Cache.load_of_ok hextract
  have hx : x = _ := run_type_of_find?_eq_none hfind (w.loader loaderOf)
  rw [hx]
  refine ⟨hanswer, ?_, ?_⟩
  · change (Cache.load (w.loader loaderOf) d w.engine.cache.countMiss).2.1.stats.extractions = n
    rw [hstate]
    rfl
  · exact Cache.getDeeds_of_load_eq_ok hfind hanswer

theorem run_type_fail {d : TypeDecl U} {c : Cycle} (hd : standing? d.name past = none)
    (hc : (w.loader loaderOf).outcome d = .error c) :
    let x := (Lookup.type d).run (w.loader loaderOf) w.engine
    x.1 = .error (.caching d.name c) ∧ x.2.1.cache.entries = w.engine.cache.entries ∧
      x.2.1.cache.stats.extractions = w.engine.cache.stats.extractions + 1 ∧
        w.lookupDeeds loaderOf (.type d) = [] := by
  intro x
  have hfind := find?_eq_none_of_standing? h hd
  have hextract : (extract (w.loader loaderOf) d w.engine.cache.countMiss.handles).1 =
      .error c := by
    rw [FiniteLoader.extract_fst_eq_outcome, hc]
  obtain ⟨hanswer, hstate⟩ := Cache.load_of_error hextract
  have hx : x = _ := run_type_of_find?_eq_none hfind (w.loader loaderOf)
  have hcache : x.2.1.cache =
      (w.engine.cache.countMiss.extracted (w.loader loaderOf) d).countFailure := by
    rw [hx, ← hstate]
    rfl
  refine ⟨hx ▸ hanswer, ?_, ?_, ?_⟩
  · rw [hcache]
    rfl
  · rw [hcache]
    rfl
  · exact Cache.getDeeds_of_load_eq_error hfind hanswer

theorem load_error_iff (q : Lookup U) (e : LoadError) :
    (q.run (w.loader loaderOf) w.engine).1 = .error (.load e) ↔
      ∃ n, q = .name n ∧ standing? n past = none ∧ (w.loader loaderOf).load n = .error e := by
  cases q with
  | type d => simpa using run_type_ne_load_error d (w.loader loaderOf) w e
  | link t =>
    have htype := run_type_ne_load_error ((w.loader loaderOf).linked t) (w.loader loaderOf) w e
    exact iff_of_false htype (by simp)
  | name n =>
    cases hn : standing? n past with
    | some m => simp [run_name_of_find?_eq_some (find?_eq_some_of_standing? h hn), hn]
    | none =>
      have hfind := find?_eq_none_of_standing? h hn
      cases hl : (w.loader loaderOf).load n with
      | ok d =>
        rw [run_name_of_load_eq_ok hfind hl]
        simpa [hl] using run_type_ne_load_error d (w.loader loaderOf) w e
      | error e' => simp [run_name_of_load_eq_error hfind hl, hn, hl]

theorem followsPast_of_remembers : w.FollowsPast loaderOf past where
  remembers := h
  type_hit _ _ hm := run_type_of_find?_eq_some (find?_eq_some_of_standing? h hm)
  type_miss _ _ := run_type_miss h
  type_fail _ _ := run_type_fail h
  link _ _ := rfl
  name_hit _ _ hm := run_name_of_find?_eq_some (find?_eq_some_of_standing? h hm)
  name_miss _ hn _ :=
    ⟨fun _ => run_name_of_load_eq_ok (find?_eq_none_of_standing? h hn),
      fun _ => run_name_of_load_eq_error (find?_eq_none_of_standing? h hn)⟩
  load_error := load_error_iff h

end Remembered

/-! ## While nothing changes -/

section Steady

variable {loaderOf} {R : Reflection U τ} {s : Settings} {past : List (Deed U)} {w : World U}
  {D : String → TypeDecl U}

theorem FollowsPast.map_metadata_type (h : w.FollowsPast loaderOf past) (hD : w.UpToDate D past)
    {d : TypeDecl U} (hd : d = D d.name) :
    ((Lookup.type d).run (w.loader loaderOf) w.engine).1.map Entry.metadata =
      (w.loader loaderOf).afresh d := by
  rw [FiniteLoader.afresh]
  cases hstanding : standing? d.name past with
  | some m =>
    obtain ⟨hregistry, hdecl⟩ := hD _ _ hstanding
    rw [← hd] at hdecl
    have hmade := (h.remembers.made m (made_mem_of_standing? hstanding).1).2 w.engine.handles
    rw [hregistry, hdecl, FiniteLoader.extract_fst_eq_outcome] at hmade
    have houtcome : (w.loader loaderOf).outcome d = .ok m.entry.metadata := hmade
    rw [h.type_hit d m hstanding, houtcome]
    rfl
  | none =>
    cases houtcome : (w.loader loaderOf).outcome d with
    | ok m =>
      rw [(h.type_miss d m hstanding houtcome).1]
      rfl
    | error c =>
      rw [(h.type_fail d c hstanding houtcome).1]
      rfl

theorem FollowsPast.map_metadata (h : w.FollowsPast loaderOf past) (hD : w.UpToDate D past)
    {q : Lookup U} (hq : q.Steady (w.loader loaderOf) D) :
    (q.run (w.loader loaderOf) w.engine).1.map Entry.metadata = q.afresh (w.loader loaderOf) := by
  cases q with
  | type d => exact h.map_metadata_type hD hq
  | link t => exact h.map_metadata_type hD hq
  | name n =>
    obtain ⟨hload, hname⟩ := hq
    -- The name and the type that it loads have the same entry, or both have none.
    have htype : (Lookup.name n).run (w.loader loaderOf) w.engine =
        (Lookup.type (D n)).run (w.loader loaderOf) w.engine := by
      cases hstanding : standing? n past with
      | some m => rw [h.name_hit n m hstanding, h.type_hit (D n) m (hname.symm ▸ hstanding)]
      | none => exact (h.name_miss n hstanding _).1 _ hload
    rw [htype, h.map_metadata_type hD (congrArg D hname).symm, Lookup.afresh, hload]
    rfl

theorem registry_step (w : World U) {op : Operation U τ} (hop : op.registers = false) :
    (w.step loaderOf R op).registry = w.registry := by
  cases op with
  | register _ | unregister _ => cases hop
  | _ => rfl

/-- An operation that meets only the declarations of `D`, and registers none, leaves a world up to
date that was so before. -/
theorem UpToDate.step (h : Remembered loaderOf R s past w) (hD : w.UpToDate D past)
    {op : Operation U τ} (hregisters : op.registers = false)
    (hmeets : op.Meets (w.loader loaderOf) fun d => d = D d.name) :
    (w.step loaderOf R op).UpToDate D (past ++ w.deeds loaderOf op) := by
  intro n m hm
  rw [registry_step w hregisters]
  rcases standing?_append hm with hold | hnew
  · exact hD n m hold
  · obtain ⟨hregistry, hdecl⟩ := made_mem_deeds hmeets hnew
    obtain ⟨hmem, hname⟩ := made_mem_of_standing? hm
    have hdeclname := ((h.step op).remembers.made m hmem).1
    refine ⟨hregistry, ?_⟩
    rw [← hname, hdeclname]
    exact hdecl

theorem UpToDate.map_metadata_foldl (h : Remembered loaderOf R s past w) (hD : w.UpToDate D past)
    (ops : List (Operation U τ))
    (hops : ∀ op ∈ ops, op.registers = false ∧
      op.Meets (w.loader loaderOf) fun d => d = D d.name)
    {q : Lookup U} (hq : q.Steady (w.loader loaderOf) D) :
    (q.run (w.loader loaderOf) (ops.foldl (World.step loaderOf R) w).engine).1.map Entry.metadata =
      q.afresh (w.loader loaderOf) := by
  induction ops generalizing past w with
  | nil => exact (followsPast_of_remembers h.remembers).map_metadata hD hq
  | cons op ops ih =>
    obtain ⟨hregisters, hmeets⟩ := hops op List.mem_cons_self
    have hloader : (w.step loaderOf R op).loader loaderOf = w.loader loaderOf :=
      congrArg loaderOf (registry_step w hregisters)
    rw [List.foldl_cons, ← hloader]
    rw [← hloader] at hq
    refine ih (h.step op) (hD.step h hregisters hmeets) (fun op' hop' => ?_) hq
    rw [hloader]
    exact hops op' (List.mem_cons_of_mem op hop')

/-- **Lookups follow the past, and while nothing changes nobody can tell.** In every world that
comes about, all lookups answer as the chronicle of its engine has it. From a world on that is up to
date, as long as nothing is registered or unregistered and only the declarations of `D` are met,
every lookup that comes to one of these answers with the metadata of a new extraction, or its
error. -/
theorem follows_past (h : Remembered loaderOf R s past w) :
    w.FollowsPast loaderOf past ∧
      ∀ D : String → TypeDecl U, w.UpToDate D past → ∀ ops : List (Operation U τ),
        (∀ op ∈ ops, op.registers = false ∧
          op.Meets (w.loader loaderOf) fun d => d = D d.name) →
        ∀ q : Lookup U, q.Steady (w.loader loaderOf) D →
          (q.run (w.loader loaderOf)
            (ops.foldl (World.step loaderOf R) w).engine).1.map Entry.metadata =
              q.afresh (w.loader loaderOf) :=
  ⟨followsPast_of_remembers h.remembers, fun _ hD ops hops _ hq =>
    hD.map_metadata_foldl h ops hops hq⟩

end Steady

end World

/-! ## A type that is registered again -/

namespace Sample.Task

open World

/-- The type was registered and looked up. -/
def known : World world :=
  [.register (task .tick), .lookup (.type (task .tick))].foldl (step loaderOf reflection) dawn

/-- What the lookup made. -/
def firstMaking : Making world where
  registry := known.registry
  decl := task .tick
  entry := ⟨"Task", 1, ((known.loader loaderOf).draft (task .tick)).metadata⟩

theorem remembered_known : Remembered loaderOf reflection {} [.made firstMaking] known :=
  ((Remembered.start (fun _ => true) rfl : Remembered loaderOf reflection {} [] dawn).step
    (.register (task .tick))).step (.lookup (.type (task .tick)))

/-- After the type was registered with another body, its lookup still answers with what was made
first. As long as it is not, a lookup of its name answers as anew. -/
theorem follows_past_known :
    ((Lookup.type (task .fail)).run (loaderOf (known.registry.register (task .fail)))
        (known.step loaderOf reflection (.register (task .fail))).engine).1 =
      .ok firstMaking.entry ∧
    ((Lookup.name "Task").run (known.loader loaderOf)
        (known.step loaderOf reflection (.lookup (.name "Task"))).engine).1.map Entry.metadata =
      (Lookup.name "Task").afresh (known.loader loaderOf) := by
  have hrenewed := remembered_known.step (.register (task .fail))
  have hupToDate : known.UpToDate (fun _ => task .tick) [.made firstMaking] := by
    intro n m hm
    have hmem := (made_mem_of_standing? hm).1
    rw [List.mem_singleton] at hmem
    cases hmem
    exact ⟨rfl, rfl⟩
  refine ⟨?_, (follows_past remembered_known).2 _ hupToDate [.lookup (.name "Task")] ?_
    (.name "Task") ⟨rfl, rfl⟩⟩
  · rw [(follows_past hrenewed).1.type_hit (task .fail) firstMaking rfl]
  · intro op hop
    rw [List.mem_singleton] at hop
    subst hop
    refine ⟨rfl, fun d hd => ?_⟩
    cases hd
    rfl

end Sample.Task

end ComponentHooks
