import ComponentHooks.Proofs.Cache.Transparency
import Mathlib.Data.Finset.Card

/-!
# Preloading in any order

Where equal names and equal identities mean the same types and members, and there is room for all,
it makes no difference in which order types are looked up.

* `Cache.metadata?`, `Cache.Room`: the metadata of a name; room for entries of names;
* `Cache.loads`: a lookup of a type would succeed;
* `Cache.lookups`: the answers of the lookups of a preload;
* `Cache.metadata?_get`, `Cache.Room.get`: a lookup, and the room that is left;
* `Cache.metadata?_foldlM`, `Cache.isOk_lookups`, `Cache.mem_preloadRequests`: what lookups in order
  come to, said without the order;
* **`Cache.preload_perm`**: a preload does not depend on the order of its types.
-/

namespace ComponentHooks.Cache

open Logged

variable {U : Universe}

/-! ## One lookup -/

/-- The metadata of a name. -/
def metadata? (c : Cache U) (n : String) : Option (Metadata U) := (c.find? n).map Entry.metadata

/-- There is room for an entry of each of the names that has none. -/
def Room (c : Cache U) (ns : List String) : Prop :=
  c.entries.length + (ns.toFinset.filter fun n => c.contains n = false).card ≤ c.capacity

instance (c : Cache U) (ns : List String) : Decidable (c.Room ns) :=
  inferInstanceAs (Decidable (_ ≤ _))

/-- A lookup of the type would succeed: it has an entry, or its extraction succeeds. -/
def loads (l : FiniteLoader U) (c : Cache U) (d : TypeDecl U) : Bool :=
  c.contains d.name || (l.outcome d).isOk

variable {l : FiniteLoader U} {c : Cache U} {d : TypeDecl U} {ds es : List (TypeDecl U)}
  {ns : List String}

theorem contains_eq_isSome (c : Cache U) (n : String) : c.contains n = (c.metadata? n).isSome := by
  rw [contains, metadata?, Option.isSome_map]

theorem find?_eq_none_iff {n : String} : c.find? n = none ↔ c.contains n = false := by
  rw [contains, Option.isSome_eq_false_iff, Option.isNone_iff_eq_none]

theorem metadata?_congr {c c' : Cache U} (h : c'.entries = c.entries) (n : String) :
    c'.metadata? n = c.metadata? n := by
  rw [metadata?, metadata?, find?, find?, h]

theorem entries_insert_of_room {e : Entry U} (hnew : c.find? e.name = none)
    (hroom : c.entries.length < c.capacity) : (c.insert e).entries = c.entries ++ [e] := by
  have hdrop : (c.entries ++ [e]).length - c.capacity = 0 := by
    rw [List.length_append, List.length_singleton]
    omega
  rw [entries_insert hnew, hdrop, List.drop_zero]

theorem Room.lt (h : c.Room (d.name :: ns)) (hnew : c.find? d.name = none) :
    c.entries.length < c.capacity := by
  have hmem : d.name ∈ (d.name :: ns).toFinset.filter fun n => c.contains n = false :=
    Finset.mem_filter.mpr ⟨by simp, find?_eq_none_iff.mp hnew⟩
  have hpos := Finset.card_pos.mpr ⟨_, hmem⟩
  unfold Room at h
  omega

theorem get_cases (hroom : c.find? d.name = none → c.entries.length < c.capacity) :
    (c.contains d.name = true ∧ (get l d c).1.isOk = true ∧
      (get l d c).2.1.entries = c.entries) ∨
    (c.contains d.name = false ∧ (get l d c).1.isOk = true ∧ ∃ m, l.outcome d = .ok m ∧
      ∃ n, (get l d c).2.1.entries = c.entries ++ [⟨d.name, n, m⟩]) ∨
    (c.contains d.name = false ∧ (get l d c).1.isOk = false ∧ (∃ cause, l.outcome d = .error cause) ∧
      (get l d c).2.1.entries = c.entries) := by
  cases h : c.find? d.name with
  | some e =>
    rw [get_of_find?_eq_some h]
    exact .inl ⟨by rw [contains, h]; rfl, rfl, rfl⟩
  | none =>
    rw [get_of_find?_eq_none h]
    have hnew := find?_eq_none_iff.mp h
    cases hx : l.outcome d with
    | ok m =>
      obtain ⟨hanswer, hstate⟩ :=
        load_of_ok (c := c.countMiss) ((l.extract_fst_eq_outcome d _).trans hx)
      refine .inr (.inl ⟨hnew, by rw [hanswer]; rfl, m, rfl,
        (c.countMiss.extracted l d).stats.extractions, ?_⟩)
      rw [hstate]
      exact entries_insert_of_room h (hroom h)
    | error cause =>
      obtain ⟨hanswer, hstate⟩ :=
        load_of_error (c := c.countMiss) ((l.extract_fst_eq_outcome d _).trans hx)
      refine .inr (.inr ⟨hnew, by rw [hanswer]; rfl, ⟨cause, rfl⟩, ?_⟩)
      rw [hstate]
      rfl

theorem capacity_get (l : FiniteLoader U) (d : TypeDecl U) (c : Cache U) :
    (get l d c).2.1.capacity = c.capacity := by
  cases h : c.find? d.name with
  | some e => rw [get_of_find?_eq_some h]; rfl
  | none =>
    rw [get_of_find?_eq_none h]
    cases hx : (extract l d c.countMiss.handles).1 with
    | ok m => rw [(load_of_ok hx).2]; rfl
    | error cause => rw [(load_of_error hx).2]; rfl

/-- **A lookup leaves all metadata and adds that of its type**, if the extraction succeeds. -/
theorem metadata?_get (hroom : c.Room (d.name :: ns)) (n : String) :
    (get l d c).2.1.metadata? n =
      (c.metadata? n).or (if d.name = n then (l.outcome d).toOption else none) := by
  rcases get_cases (l := l) hroom.lt with ⟨hold, -, hentries⟩ | ⟨-, -, m, hm, k, hentries⟩ |
    ⟨-, -, ⟨cause, hcause⟩, hentries⟩
  · rw [metadata?_congr hentries]
    by_cases hn : d.name = n
    · subst hn
      rw [contains_eq_isSome] at hold
      rw [Option.or_of_isSome hold]
    · rw [if_neg hn, Option.or_none]
  · rw [metadata?, find?, hentries, List.find?_append, Option.map_or, hm]
    congr 1
    by_cases hn : d.name = n
    · simp [hn, Except.toOption]
    · simp [hn]
  · rw [metadata?_congr hentries, hcause]
    simp [Except.toOption]

theorem isOk_get (hroom : c.Room (d.name :: ns)) : (get l d c).1.isOk = c.loads l d := by
  rcases get_cases (l := l) hroom.lt with ⟨hold, hok, -⟩ | ⟨hnew, hok, m, hm, -⟩ |
    ⟨hnew, hok, ⟨cause, hcause⟩, -⟩
  · rw [hok, loads, hold, Bool.true_or]
  · rw [hok, loads, hnew, hm]
    rfl
  · rw [hok, loads, hnew, hcause]
    rfl

theorem Room.get (hroom : c.Room (d.name :: ns)) : (get l d c).2.1.Room ns := by
  have hcontains : ∀ n, (Cache.get l d c).2.1.contains n = false → c.contains n = false := by
    intro n hn
    rw [contains_eq_isSome, metadata?_get hroom, Option.isSome_or, Bool.or_eq_false_iff] at hn
    rw [contains_eq_isSome]
    exact hn.1
  have hsub : (ns.toFinset.filter fun n => (Cache.get l d c).2.1.contains n = false) ⊆
      (d.name :: ns).toFinset.filter fun n => c.contains n = false := by
    intro n hn
    obtain ⟨hmem, hnew⟩ := Finset.mem_filter.mp hn
    rw [List.mem_toFinset] at hmem
    exact Finset.mem_filter.mpr ⟨by simp [hmem], hcontains n hnew⟩
  have hcard := Finset.card_le_card hsub
  have hroom' := hroom
  unfold Room at hroom' ⊢
  rw [capacity_get]
  rcases get_cases (l := l) hroom.lt with ⟨-, -, hentries⟩ | ⟨hnew, -, m, hm, k, hentries⟩ |
    ⟨-, -, -, hentries⟩
  · rw [hentries]
    omega
  · -- The type's name was one of those without an entry and is none of them any more.
    have hmem : d.name ∈ (d.name :: ns).toFinset.filter fun n => c.contains n = false :=
      Finset.mem_filter.mpr ⟨by simp, hnew⟩
    have hgone : d.name ∉ ns.toFinset.filter fun n =>
        (Cache.get l d c).2.1.contains n = false := by
      intro hmem
      have hmade := (Finset.mem_filter.mp hmem).2
      rw [contains, find?, hentries] at hmade
      simp at hmade
    have hless := Finset.card_le_card (Finset.insert_subset hmem hsub)
    rw [Finset.card_insert_of_notMem hgone] at hless
    rw [hentries, List.length_append, List.length_singleton]
    omega
  · rw [hentries]
    omega

/-! ## Lookups in order -/

/-- The answers of lookups of types in order. -/
def lookups (l : FiniteLoader U) : List (TypeDecl U) → Cache U → List (Except LookupError (Entry U))
  | [], _ => []
  | d :: ds, c => (get l d c).1 :: lookups l ds (get l d c).2.1

theorem fst_foldlM_preloadOne (l : FiniteLoader U) (es : List (TypeDecl U)) (r : PreloadReport)
    (c : Cache U) :
    (es.foldlM (preloadOne l) r c).1 =
      ⟨r.loaded + (lookups l es c).countP (·.isOk), r.failed + (lookups l es c).countP (!·.isOk)⟩ := by
  induction es generalizing r c with
  | nil => rfl
  | cons d es ih =>
    have hone : (preloadOne l r d c).1 =
        if (get l d c).1.isOk then { r with loaded := r.loaded + 1 }
        else { r with failed := r.failed + 1 } := by
      unfold preloadOne
      rw [bind_apply]
      cases (get l d c).1 <;> rfl
    rw [List.foldlM_cons, bind_apply, ih, preloadOne_state, hone, lookups, List.countP_cons,
      List.countP_cons]
    cases (get l d c).1.isOk <;> simp <;> omega

section Named

variable (hnames : Set.InjOn TypeDecl.name {x | x ∈ d :: es}) (hroom : c.Room (d.name :: ns))

include hnames hroom

theorem loads_get {e : TypeDecl U} (he : e ∈ es) : (get l d c).2.1.loads l e = c.loads l e := by
  rw [loads, loads, contains_eq_isSome, metadata?_get hroom, contains_eq_isSome, Option.isSome_or]
  by_cases hn : d.name = e.name
  · have hde : d = e := hnames List.mem_cons_self (List.mem_cons_of_mem _ he) hn
    rw [hde, if_pos rfl, Bool.or_assoc]
    congr 1
    cases l.outcome e <;> rfl
  · rw [if_neg hn, Option.isSome_none, Bool.or_false]

end Named

theorem injOn_tail (h : Set.InjOn TypeDecl.name {x | x ∈ d :: es}) :
    Set.InjOn TypeDecl.name {x | x ∈ es} := h.mono fun _ => List.mem_cons_of_mem _

section Runs

variable (hnames : Set.InjOn TypeDecl.name {d | d ∈ es}) (hroom : c.Room (es.map (·.name)))

include hnames hroom

theorem isOk_lookups : (lookups l es c).map (·.isOk) = es.map (c.loads l) := by
  induction es generalizing c with
  | nil => rfl
  | cons d es ih =>
    rw [lookups, List.map_cons, List.map_cons, isOk_get hroom, ih (injOn_tail hnames) hroom.get]
    exact congrArg _ (List.map_congr_left fun e he => loads_get hnames hroom he)

theorem metadata?_foldlM (r : PreloadReport) (n : String) :
    (es.foldlM (preloadOne l) r c).2.1.metadata? n =
      (c.metadata? n).or ((es.find? (·.name = n)).bind fun d => (l.outcome d).toOption) := by
  induction es generalizing c r with
  | nil => exact Option.or_none.symm
  | cons d es ih =>
    rw [List.foldlM_cons, bind_apply, preloadOne_state, ih (injOn_tail hnames) hroom.get,
      metadata?_get hroom, Option.or_assoc, List.find?_cons]
    by_cases hn : d.name = n
    · -- A further type of the name is the same one.
      have hrest : ∀ e, es.find? (·.name = n) = some e → e = d := by
        intro e he
        have hname : e.name = n := by simpa using List.find?_some he
        exact hnames (List.mem_cons_of_mem _ (List.mem_of_find?_eq_some he)) List.mem_cons_self
          (hname.trans hn.symm)
      rw [if_pos hn, decide_eq_true hn]
      cases he : es.find? (·.name = n) with
      | none => simp
      | some e => simp [hrest e he]
    · rw [if_neg hn, decide_eq_false hn, Option.none_or]

/-- **What lookups in order ask for**: what the drafts of the types without an entry do. -/
theorem mem_preloadRequests {r : Request U} :
    r ∈ c.preloadRequests l es ↔
      ∃ d ∈ es, c.find? d.name = none ∧ r ∈ (l.draft d).requests := by
  induction es generalizing c with
  | nil => simp [preloadRequests]
  | cons d es ih =>
    have hget : r ∈ c.getRequests l d ↔ c.find? d.name = none ∧ r ∈ (l.draft d).requests := by
      unfold getRequests
      cases c.find? d.name <;> simp
    have hkept : ∀ n, (get l d c).2.1.find? n = none → c.find? n = none := by
      intro n hn
      rw [find?_eq_none_iff, contains_eq_isSome, metadata?_get hroom, Option.isSome_or,
        Bool.or_eq_false_iff, ← contains_eq_isSome] at hn
      exact find?_eq_none_iff.mpr hn.1
    rw [preloadRequests, List.mem_append, hget, ih (injOn_tail hnames) hroom.get,
      List.exists_mem_cons_iff]
    constructor
    · rintro (hd | ⟨e, he, hnew, hr⟩)
      · exact .inl hd
      · exact .inr ⟨e, he, hkept _ hnew, hr⟩
    · rintro (hd | ⟨e, he, hnew, hr⟩)
      · exact .inl hd
      · by_cases hn : d.name = e.name
        · have hde : d = e := hnames List.mem_cons_self (List.mem_cons_of_mem _ he) hn
          exact .inl ⟨hde ▸ hnew, hde ▸ hr⟩
        · refine .inr ⟨e, he, ?_, hr⟩
          rw [find?_eq_none_iff, contains_eq_isSome, metadata?_get hroom, if_neg hn, Option.or_none,
            ← contains_eq_isSome]
          exact find?_eq_none_iff.mp hnew

end Runs

/-! ## Any order -/

theorem find?_key_eq_some_iff {α β : Type} [DecidableEq β] {key : α → β} {xs : List α}
    (hkey : Set.InjOn key {x | x ∈ xs}) {b : β} {a : α} :
    xs.find? (key · = b) = some a ↔ a ∈ xs ∧ key a = b := by
  refine ⟨fun h => ⟨List.mem_of_find?_eq_some h, by simpa using List.find?_some h⟩, ?_⟩
  rintro ⟨ha, rfl⟩
  obtain ⟨x, hx⟩ : ∃ x, xs.find? (key · = key a) = some x := by
    rw [← Option.isSome_iff_exists, List.find?_isSome]
    exact ⟨a, ha, by simp⟩
  have hname : key x = key a := by simpa using List.find?_some hx
  rw [hx, hkey (List.mem_of_find?_eq_some hx) ha hname]

theorem find?_key_congr {α β : Type} [DecidableEq β] {key : α → β} {xs ys : List α}
    (hmem : ∀ x, x ∈ xs ↔ x ∈ ys) (hkey : Set.InjOn key {x | x ∈ xs}) (b : β) :
    xs.find? (key · = b) = ys.find? (key · = b) := by
  have hkey' : Set.InjOn key {x | x ∈ ys} := by simpa only [hmem] using hkey
  ext a
  rw [find?_key_eq_some_iff hkey, find?_key_eq_some_iff hkey', hmem]

/-- The types in the list, and all that references lead to from there. -/
def reach (l : FiniteLoader U) (ds : List (TypeDecl U)) : Set (TypeDecl U) :=
  {t | ∃ d ∈ ds, t ∈ l.hierarchy d}

theorem declaredBy_of_mem_preloadRequests (hnames : Set.InjOn TypeDecl.name {d | d ∈ ds})
    (hroom : c.Room (ds.map (·.name))) {r : Request U} (hr : r ∈ c.preloadRequests l ds) :
    ∃ t ∈ reach l ds, r.DeclaredBy t := by
  obtain ⟨d, hd, -, hr⟩ := (mem_preloadRequests hnames hroom).mp hr
  obtain ⟨t, ht, hdeclared⟩ := declaredBy_of_mem_draft hr
  exact ⟨t, ⟨d, hd, mem_hierarchy_of_mem_types ht⟩, hdeclared⟩

theorem Room.perm (hroom : c.Room (ds.map (·.name))) (hperm : es.Perm ds) :
    c.Room (es.map (·.name)) := by
  unfold Room
  rwa [List.toFinset_eq_of_perm _ _ (hperm.map _)]

section Results

variable (l) (threads : Option UInt64) (hnames : Set.InjOn TypeDecl.name {d | d ∈ es})
  (hroom : c.Room (es.map (·.name)))

theorem loads_eq_true_iff :
    c.loads l d = true ↔ c.contains d.name = true ∨ ∃ m, l.outcome d = .ok m := by
  rw [loads, Bool.or_eq_true]
  refine or_congr_right ?_
  cases l.outcome d <;> simp [Except.isOk, Except.toBool]

include hnames hroom

theorem countP_lookups (p : Bool → Bool) :
    (lookups l es c).countP (fun x => p x.isOk) = es.countP fun d => p (c.loads l d) :=
  calc (lookups l es c).countP (fun x => p x.isOk)
    _ = ((lookups l es c).map (·.isOk)).countP p := List.countP_map.symm
    _ = (es.map (c.loads l)).countP p := by rw [isOk_lookups hnames hroom]
    _ = es.countP (fun d => p (c.loads l d)) := List.countP_map

theorem fst_preload :
    (preload l threads es c).1 = ⟨es.countP (c.loads l), es.countP (!c.loads l ·)⟩ := by
  have hreport : (preload l threads es c).1 = (es.foldlM (preloadOne l) {} c).1 := rfl
  rw [hreport, fst_foldlM_preloadOne, countP_lookups l hnames hroom fun b => b,
    countP_lookups l hnames hroom (!·), Nat.zero_add, Nat.zero_add]

theorem forall₂_lookups :
    List.Forall₂ (fun d x => (preload l threads es c).2.1.contains d.name = c.loads l d ∧
      c.loads l d = x.isOk) es (lookups l es c) := by
  have hanswers : List.Forall₂ Eq (es.map (c.loads l)) ((lookups l es c).map (·.isOk)) := by
    rw [isOk_lookups hnames hroom, List.forall₂_eq_eq_eq]
  rw [List.forall₂_map_left_iff, List.forall₂_map_right_iff] at hanswers
  have hcontains : ∀ d ∈ es, (preload l threads es c).2.1.contains d.name = c.loads l d := by
    intro d hd
    have hfind := (find?_key_eq_some_iff hnames).mpr ⟨hd, rfl⟩
    have hstate : (preload l threads es c).2.1 = (es.foldlM (preloadOne l) {} c).2.1 := rfl
    rw [contains_eq_isSome, hstate, metadata?_foldlM hnames hroom, hfind, Option.isSome_or, loads,
      contains_eq_isSome]
    congr 1
    cases h : l.outcome d <;> simp [h, Except.toOption, Except.isOk, Except.toBool]
  exact (List.forall₂_and_left _ _).mpr ⟨hcontains, hanswers⟩

end Results

section Orders

variable (l) (hperm : es.Perm ds) (hnames : Set.InjOn TypeDecl.name {d | d ∈ ds})
  (hroom : c.Room (ds.map (·.name)))

include hperm hnames hroom

theorem mem_preloadRequests_perm (r : Request U) :
    r ∈ c.preloadRequests l es ↔ r ∈ c.preloadRequests l ds := by
  have hnames' : Set.InjOn TypeDecl.name {d | d ∈ es} := by simpa only [hperm.mem_iff] using hnames
  rw [mem_preloadRequests hnames' (hroom.perm hperm), mem_preloadRequests hnames hroom]
  simp only [hperm.mem_iff]

theorem firstMethod?_perm
    (hmethods : Set.InjOn (fun x : Method U => x.id) {x | ∃ t ∈ reach l ds, x ∈ t.methods})
    (m : MemberId) :
    firstMethod? (c.preloadRequests l es) m = firstMethod? (c.preloadRequests l ds) m := by
  refine (find?_key_congr (fun x => ?_) (hmethods.mono fun x hx => ?_) m).symm
  · rw [mem_filterMap_method?, mem_filterMap_method?, mem_preloadRequests_perm l hperm hnames hroom]
  · exact declaredBy_of_mem_preloadRequests hnames hroom (mem_filterMap_method?.mp hx)

theorem firstField?_perm
    (hfields : Set.InjOn (fun x : Field U => x.id) {x | ∃ t ∈ reach l ds, x ∈ t.fields})
    (m : MemberId) :
    firstField? (c.preloadRequests l es) m = firstField? (c.preloadRequests l ds) m := by
  refine (find?_key_congr (fun x => ?_) (hfields.mono fun x hx => ?_) m).symm
  · rw [mem_filterMap_field?, mem_filterMap_field?, mem_preloadRequests_perm l hperm hnames hroom]
  · exact declaredBy_of_mem_preloadRequests hnames hroom (mem_filterMap_field?.mp hx)

end Orders

/-- **A preload does not depend on the order of its types.** If equal names mean equal types, the
types in reach have no two members of one identity, and there is room, then the lookups of `ds` in
any order come to the same report, metadata and slots. The report counts all types, a type as loaded
if and only if it had an entry or its extraction succeeds, and in the end those types have entries
that were counted so. -/
theorem preload_perm (l : FiniteLoader U) (threads : Option UInt64) (c : Cache U)
    (ds es : List (TypeDecl U)) (hperm : es.Perm ds)
    (hnames : Set.InjOn TypeDecl.name {d | d ∈ ds}) (hroom : c.Room (ds.map (·.name)))
    (hmethods : Set.InjOn (fun x : Method U => x.id) {x | ∃ t ∈ reach l ds, x ∈ t.methods})
    (hfields : Set.InjOn (fun x : Field U => x.id) {x | ∃ t ∈ reach l ds, x ∈ t.fields}) :
    let run := preload l threads es c
    let listed := preload l threads ds c
    run.1 = listed.1 ∧
      (∀ n, run.2.1.metadata? n = listed.2.1.metadata? n) ∧
      (∀ m, run.2.1.handles.methods.find? m = listed.2.1.handles.methods.find? m) ∧
      (∀ m, run.2.1.handles.fields.find? m = listed.2.1.handles.fields.find? m) ∧
      run.1.loaded + run.1.failed = ds.length ∧
      run.1.loaded = (lookups l es c).countP (·.isOk) ∧
      List.Forall₂ (fun d x =>
        (x.isOk = true ↔ c.contains d.name = true ∨ ∃ m, l.outcome d = .ok m) ∧
          (run.2.1.contains d.name = true ↔ x.isOk = true)) es (lookups l es c) := by
  intro run listed
  have hnames' : Set.InjOn TypeDecl.name {d | d ∈ es} := by simpa only [hperm.mem_iff] using hnames
  have hroom' := hroom.perm hperm
  have hreport : run.1 = ⟨es.countP (c.loads l), es.countP (!c.loads l ·)⟩ :=
    fst_preload l threads hnames' hroom'
  refine ⟨?_, fun n => ?_, fun m => ?_, fun m => ?_, ?_, ?_, ?_⟩
  · rw [hreport, fst_preload l threads hnames hroom, hperm.countP_eq, hperm.countP_eq]
  · change (es.foldlM (preloadOne l) {} c).2.1.metadata? n =
      (ds.foldlM (preloadOne l) {} c).2.1.metadata? n
    rw [metadata?_foldlM hnames' hroom', metadata?_foldlM hnames hroom,
      find?_key_congr (fun _ => hperm.mem_iff) hnames' n]
  · rw [(serves_preload l threads es c).handles, (serves_preload l threads ds c).handles,
      HandleTable.findMethod_serveAll, HandleTable.findMethod_serveAll,
      firstMethod?_perm l hperm hnames hroom hmethods]
  · rw [(serves_preload l threads es c).handles, (serves_preload l threads ds c).handles,
      HandleTable.findField_serveAll, HandleTable.findField_serveAll,
      firstField?_perm l hperm hnames hroom hfields]
  · have hlength := List.length_eq_countP_add_countP (c.loads l) (l := es)
    simp only [Bool.not_eq_true, Bool.decide_eq_false] at hlength
    rw [hreport, ← hperm.length_eq, hlength]
  · rw [hreport]
    exact (countP_lookups l hnames' hroom' fun b => b).symm
  · refine (forall₂_lookups l threads hnames' hroom').imp fun d x h => ?_
    rw [h.1, ← h.2, loads_eq_true_iff]
    exact ⟨Iff.rfl, Iff.rfl⟩

/-! ## A preload with a cycle -/

theorem mem_of_mem_reach (cs : List (TypeDecl U)) (hds : ds ⊆ cs)
    (hclosed : ∀ d ∈ cs, l.parents d ⊆ cs) {t : TypeDecl U} (h : t ∈ reach l ds) : t ∈ cs := by
  obtain ⟨d, hd, ht⟩ := h
  exact Loader.mem_of_mem_hierarchy (hds hd) hclosed ht

theorem injOn_members {α : Type} {key : α → MemberId} (members : TypeDecl U → List α)
    (cs : List (TypeDecl U)) (hds : ds ⊆ cs) (hclosed : ∀ d ∈ cs, l.parents d ⊆ cs)
    (hnodup : ((cs.flatMap members).map key).Nodup) :
    Set.InjOn key {x | ∃ t ∈ reach l ds, x ∈ members t} := by
  rintro x ⟨t, ht, hx⟩ y ⟨u, hu, hy⟩ hkey
  exact List.inj_on_of_nodup_map hnodup
    (List.mem_flatMap.mpr ⟨t, mem_of_mem_reach cs hds hclosed ht, hx⟩)
    (List.mem_flatMap.mpr ⟨u, mem_of_mem_reach cs hds hclosed hu, hy⟩) hkey

section Sample

open ComponentHooks.Sample Diamond Ring

/-- A loader of two types, one above the other, and of a ring. -/
def mixed : FiniteLoader world := Sample.loaderOf [("Other", "First")] [top, side, first, second]

/-- A cache in which the upper of the two types has an entry. -/
def stocked : Cache world :=
  (get mixed top { capacity := 3, handles := { policy := .disabled } }).2.1

/-- The type below the entry is listed twice, and the ring fails. -/
theorem preload_perm_mixed :
    (preload mixed none [first, side, side] stocked).1 = ⟨2, 1⟩ ∧
      ∀ n, (preload mixed none [first, side, side] stocked).2.1.metadata? n =
        (preload mixed none [side, first, side] stocked).2.1.metadata? n := by
  have hclosed : ∀ d ∈ [side, top, first, second], mixed.parents d ⊆ [side, top, first, second] := by
    have hside : mixed.parents side = [top] := rfl
    have htop : mixed.parents top = [] := rfl
    have hfirst : mixed.parents first = [second] := rfl
    have hsecond : mixed.parents second = [first] := rfl
    simp [hside, htop, hfirst, hsecond]
  have hds : [side, first, side] ⊆ [side, top, first, second] := by simp
  have hnames : Set.InjOn TypeDecl.name {d | d ∈ [side, first, side]} := by
    intro d hd e he hname
    simp only [Set.mem_ofPred_eq, List.mem_cons, List.not_mem_nil, or_false] at hd he
    rcases hd with rfl | rfl | rfl <;> rcases he with rfl | rfl | rfl
    all_goals first | rfl | exact absurd hname (by decide)
  have h := preload_perm mixed none stocked [side, first, side] [first, side, side]
    (List.Perm.swap _ _ _) hnames (by decide)
    (injOn_members TypeDecl.methods _ hds hclosed (by decide))
    (injOn_members TypeDecl.fields _ hds hclosed (by decide))
  exact ⟨h.1.trans rfl, h.2.1⟩

end Sample

end ComponentHooks.Cache
