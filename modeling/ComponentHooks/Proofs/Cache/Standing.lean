import ComponentHooks.Proofs.Handles.History
import Mathlib.Data.List.DropRight

/-!
# Caches and their past

What happened to the entries of a cache is listed in deeds: the extractions that lookups made with
success, and what took entries away. The entry of a name is to be what came of the earliest of its
extractions since the name last went.

* `Making`, `Deed`: an extraction with its registry and declaration; what happens to entries;
* `standing?`: the earliest making of a name since the last deed that covers it;
* `Cache.Remembers`, `Cache.GoesOn`: a cache is as its past says; a cache goes on by deeds;
* **`Cache.goesOn_of_covers`**, **`Cache.Remembers.insert`**: entries that go, and one that comes.
-/

namespace ComponentHooks

open Logged

variable {U : Universe} {τ : Type}

/-! ## Deeds -/

variable (U) in
/-- An extraction that a lookup made with success: the registry as it stood, the declaration that
was passed or loaded, and the entry that came of it. -/
structure Making where
  registry : Registry U
  decl : TypeDecl U
  entry : Entry U

variable (U) in
/-- What happens to the entries of a cache. -/
inductive Deed where
  | made (m : Making U)
  /-- An entry goes: its name is invalidated, or it makes room. -/
  | dropped (name : String)
  | cleared

namespace Deed

/-- The deed takes away whatever entry the name has. -/
def covers (n : String) : Deed U → Bool
  | made _ => false
  | dropped m => m = n
  | cleared => true

/-- The making of an entry of the name. -/
def makingOf? (n : String) : Deed U → Option (Making U)
  | made m => if m.entry.name = n then some m else none
  | dropped _ => none
  | cleared => none

/-- The serial of the entry that is made. -/
def serial? : Deed U → Option Nat
  | made m => some m.entry.serial
  | dropped _ => none
  | cleared => none

theorem makingOf?_eq_some {x : Deed U} {n : String} {m : Making U} :
    x.makingOf? n = some m ↔ x = made m ∧ m.entry.name = n := by
  cases x with
  | made m' =>
    rw [makingOf?, Option.ite_none_right_eq_some, Option.some.injEq, made.injEq]
    constructor
    · rintro ⟨hname, rfl⟩
      exact ⟨rfl, hname⟩
    · rintro ⟨rfl, hname⟩
      exact ⟨hname, rfl⟩
  | dropped _ => simp [makingOf?]
  | cleared => simp [makingOf?]

theorem makingOf?_of_serial?_eq_none {x : Deed U} (h : x.serial? = none) (n : String) :
    x.makingOf? n = none := by
  cases x with
  | made m => cases h
  | dropped _ => rfl
  | cleared => rfl

end Deed

/-- The earliest making of a name since the last deed that covers it. -/
def standing? (n : String) (ds : List (Deed U)) : Option (Making U) :=
  (ds.rtakeWhile fun x => !x.covers n).findSome? (Deed.makingOf? n)

section Standing

variable (n : String) (ds : List (Deed U))

theorem standing?_of_covers {x : Deed U} (h : x.covers n = true) :
    standing? n (ds ++ [x]) = none := by
  rw [standing?, List.rtakeWhile_concat_neg _ _ _ (by simp [h])]
  rfl

theorem standing?_of_not_covers {x : Deed U} (h : x.covers n = false) :
    standing? n (ds ++ [x]) = (standing? n ds).or (x.makingOf? n) := by
  rw [standing?, List.rtakeWhile_concat_pos _ _ _ (by simp [h]), List.findSome?_append,
    List.findSome?_singleton, standing?]

theorem standing?_made (m : Making U) :
    standing? n (ds ++ [.made m]) =
      (standing? n ds).or (if m.entry.name = n then some m else none) :=
  standing?_of_not_covers n ds rfl

theorem standing?_dropped (ns : List String) :
    standing? n (ds ++ ns.map .dropped) = if n ∈ ns then none else standing? n ds := by
  induction ns generalizing ds with
  | nil => simp
  | cons m ns ih =>
    rw [List.map_cons, List.append_cons, ih]
    by_cases hm : m = n
    · subst hm
      simp [standing?_of_covers m ds (x := .dropped m) (by simp [Deed.covers])]
    · rw [standing?_of_not_covers n ds (x := .dropped m) (by simp [Deed.covers, hm])]
      simp [Deed.makingOf?, Ne.symm hm]

theorem made_mem_of_standing? {n : String} {ds : List (Deed U)} {m : Making U}
    (h : standing? n ds = some m) : .made m ∈ ds ∧ m.entry.name = n := by
  obtain ⟨x, hx, hm⟩ := List.exists_of_findSome?_eq_some h
  obtain ⟨rfl, hname⟩ := Deed.makingOf?_eq_some.mp hm
  exact ⟨(List.rtakeWhile_suffix _ _).subset hx, hname⟩

theorem standing?_append {n : String} {ds es : List (Deed U)} {m : Making U}
    (h : standing? n (ds ++ es) = some m) : standing? n ds = some m ∨ .made m ∈ es := by
  induction es using List.reverseRecOn generalizing m with
  | nil => exact .inl (by rwa [List.append_nil] at h)
  | append_singleton es x ih =>
    rw [← List.append_assoc] at h
    cases hx : x.covers n with
    | true =>
      rw [standing?_of_covers n _ hx] at h
      cases h
    | false =>
      rw [standing?_of_not_covers n _ hx, Option.or_eq_some_iff] at h
      rcases h with h | ⟨-, h⟩
      · exact (ih h).imp_right (List.mem_append_left _)
      · obtain ⟨rfl, -⟩ := Deed.makingOf?_eq_some.mp h
        exact .inr (List.mem_append_right _ List.mem_cons_self)

end Standing

/-! ## Caches with a past -/

namespace Cache

variable (loaderOf : Registry U → FiniteLoader U)

/-- The cache is as the chronicle says. -/
structure Remembers (ds : List (Deed U)) (c : Cache U) : Prop where
  /-- The entry of a name is that of the making that stands. -/
  find? : ∀ n, c.find? n = (standing? n ds).map Making.entry
  nodup : (c.entries.map Entry.name).Nodup
  /-- A making is an extraction of its declaration against its registry, on whatever table. -/
  made : ∀ m, .made m ∈ ds → m.entry.name = m.decl.name ∧
    ∀ t, (extract (loaderOf m.registry) m.decl t).1 = .ok m.entry.metadata
  /-- No two makings share a serial. -/
  serials : (ds.filterMap Deed.serial?).Pairwise (· < ·)
  serials_le : ∀ i ∈ ds.filterMap Deed.serial?, i ≤ c.stats.extractions

/-- The cache goes on to `c'` by the deeds `ds`. -/
def GoesOn (c : Cache U) (ds : List (Deed U)) (c' : Cache U) : Prop :=
  ∀ past, c.Remembers loaderOf past → c'.Remembers loaderOf (past ++ ds)

variable {loaderOf}

theorem Remembers.of_entries_eq_nil {c : Cache U} (h : c.entries = []) :
    c.Remembers loaderOf [] := by
  refine ⟨fun n => ?_, ?_, nofun, List.Pairwise.nil, nofun⟩
  · rw [Cache.find?, h]
    rfl
  · rw [h]
    exact List.nodup_nil

/-- Counters may rise and slots be made without a deed. -/
theorem Remembers.of_entries_eq {c c' : Cache U} {past : List (Deed U)}
    (hc : c.Remembers loaderOf past) (hentries : c'.entries = c.entries)
    (hle : c.stats.extractions ≤ c'.stats.extractions) : c'.Remembers loaderOf past := by
  refine ⟨fun n => ?_, ?_, hc.made, hc.serials, fun i hi => (hc.serials_le i hi).trans hle⟩
  · rw [← hc.find?, Cache.find?, hentries, ← Cache.find?]
  · rw [hentries]
    exact hc.nodup

namespace GoesOn

variable {c c' c'' : Cache U} {ds es : List (Deed U)}

theorem trans (h : c.GoesOn loaderOf ds c') (h' : c'.GoesOn loaderOf es c'') :
    c.GoesOn loaderOf (ds ++ es) c'' := by
  intro past hc
  rw [← List.append_assoc]
  exact h' _ (h past hc)

theorem of_entries_eq (hentries : c'.entries = c.entries)
    (hle : c.stats.extractions ≤ c'.stats.extractions) : c.GoesOn loaderOf [] c' := by
  intro past hc
  rw [List.append_nil]
  exact hc.of_entries_eq hentries hle

theorem refl (c : Cache U) : c.GoesOn loaderOf [] c := of_entries_eq rfl le_rfl

end GoesOn

/-! ### Entries come and go -/

section Entries

variable {c : Cache U} {e : Entry U} {n : String}

theorem find?_of_mem {es : List (Entry U)} (hnodup : (es.map Entry.name).Nodup) (he : e ∈ es) :
    es.find? (·.name = e.name) = some e := by
  obtain ⟨x, hx⟩ : ∃ x, es.find? (·.name = e.name) = some x := by
    rw [← Option.isSome_iff_exists, List.find?_isSome]
    exact ⟨e, he, by simp⟩
  have hname : x.name = e.name := by simpa using List.find?_some hx
  rw [hx, List.inj_on_of_nodup_map hnodup (List.mem_of_find?_eq_some hx) he hname]

theorem entries_insert (hnew : c.find? e.name = none) : (c.insert e).entries =
    (c.entries ++ [e]).drop ((c.entries ++ [e]).length - c.capacity) := by
  have hfilter : c.entries.filter (·.name ≠ e.name) = c.entries := by
    rw [List.filter_eq_self]
    intro x hx
    simpa using List.find?_eq_none.mp hnew x hx
  rw [insert, hfilter]

theorem nodup_concat (hnodup : (c.entries.map Entry.name).Nodup) (hnew : c.find? e.name = none) :
    ((c.entries ++ [e]).map Entry.name).Nodup := by
  rw [List.map_append, List.map_singleton, ← List.concat_eq_append, List.nodup_concat]
  refine ⟨fun h => ?_, hnodup⟩
  obtain ⟨x, hx, hname⟩ := List.mem_map.mp h
  simpa [hname] using List.find?_eq_none.mp hnew x hx

theorem find?_insert (hnodup : (c.entries.map Entry.name).Nodup) (hnew : c.find? e.name = none)
    (hn : (c.insert e).contains n = true) :
    (c.insert e).find? n = (c.find? n).or (if e.name = n then some e else none) := by
  obtain ⟨x, hx⟩ := Option.isSome_iff_exists.mp hn
  have hname : x.name = n := by simpa using List.find?_some hx
  have hmem : x ∈ c.entries ++ [e] := by
    have := List.mem_of_find?_eq_some hx
    rw [entries_insert hnew] at this
    exact List.mem_of_mem_drop this
  have hfull := find?_of_mem (nodup_concat hnodup hnew) hmem
  rw [hname, List.find?_append] at hfull
  rw [hx, ← hfull, Cache.find?]
  congr 1
  by_cases he : e.name = n <;> simp [he]

theorem nodup_insert (hnodup : (c.entries.map Entry.name).Nodup) (hnew : c.find? e.name = none) :
    ((c.insert e).entries.map Entry.name).Nodup := by
  rw [entries_insert hnew]
  exact ((List.drop_sublist _ _).map _).nodup (nodup_concat hnodup hnew)

theorem goesOn_of_covers {c' : Cache U} {x : Deed U} (hx : x.serial? = none)
    (hentries : c'.entries = c.entries.filter fun e => !x.covers e.name)
    (hstats : c'.stats = c.stats) : c.GoesOn loaderOf [x] c' := by
  intro past hc
  have hserials : (past ++ [x]).filterMap Deed.serial? = past.filterMap Deed.serial? := by
    rw [List.filterMap_append, List.filterMap_cons_none hx, List.filterMap_nil, List.append_nil]
  refine ⟨fun n => ?_, ?_, fun m hm => ?_, ?_, ?_⟩
  · cases hn : x.covers n with
    | true =>
      rw [standing?_of_covers n past hn, Cache.find?, hentries, List.find?_filter]
      refine List.find?_eq_none.mpr fun e _ he => ?_
      obtain ⟨hkept, hname⟩ : x.covers e.name = false ∧ e.name = n := by simpa using he
      rw [hname, hn] at hkept
      cases hkept
    | false =>
      rw [standing?_of_not_covers n past hn, Deed.makingOf?_of_serial?_eq_none hx,
        Option.or_none, ← hc.find?, Cache.find?, hentries, List.find?_filter, Cache.find?]
      congr 1
      funext e
      by_cases he : e.name = n <;> simp [he, hn]
  · rw [hentries]
    exact (List.filter_sublist.map _).nodup hc.nodup
  · rw [List.mem_append, List.mem_singleton] at hm
    rcases hm with hm | rfl
    · exact hc.made m hm
    · cases hx
  · rw [hserials]
    exact hc.serials
  · rw [hserials, hstats]
    exact hc.serials_le

theorem goesOn_invalidate (c : Cache U) (n : String) :
    c.GoesOn loaderOf [.dropped n] (c.invalidate n) := by
  refine goesOn_of_covers rfl (List.filter_congr fun e _ => ?_) rfl
  simp [Deed.covers, eq_comm]

theorem goesOn_invalidateAll (c : Cache U) : c.GoesOn loaderOf [.cleared] c.invalidateAll :=
  goesOn_of_covers rfl (by simp [invalidateAll, Deed.covers]) rfl

/-- The names that had an entry in `c`, or were given one just now, and have none in `c'`. -/
def leavers (c c' : Cache U) (n : String) : List String :=
  (c.entries.map Entry.name ++ [n]).filter fun m => !c'.contains m

theorem Remembers.insert {r : Registry U} {d : TypeDecl U} {past : List (Deed U)}
    (hc : c.Remembers loaderOf past) (hnew : c.find? d.name = none) (hname : e.name = d.name)
    (hserial : e.serial = c.stats.extractions)
    (hserials : ∀ i ∈ past.filterMap Deed.serial?, i < e.serial)
    (hextract : ∀ t, (extract (loaderOf r) d t).1 = .ok e.metadata) :
    (c.insert e).Remembers loaderOf
      (past ++ .made ⟨r, d, e⟩ :: (leavers c (c.insert e) d.name).map .dropped) := by
  have hnew' : c.find? e.name = none := hname ▸ hnew
  have hserials_new : ∀ ns : List String,
      (.made ⟨r, d, e⟩ :: ns.map .dropped : List (Deed U)).filterMap Deed.serial? = [e.serial] := by
    intro ns
    have hdropped : (ns.map .dropped : List (Deed U)).filterMap Deed.serial? = [] := by
      simp [Deed.serial?]
    rw [List.filterMap_cons, hdropped]
    rfl
  refine ⟨fun n => ?_, nodup_insert hc.nodup hnew', fun m hm => ?_, ?_, fun i hi => ?_⟩
  · rw [List.append_cons, standing?_dropped, standing?_made]
    by_cases hn : (c.insert e).contains n = true
    · have hstays : n ∉ leavers c (c.insert e) d.name := by simp [leavers, hn]
      rw [find?_insert hc.nodup hnew' hn, hc.find?, if_neg hstays]
      by_cases he : e.name = n <;> cases standing? n past <;> simp [he]
    · have hnone : (c.insert e).find? n = none := by simpa [contains] using hn
      rw [hnone]
      split
      · rfl
      · rename_i hleft
        -- The name was not there and is not the new one, so nothing stood under it.
        simp only [leavers, List.mem_filter, hn, List.mem_append, List.mem_singleton,
          Bool.not_false, and_true, not_or] at hleft
        have hfind : c.find? n = none := List.find?_eq_none.mpr fun x hx hxn =>
          hleft.1 (List.mem_map.mpr ⟨x, hx, by simpa using hxn⟩)
        have hstood := hc.find? n
        rw [hfind, eq_comm, Option.map_eq_none_iff] at hstood
        have hne : e.name ≠ n := fun h => hleft.2 (h ▸ hname)
        rw [hstood, if_neg hne]
        rfl
  · rw [List.mem_append, List.mem_cons] at hm
    rcases hm with hm | hm | hm
    · exact hc.made m hm
    · cases hm
      exact ⟨hname, hextract⟩
    · simp at hm
  · rw [List.filterMap_append, hserials_new, List.pairwise_append]
    exact ⟨hc.serials, List.pairwise_singleton _ _, fun i hi j hj =>
      List.mem_singleton.mp hj ▸ hserials i hi⟩
  · rw [List.filterMap_append, hserials_new, List.mem_append, List.mem_singleton] at hi
    rcases hi with hi | rfl
    · exact hc.serials_le i hi
    · exact hserial.le

end Entries

end Cache

end ComponentHooks
