import ComponentHooks.Proofs.Extraction.Roll
import ComponentHooks.Proofs.Handles.Uses

/-!
# Slots made in advance

An extraction makes the slots of the members it records, on the way. It makes just these, and after
it they are there: whatever the metadata is used for, the handle table stays as it is.

* `Slots.AddsRecorded`, `Slots.AddsMarked`: the slots that come in are those of recorded members;
  they are of members that carry a kind;
* `HandleTable.Holds`: the slot of a request is there;
* `Use.IsOf`: a use of a type's metadata;
* `Prefetches`: which slots an extraction makes, and that it answers without looking at them;
* **`prefetches_extract`**: every extraction does so, on every handle table.
-/

namespace ComponentHooks

variable {U : Universe}

/-! ## Slots that come in -/

namespace Slots

variable {H α : Type}

theorem exists_foldl_request (key : α → MemberId) (verdict : α → Except Refusal H) (xs : List α)
    (s : Slots H) :
    ∃ es, (xs.foldl (fun s x => s.request (key x) (verdict x)) s).entries = s.entries ++ es ∧
      (es.map Prod.fst).Nodup ∧
      (∀ m, m ∈ es.map Prod.fst ↔ s.find? m = none ∧ ∃ x ∈ xs, key x = m) ∧
      ∀ e ∈ es, ∃ x, xs.find? (key · = e.1) = some x ∧ e.2 = verdict x := by
  induction xs generalizing s with
  | nil => exact ⟨[], by simp⟩
  | cons x xs ih =>
    obtain ⟨es, hentries, hnodup, hmem, hverdict⟩ := ih (s.request (key x) (verdict x))
    have hnone : ∀ m, (s.request (key x) (verdict x)).find? m = none ↔
        s.find? m = none ∧ key x ≠ m := fun m => by
      rw [find?_request, Option.or_eq_none_iff]
      by_cases hm : key x = m <;> simp [hm]
    -- What comes in behind the request for `x` has another identity.
    have hfind : ∀ e ∈ es, (x :: xs).find? (key · = e.1) = xs.find? (key · = e.1) := fun e he => by
      have hne := ((hnone e.1).mp ((hmem e.1).mp (List.mem_map_of_mem he)).1).2
      rw [List.find?_cons_of_neg (by simpa using hne)]
    rw [List.foldl_cons, hentries]
    cases hx : s.find? (key x) with
    | some v =>
      have hsame : s.request (key x) (verdict x) = s := by rw [request, hx]
      refine ⟨es, by rw [hsame], hnodup, fun m => ?_, fun e he => ?_⟩
      · rw [hmem, hnone, and_assoc]
        refine and_congr_right fun hm => ?_
        have hne : key x ≠ m := fun h => by rw [← h, hx] at hm; cases hm
        simp [hne]
      · rw [hfind e he]
        exact hverdict e he
    | none =>
      have hadd : s.request (key x) (verdict x) = s.add (key x) (verdict x) := by rw [request, hx]
      refine ⟨(key x, verdict x) :: es, by rw [hadd, add, List.append_assoc, List.singleton_append],
        ?_, fun m => ?_, ?_⟩
      · rw [List.map_cons, List.nodup_cons]
        exact ⟨fun h => ((hnone _).mp ((hmem _).mp h).1).2 rfl, hnodup⟩
      · rw [List.map_cons, List.mem_cons, hmem, hnone]
        by_cases hm : key x = m
        · subst hm
          simp [hx]
        · simp [hm, Ne.symm hm]
      · rw [List.forall_mem_cons]
        refine ⟨⟨x, List.find?_cons_of_pos (decide_eq_true rfl), rfl⟩, fun e he => ?_⟩
        rw [hfind e he]
        exact hverdict e he

variable (member : α → Member U) (verdict : α → Except Refusal H) (s s' : Slots H)

/-- The slots go on to `s'` by one for each identity that the table records and that had none,
with the verdict on the first recorded member of the identity among `xs`. -/
def AddsRecorded (t : Table α) (xs : List α) : Prop :=
  ∃ es, s'.entries = s.entries ++ es ∧ (es.map Prod.fst).Nodup ∧
    (∀ m, m ∈ es.map Prod.fst ↔ s.find? m = none ∧ ∃ x, t.Records x ∧ (member x).id = m) ∧
    ∀ e ∈ es, ∃ x, t.IsFirst member xs e.1 x ∧ e.2 = verdict x

/-- The slots go on to `s'` by slots of identities that had none, each with the verdict on a member
among `xs` that carries a kind looked for at its site. -/
def AddsMarked (site : Site) (xs : List α) : Prop :=
  ∃ es, s'.entries = s.entries ++ es ∧ (es.map Prod.fst).Nodup ∧
    ∀ e ∈ es, s.find? e.1 = none ∧ ∃ x ∈ xs, (member x).id = e.1 ∧ e.2 = verdict x ∧
      ∃ k, k.appliesTo site = true ∧ (member x).carries k = true

variable {member verdict s s'}

theorem addsRecorded_of_log {site : Site} {xs : List α} {r : Roll α}
    (hr : r = Roll.record member site.kinds {} xs)
    (hs : s' = r.log.foldl (fun s x => s.request (member x).id (verdict x)) s) :
    AddsRecorded member verdict s s' r.table xs := by
  obtain ⟨es, hentries, hnodup, hmem, hverdict⟩ :=
    exists_foldl_request (fun x => (member x).id) verdict r.log s
  refine ⟨es, by rw [hs, hentries], hnodup, fun m => ?_, fun e he => ?_⟩
  · have hexact : r.IsExact := by
      rw [hr]
      exact Roll.isExact_empty.record _ xs
    rw [hmem]
    simp only [hexact _]
  · obtain ⟨x, hx, hv⟩ := hverdict e he
    rw [hr] at hx ⊢
    exact ⟨x, Roll.isFirst_of_find?_log hx, hv⟩

theorem AddsRecorded.addsMarked {site : Site} {xs ys : List α}
    (h : AddsRecorded member verdict s s' (Table.record member site.kinds .empty xs) ys) :
    AddsMarked member verdict s s' site xs := by
  obtain ⟨es, hentries, hnodup, hmem, hverdict⟩ := h
  refine ⟨es, hentries, hnodup, fun e he => ⟨((hmem e.1).mp (List.mem_map_of_mem he)).1, ?_⟩⟩
  obtain ⟨x, ⟨hid, hrecords, -⟩, hv⟩ := hverdict e he
  obtain ⟨hx, hcarries⟩ := hrecords.mem
  exact ⟨x, hx, hid, hv, hcarries⟩

end Slots

/-! ## Slots that are there -/

namespace HandleTable

variable {t : HandleTable U} {r : Request U} {rs : List (Request U)}

/-- The slot that is asked for is there. -/
def Holds (t : HandleTable U) : Request U → Prop
  | .method x => t.methods.find? x.id ≠ none
  | .field x => t.fields.find? x.id ≠ none

theorem Holds.serve_eq (h : t.Holds r) : t.serve r = t := by
  cases r with
  | method x =>
    obtain ⟨v, hv⟩ := Option.ne_none_iff_exists'.mp h
    rw [serve_method, Slots.request, hv]
  | field x =>
    obtain ⟨v, hv⟩ := Option.ne_none_iff_exists'.mp h
    rw [serve_field, Slots.request, hv]

theorem serveAll_eq_self (h : ∀ r ∈ rs, t.Holds r) : t.serveAll rs = t := by
  induction rs with
  | nil => rfl
  | cons r rs ih =>
    rw [List.forall_mem_cons] at h
    rw [serveAll_cons, h.1.serve_eq, ih h.2]

theorem holds_serveAll (t : HandleTable U) (hr : r ∈ rs) : (t.serveAll rs).Holds r := by
  cases r with
  | method x =>
    rw [Holds, findMethod_serveAll, ne_eq, Option.or_eq_none_iff, Option.map_eq_none_iff,
      firstMethod?, List.find?_eq_none]
    exact fun h => h.2 x (mem_filterMap_method?.mpr hr) (decide_eq_true rfl)
  | field x =>
    rw [Holds, findField_serveAll, ne_eq, Option.or_eq_none_iff, Option.map_eq_none_iff,
      firstField?, List.find?_eq_none]
    exact fun h => h.2 x (mem_filterMap_field?.mpr hr) (decide_eq_true rfl)

end HandleTable

/-! ## Uses of metadata -/

/-- The use is made of the type's metadata: the extraction again, the invocation of recorded
methods, or the access to a recorded field. -/
def Use.IsOf (l : FiniteLoader U) (root : TypeDecl U) (m : Metadata U) : Use U → Prop
  | extraction l' d => l' = l ∧ d = root
  | invocation _ x _ => m.methods.Records x
  | invocations _ m' _ _ => m' = m
  | read _ x _ | readAs _ _ x _ | write _ x _ _ => m.fields.Records x

theorem exists_of_mem_invokeEachRequests {τ : Type} {R : Reflection U τ} {xs : List (Method U)}
    {s : Scene U τ} {t : HandleTable U} {r : Request U} (h : r ∈ invokeEachRequests R xs s t) :
    ∃ x ∈ xs, r = .method x := by
  induction xs generalizing s t with
  | nil => cases h
  | cons x xs ih =>
    rw [invokeEachRequests, List.mem_cons] at h
    rcases h with rfl | h
    · exact ⟨x, List.mem_cons_self, rfl⟩
    · split at h
      · obtain ⟨y, hy, rfl⟩ := ih h
        exact ⟨y, List.mem_cons_of_mem x hy, rfl⟩
      · cases h

theorem Use.IsOf.mem_requests {l : FiniteLoader U} {root : TypeDecl U} {u : Use U}
    (h : u.IsOf l root (l.draft root).metadata) {t : HandleTable U} {r : Request U}
    (hr : r ∈ u.requests t) : r ∈ (l.draft root).requests := by
  cases u with
  | extraction l' d =>
    obtain ⟨rfl, rfl⟩ := h
    exact hr
  | invocations R m k s =>
    obtain ⟨x, hx, rfl⟩ := exists_of_mem_invokeEachRequests hr
    cases h
    exact (asks_draft l root).methods k x hx
  | invocation R x s =>
    obtain ⟨k, hx⟩ := h
    rw [List.mem_singleton.mp hr]
    exact (asks_draft l root).methods k x hx
  | read R x s | readAs R ty x s | write R x v s =>
    obtain ⟨k, hx⟩ := h
    rw [List.mem_singleton.mp hr]
    exact (asks_draft l root).fields k x hx

/-- The table, after all these uses, is the one it was, and none of the events tells of a handle. -/
def LeavesHandles (us : List (Use U)) (t : HandleTable U) : Prop :=
  (forM us Use.run t).2.1 = t ∧
    ∀ e ∈ (forM us Use.run t).2.2, e.methodRefusal? = none ∧ e.fieldRefusal? = none

theorem leavesHandles_of_holds {us : List (Use U)} {t : HandleTable U}
    (h : ∀ u ∈ us, ∀ r ∈ u.requests t, t.Holds r) : LeavesHandles us t := by
  have hhandles : (forM us Use.run t).2.1 = t := by
    induction us with
    | nil => rfl
    | cons u us ih =>
      rw [List.forall_mem_cons] at h
      rw [List.forM_cons, Logged.bind_apply, Use.run_handles, HandleTable.serveAll_eq_self h.1]
      exact ih h.2
  have hgrows := tellsRefusals_forM_run us t
  rw [hhandles] at hgrows
  have hmethods := hgrows.methods.told_eq (.refl _)
  have hfields := hgrows.fields.told_eq (.refl _)
  rw [List.filterMap_eq_nil_iff] at hmethods hfields
  exact ⟨hhandles, fun e he => ⟨hmethods e he, hfields e he⟩⟩

/-! ## Extractions -/

/-- What an extraction on `t` does to the slots, and that its answer does not depend on them. If
it succeeds, it makes just the slots of the recorded members, and no use of the metadata makes or
tells of another; if it fails, it has made slots of marked members that it met, and no slot ever
changes. -/
structure Prefetches (l : FiniteLoader U) (root : TypeDecl U) (t : HandleTable U) : Prop where
  answer : ∀ t' : HandleTable U, (extract l root t').1 = (extract l root t).1
  policy : (extract l root t).2.1.policy = t.policy
  success : ∀ m, (extract l root t).1 = .ok m →
    Slots.AddsRecorded Method.toMember t.policy.bindMethod t.methods (extract l root t).2.1.methods
        m.methods (l.tell TypeDecl.writtenMethods (l.preorder root)) ∧
      Slots.AddsRecorded Field.toMember t.policy.bindField t.fields (extract l root t).2.1.fields
        m.fields (l.tell TypeDecl.writtenFields (l.preorder root))
  failure : ∀ e, (extract l root t).1 = .error e →
    Slots.AddsMarked Method.toMember t.policy.bindMethod t.methods (extract l root t).2.1.methods
        .method (l.tell TypeDecl.writtenMethods (l.walk root).types) ∧
      Slots.AddsMarked Field.toMember t.policy.bindField t.fields (extract l root t).2.1.fields
        .field (l.tell TypeDecl.writtenFields (l.walk root).types)
  idle : ∀ m, (extract l root t).1 = .ok m → ∀ us : List (Use U), (∀ u ∈ us, u.IsOf l root m) →
    LeavesHandles us (extract l root t).2.1

variable (l : FiniteLoader U) (root : TypeDecl U) (t : HandleTable U)

theorem addsRecorded_methods :
    Slots.AddsRecorded Method.toMember t.policy.bindMethod t.methods (extract l root t).2.1.methods
      (l.draft root).metadata.methods (l.tell TypeDecl.writtenMethods (l.walk root).types) := by
  refine Slots.addsRecorded_of_log (l.methodRoll_draft root) ?_
  rw [extract_handles, HandleTable.serveAll_eq]
  rfl

theorem addsRecorded_fields :
    Slots.AddsRecorded Field.toMember t.policy.bindField t.fields (extract l root t).2.1.fields
      (l.draft root).metadata.fields (l.tell TypeDecl.writtenFields (l.walk root).types) := by
  refine Slots.addsRecorded_of_log (l.fieldRoll_draft root) ?_
  rw [extract_handles, HandleTable.serveAll_eq]
  rfl

/-- **Slots are made in advance.** An extraction makes the slots of what it records and no others,
whatever the handle table is; and none is left to be made when the metadata is used. -/
theorem prefetches_extract : Prefetches l root t where
  answer t' := by rw [extract_fst, extract_fst]
  policy := by rw [extract_handles, HandleTable.policy_serveAll]
  success m h := by
    obtain ⟨hstop, rfl⟩ := extract_eq_ok_iff.mp h
    rw [← types_walk hstop]
    exact ⟨addsRecorded_methods l root t, addsRecorded_fields l root t⟩
  failure e _ := by
    have hmethods := addsRecorded_methods l root t
    have hfields := addsRecorded_fields l root t
    have hmtable : (l.draft root).metadata.methods = _ :=
      (congrArg Roll.table (l.methodRoll_draft root)).trans (Roll.table_record _ _ _)
    have hftable : (l.draft root).metadata.fields = _ :=
      (congrArg Roll.table (l.fieldRoll_draft root)).trans (Roll.table_record _ _ _)
    rw [hmtable] at hmethods
    rw [hftable] at hfields
    exact ⟨hmethods.addsMarked, hfields.addsMarked⟩
  idle m h us hus := by
    obtain ⟨-, rfl⟩ := extract_eq_ok_iff.mp h
    refine leavesHandles_of_holds fun u hu r hr => ?_
    rw [extract_handles]
    exact HandleTable.holds_serveAll t ((hus u hu).mem_requests hr)

open Sample Diamond in
/-- On the diamond: one slot is made, that of the hook at the top, for the one at the side is
shadowed; and the hook runs without another. -/
theorem prefetches_extract_diamond :
    ∃ m, (extract loader bottom { policy := .all }).1 = .ok m ∧
      (extract loader bottom { policy := .all }).2.1.methods.entries.map Prod.fst =
        [⟨"Top", "init", "()"⟩] ∧
      ∀ {τ : Type} (R : Reflection world τ) (s : Scene world τ),
        LeavesHandles [.invocations R m .postConstruct s]
          (extract loader bottom { policy := .all }).2.1 := by
  have hm : (extract loader bottom { policy := .all }).1 = .ok (loader.draft bottom).metadata :=
    extract_eq_ok_iff.mpr ⟨by decide, rfl⟩
  refine ⟨_, hm, by decide, fun R s => ?_⟩
  refine (prefetches_extract loader bottom { policy := .all }).idle _ hm _ fun u hu => ?_
  rw [List.mem_singleton.mp hu]
  rfl

end ComponentHooks
