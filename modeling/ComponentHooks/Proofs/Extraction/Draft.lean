import ComponentHooks.Extraction
import ComponentHooks.Proofs.Handles.Requests
import ComponentHooks.Proofs.Hierarchy.Walk

/-!
# Extraction without a handle table

No answer of the handle table has a say in what an extraction records. A draft is recorded without
a table: metadata so far, with the members whose slots are asked for.

* `Draft`, `Draft.method`, `Draft.field`, `Draft.type`: drafts, and the ways they grow;
* `Draft.Leads`: a step on metadata and table leads from one draft to another;
* `FiniteLoader.draft`: the draft of the types in a walk;
* **`extract_fst`**, **`extract_handles`**: what an extraction answers, and its handle table;
* `Metadata.Within`: the slot of every member of the metadata was asked for;
* **`asks_draft`**: a draft asks for the slots of all that it records;
* **`declaredBy_of_mem_draft`**: and for none but those of members of the types in its walk.
-/

namespace ComponentHooks

open Logged

variable {U : Universe}

variable (U) in
/-- Metadata so far, and the members whose slots were asked for, in order. -/
structure Draft where
  metadata : Metadata U
  requests : List (Request U) := []

namespace Draft

/-- Records a method under one kind, if it carries the kind and its name is free there. -/
def methodAs (x : Method U) (d : Draft U) (k : Kind) : Draft U :=
  if x.carries k && !d.metadata.hasMethod k x.id.name then
    ⟨d.metadata.addMethod k x, d.requests ++ [.method x]⟩
  else d

/-- Records a field under one kind, if it carries the kind and its name is free there. -/
def fieldAs (x : Field U) (d : Draft U) (k : Kind) : Draft U :=
  if x.carries k && !d.metadata.hasField k x.id.name then
    ⟨d.metadata.addField k x, d.requests ++ [.field x]⟩
  else d

/-- Records a method under every kind that methods can have. -/
def method (d : Draft U) (x : Method U) : Draft U :=
  if x.isEligible then Site.method.kinds.foldl (methodAs x) d else d

/-- Records a field under every kind that fields can have, and whether it is validated. -/
def field (d : Draft U) (x : Field U) : Draft U :=
  if x.isEligible then
    Site.field.kinds.foldl (fieldAs x)
      { d with metadata := { d.metadata with validated := d.metadata.validated || x.validated } }
  else d

/-- Records a type: its markers, and its members if the types they need can be loaded. -/
def type (l : FiniteLoader U) (d : Draft U) (c : TypeDecl U) : Draft U :=
  let d : Draft U := { d with metadata := d.metadata.addMarkers c }
  match l.linkFailure? c with
  | none => c.methods.foldl method (c.fields.foldl field d)
  | some _ => d

end Draft

/-- The draft of the types that the walk from `root` meets. -/
def FiniteLoader.draft (l : FiniteLoader U) (root : TypeDecl U) : Draft U :=
  (l.walk root).types.foldl (Draft.type l) { metadata := { name := root.name } }

/-! ## Steps between drafts -/

/-- On a table that has served the requests of `d`, the step answers with the metadata of `d'` and
leaves a table that has served its requests. -/
def Draft.Leads (d : Draft U) (x : Slotting U (Metadata U)) (d' : Draft U) : Prop :=
  ∀ t : HandleTable U, (x (t.serveAll d.requests)).1 = d'.metadata ∧
    (x (t.serveAll d.requests)).2.1 = t.serveAll d'.requests

namespace Draft.Leads

variable {d d' d'' : Draft U}

theorem pure (d : Draft U) (m : Metadata U) : d.Leads (return m) ⟨m, d.requests⟩ :=
  fun _ => ⟨rfl, rfl⟩

theorem bind {x : Slotting U (Metadata U)} {f : Metadata U → Slotting U (Metadata U)}
    (h : d.Leads x d') (h' : d'.Leads (f d'.metadata) d'') : d.Leads (x >>= f) d'' := by
  intro t
  obtain ⟨hm, ht⟩ := h t
  rw [bind_apply, hm, ht]
  exact h' t

theorem emit {x : Slotting U (Metadata U)} (e : Event) (h : d.Leads x d') :
    d.Leads (do Logged.emit e; x) d' := h

theorem foldlM {α : Type} {f : Metadata U → α → Slotting U (Metadata U)} {g : Draft U → α → Draft U}
    (h : ∀ d a, Leads d (f d.metadata a) (g d a)) :
    ∀ (as : List α) (d : Draft U), d.Leads (as.foldlM f d.metadata) (as.foldl g d)
  | [], d => pure d d.metadata
  | a :: as, d => by
    rw [List.foldlM_cons, List.foldl_cons]
    exact (h d a).bind (foldlM h as (g d a))

end Draft.Leads

theorem recordMethodAs_leads (x : Method U) (d : Draft U) (k : Kind) :
    d.Leads (recordMethodAs x d.metadata k) (d.methodAs x k) := by
  unfold recordMethodAs Draft.methodAs
  split_ifs
  · refine fun t => ⟨rfl, ?_⟩
    rw [HandleTable.serveAll_append]
    rfl
  · exact Draft.Leads.pure d d.metadata

theorem recordFieldAs_leads (x : Field U) (d : Draft U) (k : Kind) :
    d.Leads (recordFieldAs x d.metadata k) (d.fieldAs x k) := by
  unfold recordFieldAs Draft.fieldAs
  split_ifs
  · refine fun t => ⟨rfl, ?_⟩
    rw [HandleTable.serveAll_append]
    rfl
  · exact Draft.Leads.pure d d.metadata

theorem recordMethod_leads (d : Draft U) (x : Method U) :
    d.Leads (recordMethod d.metadata x) (d.method x) := by
  unfold recordMethod Draft.method
  split_ifs
  · exact Draft.Leads.foldlM (recordMethodAs_leads x) _ d
  · exact Draft.Leads.pure d d.metadata

theorem recordField_leads (d : Draft U) (x : Field U) :
    d.Leads (recordField d.metadata x) (d.field x) := by
  unfold recordField Draft.field
  split_ifs
  · exact Draft.Leads.foldlM (recordFieldAs_leads x) _ { d with metadata := _ }
  · exact Draft.Leads.pure d d.metadata

theorem recordType_leads (l : FiniteLoader U) (d : Draft U) (c : TypeDecl U) :
    d.Leads (recordType l d.metadata c) (d.type l c) := by
  unfold recordType Draft.type
  cases l.linkFailure? c with
  | none =>
    exact (Draft.Leads.foldlM recordField_leads c.fields { d with metadata := _ }).bind
      (Draft.Leads.foldlM recordMethod_leads c.methods _)
  | some e =>
    simp only
    split_ifs
    · exact ((Draft.Leads.pure d _).emit _).emit _
    · exact Draft.Leads.pure d _

theorem recordFinding_leads (l : FiniteLoader U) (d : Draft U) (f : Finding U) :
    d.Leads (recordFinding l d.metadata f) (f.type?.elim d (d.type l)) := by
  cases f with
  | entered c => exact recordType_leads l d c
  | skipped c r e => exact Draft.Leads.pure d d.metadata

/-! ## The whole extraction -/

/-- The findings of the walk from `root`, recorded in order. -/
def recordWalk (l : FiniteLoader U) (root : TypeDecl U) : Slotting U (Metadata U) :=
  (l.walk root).trace.foldlM (recordFinding l) { name := root.name }

theorem foldl_elim_type? (l : FiniteLoader U) (fs : List (Finding U)) (d : Draft U) :
    fs.foldl (fun d f => f.type?.elim d (d.type l)) d =
      (fs.filterMap Finding.type?).foldl (Draft.type l) d := by
  induction fs generalizing d with
  | nil => rfl
  | cons f fs ih => cases f <;> exact ih _

theorem recordWalk_leads (l : FiniteLoader U) (root : TypeDecl U) :
    Draft.Leads { metadata := { name := root.name } } (recordWalk l root) (l.draft root) := by
  have h := Draft.Leads.foldlM (recordFinding_leads l) (l.walk root).trace
    { metadata := { name := root.name } }
  rwa [foldl_elim_type?] at h

variable {l : FiniteLoader U} {root : TypeDecl U}

theorem extract_of_stop_none (h : (l.walk root).stop = none) :
    extract l root = do
      let m ← recordWalk l root
      emit (.extracted root.name (l.walk root).names.length m.methods.size m.fields.size)
      return .ok m := by
  refine congrArg (recordWalk l root >>= ·) (funext fun m => ?_)
  split
  · rfl
  · rename_i h'
    rw [h] at h'
    cases h'
  · rename_i h'
    exact absurd h' (l.walk_stop_ne_exhausted root)

theorem extract_of_cycle {e : Cycle} (h : (l.walk root).stop = some (.cycle e)) :
    extract l root = do
      let _ ← recordWalk l root
      return .error e := by
  refine congrArg (recordWalk l root >>= ·) (funext fun m => ?_)
  split
  · rename_i h'
    rw [h] at h'
    cases h'
  · rename_i h'
    rw [h] at h'
    cases h'
    rfl
  · rename_i h'
    exact absurd h' (l.walk_stop_ne_exhausted root)

variable (l root) in
/-- **What an extraction answers**: the cycle on which the walk ended, and else the metadata of the
draft. The table has no part in it. -/
theorem extract_fst (t : HandleTable U) :
    (extract l root t).1 =
      match (l.walk root).stop with
      | some (.cycle e) => .error e
      | _ => .ok (l.draft root).metadata := by
  cases h : (l.walk root).stop with
  | none =>
    rw [extract_of_stop_none h]
    exact congrArg Except.ok (recordWalk_leads l root t).1
  | some s =>
    cases s with
    | cycle e => rw [extract_of_cycle h]; rfl
    | exhausted => exact absurd h (l.walk_stop_ne_exhausted root)

variable (l root) in
/-- **The handle table after an extraction** has served the requests of the draft, whether the
extraction failed or not. -/
theorem extract_handles (t : HandleTable U) :
    (extract l root t).2.1 = t.serveAll (l.draft root).requests := by
  cases h : (l.walk root).stop with
  | none =>
    rw [extract_of_stop_none h]
    exact (recordWalk_leads l root t).2
  | some s =>
    cases s with
    | cycle e =>
      rw [extract_of_cycle h]
      exact (recordWalk_leads l root t).2
    | exhausted => exact absurd h (l.walk_stop_ne_exhausted root)

theorem extract_eq_ok_iff {t : HandleTable U} {m : Metadata U} :
    (extract l root t).1 = .ok m ↔ (l.walk root).stop = none ∧ (l.draft root).metadata = m := by
  rw [extract_fst]
  cases h : (l.walk root).stop with
  | none => simp
  | some s =>
    cases s with
    | cycle e => simp
    | exhausted => exact absurd h (l.walk_stop_ne_exhausted root)

theorem extract_eq_error_iff {t : HandleTable U} {e : Cycle} :
    (extract l root t).1 = .error e ↔ (l.walk root).stop = some (.cycle e) := by
  rw [extract_fst]
  cases h : (l.walk root).stop with
  | none => simp
  | some s =>
    cases s with
    | cycle e => simp
    | exhausted => exact absurd h (l.walk_stop_ne_exhausted root)

/-! ## What is asked for -/

/-- The slot of every member that the metadata records is among those asked for. -/
structure Metadata.Within (rs : List (Request U)) (m : Metadata U) : Prop where
  methods : ∀ k, ∀ x ∈ m.methods k, .method x ∈ rs
  fields : ∀ k, ∀ x ∈ m.fields k, .field x ∈ rs

theorem Metadata.Within.mono {rs ss : List (Request U)} {m : Metadata U} (h : m.Within rs)
    (hsub : rs ⊆ ss) : m.Within ss where
  methods k x hx := hsub (h.methods k x hx)
  fields k x hx := hsub (h.fields k x hx)

theorem Table.forall_mem_push {α β : Type} {f : α → β} {rs : List β} {t : Table α}
    (h : ∀ k, ∀ x ∈ t k, f x ∈ rs) (j : Kind) (y : α) :
    ∀ k, ∀ x ∈ t.push j [y] k, f x ∈ rs ++ [f y] := by
  intro k x hx
  by_cases hk : k = j
  · rw [hk, Table.push_self, List.mem_append, List.mem_singleton] at hx
    rcases hx with hx | rfl
    · exact List.mem_append_left _ (h j x hx)
    · exact List.mem_append_right _ (List.mem_singleton_self _)
  · rw [Table.push_of_ne t hk] at hx
    exact List.mem_append_left _ (h k x hx)

namespace Draft

/-- The draft asks for the slots of all that it records. -/
def Asks (d : Draft U) : Prop := d.metadata.Within d.requests

variable {d : Draft U}

theorem Asks.methodAs (h : d.Asks) (x : Method U) (k : Kind) : (d.methodAs x k).Asks := by
  unfold Draft.methodAs
  split_ifs
  · exact ⟨Table.forall_mem_push h.methods k x,
      fun j y hy => List.mem_append_left _ (h.fields j y hy)⟩
  · exact h

theorem Asks.fieldAs (h : d.Asks) (x : Field U) (k : Kind) : (d.fieldAs x k).Asks := by
  unfold Draft.fieldAs
  split_ifs
  · exact ⟨fun j y hy => List.mem_append_left _ (h.methods j y hy),
      Table.forall_mem_push h.fields k x⟩
  · exact h

theorem Asks.method (h : d.Asks) (x : Method U) : (d.method x).Asks := by
  unfold Draft.method
  split_ifs
  · exact List.foldlRecOn (motive := Asks) _ _ h fun d hd k _ => hd.methodAs x k
  · exact h

theorem Asks.field (h : d.Asks) (x : Field U) : (d.field x).Asks := by
  unfold Draft.field
  split_ifs
  · have hvalidated : Asks { d with metadata := { d.metadata with
        validated := d.metadata.validated || x.validated } } := ⟨h.methods, h.fields⟩
    exact List.foldlRecOn (motive := Asks) _ _ hvalidated fun d hd k _ => hd.fieldAs x k
  · exact h

theorem Asks.type (h : d.Asks) (l : FiniteLoader U) (c : TypeDecl U) : (d.type l c).Asks := by
  have hmarkers : Asks { d with metadata := d.metadata.addMarkers c } := ⟨h.methods, h.fields⟩
  unfold Draft.type
  cases l.linkFailure? c with
  | none =>
    have hfields := List.foldlRecOn (motive := Asks) c.fields Draft.field hmarkers
      fun d hd x _ => hd.field x
    exact List.foldlRecOn (motive := Asks) c.methods Draft.method hfields
      fun d hd x _ => hd.method x
  | some e => exact hmarkers

end Draft

variable (l root) in
/-- **A draft asks for the slots of all that it records.** -/
theorem asks_draft : (l.draft root).Asks := by
  have hempty : Draft.Asks (U := U) { metadata := { name := root.name } } :=
    ⟨fun _ _ h => (List.not_mem_nil h).elim, fun _ _ h => (List.not_mem_nil h).elim⟩
  exact List.foldlRecOn (motive := Draft.Asks) _ _ hempty fun _ hd c _ => hd.type l c

/-- The member is one of the type's own. -/
def Request.DeclaredBy (c : TypeDecl U) : Request U → Prop
  | .method x => x ∈ c.methods
  | .field x => x ∈ c.fields

namespace Draft

/-- The draft asks for no slots but those of members of the types `cs`. -/
def AsksOf (cs : List (TypeDecl U)) (d : Draft U) : Prop :=
  ∀ r ∈ d.requests, ∃ c ∈ cs, r.DeclaredBy c

variable {cs : List (TypeDecl U)} {d : Draft U} {c : TypeDecl U}

theorem AsksOf.concat (h : d.AsksOf cs) (hc : c ∈ cs) {r : Request U} (hr : r.DeclaredBy c)
    (m : Metadata U) : AsksOf cs ⟨m, d.requests ++ [r]⟩ := by
  intro q hq
  rcases List.mem_append.mp hq with hq | hq
  · exact h q hq
  · rw [List.mem_singleton.mp hq]
    exact ⟨c, hc, hr⟩

theorem AsksOf.method (h : d.AsksOf cs) (hc : c ∈ cs) {x : Method U} (hx : x ∈ c.methods) :
    (d.method x).AsksOf cs := by
  unfold Draft.method
  split_ifs
  · refine List.foldlRecOn (motive := AsksOf cs) _ _ h fun d hd k _ => ?_
    unfold methodAs
    split_ifs
    · exact hd.concat hc (r := .method x) hx _
    · exact hd
  · exact h

theorem AsksOf.field (h : d.AsksOf cs) (hc : c ∈ cs) {x : Field U} (hx : x ∈ c.fields) :
    (d.field x).AsksOf cs := by
  unfold Draft.field
  split_ifs
  · refine List.foldlRecOn (motive := AsksOf cs) _ _ h fun d hd k _ => ?_
    unfold fieldAs
    split_ifs
    · exact hd.concat hc (r := .field x) hx _
    · exact hd
  · exact h

theorem AsksOf.type (h : d.AsksOf cs) (l : FiniteLoader U) (hc : c ∈ cs) :
    (d.type l c).AsksOf cs := by
  have hmarkers : AsksOf cs { d with metadata := d.metadata.addMarkers c } := h
  unfold Draft.type
  cases l.linkFailure? c with
  | none =>
    have hfields := List.foldlRecOn (motive := AsksOf cs) c.fields Draft.field hmarkers
      fun d hd x hx => hd.field hc hx
    exact List.foldlRecOn (motive := AsksOf cs) c.methods Draft.method hfields
      fun d hd x hx => hd.method hc hx
  | some e => exact hmarkers

end Draft

/-- **A draft asks for no slots but those of members of the types in its walk.** -/
theorem declaredBy_of_mem_draft {r : Request U} (h : r ∈ (l.draft root).requests) :
    ∃ c ∈ (l.walk root).types, r.DeclaredBy c := by
  have hempty : Draft.AsksOf (l.walk root).types { metadata := { name := root.name } } :=
    fun _ hr => (List.not_mem_nil hr).elim
  exact List.foldlRecOn (motive := Draft.AsksOf (l.walk root).types) _ _ hempty
    (fun _ hd c hc => hd.type l hc) r h

end ComponentHooks
