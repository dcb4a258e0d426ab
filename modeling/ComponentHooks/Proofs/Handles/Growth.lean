import ComponentHooks.Invocation
import ComponentHooks.Proofs.Extraction.Draft
import Mathlib.Data.Finset.Card
import Mathlib.Data.List.Nodup

/-!
# How a handle table grows

A table takes slots in and never lets one go. Of the slots that come in, those without a handle are
told, each once, and nothing else is told of handles.

* `Slots.Grows`: more slots, with the refusals among them;
* `Slots.Accounts`: the slots that requests have left, and what was told of them;
* `TellsRefusals`: a step that tells the refusals of the slots it makes;
* **`Slots.accounts_of_grows`**: what grew out of nothing by requests accounts for them;
* **`tellsRefusals_extract`**, `tellsRefusals_invoke`, `tellsRefusals_getField`: the steps do so.
-/

namespace ComponentHooks

open Logged

variable {U : Universe}

/-! ## Slots -/

/-- The refusal in a slot, with its member. -/
def Slots.refusal? {H : Type} (e : MemberId × Except Refusal H) : Option (MemberId × Refusal) :=
  match e.2 with
  | .ok _ => none
  | .error r => some (e.1, r)

namespace Slots

variable {H α : Type} {s s' s'' : Slots H} {told told' : List (MemberId × Refusal)}

/-- The slots go on to `s'` by further ones, and `told` are the refusals among these, in order. -/
def Grows (s s' : Slots H) (told : List (MemberId × Refusal)) : Prop :=
  ∃ es, s'.entries = s.entries ++ es ∧ told = es.filterMap refusal?

theorem Grows.refl (s : Slots H) : s.Grows s [] := ⟨[], (List.append_nil _).symm, rfl⟩

theorem Grows.trans (h : s.Grows s' told) (h' : s'.Grows s'' told') :
    s.Grows s'' (told ++ told') := by
  obtain ⟨es, hs, rfl⟩ := h
  obtain ⟨fs, hs', rfl⟩ := h'
  exact ⟨es ++ fs, by rw [hs', hs, List.append_assoc], List.filterMap_append.symm⟩

theorem Grows.add (s : Slots H) (m : MemberId) (v : Except Refusal H) :
    s.Grows (s.add m v) (refusal? (m, v)).toList := by
  refine ⟨[(m, v)], rfl, ?_⟩
  cases v <;> rfl

theorem Grows.told_eq (h : s.Grows s' told) (h' : s.Grows s' told') : told = told' := by
  obtain ⟨es, hs, rfl⟩ := h
  obtain ⟨fs, hs', rfl⟩ := h'
  rw [List.append_cancel_left (hs.symm.trans hs')]

/-- No member has two slots. -/
def KeysNodup (s : Slots H) : Prop := (s.entries.map Prod.fst).Nodup

theorem find?_eq_none_iff {m : MemberId} : s.find? m = none ↔ m ∉ s.entries.map Prod.fst := by
  rw [find?, Option.map_eq_none_iff, List.find?_eq_none]
  refine ⟨fun h hm => ?_, fun h e he hm => h (List.mem_map.mpr ⟨e, he, of_decide_eq_true hm⟩)⟩
  obtain ⟨e, he, rfl⟩ := List.mem_map.mp hm
  exact h e he (decide_eq_true rfl)

theorem KeysNodup.request (h : s.KeysNodup) (m : MemberId) (v : Except Refusal H) :
    (s.request m v).KeysNodup := by
  rw [Slots.request]
  cases hm : s.find? m with
  | some u => exact h
  | none =>
    rw [KeysNodup, add, List.map_append, List.map_singleton, ← List.concat_eq_append,
      List.nodup_concat]
    exact ⟨find?_eq_none_iff.mp hm, h⟩

theorem keysNodup_foldl_request (key : α → MemberId) (verdict : α → Except Refusal H)
    (xs : List α) (h : s.KeysNodup) :
    (xs.foldl (fun s x => s.request (key x) (verdict x)) s).KeysNodup :=
  List.foldlRecOn (motive := KeysNodup) xs _ h fun _ hs x _ => hs.request (key x) (verdict x)

theorem KeysNodup.filter_eq (h : s.KeysNodup) (m : MemberId) :
    s.entries.filter (·.1 = m) = ((s.find? m).map (m, ·)).toList := by
  obtain ⟨es⟩ := s
  induction es with
  | nil => rfl
  | cons e es ih =>
    obtain ⟨he, hes⟩ := List.nodup_cons.mp h
    by_cases hm : e.1 = m
    · subst hm
      have hnone : es.filter (·.1 = e.1) = [] := by
        rw [List.filter_eq_nil_iff]
        intro f hf hname
        exact he (List.mem_map.mpr ⟨f, hf, of_decide_eq_true hname⟩)
      simp [find?, hnone]
    · rw [List.filter_cons_of_neg (by simpa using hm), ih hes]
      simp [find?, hm]

/-- What requests for `xs` have left: each member has the verdict on the first request under its
identity, there are as many slots as identities, and of every member its refusal is told once, if
that verdict is one. -/
structure Accounts (s : Slots H) (key : α → MemberId) (verdict : α → Except Refusal H)
    (xs : List α) (told : List (MemberId × Refusal)) : Prop where
  find? : ∀ m, s.find? m = (xs.find? (key · = m)).map verdict
  size : s.size = (xs.map key).toFinset.card
  told : ∀ m, told.filter (·.1 = m) =
    match s.find? m with
    | some (.error r) => [(m, r)]
    | _ => []

/-- **What grew out of nothing by requests accounts for them.** -/
theorem accounts_of_grows (key : α → MemberId) (verdict : α → Except Refusal H) (xs : List α)
    (hs : s = xs.foldl (fun s x => s.request (key x) (verdict x)) {})
    (hgrows : Grows {} s told) : s.Accounts key verdict xs told := by
  have hfind : ∀ m, s.find? m = (xs.find? (key · = m)).map verdict := by
    intro m
    rw [hs, find?_foldl_request]
    exact Option.none_or
  have hnodup : s.KeysNodup := by
    rw [hs]
    exact keysNodup_foldl_request key verdict xs List.nodup_nil
  refine ⟨hfind, ?_, fun m => ?_⟩
  · have hkeys : (s.entries.map Prod.fst).toFinset = (xs.map key).toFinset := by
      ext m
      rw [List.mem_toFinset, List.mem_toFinset, ← not_iff_not, ← find?_eq_none_iff, hfind,
        Option.map_eq_none_iff, List.find?_eq_none, List.mem_map]
      simp
    rw [← hkeys, List.toFinset_card_of_nodup hnodup, List.length_map]
    rfl
  · obtain ⟨es, hes, rfl⟩ := hgrows
    rw [List.nil_append] at hes
    have hfilter : (es.filterMap refusal?).filter (·.1 = m) =
        (es.filter (·.1 = m)).filterMap refusal? := by
      rw [List.filter_filterMap, List.filterMap_filter]
      refine List.filterMap_congr fun e _ => ?_
      obtain ⟨n, v⟩ := e
      by_cases hn : n = m <;> cases v <;> simp [refusal?, hn]
    rw [hfilter, ← hes, hnodup.filter_eq]
    rcases s.find? m with _ | _ | _ <;> rfl

end Slots

/-! ## Tables -/

/-- The method without a handle that an event tells of. -/
def Event.methodRefusal? : Event → Option (MemberId × Refusal)
  | .methodUnavailable m r => some (m, r)
  | _ => none

/-- The field without a handle that an event tells of. -/
def Event.fieldRefusal? : Event → Option (MemberId × Refusal)
  | .fieldUnavailable m r => some (m, r)
  | _ => none

namespace HandleTable

variable {t t' t'' : HandleTable U} {events more : List Event}

/-- The table goes on to `t'` by further slots, and of members without a handle the events tell
those in the new slots, in order. -/
structure Grows (t t' : HandleTable U) (events : List Event) : Prop where
  policy : t'.policy = t.policy
  methods : t.methods.Grows t'.methods (events.filterMap Event.methodRefusal?)
  fields : t.fields.Grows t'.fields (events.filterMap Event.fieldRefusal?)

theorem Grows.refl (t : HandleTable U) : t.Grows t [] := ⟨rfl, .refl _, .refl _⟩

theorem Grows.trans (h : t.Grows t' events) (h' : t'.Grows t'' more) :
    t.Grows t'' (events ++ more) where
  policy := h'.policy.trans h.policy
  methods := by
    rw [List.filterMap_append]
    exact h.methods.trans h'.methods
  fields := by
    rw [List.filterMap_append]
    exact h.fields.trans h'.fields

end HandleTable

/-! ## Steps -/

/-- A step that tells the refusals of the slots it makes, and of no other. -/
def TellsRefusals {α : Type} (x : Slotting U α) : Prop :=
  ∀ t : HandleTable U, t.Grows (x t).2.1 (x t).2.2

namespace TellsRefusals

variable {α β : Type}

theorem pure (a : α) : TellsRefusals (return a : Slotting U α) := HandleTable.Grows.refl

theorem bind {x : Slotting U α} {f : α → Slotting U β} (hx : TellsRefusals x)
    (hf : ∀ a, TellsRefusals (f a)) : TellsRefusals (x >>= f) :=
  fun t => (hx t).trans (hf _ _)

theorem emit {e : Event} (hm : e.methodRefusal? = none) (hf : e.fieldRefusal? = none) :
    TellsRefusals (Logged.emit e : Slotting U Unit) := by
  refine fun t => ⟨rfl, ?_, ?_⟩
  · rw [emit_apply, List.filterMap_cons_none hm]
    exact .refl _
  · rw [emit_apply, List.filterMap_cons_none hf]
    exact .refl _

theorem foldlM {f : β → α → Slotting U β} (h : ∀ b a, TellsRefusals (f b a)) :
    ∀ (as : List α) (b : β), TellsRefusals (as.foldlM f b)
  | [], b => pure b
  | a :: as, b => by
    rw [List.foldlM_cons]
    exact (h b a).bind (foldlM h as)

end TellsRefusals

theorem tellsRefusals_requestMethod (x : Method U) :
    TellsRefusals (HandleTable.requestMethod x) := by
  intro t
  unfold HandleTable.requestMethod
  cases t.methods.find? x.id with
  | some v => exact .refl t
  | none =>
    dsimp only
    generalize t.policy.bindMethod x = v
    have hadd := Slots.Grows.add t.methods x.id v
    cases v <;> exact ⟨rfl, hadd, .refl _⟩

theorem tellsRefusals_requestField (x : Field U) :
    TellsRefusals (HandleTable.requestField x) := by
  intro t
  unfold HandleTable.requestField
  cases t.fields.find? x.id with
  | some v => exact .refl t
  | none =>
    dsimp only
    generalize t.policy.bindField x = v
    have hadd := Slots.Grows.add t.fields x.id v
    cases v <;> exact ⟨rfl, .refl _, hadd⟩

/-! ### Extractions -/

theorem tellsRefusals_recordMethodAs (x : Method U) (m : Metadata U) (k : Kind) :
    TellsRefusals (recordMethodAs x m k) := by
  unfold recordMethodAs
  split_ifs
  · exact (tellsRefusals_requestMethod x).bind fun _ => .pure _
  · exact .pure m

theorem tellsRefusals_recordFieldAs (x : Field U) (m : Metadata U) (k : Kind) :
    TellsRefusals (recordFieldAs x m k) := by
  unfold recordFieldAs
  split_ifs
  · exact (tellsRefusals_requestField x).bind fun _ => .pure _
  · exact .pure m

theorem tellsRefusals_recordMethod (m : Metadata U) (x : Method U) :
    TellsRefusals (recordMethod m x) := by
  unfold recordMethod
  split_ifs
  · exact .foldlM (tellsRefusals_recordMethodAs x) _ m
  · exact .pure m

theorem tellsRefusals_recordField (m : Metadata U) (x : Field U) :
    TellsRefusals (recordField m x) := by
  unfold recordField
  split_ifs
  · exact .foldlM (tellsRefusals_recordFieldAs x) _ _
  · exact .pure m

theorem tellsRefusals_recordType (l : FiniteLoader U) (m : Metadata U) (c : TypeDecl U) :
    TellsRefusals (recordType l m c) := by
  unfold recordType
  cases l.linkFailure? c with
  | none =>
    exact (TellsRefusals.foldlM tellsRefusals_recordField _ _).bind fun m =>
      .foldlM tellsRefusals_recordMethod _ m
  | some e =>
    dsimp only
    split_ifs
    · exact (TellsRefusals.emit rfl rfl).bind fun _ =>
        (TellsRefusals.emit rfl rfl).bind fun _ => .pure _
    · exact .pure _

theorem tellsRefusals_recordFinding (l : FiniteLoader U) (m : Metadata U) (f : Finding U) :
    TellsRefusals (recordFinding l m f) := by
  cases f with
  | entered c => exact tellsRefusals_recordType l m c
  | skipped c r e => exact (TellsRefusals.emit rfl rfl).bind fun _ => .pure m

/-- **An extraction tells the refusals of the slots it makes**, also when it ends on a cycle. -/
theorem tellsRefusals_extract (l : FiniteLoader U) (root : TypeDecl U) :
    TellsRefusals (extract l root) := by
  have hwalk : TellsRefusals (recordWalk l root) :=
    .foldlM (tellsRefusals_recordFinding l) _ _
  cases h : (l.walk root).stop with
  | none =>
    rw [extract_of_stop_none h]
    exact hwalk.bind fun _ => (TellsRefusals.emit rfl rfl).bind fun _ => .pure _
  | some s =>
    cases s with
    | cycle e =>
      rw [extract_of_cycle h]
      exact hwalk.bind fun _ => .pure _
    | exhausted => exact absurd h (l.walk_stop_ne_exhausted root)

/-! ### Uses of members -/

section Uses

variable {τ : Type} (R : Reflection U τ)

theorem tellsRefusals_invoke (x : Method U) (s : Scene U τ) : TellsRefusals (invoke R x s) :=
  (tellsRefusals_requestMethod x).bind fun _ => .pure _

theorem tellsRefusals_invokeEach (xs : List (Method U)) (s : Scene U τ) :
    TellsRefusals (invokeEach R xs s) := by
  induction xs generalizing s with
  | nil => exact .pure _
  | cons x xs ih =>
    refine (tellsRefusals_invoke R x s).bind fun r => ?_
    rcases r with ⟨_ | _, s'⟩
    · exact .pure _
    · exact ih s'

theorem tellsRefusals_invokeAll (m : Metadata U) (k : Kind) (s : Scene U τ) :
    TellsRefusals (invokeAll R m k s) :=
  (tellsRefusals_invokeEach R _ s).bind fun _ => .pure _

theorem tellsRefusals_getField (x : Field U) (s : Scene U τ) : TellsRefusals (getField R x s) :=
  (tellsRefusals_requestField x).bind fun _ => .pure _

theorem tellsRefusals_getFieldAs (ty : U.Ty) (x : Field U) (s : Scene U τ) :
    TellsRefusals (getFieldAs R ty x s) :=
  (tellsRefusals_getField R x s).bind fun _ => .pure _

theorem tellsRefusals_setField (x : Field U) (v : Value U) (s : Scene U τ) :
    TellsRefusals (setField R x v s) :=
  (tellsRefusals_requestField x).bind fun _ => .pure _

end Uses

end ComponentHooks
