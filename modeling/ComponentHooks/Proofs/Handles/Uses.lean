import ComponentHooks.Proofs.Handles.Growth
import ComponentHooks.Proofs.Handles.Journal

/-!
# One table in many uses

Extractions, invocations, reads and writes on one handle table, in any order and on any members.

* `Use`, `Use.run`: a use of the table;
* `Use.requests`, `requestsOf`: the members whose slots one use and uses in order ask for;
* `Use.run_handles`, `forM_run_handles`: the requests are all that happens to the table;
* `HandleTable.Accounts`: a table made by requests, and what was told on the way;
* **`uses_account`**: slots stand as first requested and are told once, and neither half of the
  table has a part in the other.
-/

namespace ComponentHooks

open Logged

variable (U : Universe)

/-- A use of the handle table, on whatever target and shared state it is made. -/
inductive Use : Type 1 where
  | extraction (l : FiniteLoader U) (d : TypeDecl U)
  | invocation {τ : Type} (R : Reflection U τ) (x : Method U) (s : Scene U τ)
  | invocations {τ : Type} (R : Reflection U τ) (m : Metadata U) (k : Kind) (s : Scene U τ)
  | read {τ : Type} (R : Reflection U τ) (x : Field U) (s : Scene U τ)
  | readAs {τ : Type} (R : Reflection U τ) (ty : U.Ty) (x : Field U) (s : Scene U τ)
  | write {τ : Type} (R : Reflection U τ) (x : Field U) (v : Value U) (s : Scene U τ)

variable {U}

namespace Use

/-- Makes the use, whatever its answer is. -/
def run : Use U → Slotting U Unit
  | extraction l d => do let _ ← extract l d; return ()
  | invocation R x s => do let _ ← invoke R x s; return ()
  | invocations R m k s => do let _ ← invokeAll R m k s; return ()
  | read R x s => do let _ ← getField R x s; return ()
  | readAs R ty x s => do let _ ← getFieldAs R ty x s; return ()
  | write R x v s => do let _ ← setField R x v s; return ()

/-- The members whose slots the use asks for. Hooks that run in order ask for theirs until one
fails, and on which handles that depends. -/
def requests (t : HandleTable U) : Use U → List (Request U)
  | extraction l d => (l.draft d).requests
  | invocation _ x _ => [.method x]
  | invocations R m k s => invokeEachRequests R (m.methods k) s t
  | read _ x _ | readAs _ _ x _ | write _ x _ _ => [.field x]

theorem run_handles (u : Use U) (t : HandleTable U) :
    (u.run t).2.1 = t.serveAll (u.requests t) := by
  cases u with
  | extraction l d => exact extract_handles l d t
  | invocations R m k s => exact invokeEach_handles R (m.methods k) s t
  | invocation | read | readAs | write => rfl

theorem tellsRefusals_run (u : Use U) : TellsRefusals u.run := by
  cases u with
  | extraction l d => exact (tellsRefusals_extract l d).bind fun _ => .pure ()
  | invocation R x s => exact (tellsRefusals_invoke R x s).bind fun _ => .pure ()
  | invocations R m k s => exact (tellsRefusals_invokeAll R m k s).bind fun _ => .pure ()
  | read R x s => exact (tellsRefusals_getField R x s).bind fun _ => .pure ()
  | readAs R ty x s => exact (tellsRefusals_getFieldAs R ty x s).bind fun _ => .pure ()
  | write R x v s => exact (tellsRefusals_setField R x v s).bind fun _ => .pure ()

end Use

/-! ## Uses in order -/

/-- The members whose slots uses in order ask for. -/
def requestsOf : List (Use U) → HandleTable U → List (Request U)
  | [], _ => []
  | u :: us, t => u.requests t ++ requestsOf us (u.run t).2.1

theorem forM_run_handles (us : List (Use U)) (t : HandleTable U) :
    (forM us Use.run t).2.1 = t.serveAll (requestsOf us t) := by
  induction us generalizing t with
  | nil => rfl
  | cons u us ih =>
    rw [List.forM_cons, bind_apply, ih, requestsOf, HandleTable.serveAll_append, Use.run_handles]

theorem tellsRefusals_forM_run (us : List (Use U)) : TellsRefusals (forM us Use.run) := by
  induction us with
  | nil => exact .pure ()
  | cons u us ih => exact (Use.tellsRefusals_run u).bind fun _ => ih

/-! ## The halves of a table -/

namespace HandleTable

variable {t t' : HandleTable U} {rs ss : List (Request U)}

/-- Two tables that have the policy and the methods in common. -/
def SameMethods (t t' : HandleTable U) : Prop := t.policy = t'.policy ∧ t.methods = t'.methods

/-- Two tables that have the policy and the fields in common. -/
def SameFields (t t' : HandleTable U) : Prop := t.policy = t'.policy ∧ t.fields = t'.fields

theorem SameMethods.serveAll (h : t.SameMethods t')
    (hrs : rs.filterMap Request.method? = ss.filterMap Request.method?) :
    (t.serveAll rs).SameMethods (t'.serveAll ss) := by
  obtain ⟨hp, hm⟩ := h
  refine ⟨by rw [policy_serveAll, policy_serveAll, hp], ?_⟩
  rw [serveAll_eq, serveAll_eq, hrs, hp, hm]

theorem SameFields.serveAll (h : t.SameFields t')
    (hrs : rs.filterMap Request.field? = ss.filterMap Request.field?) :
    (t.serveAll rs).SameFields (t'.serveAll ss) := by
  obtain ⟨hp, hf⟩ := h
  refine ⟨by rw [policy_serveAll, policy_serveAll, hp], ?_⟩
  rw [serveAll_eq, serveAll_eq, hrs, hp, hf]

theorem SameMethods.requestMethod_fst (h : t.SameMethods t') (x : Method U) :
    (requestMethod x t).1 = (requestMethod x t').1 := by
  rw [HandleTable.requestMethod_fst, HandleTable.requestMethod_fst, h.1, h.2]

end HandleTable

section

variable {t t' : HandleTable U} {τ : Type} (R : Reflection U τ)

theorem invokeEachRequests_congr (h : t.SameMethods t') (xs : List (Method U)) (s : Scene U τ) :
    invokeEachRequests R xs s t = invokeEachRequests R xs s t' := by
  induction xs generalizing s t t' with
  | nil => rfl
  | cons x xs ih =>
    have hanswer : (invoke R x s t).1 = (invoke R x s t').1 :=
      congrArg (runMethod R x · s) (h.requestMethod_fst x)
    have hserve : (t.serveAll [.method x]).SameMethods (t'.serveAll [.method x]) := h.serveAll rfl
    rw [invokeEachRequests, invokeEachRequests, hanswer]
    rcases (invoke R x s t').1 with ⟨_ | _, s'⟩
    · rfl
    · exact congrArg (_ :: ·) (ih hserve s')

theorem field?_invokeEachRequests (xs : List (Method U)) (s : Scene U τ) (t : HandleTable U) :
    (invokeEachRequests R xs s t).filterMap Request.field? = [] := by
  induction xs generalizing s t with
  | nil => rfl
  | cons x xs ih =>
    rw [invokeEachRequests, List.filterMap_cons_none rfl]
    rcases (invoke R x s t).1 with ⟨_ | _, s'⟩
    · rfl
    · exact ih s' _

end

variable {t t' : HandleTable U}

theorem Use.requests_congr (h : t.SameMethods t') (u : Use U) : u.requests t = u.requests t' := by
  cases u with
  | invocations R m k s => exact invokeEachRequests_congr R h _ s
  | extraction | invocation | read | readAs | write => rfl

theorem Use.field?_requests (u : Use U) (t t' : HandleTable U) :
    (u.requests t).filterMap Request.field? = (u.requests t').filterMap Request.field? := by
  cases u with
  | invocations R m k s =>
    exact (field?_invokeEachRequests R _ s t).trans (field?_invokeEachRequests R _ s t').symm
  | extraction | invocation | read | readAs | write => rfl

theorem requestsOf_congr (h : t.SameMethods t') (us : List (Use U)) :
    requestsOf us t = requestsOf us t' := by
  induction us generalizing t t' with
  | nil => rfl
  | cons u us ih =>
    have hrun : (u.run t).2.1.SameMethods (u.run t').2.1 := by
      rw [Use.run_handles, Use.run_handles, u.requests_congr h]
      exact h.serveAll rfl
    rw [requestsOf, requestsOf, u.requests_congr h, ih hrun]

theorem field?_requestsOf (us : List (Use U)) (t t' : HandleTable U) :
    (requestsOf us t).filterMap Request.field? = (requestsOf us t').filterMap Request.field? := by
  induction us generalizing t t' with
  | nil => rfl
  | cons u us ih =>
    rw [requestsOf, requestsOf, List.filterMap_append, List.filterMap_append,
      u.field?_requests t t', ih]

/-- Neither half of the table has a part in the other: what a step makes of the methods and tells
of them is the same whatever the fields are, and the other way round. -/
structure HalvesApart (x : Slotting U Unit) : Prop where
  methods : ∀ t t' : HandleTable U, t.SameMethods t' →
    (x t).2.1.SameMethods (x t').2.1 ∧
      (x t).2.2.filterMap Event.methodRefusal? = (x t').2.2.filterMap Event.methodRefusal?
  fields : ∀ t t' : HandleTable U, t.SameFields t' →
    (x t).2.1.SameFields (x t').2.1 ∧
      (x t).2.2.filterMap Event.fieldRefusal? = (x t').2.2.filterMap Event.fieldRefusal?

theorem halvesApart_forM_run (us : List (Use U)) : HalvesApart (forM us Use.run) where
  methods t t' h := by
    have hsame : (forM us Use.run t).2.1.SameMethods (forM us Use.run t').2.1 := by
      rw [forM_run_handles, forM_run_handles]
      exact h.serveAll (congrArg _ (requestsOf_congr h us))
    have hgrows := (tellsRefusals_forM_run us t).methods
    rw [h.2, hsame.2] at hgrows
    exact ⟨hsame, hgrows.told_eq (tellsRefusals_forM_run us t').methods⟩
  fields t t' h := by
    have hsame : (forM us Use.run t).2.1.SameFields (forM us Use.run t').2.1 := by
      rw [forM_run_handles, forM_run_handles]
      exact h.serveAll (field?_requestsOf us t t')
    have hgrows := (tellsRefusals_forM_run us t).fields
    rw [h.2, hsame.2] at hgrows
    exact ⟨hsame, hgrows.told_eq (tellsRefusals_forM_run us t').fields⟩

/-! ## Accounts -/

/-- A table that is made under `p` by requests, with the events on the way. -/
structure HandleTable.Accounts (p : BindPolicy) (rs : List (Request U)) (t : HandleTable U)
    (events : List Event) : Prop where
  methods : t.methods.Accounts (·.id) p.bindMethod (rs.filterMap Request.method?)
    (events.filterMap Event.methodRefusal?)
  fields : t.fields.Accounts (·.id) p.bindField (rs.filterMap Request.field?)
    (events.filterMap Event.fieldRefusal?)

theorem accounts_forM_run (p : BindPolicy) (us : List (Use U)) :
    HandleTable.Accounts p (requestsOf us { policy := p }) (forM us Use.run { policy := p }).2.1
      (forM us Use.run { policy := p }).2.2 := by
  have htells := tellsRefusals_forM_run us { policy := p }
  have hhandles := forM_run_handles us { policy := p }
  rw [HandleTable.serveAll_eq] at hhandles
  exact ⟨Slots.accounts_of_grows _ _ _ (congrArg HandleTable.methods hhandles) htells.methods,
    Slots.accounts_of_grows _ _ _ (congrArg HandleTable.fields hhandles) htells.fields⟩

/-- The slots of `s` are as they are in `s'`. -/
def Slots.Keeps {H : Type} (s s' : Slots H) : Prop := ∀ m v, s.find? m = some v → s'.find? m = some v

theorem keeps_forM_run (us : List (Use U)) (t : HandleTable U) :
    t.methods.Keeps (forM us Use.run t).2.1.methods ∧
      t.fields.Keeps (forM us Use.run t).2.1.fields := by
  rw [forM_run_handles]
  refine ⟨fun m v hv => ?_, fun m v hv => ?_⟩
  · rw [HandleTable.findMethod_serveAll, hv, Option.some_or]
  · rw [HandleTable.findField_serveAll, hv, Option.some_or]

/-- **Slots stand as first requested and are told once.** After uses of a new table, every member
has the verdict on the first member requested under its identity, there are as many slots as
identities, and each refusal is told once. Further uses leave the slots as they are. In all this
methods and fields stay apart. -/
theorem uses_account (p : BindPolicy) (us vs : List (Use U)) :
    let run := forM us Use.run { policy := p }
    let further := forM (us ++ vs) Use.run { policy := p }
    HandleTable.Accounts p (requestsOf us { policy := p }) run.2.1 run.2.2 ∧
      run.2.1.methods.Keeps further.2.1.methods ∧ run.2.1.fields.Keeps further.2.1.fields ∧
      HalvesApart (forM us Use.run) := by
  intro run further
  have hfurther : further.2.1 = (forM vs Use.run run.2.1).2.1 := by
    change (forM (us ++ vs) Use.run { policy := p }).2.1 = _
    rw [List.forM_append]
    rfl
  obtain ⟨hmethods, hfields⟩ := keeps_forM_run vs run.2.1
  rw [← hfurther] at hmethods hfields
  exact ⟨accounts_forM_run p us, hmethods, hfields, halvesApart_forM_run us⟩

end ComponentHooks
