import ComponentHooks.Engine
import ComponentHooks.Sample.World
import ComponentHooks.Settings.Document
import ComponentHooks.Settings.Variables
import Mathlib.Data.List.Induction

/-!
# What building gives

The last call that speaks of a setting decides it. Settings that break no rule make an engine,
except that a cache does not take every idle time that the rules allow, and that there may be no
room for so many slots.

* `BuildCall.last`, `BuildCall.settled`: what calls in order say of a setting, and of all;
* **`BuildCall.applyAll_eq_ok`**: these are the settings after the calls;
* `Settings.IsRead`: settings that a text or variables give;
* `Engine.Builds`: what comes of settings;
* **`Engine.builds_calls`**: so it does of calls, and of settings that have been read.
-/

namespace ComponentHooks

variable {U : Universe}

/-! ## The settings after calls -/

namespace BuildCall

/-- The call has an idle time that cannot be counted. -/
def Overflows : BuildCall → Prop
  | timeToIdle t n => idleSeconds? t n = none
  | _ => False

section Last

variable {α : Type} (get : Settings → α) (own : BuildCall → Option α)

/-- What a call tells of a setting: all settings at once speak of it, and maybe calls of its own. -/
def tells : BuildCall → Option α
  | settings s => some (get s)
  | call => own call

/-- What the last call that speaks of a setting says of it. -/
def last (calls : List BuildCall) : α := (calls.reverse.findSome? (tells get own)).getD (get {})

theorem last_concat (calls : List BuildCall) (call : BuildCall) :
    last get own (calls ++ [call]) = (tells get own call).getD (last get own calls) := by
  rw [last, last, List.reverse_append, List.reverse_singleton, List.singleton_append,
    List.findSome?_cons]
  cases tells get own call <;> rfl

end Last

/-- The settings, each as the last call that speaks of it says. -/
def settled (calls : List BuildCall) : Settings where
  metadataCache :=
    { initialCapacity := last (·.metadataCache.initialCapacity) (fun _ => none) calls
      maxCapacity := last (·.metadataCache.maxCapacity)
        (fun | maxCapacity n => some n | _ => none) calls
      idleSeconds := last (·.metadataCache.idleSeconds)
        (fun | timeToIdle t n => some (idleSeconds? t n) | _ => none) calls }
  handleTable :=
    { initialCapacity := last (·.handleTable.initialCapacity) (fun _ => none) calls }
  bindPolicy := last (·.bindPolicy) (fun | bindPolicy p => some p | _ => none) calls
  preloadThreads := last (·.preloadThreads)
    (fun | preloadThreads n => some (some n) | _ => none) calls

variable {calls : List BuildCall} {call : BuildCall}

theorem apply_timeToIdle {t : UInt64} {n : Nat} {seconds : UInt64}
    (h : idleSeconds? t n = some seconds) (s : Settings) :
    (timeToIdle t n).apply s = .ok (s.withIdle seconds) := by
  rw [apply, h]
  rfl

theorem apply_of_overflows (h : call.Overflows) (s : Settings) :
    call.apply s = .error .idleOverflow := by
  cases call with
  | timeToIdle t n =>
    have hnone : idleSeconds? t n = none := h
    rw [apply, hnone]
    rfl
  | _ => cases h

theorem apply_settled (h : ¬ call.Overflows) :
    call.apply (settled calls) = .ok (settled (calls ++ [call])) := by
  cases call with
  | timeToIdle t n =>
    obtain ⟨seconds, hseconds⟩ := Option.ne_none_iff_exists'.mp h
    rw [apply_timeToIdle hseconds]
    simp only [settled, last_concat, tells, hseconds, Settings.withIdle, Option.getD_some,
      Option.getD_none]
  | _ =>
    change Except.ok _ = _
    simp only [settled, last_concat, tells, Option.getD_some, Option.getD_none]

/-- **The last call that speaks of a setting decides it.** -/
theorem applyAll_eq_ok (h : ∀ call ∈ calls, ¬ call.Overflows) :
    applyAll calls = .ok (settled calls) := by
  induction calls using List.reverseRecOn with
  | nil => rfl
  | append_singleton calls call ih =>
    have hcalls := ih fun c hc => h c (List.mem_append_left _ hc)
    have hcall : ¬ call.Overflows := h call (List.mem_append_right _ (List.mem_singleton_self _))
    rw [applyAll, List.foldlM_append, ← applyAll, hcalls]
    change [call].foldlM apply (settled calls) = _
    rw [List.foldlM_cons, apply_settled hcall]
    rfl

theorem apply_of_not_overflows (h : ¬ call.Overflows) (s : Settings) :
    ∃ t, call.apply s = .ok t := by
  cases call with
  | timeToIdle t n =>
    obtain ⟨seconds, hseconds⟩ := Option.ne_none_iff_exists'.mp h
    exact ⟨_, apply_timeToIdle hseconds s⟩
  | _ => exact ⟨_, rfl⟩

theorem applyAll_eq_error (h : ∃ call ∈ calls, call.Overflows) :
    applyAll calls = .error .idleOverflow := by
  rw [applyAll]
  generalize ({} : Settings) = s
  induction calls generalizing s with
  | nil => simp at h
  | cons call calls ih =>
    rw [List.foldlM_cons]
    by_cases hcall : call.Overflows
    · rw [apply_of_overflows hcall]
      rfl
    · obtain ⟨t, ht⟩ := apply_of_not_overflows hcall s
      rw [ht]
      refine ih ?_ t
      obtain ⟨c, hc, hover⟩ := h
      rcases List.mem_cons.mp hc with rfl | hc
      · exact absurd hover hcall
      · exact ⟨c, hc, hover⟩

end BuildCall

/-! ## Settings that have been read -/

namespace Settings

/-- A text or variables give the settings. -/
def IsRead (s : Settings) : Prop :=
  (∃ text, ofText text = .ok s) ∨ ∃ lookup, ofVariables lookup = .ok s

theorem fault?_of_checked {s t : Settings} (h : s.checked = .ok t) : t.fault? = none := by
  rw [checked] at h
  cases hfault : s.fault? with
  | some e =>
    rw [hfault] at h
    cases h
  | none =>
    rw [hfault] at h
    cases h
    exact hfault

/-- **Settings that have been read break no rule.** -/
theorem IsRead.fault? {s : Settings} (h : s.IsRead) : s.fault? = none := by
  rcases h with ⟨text, h⟩ | ⟨lookup, h⟩
  · rw [ofText] at h
    cases hread : (Json.parse? text.toList).bind ofJson? with
    | none =>
      rw [hread] at h
      cases h
    | some t =>
      rw [hread] at h
      exact fault?_of_checked h
  · rw [ofVariables] at h
    cases hread : Variable.all.foldlM (Variable.override lookup) {} with
    | error e =>
      rw [hread] at h
      cases h
    | ok t =>
      rw [hread] at h
      exact fault?_of_checked h

/-- A cache takes the idle time. -/
def IdleFits (s : Settings) : Prop := ∀ t, s.metadataCache.idleSeconds = some t → t ≤ maxIdleSeconds

end Settings

/-! ## Engines -/

namespace Engine

variable {reserves : UInt64 → Bool}

/-- What comes of settings: the rule that they break, if they break one; an engine with these
settings and their policy, if there is room for its slots and a cache takes the idle time; and else
no answer. -/
structure Builds (reserves : UInt64 → Bool) (s : Settings)
    (r : Except BuildError (Engine U × List Event)) : Prop where
  refused (e : SettingsError) : r = .error (.settings e) ↔ s.fault? = some e
  built : (∃ x, r = .ok x) ↔
    s.fault? = none ∧ reserves s.handleTable.initialCapacity = true ∧ s.IdleFits
  tooMany : r = .error .tooManySlots ↔
    s.fault? = none ∧ reserves s.handleTable.initialCapacity = false
  tooLong : r = .error .idleTooLong ↔
    s.fault? = none ∧ reserves s.handleTable.initialCapacity = true ∧ ¬ s.IdleFits
  engine {e : Engine U} {events : List Event} (h : r = .ok (e, events)) :
    e.settings = s ∧ e.handles.policy = s.bindPolicy ∧
      e.cache.capacity = s.metadataCache.maxCapacity.toNat

theorem any_idle_iff (s : Settings) :
    s.metadataCache.idleSeconds.any (maxIdleSeconds < ·) = true ↔ ¬ s.IdleFits := by
  rw [Settings.IdleFits]
  cases s.metadataCache.idleSeconds with
  | none => simp
  | some t => simp

variable (reserves) in
theorem builds_build (s : Settings) : Builds reserves s (build U reserves s) := by
  have hany := any_idle_iff s
  rw [build]
  cases hfault : s.fault? with
  | some e => constructor <;> simp [hfault]
  | none =>
    cases hroom : reserves s.handleTable.initialCapacity with
    | false => constructor <;> simp [hfault, hroom]
    | true =>
      by_cases hfits : s.IdleFits
      · have hidle : ¬ s.metadataCache.idleSeconds.any (maxIdleSeconds < ·) = true := by
          rw [hany]
          exact not_not.mpr hfits
        simp only [Bool.not_true, Bool.false_eq_true, if_false, if_neg hidle]
        constructor
        case engine =>
          rintro e events ⟨⟩
          exact ⟨rfl, rfl, rfl⟩
        all_goals simp [hfault, hroom, hfits]
      · simp only [Bool.not_true, Bool.false_eq_true, if_false, if_pos (hany.mpr hfits)]
        constructor <;> simp [hfault, hroom, hfits]

theorem Builds.ne_idleOverflow {s : Settings} {r : Except BuildError (Engine U × List Event)}
    (h : Builds reserves s r) : r ≠ .error .idleOverflow := by
  rintro rfl
  have hfault : s.fault? = none := Option.eq_none_iff_forall_ne_some.mpr fun e he => by
    cases (h.refused e).mpr he
  cases hroom : reserves s.handleTable.initialCapacity with
  | false => cases h.tooMany.mpr ⟨hfault, hroom⟩
  | true =>
    by_cases hfits : s.IdleFits
    · obtain ⟨x, hx⟩ := h.built.mpr ⟨hfault, hroom, hfits⟩
      cases hx
    · cases h.tooLong.mpr ⟨hfault, hroom, hfits⟩

/-- **What building gives.** Unless a call has an idle time that cannot be counted, it is what comes
of the settings that the calls say. Settings that have been read are not refused. -/
theorem builds_calls (U : Universe) (reserves : UInt64 → Bool) :
    (∀ calls : List BuildCall,
      (ofCalls U reserves calls = .error .idleOverflow ↔ ∃ call ∈ calls, call.Overflows) ∧
        ((∀ call ∈ calls, ¬ call.Overflows) →
          Builds reserves (BuildCall.settled calls) (ofCalls U reserves calls))) ∧
      ∀ s : Settings, s.IsRead → s.fault? = none ∧ Builds reserves s (build U reserves s) := by
  refine ⟨fun calls => ?_, fun s hread => ⟨hread.fault?, builds_build reserves s⟩⟩
  have hbuilds : (∀ call ∈ calls, ¬ call.Overflows) →
      Builds reserves (BuildCall.settled calls) (ofCalls U reserves calls) := by
    intro h
    rw [ofCalls, BuildCall.applyAll_eq_ok h]
    exact builds_build reserves _
  by_cases hover : ∃ call ∈ calls, call.Overflows
  · have herror : ofCalls U reserves calls = .error .idleOverflow := by
      rw [ofCalls, BuildCall.applyAll_eq_error hover]
      rfl
    exact ⟨iff_of_true herror hover, hbuilds⟩
  · have hfit : ∀ call ∈ calls, ¬ call.Overflows := fun call hc h => hover ⟨call, hc, h⟩
    exact ⟨iff_of_false (hbuilds hfit).ne_idleOverflow hover, hbuilds⟩

theorem idleSeconds?_zero (t : UInt64) : idleSeconds? t 0 = some t := by
  have hlt : t.toNat + (0 + 999999999) / 1000000000 < UInt64.size := by
    rw [Nat.div_eq_of_lt (by omega)]
    exact t.toNat_lt
  rw [idleSeconds?]
  simp only [if_pos hlt]
  exact congrArg some UInt64.ofNat_toNat

/-- An idle time of more than a thousand years breaks no rule, and yet there is no engine with it,
though there be room for any number of slots. -/
theorem not_forall_built :
    ¬ ∀ calls : List BuildCall, (∀ call ∈ calls, ¬ call.Overflows) →
      (BuildCall.settled calls).fault? = none →
        ∃ x, ofCalls Sample.world (fun _ => true) calls = .ok x := by
  intro h
  let call : BuildCall := .timeToIdle (maxIdleSeconds + 1) 0
  have hfit : ∀ c ∈ [call], ¬ c.Overflows := by
    intro c hc
    rw [List.mem_singleton.mp hc]
    simp [call, BuildCall.Overflows, idleSeconds?_zero]
  have hsettled : BuildCall.settled [call] = Settings.withIdle {} (maxIdleSeconds + 1) := by
    have hcall : call.apply (BuildCall.settled []) = .ok (BuildCall.settled [call]) :=
      BuildCall.apply_settled (hfit call (List.mem_singleton_self _))
    rw [BuildCall.apply_timeToIdle (idleSeconds?_zero _)] at hcall
    exact (Except.ok.inj hcall).symm
  have hbuilt := h [call] hfit (by rw [hsettled]; rfl)
  rw [ofCalls, BuildCall.applyAll_eq_ok hfit, hsettled] at hbuilt
  have hfits : Settings.IdleFits (Settings.withIdle {} (maxIdleSeconds + 1)) :=
    ((builds_build (fun _ => true) _).built.mp hbuilt).2.2
  exact absurd (hfits _ rfl) (by decide)

end Engine

end ComponentHooks
