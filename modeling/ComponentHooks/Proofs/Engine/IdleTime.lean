import ComponentHooks.Proofs.Engine.Building
import Mathlib.Order.Bounds.Basic

/-!
# Idle times in whole seconds

An engine counts idle times in whole seconds, and a second that is begun counts in full: an idle
time is stored as the least number of seconds that is not smaller. All idle times but those of the
one second that begins when 64 bits are used up can be stored so.

* `IdleTime`, `IdleTime.total`: idle times with nanoseconds;
* `IdleTime.Rounds`: a number of seconds is the least one that is not smaller;
* **`IdleTime.apply_eq_ok_iff`**, **`IdleTime.apply_eq_error_iff`**: what is stored, and what cannot
  be;
* **`Engine.rounds_idle`**: so the number grows with the idle time, is zero for the idle time zero
  only, and that is the idle time that building refuses as zero.
-/

namespace ComponentHooks

variable {U : Universe}

/-- An idle time of whole seconds and nanoseconds. -/
structure IdleTime where
  seconds : UInt64
  nanoseconds : Nat := 0
  nanoseconds_lt : nanoseconds < 1000000000 := by decide

namespace IdleTime

/-- The idle time in nanoseconds. -/
def total (d : IdleTime) : Nat := d.seconds.toNat * 1000000000 + d.nanoseconds

def call (d : IdleTime) : BuildCall := .timeToIdle d.seconds d.nanoseconds

/-- The least number of whole seconds that is not smaller than the idle time. -/
def Rounds (d : IdleTime) (n : Nat) : Prop := IsLeast {k | d.total ≤ k * 1000000000} n

/-- No 64-bit number of whole seconds is so large. -/
def IsBeyond (d : IdleTime) : Prop := ∀ n : UInt64, n.toNat * 1000000000 < d.total

/-! ## What is stored -/

variable (d : IdleTime)

theorem rounds_add_div :
    d.Rounds (d.seconds.toNat + (d.nanoseconds + 999999999) / 1000000000) := by
  refine ⟨?_, fun k hk => ?_⟩
  · rw [Set.mem_ofPred_eq, total]
    omega
  · rw [Set.mem_ofPred_eq, total] at hk
    omega

theorem idleSeconds?_eq_some_iff {n : UInt64} :
    idleSeconds? d.seconds d.nanoseconds = some n ↔ d.Rounds n.toNat := by
  have hrounds := d.rounds_add_div
  simp only [idleSeconds?]
  constructor
  · intro h
    split_ifs at h with hfits
    cases h
    rwa [UInt64.toNat_ofNat_of_lt' hfits]
  · intro h
    rw [hrounds.unique h, if_pos n.toNat_lt, UInt64.ofNat_toNat]

theorem idleSeconds?_eq_none_iff :
    idleSeconds? d.seconds d.nanoseconds = none ↔ d.IsBeyond := by
  constructor
  · intro h n
    by_contra hle
    -- The least number is not above `n`, so it would fit.
    have hleast : d.seconds.toNat + (d.nanoseconds + 999999999) / 1000000000 ≤ n.toNat :=
      d.rounds_add_div.2 (Nat.le_of_not_lt hle)
    simp only [idleSeconds?, if_pos (Nat.lt_of_le_of_lt hleast n.toNat_lt)] at h
    cases h
  · intro h
    refine Option.eq_none_iff_forall_ne_some.mpr fun n hn => ?_
    exact Nat.not_le_of_lt (h n) (d.idleSeconds?_eq_some_iff.mp hn).1

theorem isBeyond_iff : d.IsBeyond ↔ d.seconds.toNat = UInt64.size - 1 ∧ 0 < d.nanoseconds := by
  constructor
  · intro h
    have hlast := h 18446744073709551615
    rw [show UInt64.toNat 18446744073709551615 = UInt64.size - 1 from rfl, total] at hlast
    have hseconds : d.seconds.toNat < UInt64.size := d.seconds.toNat_lt
    have hnanoseconds := d.nanoseconds_lt
    omega
  · rintro ⟨hseconds, hnanoseconds⟩ n
    have hn : n.toNat < UInt64.size := n.toNat_lt
    rw [total, hseconds]
    omega

theorem withIdle_inj {s : Settings} {m n : UInt64} (h : s.withIdle m = s.withIdle n) : m = n :=
  Option.some.inj (congrArg (·.metadataCache.idleSeconds) h)

/-- **What a call with an idle time stores**: the least number of seconds that is not smaller. -/
theorem apply_eq_ok_iff (s : Settings) {n : UInt64} :
    d.call.apply s = .ok (s.withIdle n) ↔ d.Rounds n.toNat := by
  rw [← d.idleSeconds?_eq_some_iff, call]
  refine ⟨fun h => ?_, fun h => BuildCall.apply_timeToIdle h s⟩
  rw [BuildCall.apply] at h
  cases hm : idleSeconds? d.seconds d.nanoseconds with
  | none =>
    rw [hm] at h
    cases h
  | some m =>
    rw [hm] at h
    exact congrArg some (withIdle_inj (Except.ok.inj h))

/-- **The call fails exactly on idle times that no 64-bit number of seconds reaches.** -/
theorem apply_eq_error_iff (s : Settings) : d.call.apply s = .error .idleOverflow ↔ d.IsBeyond := by
  rw [← d.idleSeconds?_eq_none_iff, call, BuildCall.apply]
  cases idleSeconds? d.seconds d.nanoseconds <;> simp

end IdleTime

/-! ## What building answers -/

namespace IdleTime

variable {d e : IdleTime} {m n : Nat}

theorem Rounds.le (hm : d.Rounds m) (hn : e.Rounds n) (h : d.total ≤ e.total) : m ≤ n :=
  hm.2 (Nat.le_trans h hn.1)

theorem rounds_zero_iff : d.Rounds 0 ↔ d.total = 0 := by
  constructor
  · intro h
    have hle : d.total ≤ 0 * 1000000000 := h.1
    omega
  · intro h
    exact ⟨by rw [Set.mem_ofPred_eq, h], fun _ _ => Nat.zero_le _⟩

/-- A time in which the last second has just begun. -/
def begun : IdleTime := { seconds := 59, nanoseconds := 1 }

def longer : IdleTime := { seconds := 61 }

end IdleTime

namespace Engine

open BuildCall

variable {reserves : UInt64 → Bool}

theorem ofCalls_concat_eq {calls : List BuildCall} {call : BuildCall} {s : Settings}
    (h : ∀ c ∈ calls, ¬ c.Overflows) (hcall : call.apply (settled calls) = .ok s) :
    ofCalls U reserves (calls ++ [call]) = build U reserves s := by
  rw [ofCalls, applyAll, List.foldlM_append, ← applyAll, applyAll_eq_ok h]
  change ([call].foldlM apply (settled calls)).bind (build U reserves) = _
  rw [List.foldlM_cons, hcall]
  rfl

theorem fault?_withIdle_eq_iff (s : Settings) (n : UInt64) :
    (s.withIdle n).fault? = some .zeroIdleSeconds ↔ s.metadataCache.maxCapacity ≠ 0 ∧ n = 0 := by
  rw [Settings.fault?, Settings.withIdle]
  split_ifs <;> simp_all

/-- Building answers that the idle time is zero exactly if it is, and no call before has failed and
no capacity of zero is reported in its place. -/
theorem ofCalls_concat_eq_zeroIdle_iff (d : IdleTime) (calls : List BuildCall) :
    ofCalls U reserves (calls ++ [d.call]) = .error (.settings .zeroIdleSeconds) ↔
      (∀ call ∈ calls, ¬ call.Overflows) ∧
        (settled calls).metadataCache.maxCapacity ≠ 0 ∧ d.total = 0 := by
  by_cases hcalls : ∀ call ∈ calls, ¬ call.Overflows
  · cases happly : idleSeconds? d.seconds d.nanoseconds with
    | none =>
      have herror : ofCalls U reserves (calls ++ [d.call]) = .error .idleOverflow := by
        rw [ofCalls, applyAll_eq_error ⟨d.call, by simp, happly⟩]
        rfl
      have hzero : d.total ≠ 0 := fun h => by
        have hbeyond := d.idleSeconds?_eq_none_iff.mp happly 0
        omega
      rw [herror]
      simp [hzero]
    | some n =>
      have hn : d.Rounds n.toNat := d.idleSeconds?_eq_some_iff.mp happly
      have hiff : n = 0 ↔ d.total = 0 := by
        rw [← IdleTime.rounds_zero_iff, ← UInt64.toNat_inj]
        exact ⟨fun h => by rwa [h] at hn, fun h => hn.unique h⟩
      rw [ofCalls_concat_eq hcalls ((d.apply_eq_ok_iff _).mpr hn), (builds_build reserves _).refused,
        fault?_withIdle_eq_iff, hiff]
      exact (and_iff_right hcalls).symm
  · have herror : ofCalls U reserves (calls ++ [d.call]) = .error .idleOverflow := by
      obtain ⟨call, hmem, hover⟩ := by simpa using hcalls
      rw [ofCalls, applyAll_eq_error ⟨call, List.mem_append_left _ hmem, hover⟩]
      rfl
    rw [herror]
    simp [hcalls]

/-- **Idle times are rounded up to whole seconds**, unless the last second of 64 bits has begun,
where the call fails. -/
theorem rounds_idle (U : Universe) (reserves : UInt64 → Bool) (d : IdleTime) :
    (∀ (s : Settings) (n : UInt64), d.call.apply s = .ok (s.withIdle n) ↔ d.Rounds n.toNat) ∧
      (∀ s : Settings, (∃ n, d.call.apply s = .ok (s.withIdle n)) ↔
        ¬ (d.seconds.toNat = UInt64.size - 1 ∧ 0 < d.nanoseconds)) ∧
      (∀ (e : IdleTime) (m n : Nat), d.Rounds m → e.Rounds n → d.total ≤ e.total → m ≤ n) ∧
      (∀ s : Settings, d.call.apply s = .ok (s.withIdle 0) ↔ d.total = 0) ∧
      ∀ calls : List BuildCall,
        ofCalls U reserves (calls ++ [d.call]) = .error (.settings .zeroIdleSeconds) ↔
          (∀ call ∈ calls, ¬ call.Overflows) ∧
            (settled calls).metadataCache.maxCapacity ≠ 0 ∧ d.total = 0 := by
  refine ⟨fun s n => d.apply_eq_ok_iff s, fun s => ?_, fun e m n hm hn => hm.le hn, fun s => ?_,
    fun calls => ofCalls_concat_eq_zeroIdle_iff d calls⟩
  · rw [← d.isBeyond_iff, ← d.idleSeconds?_eq_none_iff]
    simp only [d.apply_eq_ok_iff, ← d.idleSeconds?_eq_some_iff]
    exact Option.ne_none_iff_exists'.symm
  · rw [d.apply_eq_ok_iff, ← IdleTime.rounds_zero_iff]
    rfl

open IdleTime in
/-- A second that is begun counts in full, and no idle time that is longer counts less. -/
theorem rounds_idle_begun :
    (begun.Rounds 60 ∧ begun.call.apply {} = .ok (Settings.withIdle {} 60)) ∧
      longer.Rounds 61 ∧ begun.total ≤ longer.total ∧ 60 ≤ 61 := by
  have hbegun : begun.Rounds 60 := (begun.idleSeconds?_eq_some_iff (n := 60)).mp (by decide)
  have hlonger : longer.Rounds 61 := (longer.idleSeconds?_eq_some_iff (n := 61)).mp (by decide)
  have hle : begun.total ≤ longer.total := by decide
  obtain ⟨hstores, -, hmono, -⟩ := rounds_idle Sample.world (fun _ => true) begun
  exact ⟨⟨hbegun, (hstores {} 60).mpr hbegun⟩, hlonger, hle, hmono longer 60 61 hbegun hlonger hle⟩

/-- In the last second of 64 bits nothing is stored. -/
theorem not_forall_rounded :
    ¬ ∀ (d : IdleTime) (s : Settings), ∃ n : UInt64,
      d.call.apply s = .ok (s.withIdle n) ∧ d.Rounds n.toNat := by
  intro h
  let d : IdleTime := { seconds := 18446744073709551615, nanoseconds := 1 }
  obtain ⟨n, hn, -⟩ := h d {}
  have hbeyond : d.IsBeyond := d.isBeyond_iff.mpr ⟨by decide, by decide⟩
  cases hn.symm.trans ((d.apply_eq_error_iff {}).mpr hbeyond)

end Engine

end ComponentHooks
