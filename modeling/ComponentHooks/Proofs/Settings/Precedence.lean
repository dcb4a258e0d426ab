import ComponentHooks.Proofs.Settings.Agreement

/-!
# Which fault of variables is told

Variables are read in their order, and the first text that cannot be read is told, whatever the
others hold. Only where all texts can be read do the rules of settings have a say.

* `writesNumeral_iff`, `writesName_iff`: the texts that are read;
* `Variable.IsReadable`, `IsFirstUnreadable`: texts that a variable can have, and the first other
  one;
* **`Selection.exists_inVariables`**: variables with readable texts hold a selection;
* `Settings.FirstBroken`: the first rule that settings break;
* **`Settings.ofVariables_verdict`**: what is told of variables, and what is read from them.
-/

namespace ComponentHooks

/-! ## Texts -/

/-- **A text writes a number exactly if it is read** when its blanks are taken off. -/
theorem writesNumeral_iff {n : UInt64} {raw : String} :
    WritesNumeral n raw ↔ Text.readNumeral (Text.trim raw.toList) = .ok n := by
  refine ⟨readNumeral_of_writesNumeral, fun h => ?_⟩
  obtain ⟨sign, ds, hsign, hds, htrim⟩ := Text.readNumeral_eq_ok_iff.mp h
  have hraw := Text.padded_trim raw.toList
  rw [htrim] at hraw
  exact ⟨hsign, hds, hraw⟩

theorem writesName_iff {p : BindPolicy} {raw : String} :
    WritesName p raw ↔ BindPolicy.ofName? (String.ofList (Text.trim raw.toList)) = some p := by
  refine ⟨ofName?_of_writesName, fun h => ?_⟩
  have hname : p.name.toList = Text.trim raw.toList := by
    rw [← BindPolicy.ofName?_eq_some_iff.mp h, String.toList_ofList]
  rw [WritesName, hname]
  exact Text.padded_trim raw.toList

namespace Variable

/-- The variable can have the text: a number, or for the policy its name. -/
def IsReadable (v : Variable) (raw : String) : Prop :=
  if v = bindPolicy then ∃ p, WritesName p raw else ∃ n, WritesNumeral n raw

theorem exists_readNumber_iff {raw : String} {store : UInt64 → Settings} :
    (∃ s, readNumber (Text.trim raw.toList) store = .ok s) ↔ ∃ n, WritesNumeral n raw := by
  simp only [writesNumeral_iff, readNumber]
  cases Text.readNumeral (Text.trim raw.toList) <;> simp

/-- **The texts that a variable can have** are those that are read. -/
theorem exists_read_iff {v : Variable} {raw : String} {s : Settings} :
    (∃ t, v.read (Text.trim raw.toList) s = .ok t) ↔ v.IsReadable raw := by
  cases v with
  | bindPolicy =>
    rw [IsReadable, if_pos rfl]
    simp only [writesName_iff, read]
    cases BindPolicy.ofName? (String.ofList (Text.trim raw.toList)) <;> simp
  | _ => exact exists_readNumber_iff

theorem mem_all (v : Variable) : v ∈ all := by cases v <;> decide

end Variable

/-! ## The first text that cannot be read -/

section Unreadable

variable (lookup : String → Option String)

/-- The variable is not set, or has a text that it can have. -/
def Variable.IsInOrder (v : Variable) : Prop := ∀ raw, lookup v.name = some raw → v.IsReadable raw

/-- The text of the variable cannot be read, and all variables before it are in order. -/
structure IsFirstUnreadable (v : Variable) (raw : String) : Prop where
  set : lookup v.name = some raw
  unreadable : ¬ v.IsReadable raw
  before : ∃ before after, Variable.all = before ++ v :: after ∧ ∀ u ∈ before, u.IsInOrder lookup

variable {lookup}

theorem exists_override_iff {v : Variable} {s : Settings} :
    (∃ t, Variable.override lookup s v = .ok t) ↔ v.IsInOrder lookup := by
  rw [Variable.override, Variable.IsInOrder]
  cases lookup v.name with
  | none => simp
  | some raw =>
    simp only [Option.some.injEq, forall_eq', ← Variable.exists_read_iff (s := s)]
    cases v.read (Text.trim raw.toList) s <;> simp [Except.mapError]

theorem override_of_unreadable {v : Variable} {raw : String} (hset : lookup v.name = some raw)
    (hraw : ¬ v.IsReadable raw) (s : Settings) :
    ∃ reason, Variable.override lookup s v = .error (.unreadable v.name raw reason) := by
  rw [← Variable.exists_read_iff (s := s)] at hraw
  simp only [Variable.override, hset]
  cases hread : v.read (Text.trim raw.toList) s with
  | ok t => exact absurd ⟨t, hread⟩ hraw
  | error reason => exact ⟨reason, rfl⟩

theorem exists_foldlM_override {vs : List Variable} (h : ∀ v ∈ vs, v.IsInOrder lookup)
    (s : Settings) : ∃ t, vs.foldlM (Variable.override lookup) s = .ok t := by
  induction vs generalizing s with
  | nil => exact ⟨s, rfl⟩
  | cons v vs ih =>
    obtain ⟨t, ht⟩ := exists_override_iff.mpr (h v List.mem_cons_self)
    obtain ⟨u, hu⟩ := ih (fun u hu => h u (List.mem_cons_of_mem _ hu)) t
    refine ⟨u, ?_⟩
    rw [List.foldlM_cons, ht]
    exact hu

/-- **The first text that cannot be read is told**, whatever the variables after it hold. -/
theorem IsFirstUnreadable.ofVariables {v : Variable} {raw : String}
    (h : IsFirstUnreadable lookup v raw) :
    ∃ reason, Settings.ofVariables lookup = .error (.unreadable v.name raw reason) := by
  obtain ⟨before, after, hall, hbefore⟩ := h.before
  obtain ⟨t, ht⟩ := exists_foldlM_override hbefore {}
  obtain ⟨reason, hv⟩ := override_of_unreadable h.set h.unreadable t
  refine ⟨reason, ?_⟩
  have hread : Variable.all.foldlM (Variable.override lookup) {} =
      .error (.unreadable v.name raw reason) := by
    rw [hall, List.foldlM_append, ht]
    change (v :: after).foldlM (Variable.override lookup) t = _
    rw [List.foldlM_cons, hv]
    rfl
  rw [Settings.ofVariables, hread]
  rfl

open Classical in
theorem isInOrder_or_isFirstUnreadable (lookup : String → Option String) :
    (∀ v : Variable, v.IsInOrder lookup) ∨ ∃ v raw, IsFirstUnreadable lookup v raw := by
  cases hfind : Variable.all.find? fun v => decide (¬ v.IsInOrder lookup) with
  | none =>
    refine .inl fun v => ?_
    simpa using List.find?_eq_none.mp hfind v v.mem_all
  | some v =>
    obtain ⟨hv, before, after, hall, hbefore⟩ := List.find?_eq_some_iff_append.mp hfind
    obtain ⟨raw, hset, hraw⟩ : ∃ raw, lookup v.name = some raw ∧ ¬ v.IsReadable raw := by
      simpa [Variable.IsInOrder] using hv
    exact .inr ⟨v, raw, hset, hraw, before, after, hall, fun u hu => by simpa using hbefore u hu⟩

end Unreadable

/-! ## Variables that can all be read -/

theorem exists_rel {α β : Type} {W : α → β → Prop} {b? : Option β}
    (h : ∀ b, b? = some b → ∃ a, W a b) : ∃ a?, Option.Rel W a? b? := by
  cases b? with
  | none => exact ⟨none, .none⟩
  | some b =>
    obtain ⟨a, ha⟩ := h b rfl
    exact ⟨some a, .some ha⟩

/-- **Variables with readable texts hold a selection.** -/
theorem Selection.exists_inVariables {lookup : String → Option String}
    (h : ∀ v : Variable, v.IsInOrder lookup) : ∃ sel : Selection, sel.InVariables lookup := by
  obtain ⟨initial, hinitial⟩ := exists_rel (h .metadataInitialCapacity)
  obtain ⟨max, hmax⟩ := exists_rel (h .metadataMaxCapacity)
  obtain ⟨idle, hidle⟩ := exists_rel (h .metadataIdleSeconds)
  obtain ⟨handle, hhandle⟩ := exists_rel (h .handleInitialCapacity)
  obtain ⟨policy, hpolicy⟩ := exists_rel (h .bindPolicy)
  obtain ⟨threads, hthreads⟩ := exists_rel (h .preloadThreads)
  exact ⟨⟨initial, max, idle, handle, policy, threads⟩,
    hinitial, hmax, hidle, hhandle, hpolicy, hthreads⟩

namespace Settings

/-- The first rule that the settings break. The greatest number of cached types is looked at first,
then the idle time and then the workers. -/
inductive FirstBroken (s : Settings) : SettingsError → Prop where
  | maxCapacity (h : s.metadataCache.maxCapacity = 0) : FirstBroken s .zeroMaxCapacity
  | idleSeconds (hmax : s.metadataCache.maxCapacity ≠ 0) (h : s.metadataCache.idleSeconds = some 0) :
    FirstBroken s .zeroIdleSeconds
  | preloadThreads (hmax : s.metadataCache.maxCapacity ≠ 0)
    (hidle : s.metadataCache.idleSeconds ≠ some 0) (h : s.preloadThreads = some 0) :
    FirstBroken s .zeroPreloadThreads

variable {s : Settings} {e : SettingsError}

theorem fault?_eq_some_iff_firstBroken : s.fault? = some e ↔ s.FirstBroken e := by
  rw [fault?]
  constructor
  · intro h
    split_ifs at h with hmax hidle hthreads <;> cases h
    · exact .maxCapacity hmax
    · exact .idleSeconds hmax hidle
    · exact .preloadThreads hmax hidle hthreads
  · rintro (h | ⟨hmax, h⟩ | ⟨hmax, hidle, h⟩) <;> simp [*]

theorem checked_eq_error_iff : s.checked = .error e ↔ s.FirstBroken e := by
  rw [checked, ← fault?_eq_some_iff_firstBroken]
  cases s.fault? <;> simp

theorem checked_eq_ok_iff : s.checked = .ok s ↔ ∀ e, ¬ s.FirstBroken e := by
  simp only [checked, ← fault?_eq_some_iff_firstBroken]
  cases s.fault? <;> simp

theorem not_firstBroken_unreadable {name raw : String} {reason : VariableError} :
    ¬ s.FirstBroken (.unreadable name raw reason) := nofun

/-- **What variables are read as.** The first text that cannot be read is told, with the blanks
around it and whatever the other variables hold. Variables that can all be read select settings, of
which the first broken rule is told; where none is broken, they are read as just those settings. -/
theorem ofVariables_verdict (lookup : String → Option String) :
    (∀ name raw, (∃ reason, ofVariables lookup = .error (.unreadable name raw reason)) ↔
        ∃ v, v.name = name ∧ IsFirstUnreadable lookup v raw) ∧
      ((∀ v raw, ¬ IsFirstUnreadable lookup v raw) →
        ∃ sel : Selection, sel.InVariables lookup) ∧
      ∀ sel : Selection, sel.InVariables lookup →
        (∀ e, ofVariables lookup = .error e ↔ sel.settings.FirstBroken e) ∧
        (ofVariables lookup = .ok sel.settings ↔ ∀ e, ¬ sel.settings.FirstBroken e) := by
  refine ⟨fun name raw => ⟨?_, ?_⟩, fun h => ?_, fun sel hsel => ?_⟩
  · rintro ⟨reason, h⟩
    rcases isInOrder_or_isFirstUnreadable lookup with horder | ⟨v, raw', hv⟩
    · obtain ⟨sel, hsel⟩ := Selection.exists_inVariables horder
      rw [Selection.ofVariables_eq hsel, checked_eq_error_iff] at h
      exact absurd h not_firstBroken_unreadable
    · obtain ⟨reason', h'⟩ := hv.ofVariables
      cases h.symm.trans h'
      exact ⟨v, rfl, hv⟩
  · rintro ⟨v, rfl, hv⟩
    exact hv.ofVariables
  · rcases isInOrder_or_isFirstUnreadable lookup with horder | ⟨v, raw, hv⟩
    · exact Selection.exists_inVariables horder
    · exact absurd hv (h v raw)
  · rw [Selection.ofVariables_eq hsel]
    exact ⟨fun e => checked_eq_error_iff, checked_eq_ok_iff⟩

end Settings

namespace Selection.Sample

/-- A capacity of zero, which is read first and breaks a rule, and a policy that there is not. -/
def faulty (name : String) : Option String :=
  if name = "LIFEMARK_METADATA_MAX_CAPACITY" then some " +00"
  else if name = "LIFEMARK_BIND_POLICY" then some " Sometimes" else none

theorem isFirstUnreadable_faulty : IsFirstUnreadable faulty .bindPolicy " Sometimes" where
  set := rfl
  unreadable := by
    have hread : Variable.bindPolicy.read (Text.trim " Sometimes".toList) {} = .error .policy := by
      decide +kernel
    rw [← Variable.exists_read_iff (s := {}), hread]
    exact nofun
  before := by
    have hcapacity : Variable.metadataMaxCapacity.IsReadable " +00" :=
      ⟨0, writesNumeral_iff.mpr (by decide +kernel)⟩
    refine ⟨[.metadataInitialCapacity, .metadataMaxCapacity, .metadataIdleSeconds,
      .handleInitialCapacity], [.preloadThreads], rfl, fun u hu => ?_⟩
    cases u with
    | metadataMaxCapacity =>
      rintro raw ⟨⟩
      exact hcapacity
    | bindPolicy => exact absurd hu (by decide)
    | _ => exact nofun

end Selection.Sample

open Settings Selection.Sample in
/-- Of the faulty variables the text of the policy is told; two others are read as they are
meant. -/
theorem Settings.ofVariables_verdict_two :
    (IsFirstUnreadable faulty .bindPolicy " Sometimes" ∧
      ∃ reason, ofVariables faulty = .error (.unreadable "LIFEMARK_BIND_POLICY" " Sometimes" reason)) ∧
      two.InVariables lookup ∧ (∀ e, ¬ two.settings.FirstBroken e) ∧
        ofVariables lookup = .ok two.settings := by
  have hrules : ∀ e, ¬ two.settings.FirstBroken e := checked_eq_ok_iff.mp (by decide)
  exact ⟨⟨isFirstUnreadable_faulty,
      ((ofVariables_verdict faulty).1 _ _).mpr ⟨.bindPolicy, rfl, isFirstUnreadable_faulty⟩⟩,
    two_inVariables, hrules,
    (((ofVariables_verdict lookup).2.2 two two_inVariables).2).mpr hrules⟩

end ComponentHooks
