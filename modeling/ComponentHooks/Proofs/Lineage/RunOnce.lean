import ComponentHooks.Proofs.Lineage.Dispatch

/-!
# No hook is run twice

The metadata of a struct may have methods without a body, from interfaces, beside the hooks of the
struct itself. Under each kind all of them have different names, and each is run by a hook of its
own name, so no hook is run for two of them.

* `Lineage.nodup_of_walk_stop`: a struct that can be extracted has a different name on each level;
* `Lineage.nearest?`, `Lineage.answering?`: the hook that runs for a name, and for a method;
* `Lineage.answerEach`, **`Lineage.invokeEach_eq_answerEach`**: methods in order, each by its hook;
* `Lineage.nodup_answering`, `Lineage.Notes`, `Lineage.log_answerEach`: these hooks are different
  ones, and so are those that a log in the shared state has;
* `Lineage.fits_of_extract`: the slots that an extraction leaves;
* **`Lineage.dispatchesVirtually`**: methods without a body on a struct, one by one and all of a
  kind.
-/

namespace ComponentHooks

variable {U : Universe}

/-! ## One level -/

theorem HookBody.isStatic_embedded {ls : Layout U} (s : Shape U) (b : HookBody U ls) :
    (b.embedded s).isStatic = b.isStatic := by cases b <;> rfl

theorem InheritedHook.isAbstract_method {ls : Layout U} (h : InheritedHook U ls) :
    h.method.isAbstract = false := by
  rw [Method.isAbstract]
  cases hbody : h.hook.body with
  | onSelf f =>
    obtain ⟨run, hrun⟩ := h.onSelf f hbody
    rw [hrun]
    rfl
  | onShared f =>
    rw [h.onShared f hbody]
    rfl

theorem BindPolicy.bindMethod_of_isAbstract (p : BindPolicy) {x : Method U}
    (h : x.isAbstract = true) : ∃ r, p.bindMethod x = .error r := by
  have hbody : x.body = none := Option.isNone_iff_eq_none.mp h
  rw [bindMethod, hbody]
  cases p.refusal? x.toMember with
  | some r => exact ⟨r, rfl⟩
  | none => exact ⟨.noBody x.id, rfl⟩

theorem Component.dispatch_eq_find? {s : Shape U} {ps : Layout U} (c : Component U s ps)
    (n : String) (r : Record U (s :: ps)) (shared : U.Shared) :
    c.dispatch n r shared =
      (c.table.find? fun h => h.name = n && !h.body.isStatic).map fun h => h.body.run r shared := by
  rw [dispatch, ← List.findSome?_guard, List.map_findSome?]
  congr 1
  funext h
  cases hbody : h.body with
  | onSelf f => by_cases hname : h.name = n <;> simp [HookBody.isStatic, HookBody.run, hname, hbody]
  | onShared f => simp [HookBody.isStatic, hbody]

namespace Lineage

/-! ## Names of the levels -/

/-- The levels have different names, none of which is on the path. -/
def FreshOn {ls : Layout U} (T : Lineage U ls) (path : List String) : Prop :=
  (T.decls.map TypeDecl.name).Nodup ∧ ∀ n ∈ T.decls.map TypeDecl.name, n ∉ path

/-- The superclass of a type is walked before its interfaces, so on the way up along the levels of a
struct all names that were met are on the path. -/
theorem freshOn_rule (l : FiniteLoader U) : CleanRule l
    (fun path c w _ => ∀ {ls : Layout U} (T : Lineage U ls) {link : U.Link}, T.LinkedIn l →
      T.link? = some link → l.linked link = c → w.names ⊆ path → T.FreshOn path)
    fun path _ rs w _ => ∀ {ls : Layout U} (T : Lineage U ls) {link : U.Link}, T.LinkedIn l →
      T.link? = some link → .linked link ∈ rs.head? → w.names ⊆ path → T.FreshOn path where
  seen hp hn := by
    intro ls T link _ _ _ hnames
    exact absurd (hnames hn) hp
  enter := by
    intro path d w w' hp _ hq ls T link hlinked hlink hd hnames
    cases T with
    | nil => cases hlink
    | cons c parents =>
      cases hlink
      obtain rfl : c.declare parents.link? = d := hlinked.1.symm.trans hd
      have hmore : (w.record (.entered (c.declare parents.link?))).names ⊆ c.typeName :: path := by
        rw [Walk.names_entered]
        intro n hn
        rcases List.mem_append.mp hn with hn | hn
        · exact List.mem_cons_of_mem _ (hnames hn)
        · exact List.mem_singleton.mp hn ▸ List.mem_cons_self
      have hparents : parents.FreshOn (c.typeName :: path) := by
        cases parents with
        | nil => exact ⟨List.nodup_nil, fun n hn => (List.not_mem_nil hn).elim⟩
        | cons c' grandparents => exact hq (.cons c' grandparents) hlinked.2 rfl rfl hmore
      refine ⟨List.nodup_cons.mpr ⟨fun hmem => ?_, hparents.1⟩, fun n hn => ?_⟩
      · exact hparents.2 _ hmem List.mem_cons_self
      · rcases List.mem_cons.mp hn with rfl | hn
        · exact hp
        · exact fun hpath => hparents.2 n hn (List.mem_cons_of_mem _ hpath)
  done := by
    intro path c w ls T link _ _ hhead
    cases hhead
  skip := by
    intro path c r rs w w' e hr _ ls T link _ _ hhead
    cases hhead
    cases hr
  go := by
    intro path c r rs d w w' w'' hr hp _ ls T link hlinked hlink hhead hnames
    cases hhead
    exact hp T hlinked hlink (Except.ok.inj hr) hnames

/-- **A struct that can be extracted has a different name on each level.** -/
theorem nodup_of_walk_stop {s : Shape U} {ps : Layout U} (T : Lineage U (s :: ps))
    {l : FiniteLoader U} (hlinked : T.LinkedIn l) (hstop : (l.walk T.declare).stop = none) :
    (T.decls.map TypeDecl.name).Nodup := by
  cases T with
  | cons c parents =>
    have hfresh : (cons c parents).FreshOn [] :=
      (freshOn_rule l).walk hstop (cons c parents) hlinked rfl hlinked.1 (List.Subset.refl _)
    exact hfresh.1

/-! ## The hook that answers -/

section Answers

variable {ls : Layout U}

/-- The first hook of the name that runs on the state of its level. -/
def nearest? (T : Lineage U ls) (n : String) : Option (InheritedHook U ls) :=
  T.inherited.find? fun h => h.hook.name = n && !h.hook.body.isStatic

/-- The hook that runs for a method: the nearest one of its name where it has no body, and otherwise
the one that it describes. -/
def answering? (T : Lineage U ls) (x : Method U) : Option (InheritedHook U ls) :=
  if x.isAbstract then T.nearest? x.id.name else T.inherited.find? (·.id = x.id)

theorem invoke_none (T : Lineage U ls) (n : String) (r : Record U ls) (shared : U.Shared) :
    T.invoke none n r shared = (T.nearest? n).map fun h => h.hook.body.run r shared := by
  induction T with
  | nil => rfl
  | @cons s ps c parents ih =>
    have hown : (c.table.map c.ownHook).find? (fun h => h.hook.name = n && !h.hook.body.isStatic) =
        (c.table.find? fun h => h.name = n && !h.body.isStatic).map c.ownHook := List.find?_map
    have hembedded : (parents.inherited.map (·.embedded s)).find?
          (fun h => h.hook.name = n && !h.hook.body.isStatic) =
        (parents.nearest? n).map (·.embedded s) := by
      rw [List.find?_map, nearest?]
      congr 2
      funext h
      rw [Function.comp_apply, InheritedHook.body_embedded, HookBody.isStatic_embedded]
      rfl
    rw [invoke, if_pos c.answersFor_none, c.dispatch_eq_find?, nearest?, inherited,
      List.find?_append, hown, hembedded, ih]
    cases c.table.find? fun h => h.name = n && !h.body.isStatic with
    | some h => rfl
    | none =>
      cases parents.nearest? n with
      | none => rfl
      | some h => exact congrArg some (HookBody.run_embedded s h.hook.body r shared).symm

theorem mem_of_answering? {T : Lineage U ls} {x : Method U} {h : InheritedHook U ls}
    (hanswers : T.answering? x = some h) : h ∈ T.inherited := by
  rw [answering?] at hanswers
  split at hanswers <;> exact List.mem_of_find?_eq_some hanswers

theorem name_of_answering? {T : Lineage U ls} {x : Method U} {h : InheritedHook U ls}
    (hanswers : T.answering? x = some h) : h.id.name = x.id.name := by
  rw [answering?] at hanswers
  split at hanswers
  · have hfound := List.find?_some hanswers
    rw [Bool.and_eq_true, decide_eq_true_eq] at hfound
    exact h.name_eq.trans hfound.1
  · have hfound := List.find?_some hanswers
    exact congrArg MemberId.name (of_decide_eq_true hfound)

theorem answering?_of_mem {T : Lineage U ls} (hnodup : (T.decls.map TypeDecl.name).Nodup)
    {h : InheritedHook U ls} (hh : h ∈ T.inherited) : T.answering? h.method = some h := by
  have hsome : (T.inherited.find? (·.id = h.method.id)).isSome = true :=
    List.find?_isSome.mpr ⟨h, hh, decide_eq_true rfl⟩
  obtain ⟨g, hg⟩ := Option.isSome_iff_exists.mp hsome
  have hid : g.id = h.method.id := by simpa using List.find?_some hg
  obtain rfl := List.inj_on_of_nodup_map (T.nodup_ids hnodup) (List.mem_of_find?_eq_some hg) hh hid
  rw [answering?, g.isAbstract_method, if_neg Bool.false_ne_true, hg]

/-- **Methods of different names are run by different hooks.** -/
theorem nodup_answering (T : Lineage U ls) {xs : List (Method U)}
    (hnodup : (xs.map (·.id.name)).Nodup) :
    ((xs.filterMap T.answering?).map InheritedHook.id).Nodup := by
  have hsublist : ∀ xs : List (Method U),
      ((xs.filterMap T.answering?).map (·.id.name)).Sublist (xs.map (·.id.name)) := by
    intro xs
    induction xs with
    | nil => exact List.Sublist.slnil
    | cons x xs ih =>
      cases hx : T.answering? x with
      | none =>
        rw [List.filterMap_cons_none hx]
        exact ih.cons _
      | some h =>
        rw [List.filterMap_cons_some hx, List.map_cons, List.map_cons, name_of_answering? hx]
        exact ih.cons_cons _
  have hnames := (hsublist xs).nodup hnodup
  rw [← Function.comp_def MemberId.name, ← List.map_map] at hnames
  exact hnames.of_map

end Answers

/-! ## Methods in order -/

section Runs

variable {s : Shape U} {ps : Layout U} (T : Lineage U (s :: ps))

/-- Runs a method by the hook that answers for it. -/
def answer (x : Method U) (r : Record U (s :: ps)) (shared : U.Shared) :
    Except InvokeError Unit × Record U (s :: ps) × U.Shared :=
  match T.answering? x with
  | none => (.error (.notApplicable x.id T.declare.name), r, shared)
  | some h =>
    let (o, r, shared) := h.hook.body.run r shared
    (o.mapError (.targetThrew x.id (h.label T.declare.name)), r, shared)

/-- Runs methods in order, each by the hook that answers for it, up to the first failure. -/
def answerEach : List (Method U) → Record U (s :: ps) → U.Shared →
    Except InvokeError Unit × Record U (s :: ps) × U.Shared
  | [], r, shared => (.ok (), r, shared)
  | x :: xs, r, shared =>
    match T.answer x r shared with
    | (.ok (), r, shared) => answerEach xs r shared
    | (.error e, r, shared) => (.error e, r, shared)

/-- The method has no body, or describes a hook of the struct. -/
def IsMet (x : Method U) : Prop := x.isAbstract = true ∨ ∃ h ∈ T.inherited, h.method = x

variable {T}

theorem runByName_eq_answer (hnodup : (T.decls.map TypeDecl.name).Nodup) {x : Method U}
    (hx : T.IsMet x) (r : Record U (s :: ps)) (shared : U.Shared) :
    runByName T.reflection x ⟨some r, shared⟩ =
      let (e, r, shared) := T.answer x r shared
      (e, ⟨some r, shared⟩) := by
  rcases hx with hx | ⟨h, hh, rfl⟩
  · have hinvoke : T.reflection.invoke none x.id.name r shared = _ := T.invoke_none _ r shared
    have hanswering : T.answering? x = T.nearest? x.id.name := if_pos hx
    rw [runByName_of_isAbstract hx]
    simp only [hinvoke, answer, hanswering]
    cases hnearest : T.nearest? x.id.name with
    | none => rfl
    | some h =>
      have hfound := List.find?_some hnearest
      rw [Bool.and_eq_true, Bool.not_eq_true'] at hfound
      have hlabel : h.label T.declare.name = T.declare.name := if_neg (by rw [hfound.2]; nofun)
      simp only [Option.map_some, hlabel]
      rfl
  · rw [T.runByName_eq hnodup hh, answer, answering?_of_mem hnodup hh]
    rfl

theorem runsByName_of_isMet (hnodup : (T.decls.map TypeDecl.name).Nodup) {x : Method U}
    (hx : T.IsMet x) (y : Record U (s :: ps)) : T.reflection.RunsByName x y := by
  rcases hx with hx | ⟨h, hh, rfl⟩
  · exact runsByName_of_isAbstract hx y
  · exact T.runsByName hnodup hh y

/-- **The engine runs such methods in order, each by the hook that answers for it.** -/
theorem invokeEach_eq_answerEach (hnodup : (T.decls.map TypeDecl.name).Nodup)
    {xs : List (Method U)} (hids : (xs.map (·.id)).Nodup) (hxs : ∀ x ∈ xs, T.IsMet x)
    {t : HandleTable U} (ht : ∀ x ∈ xs, t.FitsMethod x) (r : Record U (s :: ps))
    (shared : U.Shared) :
    (invokeEach T.reflection xs ⟨some r, shared⟩ t).1 =
      let (e, r, shared) := T.answerEach xs r shared
      (e, ⟨some r, shared⟩) := by
  rw [invokeEach_of_fits hids (fun x hx _ y => runsByName_of_isMet hnodup (hxs x hx) y) ht]
  clear hids ht
  induction xs generalizing r shared with
  | nil => rfl
  | cons x xs ih =>
    rw [runEachByName, runByName_eq_answer hnodup (hxs x List.mem_cons_self), answerEach]
    rcases T.answer x r shared with ⟨_ | _, r', shared'⟩
    · rfl
    · exact ih (fun y hy => hxs y (List.mem_cons_of_mem x hy)) r' shared'

/-! ## A log of what was run -/

variable (T) in
/-- Every hook of the struct notes itself in a log in the shared state, whether it fails or not. -/
def Notes (log : U.Shared → List MemberId) : Prop :=
  ∀ h ∈ T.inherited, ∀ r shared, log (h.hook.body.run r shared).2.2 = log shared ++ [h.id]

theorem log_answerEach {log : U.Shared → List MemberId} (hlog : T.Notes log)
    (xs : List (Method U)) (r : Record U (s :: ps)) (shared : U.Shared) :
    ∃ ids, ids <+: (xs.filterMap T.answering?).map InheritedHook.id ∧
      log (T.answerEach xs r shared).2.2 = log shared ++ ids := by
  induction xs generalizing r shared with
  | nil => exact ⟨[], List.nil_prefix, (List.append_nil _).symm⟩
  | cons x xs ih =>
    cases hx : T.answering? x with
    | none =>
      rw [answerEach, answer, hx]
      exact ⟨[], List.nil_prefix, (List.append_nil _).symm⟩
    | some h =>
      have hnote := hlog h (mem_of_answering? hx) r shared
      rw [List.filterMap_cons_some hx, List.map_cons]
      rcases hrun : h.hook.body.run r shared with ⟨_ | _, r', shared'⟩
      · rw [hrun] at hnote
        refine ⟨[h.id], (List.prefix_cons_inj _).mpr List.nil_prefix, ?_⟩
        simp only [answerEach, answer, hx, hrun, Except.mapError]
        exact hnote
      · rw [hrun] at hnote
        obtain ⟨ids, hids, heq⟩ := ih r' shared'
        refine ⟨h.id :: ids, (List.prefix_cons_inj _).mpr hids, ?_⟩
        simp only [answerEach, answer, hx, hrun, Except.mapError]
        rw [heq, hnote, List.append_assoc]
        rfl

end Runs

/-! ## Metadata of the struct -/

section Extracted

variable {s : Shape U} {ps : Layout U} {T : Lineage U (s :: ps)} {l : FiniteLoader U}

variable (T l) in
/-- What lies above the struct, apart from the structs that it embeds, has methods without bodies
only. -/
def HasAbstractInterfaces : Prop :=
  ∀ d ∈ l.preorder T.declare, d ∈ T.decls ∨ ∀ x ∈ d.methods, x.isAbstract = true

theorem exists_hook_of_mem_decls {d : TypeDecl U} (hd : d ∈ T.decls) {x : Method U}
    (hx : x ∈ d.methods) : ∃ h ∈ T.inherited, h.method = x := by
  have hmem : x ∈ T.decls.flatMap (·.methods) := List.mem_flatMap.mpr ⟨d, hd, hx⟩
  rwa [T.flatMap_methods_decls, List.mem_map] at hmem

theorem HasAbstractInterfaces.isMet (h : T.HasAbstractInterfaces l) {d : TypeDecl U}
    (hd : d ∈ l.preorder T.declare) {x : Method U} (hx : x ∈ d.methods) : T.IsMet x :=
  (h d hd).symm.imp (fun habstract => habstract x hx) fun hd => exists_hook_of_mem_decls hd hx

/-- **In the table that an extraction has filled, every method of the hierarchy has a slot of its
own**, or one that refuses it as it has no body. -/
theorem fits_of_extract (hnodup : (T.decls.map TypeDecl.name).Nodup)
    (h : T.HasAbstractInterfaces l) (hstop : (l.walk T.declare).stop = none) {d : TypeDecl U}
    (hd : d ∈ l.preorder T.declare) {x : Method U} (hx : x ∈ d.methods) (p : BindPolicy) :
    (extract l T.declare { policy := p }).2.1.FitsMethod x := by
  intro v hv
  rw [extract_handles, HandleTable.findMethod_serveAll] at hv
  obtain ⟨y, hy, rfl⟩ : ∃ y, firstMethod? (l.draft T.declare).requests x.id = some y ∧
      p.bindMethod y = v := Option.map_eq_some_iff.mp hv
  obtain ⟨hmem, hid⟩ := mem_of_firstMethod? hy
  obtain ⟨c, hc, hdeclared⟩ := declaredBy_of_mem_draft hmem
  -- Methods of one identity are declared by types of one name, and so by the same type.
  have hname : c.name = d.name := by
    rw [← (c.methods_declared y hdeclared).1, ← (d.methods_declared x hx).1, hid]
  rw [types_walk hstop] at hc
  obtain rfl := List.inj_on_of_nodup_map (l.nodup_preorder T.declare) hc hd hname
  rcases h c hc with hdecl | habstract
  · obtain ⟨f, hf, rfl⟩ := exists_hook_of_mem_decls hdecl hx
    obtain ⟨g, hg, rfl⟩ := exists_hook_of_mem_decls hdecl hdeclared
    obtain rfl := List.inj_on_of_nodup_map (T.nodup_ids hnodup) hg hf hid
    rw [extract_handles, HandleTable.policy_serveAll]
    exact .inl rfl
  · exact .inr ⟨habstract x hx, p.bindMethod_of_isAbstract (habstract y hdeclared)⟩

variable (T) in
/-- On the struct, an engine with the handle table `t` runs no hook twice when it runs all that the
metadata `m` has of the kind `k`. -/
structure RunsOnce (m : Metadata U) (k : Kind) (t : HandleTable U) : Prop where
  /-- The engine runs the methods in order, each by the hook that answers for it. -/
  runs (r : Record U (s :: ps)) (shared : U.Shared) :
    (invokeAll T.reflection m k ⟨some r, shared⟩ t).1 =
      let (e, r, shared) := T.answerEach (m.methods k) r shared
      (e.map fun _ => (m.methods k).length, ⟨some r, shared⟩)
  /-- Hooks of the struct have different identities. -/
  nodup_ids : (T.inherited.map InheritedHook.id).Nodup
  /-- No hook answers for two methods. -/
  nodup_answering : (((m.methods k).filterMap T.answering?).map InheritedHook.id).Nodup
  /-- Where every hook notes itself in a log, no hook is there twice for this run. -/
  nodup_log {log : U.Shared → List MemberId} (hlog : T.Notes log) (r : Record U (s :: ps))
    (shared : U.Shared) :
    ∃ ids, ids.Nodup ∧ ids ⊆ T.inherited.map InheritedHook.id ∧
      log (invokeAll T.reflection m k ⟨some r, shared⟩ t).1.2.shared = log shared ++ ids

theorem runsOnce (hnodup : (T.decls.map TypeDecl.name).Nodup) {m : Metadata U} {k : Kind}
    (hnames : ((m.methods k).map (·.id.name)).Nodup) (hids : ((m.methods k).map (·.id)).Nodup)
    (hmet : ∀ x ∈ m.methods k, T.IsMet x) {t : HandleTable U}
    (ht : ∀ x ∈ m.methods k, t.FitsMethod x) : T.RunsOnce m k t := by
  have hruns : ∀ (r : Record U (s :: ps)) (shared : U.Shared),
      (invokeAll T.reflection m k ⟨some r, shared⟩ t).1 =
        let (e, r, shared) := T.answerEach (m.methods k) r shared
        (e.map fun _ => (m.methods k).length, ⟨some r, shared⟩) := by
    intro r shared
    rw [invokeAll, Logged.bind_apply, invokeEach_eq_answerEach hnodup hids hmet ht]
    rfl
  refine ⟨hruns, T.nodup_ids hnodup, T.nodup_answering hnames, fun hlog r shared => ?_⟩
  obtain ⟨ids, hprefix, hlogged⟩ := log_answerEach hlog (m.methods k) r shared
  refine ⟨ids, hprefix.sublist.nodup (T.nodup_answering hnames), ?_, ?_⟩
  · refine List.Subset.trans hprefix.subset (List.map_subset _ fun h hh => ?_)
    obtain ⟨x, -, hx⟩ := List.mem_filterMap.mp hh
    exact mem_of_answering? hx
  · rw [hruns]
    exact hlogged

end Extracted

/-- **Methods without a body are run virtually.** One by one, on every engine whose slot for the
method is absent or its own: the hook of the nearest level, if there is one. And where nothing above
a struct but the structs that it embeds has a method with a body, no hook of it is run twice when
all methods of a kind are run, be the handle table new or that of the extraction. -/
theorem dispatchesVirtually {s : Shape U} {ps : Layout U} (T : Lineage U (s :: ps)) :
    (∀ x : Method U, x.isAbstract = true → ∀ t : HandleTable U, t.OwnsMethod x →
        T.DispatchesAbstract x t) ∧
      ∀ (l : FiniteLoader U) (t₀ : HandleTable U) (m : Metadata U), T.LinkedIn l →
        T.HasAbstractInterfaces l → (extract l T.declare t₀).1 = .ok m →
          ∀ (k : Kind) (p : BindPolicy) (t : HandleTable U),
            t = { policy := p } ∨ t = (extract l T.declare { policy := p }).2.1 →
              T.RunsOnce m k t := by
  refine ⟨fun x hx t ht => T.dispatchesAbstract hx ht, ?_⟩
  intro l t₀ m hlinked hinterfaces hm k p t ht
  have hstop := (extract_eq_ok_iff.mp hm).1
  have hnodup := T.nodup_of_walk_stop hlinked hstop
  refine runsOnce hnodup (nodup_names_of_extract hm k) (nodup_methods_of_extract hm k) ?_ ?_
  · intro x hx
    obtain ⟨d, hd, hmem⟩ := mem_methods_of_extract hm k hx
    exact hinterfaces.isMet hd hmem
  · intro x hx
    obtain ⟨d, hd, hmem⟩ := mem_methods_of_extract hm k hx
    rcases ht with rfl | rfl
    · exact nofun
    · exact fits_of_extract hnodup hinterfaces hstop hd hmem p

namespace Sample

open ComponentHooks.Sample

/-- A method without a body, which a base has as a hook without a marker. -/
def flushMethod : Method world :=
  { id := ⟨"zoo::Closeable", "flush", "()"⟩, markers := [{ kind := .warmUp }] }

/-- An interface of an override. -/
def closeable : TypeDecl world := .declare "zoo::Closeable" .interface none [] [] [flushMethod]

/-- A loader that knows the interface. -/
def closeableLoader : FiniteLoader world := loaderOf [] [closeable]

/-- The metadata of an override below the interface. -/
def closeableMetadata : Metadata world :=
  (closeableLoader.draft (Species.override.lineage "zoo").declare).metadata

theorem preorder_override : closeableLoader.preorder (Species.override.lineage "zoo").declare =
    [(Species.override.lineage "zoo").declare, (Species.base.lineage "zoo").declare, closeable] :=
  (types_walk (by decide)).symm

theorem hasAbstractInterfaces_override :
    (Species.override.lineage "zoo").HasAbstractInterfaces closeableLoader := by
  intro d hd
  rw [preorder_override] at hd
  rcases hd with _ | ⟨_, _ | ⟨_, _ | ⟨_, hd⟩⟩⟩
  · exact .inl List.mem_cons_self
  · exact .inl (List.mem_cons_of_mem _ List.mem_cons_self)
  · refine .inr fun x hx => ?_
    obtain rfl := List.mem_singleton.mp hx
    rfl
  · cases hd

/-- An override has a hook for the warm-up of its own, and runs that of its base for the one of the
interface. -/
theorem dispatchesVirtually_override :
    (Species.override.lineage "zoo").DispatchesAbstract flushMethod { policy := .exposedOnly } ∧
      (closeableMetadata.methods .warmUp).map (·.id) =
        [⟨"zoo::Override", "start", "()"⟩, ⟨"zoo::Closeable", "flush", "()"⟩] ∧
      (Species.override.lineage "zoo").RunsOnce closeableMetadata .warmUp { policy := .all } := by
  obtain ⟨hone, hall⟩ := dispatchesVirtually (Species.override.lineage "zoo")
  have hm : (extract closeableLoader (Species.override.lineage "zoo").declare
      { policy := .all }).1 = .ok closeableMetadata := extract_eq_ok_iff.mpr ⟨by decide, rfl⟩
  refine ⟨hone flushMethod rfl _ nofun, by decide, ?_⟩
  exact hall closeableLoader _ _ ⟨rfl, rfl, trivial⟩ hasAbstractInterfaces_override hm .warmUp
    .all _ (.inl rfl)

end Sample

end Lineage

end ComponentHooks
