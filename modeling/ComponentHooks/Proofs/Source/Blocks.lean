import ComponentHooks.Proofs.Source.Members

/-!
# Which blocks are expanded

A block is expanded if a list of checks holds of its source, and otherwise the first check that does
not hold says what is wrong. Methods that are no hooks are not looked at.

* `BlockCheck`, `BlockCheck.fault?`, `BlockCheck.Holds`: one check, what it finds, and what it asks
  for;
* `HookBlock.checks`, **`faultOf_expand`**: all checks in order, and the first fault;
* `BlockMethod.IsHookable`, `HookBlock.IsExpandable`, **`exists_expand_iff`**: what all checks
  together ask for;
* `HookBlock.IsExpandedBy`, **`isExpandedBy_of_expand`**: what the expansion is then.
-/

namespace ComponentHooks.Source

/-! ## Checks -/

/-- One check of the source of a block. -/
inductive BlockCheck where
  /-- The block is one of a type alone, without parameters. -/
  | inherent (generics : String) (interface? : Option String)
  | marker (a : Attribute)
  | synchronous (asynchronous : Bool)
  | nongeneric (generics : String)
  /-- The state that a hook runs on comes by reference. -/
  | receiver (forms : List ParameterForm)
  /-- A hook takes nothing but the state. -/
  | alone (forms : List ParameterForm)

namespace BlockCheck

/-- What the check finds. -/
def fault? : BlockCheck → Option Fault
  | inherent generics interface? =>
    if generics = "" ∧ interface? = none then none else some .blockNotInherent
  | marker a => faultOf (a.marker? .method)
  | synchronous asynchronous => if asynchronous then some .hookAsynchronous else none
  | nongeneric generics => if generics = "" then none else some .hookGeneric
  | receiver forms =>
    match forms with
    | .receiver r :: _ => faultOf r.check
    | _ => none
  | alone forms =>
    match forms with
    | [] | [.receiver _] => none
    | _ => some .hookArguments

/-- What the check asks for. -/
def Holds : BlockCheck → Prop
  | inherent generics interface? => generics = "" ∧ interface? = none
  | marker a => a.isMarker = true → ∃ m, a.Gives .method m
  | synchronous asynchronous => asynchronous = false
  | nongeneric generics => generics = ""
  | receiver forms => ∀ r, .receiver r ∈ forms.head? → r = .shared ∨ r = .exclusive
  | alone forms => forms = [] ∨ ∃ r, forms = [.receiver r]

/-- **A check finds nothing exactly if what it asks for holds.** -/
theorem fault?_eq_none_iff (c : BlockCheck) : c.fault? = none ↔ c.Holds := by
  cases c with
  | inherent generics interface? => simp [fault?, Holds]
  | marker a => exact Attribute.faultOf_marker?_eq_none_iff
  | synchronous asynchronous => cases asynchronous <;> simp [fault?, Holds]
  | nongeneric generics => simp [fault?, Holds]
  | receiver forms =>
    rcases forms with _ | ⟨r | _ | _, forms⟩
    · simp [fault?, Holds]
    · cases r <;> simp [fault?, Holds, Receiver.check]
    · simp [fault?, Holds]
    · simp [fault?, Holds]
  | alone forms =>
    rcases forms with _ | ⟨r | _ | _, _ | ⟨form, forms⟩⟩ <;> simp [fault?, Holds]

end BlockCheck

namespace BlockMethod

/-- What the method takes. Three dots for any more arguments are not looked at. -/
def takes (m : BlockMethod) : List ParameterForm := m.parameters.map Parameter.form

/-- The checks of a hook: its markers attribute by attribute, and then what it is and takes. -/
def checks (m : BlockMethod) : List BlockCheck :=
  m.attributes.map .marker ++ [.synchronous m.signature.asynchronous,
    .nongeneric m.signature.generics, .receiver m.takes, .alone m.takes]

end BlockMethod

/-- **All checks of a block**: the block, and then its hooks one after the other. -/
def HookBlock.checks (b : HookBlock) : List BlockCheck :=
  .inherent b.generics b.interface? ::
    (b.methods.filter (·.isHook)).flatMap BlockMethod.checks

/-! ## The first fault -/

theorem faultOf_checkParameters (ps : List Parameter) :
    faultOf (BlockMethod.checkParameters ps) =
      (BlockCheck.receiver (ps.map Parameter.form)).fault?.or
        (BlockCheck.alone (ps.map Parameter.form)).fault? := by
  rcases ps with _ | ⟨⟨r | _ | _, phrase⟩, ps⟩
  · rfl
  · cases r <;> cases ps <;> rfl
  · rfl
  · rfl

theorem faultOf_hook?_of_isHook {m : BlockMethod} (hm : m.isHook = true) :
    faultOf m.hook? = m.checks.findSome? BlockCheck.fault? := by
  have hmarkers : (m.attributes.map BlockCheck.marker).findSome? BlockCheck.fault? =
      faultOf (readMarkers .method m.attributes) := by
    rw [faultOf_readMarkers, List.findSome?_map]
    rfl
  rw [BlockMethod.checks, List.findSome?_append, hmarkers, BlockMethod.hook?]
  refine faultOf_bind fun markers => ?_
  rw [if_pos hm, List.findSome?_cons, List.findSome?_cons, BlockCheck.fault?, BlockCheck.fault?]
  by_cases hasynchronous : m.signature.asynchronous = true
  · rw [if_pos hasynchronous, if_pos hasynchronous]
    rfl
  · rw [if_neg hasynchronous, if_neg hasynchronous]
    by_cases hgenerics : m.signature.generics = ""
    · rw [if_pos hgenerics, if_pos hgenerics]
      refine (faultOf_bind_pure _ _).trans ?_
      rw [faultOf_checkParameters, ← BlockMethod.takes, List.findSome?_cons, List.findSome?_cons,
        List.findSome?_nil]
      cases (BlockCheck.receiver m.takes).fault? <;> cases (BlockCheck.alone m.takes).fault? <;> rfl
    · rw [if_neg hgenerics, if_neg hgenerics]
      rfl

theorem readMarkers_of_not_isMarker {s : Site} {as : List Attribute}
    (h : ∀ a ∈ as, a.isMarker = false) : readMarkers s as = .ok [] := by
  induction as with
  | nil => rfl
  | cons a as ih =>
    obtain ⟨ha, has⟩ := List.forall_mem_cons.mp h
    have hkind : a.kind? = none := Option.isSome_eq_false_iff.mp ha |> Option.isNone_iff_eq_none.mp
    rw [readMarkers, Attribute.marker?, hkind, ih has]
    rfl

theorem hook?_of_not_isHook {m : BlockMethod} (hm : m.isHook = false) : m.hook? = .ok none := by
  have hmarkers : ∀ a ∈ m.attributes, a.isMarker = false := fun a ha => by
    have hnone := List.any_eq_false.mp hm a ha
    cases hmarker : a.isMarker with
    | false => rfl
    | true => exact absurd (by rw [hmarker, Bool.true_or]) hnone
  rw [BlockMethod.hook?, readMarkers_of_not_isMarker hmarkers, hm]
  rfl

theorem faultOf_readHooks (ms : List BlockMethod) :
    faultOf (readHooks ms) =
      ((ms.filter (·.isHook)).flatMap BlockMethod.checks).findSome? BlockCheck.fault? := by
  induction ms with
  | nil => rfl
  | cons m ms ih =>
    rw [readHooks, faultOf_bind_bind, ih]
    cases hm : m.isHook with
    | false =>
      rw [hook?_of_not_isHook hm, List.filter_cons_of_neg (by simp [hm])]
      rfl
    | true =>
      rw [faultOf_hook?_of_isHook hm, List.filter_cons_of_pos hm, List.flatMap_cons,
        List.findSome?_append]

/-- **The first fault of a block is that of the first check** that finds one. -/
theorem faultOf_expand (b : HookBlock) :
    faultOf b.expand = b.checks.findSome? BlockCheck.fault? := by
  rw [HookBlock.checks, List.findSome?_cons, ← faultOf_readHooks, BlockCheck.fault?,
    HookBlock.expand]
  by_cases hinherent : b.generics = "" ∧ b.interface? = none
  · have hcond : (b.generics = "" && b.interface?.isNone) = true := by simpa using hinherent
    rw [if_pos hinherent, if_pos hcond]
    exact faultOf_bind_pure _ _
  · have hcond : ¬ (b.generics = "" && b.interface?.isNone) = true := by simpa using hinherent
    rw [if_neg hinherent, if_neg hcond]
    rfl

/-! ## What is accepted -/

/-- A hook as it may be written: its markers are in order, it is neither asynchronous nor generic,
and it takes the state by reference or nothing. -/
structure BlockMethod.IsHookable (m : BlockMethod) : Prop where
  markers : ∀ a ∈ m.attributes, a.isMarker = true → ∃ marker, a.Gives .method marker
  synchronous : m.signature.asynchronous = false
  nongeneric : m.signature.generics = ""
  takes : m.takes = [] ∨ m.takes = [.receiver .shared] ∨ m.takes = [.receiver .exclusive]

/-- **The source of a block is in order.** -/
structure HookBlock.IsExpandable (b : HookBlock) : Prop where
  generics : b.generics = ""
  interface : b.interface? = none
  hooks : ∀ m ∈ b.methods, m.isHook = true → m.IsHookable

theorem holds_receiver_and_alone_iff (forms : List ParameterForm) :
    (BlockCheck.receiver forms).Holds ∧ (BlockCheck.alone forms).Holds ↔
      forms = [] ∨ forms = [.receiver .shared] ∨ forms = [.receiver .exclusive] := by
  rw [BlockCheck.Holds, BlockCheck.Holds]
  constructor
  · rintro ⟨hreceiver, rfl | ⟨r, rfl⟩⟩
    · exact .inl rfl
    · rcases hreceiver r rfl with rfl | rfl
      · exact .inr (.inl rfl)
      · exact .inr (.inr rfl)
  · rintro (rfl | rfl | rfl) <;> simp

theorem BlockMethod.isHookable_iff (m : BlockMethod) :
    (∀ c ∈ m.checks, c.Holds) ↔ m.IsHookable := by
  rw [checks, List.forall_mem_append, List.forall_mem_map, List.forall_mem_cons,
    List.forall_mem_cons, List.forall_mem_cons, List.forall_mem_singleton,
    holds_receiver_and_alone_iff]
  constructor
  · rintro ⟨hmarkers, hsynchronous, hnongeneric, htakes⟩
    exact ⟨hmarkers, hsynchronous, hnongeneric, htakes⟩
  · rintro ⟨hmarkers, hsynchronous, hnongeneric, htakes⟩
    exact ⟨hmarkers, hsynchronous, hnongeneric, htakes⟩

/-- **The checks hold exactly if the source is in order.** -/
theorem HookBlock.isExpandable_iff (b : HookBlock) :
    (∀ c ∈ b.checks, c.Holds) ↔ b.IsExpandable := by
  have hhooks : (∀ c ∈ (b.methods.filter (·.isHook)).flatMap BlockMethod.checks, c.Holds) ↔
      ∀ m ∈ b.methods, m.isHook = true → m.IsHookable := by
    rw [List.forall_mem_flatMap]
    simp only [BlockMethod.isHookable_iff, List.mem_filter, and_imp]
  rw [checks, List.forall_mem_cons, hhooks]
  constructor
  · rintro ⟨⟨hgenerics, hinterface⟩, hhooks⟩
    exact ⟨hgenerics, hinterface, hhooks⟩
  · rintro ⟨hgenerics, hinterface, hhooks⟩
    exact ⟨⟨hgenerics, hinterface⟩, hhooks⟩

theorem exists_expand_iff (b : HookBlock) : (∃ x, b.expand = .ok x) ↔ b.IsExpandable := by
  rw [← b.isExpandable_iff, ← faultOf_eq_none_iff, faultOf_expand, List.findSome?_eq_none_iff]
  exact forall₂_congr fun c _ => c.fault?_eq_none_iff

/-- **What is wrong with a block** is said by the first check that does not hold. -/
theorem expand_eq_error_iff (b : HookBlock) (e : Fault) :
    b.expand = .error e ↔ ∃ before check after, b.checks = before ++ check :: after ∧
      (∀ c ∈ before, c.Holds) ∧ check.fault? = some e := by
  rw [← faultOf_eq_some_iff, faultOf_expand, List.findSome?_eq_some_iff]
  simp only [BlockCheck.fault?_eq_none_iff]
  exact exists₃_congr fun before check after => and_congr_right fun _ => and_comm

/-! ## The expansion -/

/-- The hook is described as it is written. -/
structure BlockMethod.IsDescribedBy (m : BlockMethod) (h : DescribedHook) : Prop where
  name_eq : h.name = m.name
  markers : Transcribes .method m.attributes h.markers
  isStatic_eq : h.isStatic = !m.signature.parameters.any (·.isReceiver)
  exposed_iff : h.visibility = .exposed ↔ m.reach = .everywhere

/-- A hook loses the attributes that make it one, and any other item stays as it is. -/
inductive BlockItem.IsEmittedAs : BlockItem → BlockItem → Prop where
  | hook {m : BlockMethod} (h : m.isHook = true) :
    IsEmittedAs (.method m) (.method { m with
      attributes := m.attributes.filter fun a => !(a.isMarker || a.isHook) })
  | other {i : BlockItem} (h : ∀ m, i = .method m → m.isHook = false) : IsEmittedAs i i

/-- **The expansion tells what the source says**: the hooks of the block, in their order. -/
structure HookBlock.IsExpandedBy (b : HookBlock) (x : Expansion) : Prop where
  selfType_eq : x.selfType = b.selfType
  items : List.Forall₂ BlockItem.IsEmittedAs b.items x.items
  hooks : List.Forall₂ BlockMethod.IsDescribedBy (b.methods.filter (·.isHook)) x.hooks

theorem BlockMethod.IsHookable.isEmpty_parameters {m : BlockMethod} (h : m.IsHookable) :
    m.parameters.isEmpty = !m.signature.parameters.any (·.isReceiver) := by
  have hany : m.signature.parameters.any (·.isReceiver) = m.parameters.any (·.isReceiver) := by
    rw [parameters, List.any_filter]
    congr 1
    funext ⟨form, phrase⟩
    cases form <;> rfl
  have hsingle : ∀ r, m.takes = [.receiver r] →
      m.parameters.isEmpty = !m.parameters.any (·.isReceiver) := by
    intro r hr
    obtain ⟨p, hp, hform⟩ := List.map_eq_singleton_iff.mp hr
    rw [hp, List.any_cons, Parameter.isReceiver, hform]
    rfl
  rw [hany]
  rcases h.takes with hnone | hshared | hexclusive
  · rw [List.map_eq_nil_iff.mp hnone]
    rfl
  · exact hsingle _ hshared
  · exact hsingle _ hexclusive

theorem Reach.visibility_eq_exposed_iff (r : Reach) : r.visibility = .exposed ↔ r = .everywhere := by
  cases r <;> simp [visibility]

theorem isDescribedBy_of_hook? {m : BlockMethod} (hm : m.isHook = true) {h? : Option DescribedHook}
    (h : m.hook? = .ok h?) : ∃ d, h? = some d ∧ m.IsDescribedBy d := by
  have hhookable : m.IsHookable := by
    have hfault := faultOf_eq_none_iff.mpr ⟨h?, h⟩
    rw [faultOf_hook?_of_isHook hm, List.findSome?_eq_none_iff] at hfault
    exact m.isHookable_iff.mp fun c hc => c.fault?_eq_none_iff.mp (hfault c hc)
  rw [BlockMethod.hook?] at h
  obtain ⟨ms, hms, h⟩ := bind_eq_ok_iff.mp h
  rw [if_pos hm, hhookable.synchronous, hhookable.nongeneric] at h
  obtain ⟨-, -, h⟩ := bind_eq_ok_iff.mp h
  cases h
  exact ⟨_, rfl, rfl, transcribes_of_readMarkers hms, hhookable.isEmpty_parameters,
    m.reach.visibility_eq_exposed_iff⟩

theorem isDescribedBy_of_readHooks {ms : List BlockMethod} {hs : List DescribedHook}
    (h : readHooks ms = .ok hs) :
    List.Forall₂ BlockMethod.IsDescribedBy (ms.filter (·.isHook)) hs := by
  induction ms generalizing hs with
  | nil =>
    cases h
    exact .nil
  | cons m ms ih =>
    obtain ⟨h?, hh, h⟩ := bind_eq_ok_iff.mp h
    obtain ⟨rest, hrest, h⟩ := bind_eq_ok_iff.mp h
    cases h
    cases hm : m.isHook with
    | false =>
      cases (hook?_of_not_isHook hm).symm.trans hh
      rw [List.filter_cons_of_neg (by simp [hm])]
      exact ih hrest
    | true =>
      obtain ⟨d, rfl, hd⟩ := isDescribedBy_of_hook? hm hh
      rw [List.filter_cons_of_pos hm]
      exact .cons hd (ih hrest)

theorem BlockItem.isEmittedAs_bare (i : BlockItem) : i.IsEmittedAs i.bare := by
  cases i with
  | constant n as => exact .other nofun
  | method m =>
    cases hm : m.isHook with
    | true => exact .hook hm
    | false =>
      have hall : m.attributes.filter (fun a => !(a.isMarker || a.isHook)) = m.attributes :=
        List.filter_eq_self.mpr fun a ha => by simpa using List.any_eq_false.mp hm a ha
      have hbare : (BlockItem.method m).bare = .method m := by
        rw [bare, BlockMethod.bare, hall]
      rw [hbare]
      exact .other fun m' hm' => by
        cases hm'
        exact hm

theorem isExpandedBy_of_expand {b : HookBlock} {x : Expansion} (h : b.expand = .ok x) :
    b.IsExpandedBy x := by
  rw [HookBlock.expand] at h
  split_ifs at h with hinherent
  · obtain ⟨hs, hhs, h⟩ := bind_eq_ok_iff.mp h
    cases h
    refine ⟨rfl, ?_, isDescribedBy_of_readHooks hhs⟩
    rw [List.forall₂_map_right_iff, List.forall₂_same]
    exact fun i _ => i.isEmittedAs_bare
  · cases h

end ComponentHooks.Source
