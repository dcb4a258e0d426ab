import ComponentHooks.Proofs.Extraction.Draft

/-!
# Recording while walking

`extract` walks a hierarchy first and records what was met afterwards, and it finds out from the
metadata itself which names are taken. The same can be done in one recursion, which records a type
as soon as it is met, then turns to its supertypes, and keeps lists of the names that are taken. The
two do the same: they answer alike, make the same slots, and tell the same events in the same order.

* `Harvest`: an extraction under way; `Harvest.of`: what it is after a walk;
* `Harvest.takeMethod`, `Harvest.takeField`, `Harvest.takeType`: what a type adds;
* `harvest`: the recursion;
* **`takeType_of`**: a type adds what it does in `recordType`;
* **`harvest_eq`**: after a visit, the recursion has recorded what the walk has met;
* **`extract_eq_harvest`**: so the recursion from a root is an extraction.
-/

namespace ComponentHooks

open Logged

variable {U : Universe}

/-! ## The recursion -/

variable (U) in
/-- An extraction under way: metadata so far, the names of the types that were met, and by kind the
names that members have taken. -/
structure Harvest where
  metadata : Metadata U
  visited : List String := []
  usedMethods : Kind → List String := fun _ => []
  usedFields : Kind → List String := fun _ => []

namespace Harvest

/-- One more name under a kind. -/
def use (used : Kind → List String) (k : Kind) (name : String) : Kind → List String :=
  fun j => if j = k then used j ++ [name] else used j

/-- Records a method under one kind, if it carries the kind and its name is not taken there. -/
def takeMethodAs (x : Method U) (h : Harvest U) (k : Kind) : Slotting U (Harvest U) :=
  if x.carries k && !(h.usedMethods k).contains x.id.name then do
    let _ ← HandleTable.requestMethod x
    return { h with
      usedMethods := use h.usedMethods k x.id.name
      metadata := h.metadata.addMethod k x }
  else
    return h

/-- Records a field under one kind, if it carries the kind and its name is not taken there. -/
def takeFieldAs (x : Field U) (h : Harvest U) (k : Kind) : Slotting U (Harvest U) :=
  if x.carries k && !(h.usedFields k).contains x.id.name then do
    let _ ← HandleTable.requestField x
    return { h with
      usedFields := use h.usedFields k x.id.name
      metadata := h.metadata.addField k x }
  else
    return h

/-- Records a method under every kind that methods can have. -/
def takeMethod (h : Harvest U) (x : Method U) : Slotting U (Harvest U) :=
  if x.isEligible then Site.method.kinds.foldlM (takeMethodAs x) h else return h

/-- Records a field under every kind that fields can have, and whether it is validated. -/
def takeField (h : Harvest U) (x : Field U) : Slotting U (Harvest U) :=
  if x.isEligible then
    Site.field.kinds.foldlM (takeFieldAs x)
      { h with metadata := { h.metadata with validated := h.metadata.validated || x.validated } }
  else
    return h

/-- Records a type: its markers, and its members if the types they need can be loaded. -/
def takeType (l : Loader U) (h : Harvest U) (c : TypeDecl U) : Slotting U (Harvest U) :=
  let h := { h with metadata := h.metadata.addMarkers c }
  match l.linkFailure? c with
  | none => do
    let h ← c.fields.foldlM takeField h
    c.methods.foldlM takeMethod h
  | some e => do
    if e.isUnresolved then
      emit (.membersSkipped c.name .fields e)
      emit (.membersSkipped c.name .methods e)
    return h

end Harvest

section Recursion

variable (l : Loader U)

/-- Goes on from `c` to its supertypes, up to the first that ends the extraction. -/
def harvestSupertypes (go : TypeDecl U → Harvest U → Slotting U (Except Stop (Harvest U)))
    (c : TypeDecl U) : List (TypeRef U) → Harvest U → Slotting U (Except Stop (Harvest U))
  | [], h => return .ok h
  | r :: rs, h =>
    match l.resolve r with
    | .error e => do
      emit (.supertypeSkipped c.name (l.label r) e)
      harvestSupertypes go c rs h
    | .ok d => do
      match ← go d h with
      | .ok h => harvestSupertypes go c rs h
      | .error s => return .error s

/-- Records `c` and what lies above it; `path` holds the names that are still being walked. -/
def harvest : Nat → List String → TypeDecl U → Harvest U → Slotting U (Except Stop (Harvest U))
  | depth, path, c, h =>
    if c.name ∈ path then return .error (.cycle ⟨c.name⟩)
    else if c.name ∈ h.visited then return .ok h
    else
      match depth with
      | 0 => return .error .exhausted
      | depth + 1 => do
        let h ← Harvest.takeType l { h with visited := h.visited ++ [c.name] } c
        harvestSupertypes l (harvest depth (c.name :: path)) c c.supertypes h

end Recursion

/-- The recursion from `root`, whose answer is told at the end. -/
def extractByHarvest (l : FiniteLoader U) (root : TypeDecl U) :
    Slotting U (Except Stop (Metadata U)) := do
  match ← harvest l (root.name :: l.names).length [] root { metadata := { name := root.name } } with
  | .ok h => do
    emit (.extracted root.name h.visited.length h.metadata.methods.size h.metadata.fields.size)
    return .ok h.metadata
  | .error s => return .error s

/-! ## One type -/

namespace Harvest

/-- Metadata so far, after a walk that has met these names. What is recorded under a kind takes its
name there. -/
def of (visited : List String) (m : Metadata U) : Harvest U where
  metadata := m
  visited
  usedMethods k := (m.methods k).map (·.id.name)
  usedFields k := (m.fields k).map (·.id.name)

theorem foldlM_of {α : Type} {visited : List String} {f : Harvest U → α → Slotting U (Harvest U)}
    {g : Metadata U → α → Slotting U (Metadata U)}
    (hfg : ∀ m a, f (of visited m) a = of visited <$> g m a) (as : List α) (m : Metadata U) :
    as.foldlM f (of visited m) = of visited <$> as.foldlM g m := by
  induction as generalizing m with
  | nil => rw [List.foldlM_nil, List.foldlM_nil, map_pure]
  | cons a as ih => simp only [List.foldlM_cons, hfg, bind_map_left, ih, map_bind]

variable (visited : List String) (m : Metadata U)

theorem use_map {α : Type} (name : α → String) (t : Table α) (k : Kind) (x : α) :
    use (fun j => (t j).map name) k (name x) = fun j => (t.push k [x] j).map name := by
  funext j
  by_cases hj : j = k
  · rw [use, if_pos hj, hj, Table.push_self, List.map_append, List.map_singleton]
  · rw [use, if_neg hj, Table.push_of_ne t hj]

theorem contains_map {α : Type} (name : α → String) (xs : List α) (n : String) :
    (xs.map name).contains n = xs.any (name · = n) := by
  rw [Bool.eq_iff_iff, List.contains_iff_mem, List.any_eq_true]
  simp only [List.mem_map, decide_eq_true_eq]

theorem takeMethodAs_of (x : Method U) (k : Kind) :
    takeMethodAs x (of visited m) k = of visited <$> recordMethodAs x m k := by
  have hfree : ((of visited m).usedMethods k).contains x.id.name = m.hasMethod k x.id.name :=
    contains_map (fun y : Method U => y.id.name) _ _
  have hused := use_map (fun y : Method U => y.id.name) m.methods k x
  unfold takeMethodAs recordMethodAs
  rw [hfree]
  split_ifs
  · rw [map_bind]
    refine congrArg (HandleTable.requestMethod x >>= ·) (funext fun _ => ?_)
    exact congrArg (fun used => (pure { of visited (m.addMethod k x) with usedMethods := used } :
      Slotting U (Harvest U))) hused
  · rfl

theorem takeFieldAs_of (x : Field U) (k : Kind) :
    takeFieldAs x (of visited m) k = of visited <$> recordFieldAs x m k := by
  have hfree : ((of visited m).usedFields k).contains x.id.name = m.hasField k x.id.name :=
    contains_map (fun y : Field U => y.id.name) _ _
  have hused := use_map (fun y : Field U => y.id.name) m.fields k x
  unfold takeFieldAs recordFieldAs
  rw [hfree]
  split_ifs
  · rw [map_bind]
    refine congrArg (HandleTable.requestField x >>= ·) (funext fun _ => ?_)
    exact congrArg (fun used => (pure { of visited (m.addField k x) with usedFields := used } :
      Slotting U (Harvest U))) hused
  · rfl

theorem takeMethod_of (x : Method U) :
    takeMethod (of visited m) x = of visited <$> recordMethod m x := by
  unfold takeMethod recordMethod
  split_ifs
  · exact foldlM_of (fun m k => takeMethodAs_of visited m x k) _ m
  · rfl

theorem takeField_of (x : Field U) :
    takeField (of visited m) x = of visited <$> recordField m x := by
  unfold takeField recordField
  split_ifs
  · exact foldlM_of (fun m k => takeFieldAs_of visited m x k) _ { m with validated := _ }
  · rfl

/-- **A type adds what it adds to the metadata.** -/
theorem takeType_of (l : Loader U) (c : TypeDecl U) :
    takeType l (of visited m) c = of visited <$> recordType l m c := by
  have hmarkers : { of visited m with metadata := m.addMarkers c } = of visited (m.addMarkers c) :=
    rfl
  unfold takeType recordType
  dsimp only
  rw [show (of visited m).metadata = m from rfl, hmarkers]
  cases l.linkFailure? c with
  | none =>
    simp only [foldlM_of (takeField_of visited), bind_map_left, map_bind,
      foldlM_of (takeMethod_of visited)]
  | some e =>
    dsimp only
    split_ifs
    · rfl
    · rfl

end Harvest

/-! ## All types -/

section Walk

variable (l : Loader U) (start : Metadata U)

/-- The findings of a walk, recorded in order. -/
def Walk.recorded (w : Walk U) : Slotting U (Metadata U) := w.trace.foldlM (recordFinding l) start

/-- What the recursion answers where a walk has got so far. -/
def Walk.harvested (w : Walk U) (m : Metadata U) : Except Stop (Harvest U) :=
  match w.stop with
  | none => .ok (.of w.names m)
  | some s => .error s

variable {w : Walk U}

theorem Walk.recorded_record (f : Finding U) :
    (w.record f).recorded l start = w.recorded l start >>= (recordFinding l · f) := by
  rw [Walk.recorded, Walk.record, List.foldlM_append, Walk.recorded]
  simp only [List.foldlM_cons, List.foldlM_nil, bind_pure]

theorem Walk.harvested_of_stop_none (hw : w.stop = none) (m : Metadata U) :
    w.harvested m = .ok (.of w.names m) := by
  rw [harvested, hw]

/-- The recursion does on the metadata so far what a walk `w'` has gone on to meet. -/
def Keeps (x : Harvest U → Slotting U (Except Stop (Harvest U))) (w w' : Walk U) : Prop :=
  (w.recorded l start >>= fun m => x (.of w.names m)) =
    w'.recorded l start >>= fun m => pure (w'.harvested m)

variable {l start}

theorem keeps_supertypes {go : TypeDecl U → Harvest U → Slotting U (Except Stop (Harvest U))}
    {go' : TypeDecl U → Walk U → Walk U}
    (hgo : ∀ d w, w.stop = none → Keeps l start (go d) w (go' d w)) (c : TypeDecl U)
    (rs : List (TypeRef U)) (hw : w.stop = none) :
    Keeps l start (harvestSupertypes l go c rs) w (rs.foldl (follow l.resolve go' c) w) := by
  induction rs generalizing w with
  | nil =>
    refine congrArg (w.recorded l start >>= ·) (funext fun m => ?_)
    rw [List.foldl_nil, w.harvested_of_stop_none hw]
    rfl
  | cons r rs ih =>
    have hsome : w.stop.isSome = false := by rw [hw]; rfl
    rw [List.foldl_cons, follow, hsome, if_neg Bool.false_ne_true]
    unfold Keeps
    simp only [harvestSupertypes]
    cases l.resolve r with
    | error e =>
      rw [← ih (w := w.record (.skipped c r e)) hw, Walk.recorded_record, bind_assoc,
        w.names_skipped]
      rfl
    | ok d =>
      have hd := hgo d w hw
      unfold Keeps at hd
      dsimp only
      rw [← bind_assoc, hd, bind_assoc]
      simp only [pure_bind]
      cases hstop : (go' d w).stop with
      | none =>
        simp only [Walk.harvested_of_stop_none hstop]
        exact ih hstop
      | some s =>
        -- The walk has ended above `d`, and neither goes on to the other supertypes.
        rw [foldl_follow_of_stop (by simp [hstop])]
        simp only [Walk.harvested, hstop]

theorem keeps_of_seen (depth : Nat) {path : List String} {c : TypeDecl U} (hw : w.stop = none)
    (h : c.name ∈ path ∨ c.name ∈ w.names) :
    Keeps l start (harvest l depth path c) w (visit l.resolve depth path c w) := by
  unfold Keeps
  by_cases hpath : c.name ∈ path
  · have hvisit : visit l.resolve depth path c w = w.halt (.cycle ⟨c.name⟩) := by
      cases depth <;> rw [visit, if_pos hpath]
    have hharvest : ∀ m, harvest l depth path c (.of w.names m) =
        return .error (.cycle ⟨c.name⟩) := fun m => by
      cases depth <;> rw [harvest, if_pos hpath]
    simp only [hvisit, hharvest]
    rfl
  · have hmet : c.name ∈ w.names := h.resolve_left hpath
    have hvisit : visit l.resolve depth path c w = w := by
      cases depth <;> rw [visit, if_neg hpath, if_pos hmet]
    have hharvest : ∀ m, harvest l depth path c (.of w.names m) = return .ok (.of w.names m) :=
      fun m => by
        have hvisited : c.name ∈ (Harvest.of w.names m).visited := hmet
        cases depth <;> rw [harvest, if_neg hpath, if_pos hvisited]
    simp only [hvisit, hharvest, w.harvested_of_stop_none hw]

/-- **After a visit, the recursion has recorded what the walk has met.** -/
theorem harvest_eq (depth : Nat) (path : List String) (c : TypeDecl U) (hw : w.stop = none) :
    Keeps l start (harvest l depth path c) w (visit l.resolve depth path c w) := by
  induction depth generalizing path c w with
  | zero =>
    by_cases hseen : c.name ∈ path ∨ c.name ∈ w.names
    · exact keeps_of_seen 0 hw hseen
    · obtain ⟨hpath, hmet⟩ := not_or.mp hseen
      unfold Keeps
      rw [visit, if_neg hpath, if_neg hmet]
      refine congrArg (w.recorded l start >>= ·) (funext fun m => ?_)
      have hvisited : c.name ∉ (Harvest.of w.names m).visited := hmet
      rw [harvest, if_neg hpath, if_neg hvisited]
      rfl
  | succ depth ih =>
    by_cases hseen : c.name ∈ path ∨ c.name ∈ w.names
    · exact keeps_of_seen (depth + 1) hw hseen
    · obtain ⟨hpath, hmet⟩ := not_or.mp hseen
      have hsupertypes := keeps_supertypes (w := w.record (.entered c))
        (fun d v hv => ih (c.name :: path) d hv) c c.supertypes hw
      unfold Keeps at hsupertypes ⊢
      rw [visit, if_neg hpath, if_neg hmet, ← hsupertypes, Walk.recorded_record, bind_assoc,
        w.names_entered]
      refine congrArg (w.recorded l start >>= ·) (funext fun m => ?_)
      have hvisited : c.name ∉ (Harvest.of w.names m).visited := hmet
      rw [harvest, if_neg hpath, if_neg hvisited]
      exact (congrArg (· >>= harvestSupertypes l (harvest l depth (c.name :: path)) c c.supertypes)
        (Harvest.takeType_of (w.names ++ [c.name]) m l c)).trans (bind_map_left ..)

end Walk

/-- **An extraction is one recursion**, with the same answers, slots and events. -/
theorem extract_eq_harvest (l : FiniteLoader U) (root : TypeDecl U) :
    extractByHarvest l root = Except.mapError Stop.cycle <$> extract l root := by
  have hkeeps : Keeps l.toLoader { name := root.name }
      (harvest l (root.name :: l.names).length [] root) {} (l.walk root) := harvest_eq _ [] root rfl
  have hharvest : harvest l (root.name :: l.names).length [] root
      { metadata := { name := root.name } } =
        recordWalk l root >>= fun m => pure ((l.walk root).harvested m) := hkeeps
  rw [extractByHarvest, hharvest, bind_assoc]
  simp only [pure_bind]
  cases hstop : (l.walk root).stop with
  | none =>
    simp only [extract_of_stop_none hstop, Walk.harvested_of_stop_none hstop, map_bind, map_pure]
    rfl
  | some s =>
    cases s with
    | cycle e =>
      simp only [extract_of_cycle hstop, Walk.harvested, hstop, map_bind, map_pure]
      rfl
    | exhausted => exact absurd hstop (l.walk_stop_ne_exhausted root)

end ComponentHooks
