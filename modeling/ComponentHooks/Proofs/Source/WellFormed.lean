import ComponentHooks.Proofs.Source.Markers
import ComponentHooks.Source.Options

/-!
# Well-formed attributes

What the attributes of a struct and of its fields may say, without a reader: markers of types and
of fields are read exactly if they write one, and options of a field exactly if they list `parent`
alone.

* `faultOf`: the fault of what has been read, if there is one;
* `Reader.all_of_read`: a list whose first item can be read;
* `textList_iff`, **`Attribute.marker?_eq_some_iff`**: texts in a list, and markers;
* `ParentList`, **`parentList_iff`**: the options of a field;
* `Attribute.makesParent`, `StructField.isParent`, `readsParent_eq_ok`: what they come to.
-/

namespace ComponentHooks.Source

/-! ## Faults -/

/-- The fault of what was read. -/
def faultOf {α : Type} : Except Fault α → Option Fault
  | .ok _ => none
  | .error e => some e

section Faults

variable {α β γ : Type}

theorem faultOf_eq_none_iff {x : Except Fault α} : faultOf x = none ↔ ∃ a, x = .ok a := by
  cases x with
  | ok a => exact ⟨fun _ => ⟨a, rfl⟩, fun _ => rfl⟩
  | error e => exact ⟨nofun, fun ⟨a, h⟩ => nomatch h⟩

theorem faultOf_eq_some_iff {x : Except Fault α} {e : Fault} :
    faultOf x = some e ↔ x = .error e := by
  cases x with
  | ok a => exact ⟨nofun, nofun⟩
  | error e' => exact ⟨fun h => by cases h; rfl, fun h => by cases h; rfl⟩

@[simp] theorem faultOf_ok (a : α) : faultOf (.ok a) = none := rfl

@[simp] theorem faultOf_error (e : Fault) : faultOf (.error e : Except Fault α) = some e := rfl

theorem faultOf_bind_bind (x : Except Fault α) (y : Except Fault β) (f : α → β → γ) :
    faultOf (x >>= fun a => y >>= fun b => pure (f a b)) = (faultOf x).or (faultOf y) := by
  cases x with
  | error e => rfl
  | ok a => cases y <;> rfl

theorem faultOf_map (x : Except Fault α) (f : α → β) : faultOf (x.map f) = faultOf x := by
  cases x <;> rfl

theorem faultOf_bind_pure (x : Except Fault α) (f : α → β) :
    faultOf (x >>= fun a => pure (f a)) = faultOf x := by
  cases x <;> rfl

theorem faultOf_bind {x : Except Fault α} {f : α → Except Fault β} {e? : Option Fault}
    (h : ∀ a, faultOf (f a) = e?) : faultOf (x >>= f) = (faultOf x).or e? := by
  cases x with
  | error e => rfl
  | ok a => exact h a

end Faults

/-! ## Lists -/

theorem Reader.all_of_read {α : Type} {r : Reader α} {t : Token} {ts rest : List Token} {a : α}
    (h : r.read (t :: ts) = .ok (a, rest)) : r.all (t :: ts) = (r.all rest).map (a :: ·) := by
  rw [Reader.all]
  split
  · rename_i e he
    cases he.symm.trans h
  · rename_i b rest' hb
    cases hb.symm.trans h
    rfl

theorem Reader.all_nil {α : Type} (r : Reader α) : r.all [] = .ok [] := by rw [Reader.all]

theorem Reader.isEmpty_of_all {α : Type} {r : Reader α} {ts : List Token} {as : List α}
    (h : r.all ts = .ok as) : as.isEmpty = ts.isEmpty := by
  cases ts with
  | nil =>
    cases r.all_nil.symm.trans h
    rfl
  | cons t ts =>
    rw [Reader.all] at h
    split at h
    · cases h
    · obtain ⟨as', -, rfl⟩ := map_eq_ok_iff.1 h
      rfl

theorem Reader.closed_read_eq_ok_iff {α : Type} {r : Reader α} {ts rest : List Token} {a : α} :
    r.closed.read ts = .ok (a, rest) ↔ ∃ behind, r.read ts = .ok (a, behind) ∧
      (behind = [] ∧ rest = [] ∨ ∃ joint, behind = .mark ',' joint :: rest) := by
  constructor
  · intro h
    obtain ⟨b, behind, hread, hclose⟩ := chain_eq_ok_iff.1 h
    obtain ⟨rest', hclose, he⟩ := map_eq_ok_iff.1 hclose
    cases he
    exact ⟨behind, hread, closeItem_eq_ok_iff.mp hclose⟩
  · rintro ⟨behind, hread, hclose⟩
    refine chain_eq_ok_iff.2 ⟨a, behind, hread, ?_⟩
    rw [closeItem_eq_ok_iff.mpr hclose]
    rfl

/-- **Texts are read to the end exactly where they stand in a list.** -/
theorem textList_iff {ts : List Token} {ss : List String} :
    text.closed.all ts = .ok ss ↔ TextList ts ss := by
  refine ⟨textList_of_all ts, fun h => ?_⟩
  induction h with
  | nil => exact text.closed.all_nil
  | @last t s head =>
    have hread : text.closed.read [t] = .ok (s, []) := Reader.closed_read_eq_ok_iff.mpr
      ⟨[], text_read_eq_ok_iff.mpr ⟨t, rfl, head⟩, .inl ⟨rfl, rfl⟩⟩
    rw [Reader.all_of_read hread, text.closed.all_nil]
    rfl
  | @more t s ts ss joint head tail ih =>
    have hread : text.closed.read (t :: .mark ',' joint :: ts) = .ok (s, ts) :=
      Reader.closed_read_eq_ok_iff.mpr
        ⟨_, text_read_eq_ok_iff.mpr ⟨t, rfl, head⟩, .inr ⟨joint, rfl⟩⟩
    rw [Reader.all_of_read hread, ih]
    rfl

/-! ## Markers -/

namespace Attribute

variable {s : Site} {a : Attribute} {m : Marker}

/-- The attribute writes the marker, which may stand at the site as it is: on methods, no marker but
that of a resource has a value. -/
def Gives (s : Site) (a : Attribute) (m : Marker) : Prop :=
  a.WritesAt s m ∧ (s = .method → m.kind ≠ .resource → m.value = none)

theorem gives_iff_writesAt (hs : s ≠ .method) : a.Gives s m ↔ a.WritesAt s m :=
  and_iff_left fun h => absurd h hs

theorem value_of_readMarker {k : Kind} {arguments : Arguments}
    (h : readMarker .method k arguments = .ok m) (hk : k ≠ .resource) : m.value = none := by
  unfold readMarker at h
  cases arguments with
  | absent =>
    dsimp only at h
    split_ifs at h
    cases h
    rfl
  | value text =>
    dsimp only at h
    split_ifs at h
  | list ts =>
    dsimp only at h
    split_ifs at h with hsite hgroup hargued
    · obtain ⟨ss, -, rfl⟩ := map_eq_ok_iff.1 h
      rfl
    · exact absurd ⟨rfl, hk⟩ hargued

/-- **The markers that are read are those that are written**, and may stand as they are. -/
theorem marker?_eq_some_iff : a.marker? s = .ok (some m) ↔ a.Gives s m := by
  constructor
  · intro h
    have htranscribes := Attribute.transcribes_of_marker? h
    rw [Transcribes, Option.toList_some, List.forall₂_cons_right_iff] at htranscribes
    obtain ⟨b, bs, hwrites, -, hfilter⟩ := htranscribes
    obtain rfl : b = a := by
      have hmem : b ∈ [a].filter Attribute.isMarker := hfilter ▸ List.mem_cons_self
      exact List.mem_singleton.mp (List.mem_filter.mp hmem).1
    refine ⟨hwrites, ?_⟩
    rintro rfl hk
    rw [marker?, hwrites.1.kind?] at h
    obtain ⟨m', hread, hm⟩ := map_eq_ok_iff.1 h
    cases hm
    exact value_of_readMarker hread hk
  · rintro ⟨⟨hwrites, hsite⟩, hvalue⟩
    rw [← Kind.mem_sites_iff] at hsite
    have hread : readMarker s m.kind a.arguments = .ok m := by
      unfold readMarker
      rw [if_pos hsite]
      cases hwrites with
      | bare k => rfl
      | valued single text =>
        dsimp only
        rw [if_neg single, if_neg fun h => Option.some_ne_none _ (hvalue h.1 h.2),
          loneText_eq_ok_iff.mpr ⟨_, rfl, text⟩]
        rfl
      | grouped texts =>
        dsimp only
        rw [if_pos rfl, textList_iff.mpr texts]
        rfl
    rw [marker?, hwrites.kind?]
    exact map_eq_ok_iff.mpr ⟨m, hread, rfl⟩

theorem faultOf_marker?_eq_none_iff :
    faultOf (a.marker? s) = none ↔ (a.isMarker = true → ∃ m, a.Gives s m) := by
  rw [faultOf_eq_none_iff]
  constructor
  · rintro ⟨m?, hm⟩ hmarker
    cases m? with
    | some m => exact ⟨m, marker?_eq_some_iff.mp hm⟩
    | none =>
      -- What is a marker is not read as nothing.
      have htranscribes := transcribes_of_marker? hm
      rw [Transcribes, List.filter_cons_of_pos hmarker] at htranscribes
      cases htranscribes
  · intro h
    cases hk : a.kind? with
    | none => exact ⟨none, by rw [marker?, hk]⟩
    | some k =>
      obtain ⟨m, hm⟩ := h (isMarker_of_kind? hk)
      exact ⟨some m, marker?_eq_some_iff.mpr hm⟩

end Attribute

theorem faultOf_readMarkers (s : Site) (as : List Attribute) :
    faultOf (readMarkers s as) = as.findSome? fun a => faultOf (a.marker? s) := by
  induction as with
  | nil => rfl
  | cons a as ih =>
    rw [readMarkers, faultOf_bind_bind, ih, List.findSome?_cons]
    cases faultOf (a.marker? s) <;> rfl

/-! ## The options of a field -/

/-- The tokens list `parent` any number of times, with commas between and perhaps one behind. -/
inductive ParentList : List Token → Prop where
  | nil : ParentList []
  | last : ParentList [.word "parent"]
  | more {ts : List Token} (joint : Bool) (tail : ParentList ts) :
    ParentList (.word "parent" :: .mark ',' joint :: ts)

theorem Path.more_read {p q : Path} {ts rest : List Token}
    (h : (Path.more (startsWith "::") anySegment p).read ts = .ok (q, rest)) :
    q.rooted = p.rooted ∧
      (q = p ∧ rest = ts ∧ startsWith "::" ts = false ∨ p.segments.length < q.segments.length) := by
  change Reader.iterate _ _ p ts = _ at h
  fun_induction Reader.iterate with
  | case1 => cases h
  | case2 p ts _ p' mid hstep ih =>
    obtain ⟨_, behind, -, hsegment⟩ := chain_eq_ok_iff.1 hstep
    obtain ⟨s, behind', -, hpush⟩ := chain_eq_ok_iff.1 hsegment
    cases hpush
    obtain ⟨hrooted, hlonger⟩ := ih h
    have hlength : p.segments.length < (p.push s).segments.length := by
      rw [Path.push, List.length_append]
      exact Nat.lt_succ_self _
    refine ⟨hrooted, .inr ?_⟩
    rcases hlonger with ⟨rfl, -, -⟩ | hlonger
    · exact hlength
    · exact Nat.lt_trans hlength hlonger
  | case3 p ts hends =>
    cases h
    exact ⟨rfl, .inl ⟨rfl, rfl, Bool.not_eq_true _ ▸ hends⟩⟩

theorem optionalColons_read_eq_false_iff {ts rest : List Token} :
    optionalColons.read ts = .ok (false, rest) ↔ rest = ts ∧ startsWith "::" ts = false := by
  unfold optionalColons Tail.look
  dsimp only
  by_cases hcolons : startsWith "::" ts = true
  · rw [if_pos hcolons, hcolons]
    refine ⟨fun h => ?_, nofun⟩
    obtain ⟨_, mid, -, hdone⟩ := chain_eq_ok_iff.1 h
    cases hdone
  · rw [if_neg hcolons]
    constructor
    · intro h
      cases h
      exact ⟨rfl, Bool.not_eq_true _ ▸ hcolons⟩
    · rintro ⟨rfl, -⟩
      rfl

theorem nestedFirst_read_eq_ok_iff {ts rest : List Token} {s : Segment} :
    nestedFirst.read ts = .ok (s, rest) ↔ ∃ w, ts = .word w :: rest ∧ s = { word := w } := by
  constructor
  · intro h
    cases ts with
    | nil => cases h
    | cons t ts =>
      cases t with
      | word w =>
        cases h
        exact ⟨w, rfl, rfl⟩
      | _ => cases h
  · rintro ⟨w, rfl, rfl⟩
    rfl

/-- **A path inside an attribute is the word `parent`** exactly if no two colons stand in front of
it or behind it. -/
theorem nestedPath_read_eq_ok_iff {ts rest : List Token} :
    nestedPath.read ts = .ok ({ segments := [{ word := "parent" }] }, rest) ↔
      ts = .word "parent" :: rest ∧ startsWith "::" rest = false := by
  constructor
  · intro h
    obtain ⟨rooted, mid, hcolons, h⟩ := chain_eq_ok_iff.1 h
    obtain ⟨s, behind, hfirst, hmore⟩ := chain_eq_ok_iff.1 h
    obtain ⟨hrooted, ⟨hpath, rfl, hend⟩ | hlonger⟩ := Path.more_read hmore
    · cases hpath
      obtain ⟨rfl, -⟩ := optionalColons_read_eq_false_iff.mp hcolons
      obtain ⟨w, rfl, hw⟩ := nestedFirst_read_eq_ok_iff.mp hfirst
      cases hw
      exact ⟨rfl, hend⟩
    · exact absurd hlonger (Nat.lt_irrefl 1)
  · rintro ⟨rfl, hend⟩
    have hmore : (Path.more (startsWith "::") anySegment
        { segments := [{ word := "parent" }] }).read rest =
        .ok ({ segments := [{ word := "parent" }] }, rest) := by
      change Reader.iterate _ _ _ rest = _
      rw [Reader.iterate, hend, if_neg Bool.false_ne_true]
    have hcolons : optionalColons.read (.word "parent" :: rest) =
        .ok (false, .word "parent" :: rest) := optionalColons_read_eq_false_iff.mpr ⟨rfl, rfl⟩
    have hfirst : nestedFirst.read (.word "parent" :: rest) = .ok ({ word := "parent" }, rest) :=
      nestedFirst_read_eq_ok_iff.mpr ⟨_, rfl, rfl⟩
    unfold nestedPath Path.reader Tail.before Reader.next
    dsimp only
    rw [hcolons, chain, hfirst]
    exact hmore

theorem parentOption_closed_read_eq_ok_iff {ts rest : List Token} :
    parentOption.closed.read ts = .ok ((), rest) ↔
      ts = [.word "parent"] ∧ rest = [] ∨
        ∃ joint, ts = .word "parent" :: .mark ',' joint :: rest := by
  have hread : ∀ behind, parentOption.read ts = .ok ((), behind) ↔
      ts = .word "parent" :: behind ∧ startsWith "::" behind = false := by
    intro behind
    rw [← nestedPath_read_eq_ok_iff]
    constructor
    · intro h
      obtain ⟨p, mid, hpath, hp⟩ := chain_eq_ok_iff.1 h
      dsimp only at hp
      split_ifs at hp with hparent
      · cases hp
        rw [hpath, hparent]
      · cases hp
    · intro h
      exact chain_eq_ok_iff.2 ⟨_, behind, h, rfl⟩
  rw [Reader.closed_read_eq_ok_iff]
  constructor
  · rintro ⟨behind, h, ⟨rfl, rfl⟩ | ⟨joint, rfl⟩⟩
    · exact .inl ⟨((hread _).mp h).1, rfl⟩
    · exact .inr ⟨joint, ((hread _).mp h).1⟩
  · rintro (⟨rfl, rfl⟩ | ⟨joint, rfl⟩)
    · exact ⟨[], (hread _).mpr ⟨rfl, rfl⟩, .inl ⟨rfl, rfl⟩⟩
    · exact ⟨_, (hread _).mpr ⟨rfl, by cases joint <;> rfl⟩, .inr ⟨joint, rfl⟩⟩

/-- **Options of a field are read to the end exactly if they list `parent` alone.** -/
theorem parentList_iff {ts : List Token} :
    (∃ us, parentOption.closed.all ts = .ok us) ↔ ParentList ts := by
  constructor
  · rintro ⟨us, h⟩
    fun_induction Reader.all parentOption.closed ts generalizing us with
    | case1 => exact .nil
    | case2 => cases h
    | case3 t ts u rest hread ih =>
      obtain ⟨us, hrest, -⟩ := map_eq_ok_iff.1 h
      obtain ⟨hts, rfl⟩ | ⟨joint, hts⟩ := parentOption_closed_read_eq_ok_iff.mp hread
      · exact hts ▸ .last
      · exact hts ▸ .more joint (ih us hrest)
  · intro h
    induction h with
    | nil => exact ⟨[], Reader.all_nil _⟩
    | last =>
      have hread : parentOption.closed.read [.word "parent"] = .ok ((), []) :=
        parentOption_closed_read_eq_ok_iff.mpr (.inl ⟨rfl, rfl⟩)
      exact ⟨[()], by rw [Reader.all_of_read hread, Reader.all_nil]; rfl⟩
    | @more ts joint tail ih =>
      obtain ⟨us, hus⟩ := ih
      have hread : parentOption.closed.read (.word "parent" :: .mark ',' joint :: ts) =
          .ok ((), ts) :=
        parentOption_closed_read_eq_ok_iff.mpr (.inr ⟨joint, rfl⟩)
      exact ⟨() :: us, by rw [Reader.all_of_read hread, hus]; rfl⟩

namespace Attribute

/-- The options of a field make it the parent. -/
def makesParent (a : Attribute) : Bool :=
  a.isOptions && match a.arguments with
    | .list ts => startsWithWord "parent" ts
    | _ => false

/-- What is read of the options in an attribute of a field. -/
def parentOptions (a : Attribute) : Except Fault (List Unit) :=
  a.options >>= parentOption.closed.all

theorem faultOf_parentOptions_eq_none_iff {a : Attribute} :
    faultOf a.parentOptions = none ↔ ∃ ts, a.arguments = .list ts ∧ ParentList ts := by
  rw [faultOf_eq_none_iff, parentOptions, options]
  cases a.arguments with
  | absent => exact ⟨nofun, nofun⟩
  | value text => exact ⟨nofun, nofun⟩
  | list ts =>
    refine parentList_iff.trans ⟨fun h => ⟨ts, rfl, h⟩, ?_⟩
    rintro ⟨ts', he, h⟩
    cases he
    exact h

theorem makesParent_of_parentOptions {a : Attribute} (ha : a.isOptions = true) {us : List Unit}
    (h : a.parentOptions = .ok us) : a.makesParent = !us.isEmpty := by
  obtain ⟨ts, harguments, hlist⟩ := faultOf_parentOptions_eq_none_iff.mp
    (faultOf_eq_none_iff.mpr ⟨us, h⟩)
  have hall : parentOption.closed.all ts = .ok us := by
    rw [parentOptions, options, harguments] at h
    exact h
  rw [makesParent, ha, harguments, Reader.isEmpty_of_all hall]
  cases hlist <;> rfl

end Attribute

/-- The field is the parent. -/
def StructField.isParent (f : StructField) : Bool := f.attributes.any (·.makesParent)

/-- **What the options of a field come to**: it is the parent if some of them make it so. -/
theorem readsParent_eq_ok {as : List Attribute} {b : Bool} (h : readsParent as = .ok b) :
    b = as.any (·.makesParent) := by
  induction as generalizing b with
  | nil =>
    cases h
    rfl
  | cons a as ih =>
    rw [readsParent] at h
    rw [List.any_cons]
    split_ifs at h with ha
    · rw [← bind_assoc] at h
      obtain ⟨us, hus, h⟩ := bind_eq_ok_iff.mp h
      obtain ⟨more, hmore, h⟩ := bind_eq_ok_iff.mp h
      cases h
      rw [Attribute.makesParent_of_parentOptions ha hus, ih hmore]
    · rw [Attribute.makesParent, eq_false_of_ne_true ha, Bool.false_and, Bool.false_or]
      exact ih h

theorem faultOf_readsParent (as : List Attribute) :
    faultOf (readsParent as) =
      (as.filter (·.isOptions)).findSome? fun a => faultOf a.parentOptions := by
  induction as with
  | nil => rfl
  | cons a as ih =>
    rw [readsParent, List.filter_cons]
    split_ifs with ha
    · rw [← bind_assoc, List.findSome?_cons, ← ih]
      refine (faultOf_bind_bind a.parentOptions (readsParent as) _).trans ?_
      cases faultOf a.parentOptions <;> rfl
    · exact ih

end ComponentHooks.Source
