import ComponentHooks.Source.Markers
import Mathlib.Data.List.Forall2

/-!
# What marker attributes say

The markers of a declaration are its marker attributes one by one, in their order: none is left
out, none is added, and each has the value and the entries that stand in the source.

* `TextList`: tokens that list texts;
* `Attribute.Writes`: an attribute writes a marker;
* **`transcribes_of_readMarkers`**: the markers read from attributes transcribe them;
* `Transcribes.ofKind`, `Transcribes.first`: so do the markers of one kind, and the first of them.
-/

namespace ComponentHooks.Source

theorem bind_eq_ok_iff {α β : Type} {x : Except Fault α} {f : α → Except Fault β} {b : β} :
    x >>= f = .ok b ↔ ∃ a, x = .ok a ∧ f a = .ok b := by
  cases x with
  | error e => exact ⟨nofun, nofun⟩
  | ok a => exact ⟨fun h => ⟨a, rfl, h⟩, fun ⟨_, ha, h⟩ => Except.ok.inj ha ▸ h⟩

/-! ## Arguments -/

/-- The texts that tokens list, with commas between them and perhaps one more behind. -/
inductive TextList : List Token → List String → Prop where
  | nil : TextList [] []
  | last {t : Token} {s : String} (head : t.text? = some s) : TextList [t] [s]
  | more {t : Token} {s : String} {ts : List Token} {ss : List String} (joint : Bool)
    (head : t.text? = some s) (tail : TextList ts ss) :
    TextList (t :: .mark ',' joint :: ts) (s :: ss)

theorem text_read_eq_ok_iff {ts rest : List Token} {s : String} :
    text.read ts = .ok (s, rest) ↔ ∃ t, ts = t :: rest ∧ t.text? = some s := by
  cases ts with
  | nil => exact ⟨nofun, nofun⟩
  | cons t ts =>
    rw [text, single]
    dsimp only
    cases ht : t.text? with
    | none =>
      refine ⟨nofun, ?_⟩
      rintro ⟨t', he, ht'⟩
      cases he
      cases ht.symm.trans ht'
    | some s' =>
      constructor
      · intro h
        cases h
        exact ⟨t, rfl, ht⟩
      · rintro ⟨t', he, ht'⟩
        cases he
        cases ht.symm.trans ht'
        rfl

theorem closeItem_eq_ok_iff {ts rest : List Token} :
    Reader.closeItem ts = .ok rest ↔
      ts = [] ∧ rest = [] ∨ ∃ joint, ts = .mark ',' joint :: rest := by
  unfold Reader.closeItem
  split
  · simp [eq_comm (b := rest)]
  · simp
  · rename_i hnil hmark
    refine ⟨nofun, ?_⟩
    rintro (⟨rfl, -⟩ | ⟨joint, rfl⟩)
    · exact (hnil rfl).elim
    · exact (hmark _ _ rfl).elim

theorem loneText_eq_ok_iff {ts : List Token} {s : String} :
    loneText ts = .ok s ↔ ∃ t, ts = [t] ∧ t.text? = some s := by
  rw [← text_read_eq_ok_iff, loneText]
  split
  · simp_all
  · simp_all
  · rename_i x hx h
    rw [h]
    refine ⟨nofun, fun he => ?_⟩
    exact absurd (Except.ok.inj he) (hx _)

theorem textList_of_all (ts : List Token) {ss : List String} (h : text.closed.all ts = .ok ss) :
    TextList ts ss := by
  fun_induction Reader.all text.closed ts generalizing ss with
  | case1 =>
    cases h
    exact .nil
  | case2 => cases h
  | case3 t ts s rest hread ih =>
    obtain ⟨ss, hrest, rfl⟩ := map_eq_ok_iff.1 h
    obtain ⟨s', behind, htext, hclose⟩ := chain_eq_ok_iff.1 hread
    obtain ⟨rest', hclose, he⟩ := map_eq_ok_iff.1 hclose
    cases he
    obtain ⟨t', ht, hs⟩ := text_read_eq_ok_iff.mp htext
    cases ht
    obtain ⟨rfl, rfl⟩ | ⟨joint, rfl⟩ := closeItem_eq_ok_iff.mp hclose
    · have hnil : Reader.all text.closed [] = .ok [] := by rw [Reader.all]
      cases hnil.symm.trans hrest
      exact .last hs
    · exact .more joint hs (ih hrest)

/-! ## One marker -/

/-- The attribute writes the marker: a bare name, a name with a value, or a group of names. -/
inductive Attribute.Writes : Attribute → Marker → Prop where
  | bare (k : Kind) : Writes { name := k.name } { kind := k }
  | valued {k : Kind} {t : Token} {s : String} (single : k ≠ .resources) (text : t.text? = some s) :
    Writes { name := k.name, arguments := .list [t] } { kind := k, value := some s }
  | grouped {ts : List Token} {ss : List String} (texts : TextList ts ss) :
    Writes { name := Kind.resources.name, arguments := .list ts }
      { kind := .resources, entries := ss }

namespace Attribute

theorem kind?_eq_some_iff {a : Attribute} {k : Kind} : a.kind? = some k ↔ a.name = k.name :=
  Kind.ofName?_eq_some_iff

theorem Writes.kind? {a : Attribute} {m : Marker} (h : a.Writes m) : a.kind? = some m.kind := by
  rw [kind?_eq_some_iff]
  cases h <;> rfl

theorem Writes.kind_iff {a : Attribute} {m : Marker} (h : a.Writes m) (k : Kind) :
    a.kind? = some k ↔ m.kind = k := by rw [h.kind?, Option.some_inj]

theorem isMarker_of_kind? {a : Attribute} {k : Kind} (h : a.kind? = some k) :
    a.isMarker = true := by rw [isMarker, h, Option.isSome_some]

end Attribute

/-- The attribute writes the marker, whose kind is looked for at the site. -/
def Attribute.WritesAt (s : Site) (a : Attribute) (m : Marker) : Prop :=
  a.Writes m ∧ m.kind.appliesTo s = true

/-- **A marker that can be read is the one that is written.** -/
theorem writesAt_of_readMarker {s : Site} {k : Kind} {arguments : Arguments} {m : Marker}
    (h : readMarker s k arguments = .ok m) :
    Attribute.WritesAt s { name := k.name, arguments } m := by
  unfold readMarker at h
  by_cases hsite : s ∈ k.sites
  · rw [if_pos hsite] at h
    rw [Kind.mem_sites_iff] at hsite
    cases arguments with
    | absent =>
      cases h
      exact ⟨.bare k, hsite⟩
    | value text => cases h
    | list ts =>
      dsimp only at h
      split_ifs at h with hk
      · subst hk
        obtain ⟨ss, hss, rfl⟩ := map_eq_ok_iff.1 h
        exact ⟨.grouped (textList_of_all ts hss), hsite⟩
      · obtain ⟨v, hv, rfl⟩ := map_eq_ok_iff.1 h
        obtain ⟨t, rfl, ht⟩ := loneText_eq_ok_iff.mp hv
        exact ⟨.valued hk ht, hsite⟩
  · rw [if_neg hsite] at h
    cases h

/-! ## All markers of a declaration -/

/-- The markers are the marker attributes of a declaration, one by one. -/
def Transcribes (s : Site) (as : List Attribute) (ms : List Marker) : Prop :=
  List.Forall₂ (Attribute.WritesAt s) (as.filter Attribute.isMarker) ms

namespace Transcribes

variable {s : Site} {as : List Attribute} {ms : List Marker}

theorem append {bs : List Attribute} {ns : List Marker} (h : Transcribes s as ms)
    (h' : Transcribes s bs ns) : Transcribes s (as ++ bs) (ms ++ ns) := by
  rw [Transcribes, List.filter_append]
  exact List.rel_append h h'

theorem ofKind (h : Transcribes s as ms) (k : Kind) :
    List.Forall₂ (Attribute.WritesAt s) (as.filter (·.kind? = some k))
      (ms.filter (·.kind = k)) := by
  -- An attribute of the kind is among the marker attributes.
  have hfilter : as.filter (·.kind? = some k) =
      (as.filter Attribute.isMarker).filter (·.kind? = some k) := by
    rw [List.filter_filter]
    refine List.filter_congr fun a _ => ?_
    rw [Bool.eq_iff_iff, Bool.and_eq_true]
    simp only [decide_eq_true_eq]
    exact ⟨fun ha => ⟨ha, Attribute.isMarker_of_kind? ha⟩, And.left⟩
  rw [hfilter]
  refine List.rel_filter (fun a m hw => ?_) h
  simp only [decide_eq_true_eq]
  exact hw.1.kind_iff k

theorem any_iff (h : Transcribes s as ms) (k : Kind) :
    as.any (·.kind? = some k) = ms.any (·.kind = k) := by
  have hlength := (h.ofKind k).length_eq
  rw [Bool.eq_iff_iff, List.any_eq_true, List.any_eq_true, ← List.length_filter_pos_iff,
    ← List.length_filter_pos_iff, hlength]

theorem first (h : Transcribes s as ms) {k : Kind} (hk : as.any (·.kind? = some k) = true) :
    ∃ a m, as.find? (·.kind? = some k) = some a ∧ ms.find? (·.kind = k) = some m ∧
      a.WritesAt s m := by
  obtain ⟨a, ha⟩ : ∃ a, as.find? (·.kind? = some k) = some a := by
    rwa [← Option.isSome_iff_exists, List.find?_isSome, ← List.any_eq_true]
  obtain ⟨as', has⟩ := List.head?_eq_some_iff.mp (List.head?_filter.trans ha)
  have hof := h.ofKind k
  rw [has, List.forall₂_cons_left_iff] at hof
  obtain ⟨m, ms', hw, -, hms⟩ := hof
  refine ⟨a, m, ha, ?_, hw⟩
  rw [← List.head?_filter, hms, List.head?_cons]

theorem isEmpty_eq (h : Transcribes s as ms) : ms.isEmpty = !as.any (·.isMarker) := by
  rw [Bool.eq_iff_iff, Bool.not_eq_true', List.any_eq_false, List.isEmpty_iff_length_eq_zero,
    ← h.length_eq, List.length_eq_zero_iff, List.filter_eq_nil_iff]

theorem appliesTo (h : Transcribes s as ms) {k : Kind} (hk : as.any (·.kind? = some k) = true) :
    k.appliesTo s = true := by
  obtain ⟨a, m, -, hm, hw⟩ := h.first hk
  obtain rfl : m.kind = k := by simpa using List.find?_some hm
  exact hw.2

theorem any_isMarker_iff (h : Transcribes s as ms) :
    as.any (·.isMarker) = true ↔ ∃ k : Kind, k.appliesTo s = true ∧ ms.any (·.kind = k) = true := by
  constructor
  · intro hany
    obtain ⟨a, ha, hmarker⟩ := List.any_eq_true.mp hany
    obtain ⟨k, hk⟩ := Option.isSome_iff_exists.mp hmarker
    have hkind : as.any (·.kind? = some k) = true :=
      List.any_eq_true.mpr ⟨a, ha, decide_eq_true hk⟩
    exact ⟨k, h.appliesTo hkind, (h.any_iff k).symm.trans hkind⟩
  · rintro ⟨k, -, hms⟩
    obtain ⟨a, ha, hk⟩ := List.any_eq_true.mp ((h.any_iff k).trans hms)
    exact List.any_eq_true.mpr ⟨a, ha, Attribute.isMarker_of_kind? (of_decide_eq_true hk)⟩

end Transcribes

theorem Attribute.transcribes_of_marker? {a : Attribute} {s : Site} {m? : Option Marker}
    (h : a.marker? s = .ok m?) : Transcribes s [a] m?.toList := by
  rw [marker?] at h
  cases hk : a.kind? with
  | none =>
    rw [hk] at h
    cases h
    rw [Transcribes, List.filter_cons_of_neg (by rw [isMarker, hk]; exact Bool.false_ne_true)]
    exact .nil
  | some k =>
    rw [hk] at h
    obtain ⟨m, hm, rfl⟩ := map_eq_ok_iff.1 h
    have ha : { name := k.name, arguments := a.arguments } = a := by
      rw [← kind?_eq_some_iff.mp hk]
    rw [Transcribes, List.filter_cons_of_pos (isMarker_of_kind? hk)]
    exact .cons (ha ▸ writesAt_of_readMarker hm) .nil

/-- **The markers read from attributes transcribe them.** -/
theorem transcribes_of_readMarkers {s : Site} {as : List Attribute} {ms : List Marker}
    (h : readMarkers s as = .ok ms) : Transcribes s as ms := by
  induction as generalizing ms with
  | nil =>
    cases h
    exact .nil
  | cons a as ih =>
    obtain ⟨m?, hm, h⟩ := bind_eq_ok_iff.mp h
    obtain ⟨rest, hrest, h⟩ := bind_eq_ok_iff.mp h
    cases h
    exact (Attribute.transcribes_of_marker? hm).append (ih hrest)

end ComponentHooks.Source
