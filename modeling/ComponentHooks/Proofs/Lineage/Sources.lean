import ComponentHooks.Proofs.Extraction.Shadowing
import ComponentHooks.Proofs.Lineage.Hooks
import ComponentHooks.Proofs.Source.Members
import ComponentHooks.Sample.Hierarchies

/-!
# From the source of a struct to its metadata

A struct is declared as its source describes it. Whatever stands above it, its metadata begins under
each kind with what its own source says: its fields and methods with an attribute of the kind, in
source order, each once, and its own markers.

* `Component.Follows`, `Component.Realizes`: a struct as it is described; and with the hooks of a
  block;
* `RecordsOwn`: a list of recorded members begins with those that a source writes;
* `Metadata.TellsOwn`: metadata tells all that the source of a struct writes;
* **`extract_tellsOwn`**: the metadata of a described struct does.
-/

namespace ComponentHooks

open Source

variable {U : Universe}

/-! ## Structs and their sources -/

/-- What is told of a member. -/
def Member.told (m : Member U) : Told := ⟨m.id.name, m.markers⟩

/-- The hook as its source describes it. -/
def Hook.described {ls : Layout U} (h : Hook U ls) : DescribedHook where
  name := h.name
  isStatic := h.body.isStatic
  visibility := h.visibility
  markers := h.markers

namespace Component

variable {s : Shape U} {ps : Layout U}

/-- The struct is as it is described. `home` is where it is declared. -/
structure Follows (c : Component U s ps) (home : String) (d : Description) : Prop where
  typeName_eq : c.typeName = d.typeName home
  markers_eq : c.markers = d.markers
  hooked_eq : c.hooked = d.hooked
  fields_eq : c.fields = d.fields

/-- The struct is as it is described, and has the hooks of an expansion. -/
structure Realizes (c : Component U s ps) (home : String) (d : Description) (x : Expansion) : Prop
    extends c.Follows home d where
  hooks_eq : c.hooks.map Hook.described = x.hooks

variable (c : Component U s ps) (parent? : Option U.Link)

theorem told_fieldsOf_declare (k : Kind) :
    ((c.declare parent?).fieldsOf k).map (·.told) =
      (c.fields.map DescribedField.told).filter (·.carries k) := by
  have htold : (c.declare parent?).fields.map (·.told) = c.fields.map DescribedField.told := by
    simp only [declare, TypeDecl.declare, List.map_map]
    rfl
  have heligible : ∀ x ∈ (c.declare parent?).fields, x.isEligible = true := by
    simp only [declare, TypeDecl.declare, List.map_map, List.forall_mem_map]
    exact fun _ _ => rfl
  rw [← htold, List.filter_map, TypeDecl.fieldsOf]
  congr 1
  refine List.filter_congr fun x hx => ?_
  rw [heligible x hx, Bool.true_and]
  rfl

theorem told_methodsOf_declare (k : Kind) :
    ((c.declare parent?).methodsOf k).map (·.told) =
      ((c.table.map Hook.described).map DescribedHook.told).filter (·.carries k) := by
  have htold : (c.table.map c.method).map (·.told) =
      (c.table.map Hook.described).map DescribedHook.told := by
    rw [List.map_map, List.map_map]
    rfl
  rw [← htold, List.filter_map, TypeDecl.methodsOf, methods_declare]
  congr 1
  refine List.filter_congr fun x hx => ?_
  obtain ⟨h, -, rfl⟩ := List.mem_map.mp hx
  rfl

end Component

/-! ## What a type records of its own -/

/-- What is recorded under a kind begins with the members of the type; and these are, one by one,
those that its source writes with an attribute of the kind. -/
structure RecordsOwn {α : Type} (member : α → Member U) (typeName : String)
    (ws : List WrittenMember) (k : Kind) (xs : List α) : Prop where
  before_inherited : xs.filter (fun x => (member x).id.declaring = typeName) <+: xs
  told : List.Forall₂ (fun w x => w.IsToldAs k (member x).told) (ws.filter (·.carries k))
    (xs.filter fun x => (member x).id.declaring = typeName)

section RecordsOwn

variable {α : Type} {member : α → Member U} {of : TypeDecl U → List α} {k : Kind} {site : Site}
  {ws : List WrittenMember} {ts : List Told}

theorem own_firstOfName (hof : ∀ c, ∀ x ∈ of c, (member x).id.declaring = c.name)
    {c : TypeDecl U} {cs : List (TypeDecl U)} (hcs : c.name ∉ cs.map TypeDecl.name)
    (hnames : ((of c).map fun x => (member x).id.name).Nodup) :
    ∃ inherited, firstOfName (fun x => (member x).id.name) ((c :: cs).flatMap of) =
        of c ++ inherited ∧
      (of c ++ inherited).filter (fun x => (member x).id.declaring = c.name) = of c := by
  rw [List.flatMap_cons, firstOfName_append _ hnames]
  refine ⟨_, rfl, ?_⟩
  rw [List.filter_append, List.filter_eq_self.mpr fun x hx => decide_eq_true (hof c x hx),
    List.append_right_eq_self, List.filter_eq_nil_iff]
  intro x hx hdeclaring
  rw [mem_firstOfName] at hx
  -- The member is one of a type behind `c`, which has another name.
  obtain ⟨d, hd, hxd⟩ :=
    List.mem_flatMap.mp (List.mem_of_mem_filter (List.mem_of_find?_eq_some hx))
  rw [hof d x hxd, decide_eq_true_eq] at hdeclaring
  exact hcs (hdeclaring ▸ List.mem_map_of_mem hd)

theorem recordsOwn_of_tellsAll (hof : ∀ c, ∀ x ∈ of c, (member x).id.declaring = c.name)
    {c : TypeDecl U} {cs : List (TypeDecl U)} (hcs : c.name ∉ cs.map TypeDecl.name)
    (htells : TellsAll site ws ts) (hnames : (ts.map Told.name).Nodup)
    (hc : (of c).map (fun x => (member x).told) = ts.filter (·.carries k)) :
    RecordsOwn member c.name ws k
      (if k.appliesTo site then firstOfName (fun x => (member x).id.name) ((c :: cs).flatMap of)
      else []) := by
  have htold := htells.ofKind k
  by_cases hk : k.appliesTo site = true
  · have hown : ((of c).map fun x => (member x).id.name).Nodup := by
      have hmap : ((of c).map fun x => (member x).id.name) =
          (ts.filter (·.carries k)).map Told.name := by
        rw [← hc, List.map_map]
        rfl
      rw [hmap]
      exact hnames.sublist (List.filter_sublist.map _)
    obtain ⟨inherited, heq, hfilter⟩ := own_firstOfName hof hcs hown
    rw [if_pos hk, heq]
    refine ⟨?_, ?_⟩
    · rw [hfilter]
      exact List.prefix_append _ _
    · rw [hfilter]
      rwa [← hc, List.forall₂_map_right_iff] at htold
  · have hnone : ts.filter (·.carries k) = [] :=
      List.filter_eq_nil_iff.mpr fun t ht hcarries => hk (htells.appliesTo ht hcarries)
    rw [hnone, List.forall₂_nil_right_iff] at htold
    rw [if_neg hk]
    exact ⟨List.nil_prefix, htold ▸ .nil⟩

theorem typeMarkers_of_transcribes {as : List Attribute} {c : TypeDecl U}
    (htranscribes : Transcribes .type as c.markers) (cs : List (TypeDecl U)) :
    ∃ own inherited,
      (if k.appliesTo .type then (c :: cs).flatMap (·.markersOf k) else []) = own ++ inherited ∧
        List.Forall₂ Attribute.Writes (as.filter (·.kind? = some k)) own := by
  split_ifs with hk
  · exact ⟨c.markersOf k, _, List.flatMap_cons, (htranscribes.ofKind k).imp fun _ _ => And.left⟩
  · have hnone : as.filter (·.kind? = some k) = [] :=
      List.filter_eq_nil_iff.mpr fun a ha hkind =>
        hk (htranscribes.appliesTo (List.any_eq_true.mpr ⟨a, ha, hkind⟩))
    rw [hnone]
    exact ⟨[], [], rfl, .nil⟩

end RecordsOwn

/-- The metadata tells all that the source of the type writes: its fields, its methods, and the
markers of the type itself. -/
structure Metadata.TellsOwn (m : Metadata U) (typeName : String) (s : Source.Struct)
    (b : HookBlock) : Prop where
  fields : ∀ k, RecordsOwn Field.toMember typeName (s.fields.map (·.written)) k (m.fields k)
  methods : ∀ k, RecordsOwn Method.toMember typeName (b.methods.map (·.written)) k (m.methods k)
  typeMarkers : ∀ k, ∃ own inherited, m.typeMarkers k = own ++ inherited ∧
    List.Forall₂ Attribute.Writes (s.attributes.filter (·.kind? = some k)) own

theorem FiniteLoader.exists_preorder_cons (l : FiniteLoader U) (root : TypeDecl U) :
    ∃ cs, l.preorder root = root :: cs ∧ root.name ∉ cs.map TypeDecl.name := by
  have hnodup := l.nodup_preorder root
  rw [preorder, Loader.order, if_pos List.mem_cons_self] at hnodup ⊢
  exact ⟨_, rfl, (List.nodup_cons.mp hnodup).1⟩

/-- **No marker is lost between the source of a struct and its metadata**, whatever stands above the
struct. The fields of one struct have different names in any case, as its hooks have. -/
theorem extract_tellsOwn {src : Source.Struct} {b : HookBlock} {d : Description} {x : Expansion}
    (hd : src.describe = .ok d) (hhooked : d.hooked = true) (hx : b.expand = .ok x)
    (hfields : (src.fields.map (·.name)).Nodup)
    {s : Shape U} {ps : Layout U} {c : Component U s ps} {home : String} (hc : c.Realizes home d x)
    {l : FiniteLoader U} {parent? : Option U.Link} {t : HandleTable U} {m : Metadata U}
    (hm : (extract l (c.declare parent?) t).1 = .ok m) :
    m.TellsOwn (d.typeName home) src b := by
  obtain ⟨hstop, rfl⟩ := extract_eq_ok_iff.mp hm
  rw [metadata_draft_of_walk_stop hstop]
  obtain ⟨cs, hpreorder, hcs⟩ := l.exists_preorder_cons (c.declare parent?)
  obtain ⟨hmarkers, htellsFields⟩ := tellsAll_of_describe hd
  have htellsMethods := tellsAll_of_expand hx
  have hname : (c.declare parent?).name = d.typeName home := hc.typeName_eq
  have hlink : l.canLink (c.declare parent?) = true := rfl
  have hlinked : ((c.declare parent?) :: cs).filter l.canLink =
      c.declare parent? :: cs.filter l.canLink := List.filter_cons_of_pos hlink
  have hcs' : (c.declare parent?).name ∉ (cs.filter l.canLink).map TypeDecl.name :=
    fun h => hcs ((List.filter_sublist.map _).mem h)
  have htable : c.table = c.hooks := by
    rw [Component.table, hc.hooked_eq, hhooked, if_pos rfl]
  rw [← hname, hpreorder]
  refine ⟨fun k => ?_, fun k => ?_, fun k => ?_⟩
  · rw [Metadata.fields_ofTypes, hlinked]
    refine recordsOwn_of_tellsAll (fun _ _ => TypeDecl.declaring_of_mem_fieldsOf) hcs' htellsFields
      (List.Nodup.sublist htellsFields.names_sublist (by rwa [List.map_map])) ?_
    rw [c.told_fieldsOf_declare, hc.fields_eq]
  · rw [Metadata.methods_ofTypes, hlinked]
    refine recordsOwn_of_tellsAll (fun _ _ => TypeDecl.declaring_of_mem_methodsOf) hcs'
      htellsMethods ?_ ?_
    · rw [← hc.hooks_eq, List.map_map, List.map_map]
      exact c.hooks_nodup
    · rw [c.told_methodsOf_declare, htable, hc.hooks_eq]
  · rw [← hc.markers_eq] at hmarkers
    rw [Metadata.typeMarkers_ofTypes]
    exact typeMarkers_of_transcribes (c := c.declare parent?) hmarkers cs

namespace Sample.Override

/-- The source of an override. -/
def source : Source.Struct where
  name := "Override"
  shape := .fields
    [{ name := "base", typeText := "Base"
       attributes := [{ name := "lifecycle", arguments := .list [.word "parent"] }] },
     { name := "name", typeText := "String"
       attributes := [{ name := "configuration", arguments := .list [.text "override.name"] }] },
     { name := "tags", typeText := "Vec < String >", reach := .everywhere
       attributes := [{ name := "doc", arguments := .value "At least one." },
         { name := "configuration" }] },
     { name := "inits", typeText := "u32" },
     { name := "warms", typeText := "u32" }]
  attributes :=
    [{ name := "lifecycle"
       arguments := .list [.word "hooks", .mark ',' false, .word "name", .mark '=' false,
         .text "zoo::Override", .mark ',' false, .word "implements",
         .group .round [.text "zoo::Closeable"]] },
     { name := "resources"
       arguments := .list [.text "primary", .mark ',' false, .text "replica"] }]

/-- The method of an override that changes it. -/
def method (name : String) (reach : Reach) (attributes : List Attribute) : BlockMethod where
  signature := { name, parameters := [{ form := .receiver .exclusive }] }
  reach := reach
  attributes := attributes

/-- The block with the hooks of an override. -/
def block : HookBlock where
  selfType := "Override"
  items :=
    [.method (method "init" .inherited [{ name := "post_construct" }]),
     .method (method "reset" .everywhere []),
     .constant "LIMIT" [],
     .method (method "start" .everywhere [{ name := "post_construct" }, { name := "warm_up" }])]

def description : Description where
  name := "Override"
  typeName? := some "zoo::Override"
  markers := [{ kind := .resources, entries := ["primary", "replica"] }]
  parent? := some ⟨"base", "Base"⟩
  implements := [.named "zoo::Closeable"]
  hooked := true
  fields := (overrideComponent "zoo").fields

def expansion : Expansion where
  selfType := "Override"
  items := block.items.map (·.bare)
  hooks := overrideHooks.map Hook.described

theorem describe_source : source.describe = .ok description := by decide +kernel

theorem expand_block : block.expand = .ok expansion := by rfl

theorem realizes : (overrideComponent "zoo").Realizes "zoo" description expansion where
  typeName_eq := rfl
  markers_eq := rfl
  hooked_eq := rfl
  fields_eq := rfl
  hooks_eq := rfl

def loader : FiniteLoader world := loaderOf [] []

/-- A struct whose parent has a hook of the same name, and the metadata of both. -/
theorem extract_tellsOwn_override :
    ∃ m, (extract loader ((overrideComponent "zoo").declare (some .base)) { policy := .all }).1 =
        .ok m ∧
      m.TellsOwn "zoo::Override" source block ∧
      (m.fields .configuration).map (·.id.label) =
        ["zoo::Override::name", "zoo::Override::tags"] ∧
      (m.methods .postConstruct).map (·.id.label) =
        ["zoo::Override::init", "zoo::Override::start"] := by
  have hm : (extract loader ((overrideComponent "zoo").declare (some .base)) { policy := .all }).1 =
      .ok (loader.draft ((overrideComponent "zoo").declare (some .base))).metadata :=
    extract_eq_ok_iff.mpr ⟨by decide, rfl⟩
  refine ⟨_, hm, extract_tellsOwn describe_source rfl expand_block (by decide) realizes hm, ?_, ?_⟩
  · decide
  · decide

end Sample.Override

end ComponentHooks
