import ComponentHooks.Proofs.Json.Compact
import ComponentHooks.Proofs.Settings.Groups

/-!
# Settings are read as they are written

A text gives settings as an object or an array, and so it does with the groups in them. Members
stand in any order and among members of other names, and what has its default may be left out.

* `Json.Given`: a setting that is written, or left out where it has its default;
* `Settings.InText`: the text gives the settings;
* `Settings.onMachine`: settings whose number of workers is known;
* `Settings.render`: the text with every member, in the order of the fields;
* **`Settings.ofJson?_of_inTree`**: a tree is read as the settings that it gives;
* `Json.givesGroup_objectTree`, `Settings.inText_render`: the text with every member gives its
  settings;
* **`Settings.ofText_of_inText`**: so every text that gives settings is read as these.
-/

namespace ComponentHooks

open Json

/-! ## Values -/

namespace Json

/-- The setting is written, or left out where it has its default. -/
inductive Given {α : Type} (W : α → Json → Prop) (default a : α) : Option Json → Prop where
  | left (h : a = default) : Given W default a none
  | written {j : Json} (h : W a j) : Given W default a (some j)

/-- The tree writes a number, or is null for none. -/
inductive WritesOptional : Option UInt64 → Json → Prop where
  | none : WritesOptional none .null
  | some {n : UInt64} {j : Json} (h : WritesNumber n j) : WritesOptional (some n) j

/-- The tree writes the number that there is. -/
inductive WritesSome : Option UInt64 → Json → Prop where
  | mk {n : UInt64} {j : Json} (h : WritesNumber n j) : WritesSome (some n) j

/-- The tree is the policy's name, or an object with this name and null. -/
inductive NamesPolicy (p : BindPolicy) : Json → Prop where
  | name {ps : List Piece} (h : decode? ps = some p.name.toList) : NamesPolicy p (.string ps)
  | object {ps : List Piece} (h : decode? ps = some p.name.toList) :
    NamesPolicy p (.object [(ps, .null)])

theorem optional?_of_writesOptional {n? : Option UInt64} {j : Json} (h : WritesOptional n? j) :
    optional? j = some n? := by
  cases h with
  | none => rfl
  | some h => exact optional?_of_writesNumber h

theorem policy?_of_namesPolicy {p : BindPolicy} {j : Json} (h : NamesPolicy p j) :
    policy? j = some p := by
  cases h with
  | name h => exact policy?_of_writesPolicy ⟨h⟩
  | object h =>
    rw [policy?, policyName?, h]
    exact BindPolicy.ofName?_eq_some_iff.mpr String.ofList_toList

theorem orDefault_of_given {α : Type} {W : α → Json → Prop} {default a : α} {j? : Option Json}
    (h : Given W default a j?) {read? : Json → Option α}
    (hread : ∀ {j}, W a j → read? j = some a) : orDefault read? default j? = some a := by
  cases h with
  | left h => exact congrArg some h.symm
  | written h => exact hread h

end Json

/-! ## Trees and texts -/

/-- The tree gives the settings of the metadata cache. -/
inductive MetadataCacheSettings.InTree (s : MetadataCacheSettings) : Json → Prop where
  | mk {initial max idle : Option Json} {j : Json}
    (hinitial : Given WritesNumber ({} : MetadataCacheSettings).initialCapacity s.initialCapacity
      initial)
    (hmax : Given WritesNumber ({} : MetadataCacheSettings).maxCapacity s.maxCapacity max)
    (hidle : Given WritesOptional none s.idleSeconds idle)
    (h : GivesGroup [("initial_capacity", initial), ("max_capacity", max),
      ("time_to_idle_secs", idle)] j) : InTree s j

/-- The tree gives the settings of the handle table. -/
inductive HandleTableSettings.InTree (s : HandleTableSettings) : Json → Prop where
  | mk {initial : Option Json} {j : Json}
    (hinitial : Given WritesNumber ({} : HandleTableSettings).initialCapacity s.initialCapacity
      initial)
    (h : GivesGroup [("initial_capacity", initial)] j) : InTree s j

namespace Settings

/-- The tree gives the settings, where so many workers are the default. -/
inductive InTree (workers : Option UInt64) (s : Settings) : Json → Prop where
  | mk {cache handles policy threads : Option Json} {j : Json}
    (hcache : Given MetadataCacheSettings.InTree {} s.metadataCache cache)
    (hhandles : Given HandleTableSettings.InTree {} s.handleTable handles)
    (hpolicy : Given NamesPolicy .all s.bindPolicy policy)
    (hthreads : Given WritesSome workers s.preloadThreads threads)
    (h : GivesGroup [("metadata_cache", cache), ("handle_cache", handles),
      ("bind_policy", policy), ("preload_threads", threads)] j) : InTree workers s j

/-- The text gives the settings, where so many workers are the default. -/
def InText (workers : Option UInt64) (s : Settings) (text : String) : Prop :=
  ∃ j, DocumentText j text.toList ∧ s.InTree workers j

/-- The settings on a machine with so many processors: their workers are counted by default. -/
def onMachine (processors : UInt64) (s : Settings) : Settings :=
  { s with preloadThreads := some (s.preloadThreads.getD processors) }

end Settings

/-! ## Reading -/

theorem MetadataCacheSettings.ofJson?_of_inTree {s : MetadataCacheSettings} {j : Json}
    (h : s.InTree j) : MetadataCacheSettings.ofJson? j = some s := by
  obtain ⟨hinitial, hmax, hidle, h⟩ := h
  have hgroup := group?_of_givesGroup (by simp) h
  simp only [List.map_cons, List.map_nil] at hgroup
  rw [MetadataCacheSettings.ofJson?, hgroup]
  simp only [Option.bind_eq_bind, Option.bind_some,
    orDefault_of_given hinitial number?_of_writesNumber,
    orDefault_of_given hmax number?_of_writesNumber,
    orDefault_of_given hidle optional?_of_writesOptional]

theorem HandleTableSettings.ofJson?_of_inTree {s : HandleTableSettings} {j : Json}
    (h : s.InTree j) : HandleTableSettings.ofJson? j = some s := by
  obtain ⟨hinitial, h⟩ := h
  have hgroup := group?_of_givesGroup (by simp) h
  simp only [List.map_cons, List.map_nil] at hgroup
  rw [HandleTableSettings.ofJson?, hgroup]
  simp only [Option.bind_eq_bind, Option.bind_some,
    orDefault_of_given hinitial number?_of_writesNumber]

namespace Settings

variable {workers : Option UInt64} {s : Settings}

theorem exists_threads {n? : Option UInt64} {threads : Option Json}
    (h : Given WritesSome workers n? threads) :
    ∃ t, orDefault (fun v => (number? v).map some) none threads = some t ∧
      (t = n? ∧ t ≠ none ∨ t = none ∧ n? = workers) := by
  cases h with
  | left h => exact ⟨none, rfl, .inr ⟨rfl, h⟩⟩
  | written h =>
    cases h with
    | @mk n j h =>
      have hread := congrArg (Option.map some) (number?_of_writesNumber h)
      exact ⟨some n, hread, .inl ⟨rfl, Option.some_ne_none n⟩⟩

/-- **A tree is read as the settings that it gives.** -/
theorem ofJson?_of_inTree {j : Json} (h : s.InTree workers j) :
    ∃ t, ofJson? j = some { s with preloadThreads := t } ∧
      (t = s.preloadThreads ∧ t ≠ none ∨ t = none ∧ s.preloadThreads = workers) := by
  obtain ⟨hcache, hhandles, hpolicy, hthreads, h⟩ := h
  obtain ⟨t, ht, hcases⟩ := exists_threads hthreads
  have hgroup := group?_of_givesGroup (by simp) h
  simp only [List.map_cons, List.map_nil] at hgroup
  refine ⟨t, ?_, hcases⟩
  rw [ofJson?, hgroup]
  simp only [Option.bind_eq_bind, Option.bind_some,
    orDefault_of_given hcache MetadataCacheSettings.ofJson?_of_inTree,
    orDefault_of_given hhandles HandleTableSettings.ofJson?_of_inTree,
    orDefault_of_given hpolicy policy?_of_namesPolicy, ht]

theorem fault?_eq_none_of_threads {t : Option UInt64} (hvalid : s.fault? = none)
    (ht : t = s.preloadThreads ∨ t = none) : { s with preloadThreads := t }.fault? = none := by
  rcases ht with rfl | rfl
  · exact hvalid
  · rw [fault?] at hvalid ⊢
    split at hvalid
    · cases hvalid
    split at hvalid
    · cases hvalid
    rename_i hmax hidle
    rw [if_neg hmax, if_neg hidle, if_neg (by simp)]

theorem exists_ofText {text : String} (hvalid : s.fault? = none) (h : s.InText workers text) :
    ∃ t, ofText text = .ok { s with preloadThreads := t } ∧
      (t = s.preloadThreads ∧ t ≠ none ∨ t = none ∧ s.preloadThreads = workers) := by
  obtain ⟨j, hj, htree⟩ := h
  obtain ⟨t, ht, hcases⟩ := ofJson?_of_inTree htree
  have hfault : { s with preloadThreads := t }.fault? = none :=
    fault?_eq_none_of_threads hvalid (hcases.imp And.left And.left)
  refine ⟨t, ?_, hcases⟩
  rw [ofText, parse?_of_documentText hj, Option.bind_some, ht]
  simp only [checked, hfault]

end Settings

/-! ## Trees that give settings -/

namespace Json

theorem givesGroup_objectTree (es : List (String × Option Json)) :
    GivesGroup es (objectTree es) := by
  have hdecode : (membersTree (written es)).mapM decodeMember? = some (present es) := by
    induction es with
    | nil => rfl
    | cons e es ih =>
      obtain ⟨k, v?⟩ := e
      cases v? with
      | none => exact ih
      | some v =>
        have hm : decodeMember? (plainPieces k, v) = some (k.toList, v) := by
          rw [decodeMember?, plainPieces, decode?_map_char, Option.map_some]
        change ((plainPieces k, v) :: membersTree (written es)).mapM decodeMember? = _
        rw [List.mapM_cons, hm, ih]
        rfl
  have hperm : (present es).Perm (present es ++ []) := by
    rw [List.append_nil]
  exact .object hdecode hperm (by simp)

theorem writesNumber_numberTree (n : UInt64) : WritesNumber n (numberTree n) :=
  ⟨Text.decimal_toDigits _⟩

theorem writesOptional_optionalTree (n? : Option UInt64) :
    WritesOptional n? (optionalTree n?) := by
  cases n? with
  | none => exact .none
  | some n => exact .some (writesNumber_numberTree n)

end Json

/-! ## The text with every member -/

namespace MetadataCacheSettings

variable (s : MetadataCacheSettings)

def text : List Char :=
  objectText [("initial_capacity", some (numberText s.initialCapacity)),
    ("max_capacity", some (numberText s.maxCapacity)),
    ("time_to_idle_secs", some (optionalText s.idleSeconds))]

def tree : Json :=
  objectTree [("initial_capacity", some (numberTree s.initialCapacity)),
    ("max_capacity", some (numberTree s.maxCapacity)),
    ("time_to_idle_secs", some (optionalTree s.idleSeconds))]

theorem valueText_tree : ValueText s.tree s.text :=
  objectText_writes
    (.cons (.mk "initial_capacity" (by decide) (.some (valueText_numberTree _)))
      (.cons (.mk "max_capacity" (by decide) (.some (valueText_numberTree _)))
        (.cons (.mk "time_to_idle_secs" (by decide) (.some (valueText_optionalTree _))) .nil)))

theorem inTree_tree : s.InTree s.tree :=
  .mk (.written (writesNumber_numberTree _)) (.written (writesNumber_numberTree _))
    (.written (writesOptional_optionalTree _)) (givesGroup_objectTree _)

end MetadataCacheSettings

namespace HandleTableSettings

variable (s : HandleTableSettings)

def text : List Char := objectText [("initial_capacity", some (numberText s.initialCapacity))]

def tree : Json := objectTree [("initial_capacity", some (numberTree s.initialCapacity))]

theorem valueText_tree : ValueText s.tree s.text :=
  objectText_writes
    (.cons (.mk "initial_capacity" (by decide) (.some (valueText_numberTree _))) .nil)

theorem inTree_tree : s.InTree s.tree :=
  .mk (.written (writesNumber_numberTree _)) (givesGroup_objectTree _)

end HandleTableSettings

namespace Settings

variable (s : Settings)

/-- The settings as an object with every member, in the order of the fields and without blanks. Only
a number of workers that is not known is left out. -/
def render : String :=
  String.ofList (objectText [("metadata_cache", some s.metadataCache.text),
    ("handle_cache", some s.handleTable.text), ("bind_policy", some (quoted s.bindPolicy.name)),
    ("preload_threads", s.preloadThreads.map numberText)])

def tree : Json :=
  objectTree [("metadata_cache", some s.metadataCache.tree),
    ("handle_cache", some s.handleTable.tree),
    ("bind_policy", some (.string (plainPieces s.bindPolicy.name))),
    ("preload_threads", s.preloadThreads.map numberTree)]

theorem documentText_tree : DocumentText s.tree s.render.toList := by
  have hpolicy : s.bindPolicy.name.toList.all isPlain = true := by
    cases s.bindPolicy <;> decide
  have hthreads : Option.Rel ValueText (s.preloadThreads.map numberTree)
      (s.preloadThreads.map numberText) := by
    cases s.preloadThreads with
    | none => exact .none
    | some n => exact .some (valueText_numberTree n)
  have hvalue := objectText_writes
    (.cons (.mk "metadata_cache" (by decide) (.some s.metadataCache.valueText_tree))
      (.cons (.mk "handle_cache" (by decide) (.some s.handleTable.valueText_tree))
        (.cons (.mk "bind_policy" (by decide) (.some (valueText_quoted hpolicy)))
          (.cons (.mk "preload_threads" (by decide) hthreads) .nil))))
  have hdocument := DocumentText.mk blanks_nil hvalue blanks_nil
  rw [List.nil_append, List.append_nil] at hdocument
  rw [render, String.toList_ofList]
  exact hdocument

theorem inTree_tree : s.InTree none s.tree := by
  have hthreads : Given WritesSome none s.preloadThreads (s.preloadThreads.map numberTree) := by
    cases s.preloadThreads with
    | none => exact .left rfl
    | some n => exact .written ⟨writesNumber_numberTree n⟩
  have hpolicy : decode? (plainPieces s.bindPolicy.name) = some s.bindPolicy.name.toList :=
    decode?_map_char _
  exact .mk (.written s.metadataCache.inTree_tree) (.written s.handleTable.inTree_tree)
    (.written (.name hpolicy)) hthreads (givesGroup_objectTree _)

/-- **The text with every member gives its settings.** -/
theorem inText_render : s.InText none s.render := ⟨s.tree, s.documentText_tree, s.inTree_tree⟩

example : render { bindPolicy := .exposedOnly, preloadThreads := some 4 } =
    "\x7b\"metadata_cache\":\x7b\"initial_capacity\":8192,\"max_capacity\":65536," ++
      "\"time_to_idle_secs\":null\x7d,\"handle_cache\":\x7b\"initial_capacity\":32768\x7d," ++
        "\"bind_policy\":\"public_only\",\"preload_threads\":4\x7d" := by cbv

variable {s}

/-- **Settings are read as they are written.** -/
theorem ofText_of_inText (hvalid : s.fault? = none) :
    (∀ (processors : UInt64) (text : String), s.InText (some processors) text →
      ∃ t, ofText text = .ok t ∧ t.onMachine processors = s) ∧ ofText s.render = .ok s := by
  refine ⟨fun processors text htext => ?_, ?_⟩
  · obtain ⟨t, ht, hcases⟩ := exists_ofText hvalid htext
    have hthreads : some (t.getD processors) = s.preloadThreads := by
      rcases hcases with ⟨rfl, hne⟩ | ⟨rfl, hworkers⟩
      · obtain ⟨n, hn⟩ := Option.ne_none_iff_exists'.mp hne
        rw [hn, Option.getD_some]
      · exact hworkers.symm
    refine ⟨_, ht, ?_⟩
    rw [onMachine, hthreads]
  · obtain ⟨t, ht, hcases⟩ := exists_ofText hvalid s.inText_render
    have hthreads : t = s.preloadThreads := hcases.elim And.left fun h => h.1.trans h.2.symm
    rw [ht, hthreads]

namespace Sample

/-- On eight processors the last member would be eight workers. -/
def small : Settings :=
  { metadataCache := { maxCapacity := 7 }, bindPolicy := .disabled, preloadThreads := some 8 }

def document : String :=
  "\x7b\"note\":[null,\x7b\x7d],\n\"bind_policy\":\x7b\"disabled\":null\x7d,\"metadata_cache\":[8192,7 ]\x7d"

theorem small_inText : small.InText (some 8) document := by
  have hline : Blanks ['\n'] := List.all_eq_true.mp rfl
  have hspace : Blanks [' '] := List.all_eq_true.mp rfl
  have hname (name : String) (h : name.toList.all isPlain = true) :
      StringText (plainPieces name) (name.toList ++ ['"']) :=
    stringText_plain (List.all_eq_true.mp h)
  have hnote : ValueText (.array [.null, .object []])
      ('[' :: ([] ++ (['n', 'u', 'l', 'l'] ++ ([] ++ ',' :: ([] ++ (['{', '}'] ++ ([] ++ [']']))))))) :=
    .array (.more blanks_nil .null blanks_nil (.last blanks_nil (.emptyObject blanks_nil) blanks_nil))
  have hpolicy : ValueText (.object [(plainPieces "disabled", .null)])
      ('{' :: ([] ++ '"' :: (("disabled".toList ++ ['"']) ++ ([] ++ ':' ::
        ([] ++ (['n', 'u', 'l', 'l'] ++ ([] ++ ['}']))))))) :=
    .object (.last blanks_nil (hname _ (by decide)) blanks_nil blanks_nil .null blanks_nil)
  have hcache : ValueText (.array [numberTree 8192, numberTree 7])
      ('[' :: ([] ++ (numberText 8192 ++ ([] ++ ',' :: ([] ++ (numberText 7 ++ ([' '] ++ [']'])))))))  :=
    .array (.more blanks_nil (valueText_numberTree _) blanks_nil
      (.last blanks_nil (valueText_numberTree _) hspace))
  refine ⟨_, .mk blanks_nil (.object (.more blanks_nil (hname "note" (by decide)) blanks_nil
    blanks_nil hnote blanks_nil (.more hline (hname "bind_policy" (by decide)) blanks_nil blanks_nil
      hpolicy blanks_nil (.last blanks_nil (hname "metadata_cache" (by decide)) blanks_nil
        blanks_nil hcache blanks_nil)))) blanks_nil, ?_⟩
  let note : List Char × Json := ("note".toList, .array [.null, .object []])
  let policy : List Char × Json := ("bind_policy".toList, .object [(plainPieces "disabled", .null)])
  let cache : List Char × Json := ("metadata_cache".toList, .array [numberTree 8192, numberTree 7])
  have hdecode : [(plainPieces "note", note.2), (plainPieces "bind_policy", policy.2),
      (plainPieces "metadata_cache", cache.2)].mapM decodeMember? = some [note, policy, cache] := rfl
  have hperm : [note, policy, cache].Perm ([cache, policy] ++ [note]) :=
    List.reverse_perm [cache, policy, note]
  exact .mk
    (.written (.mk (.written (writesNumber_numberTree _)) (.written (writesNumber_numberTree _))
      (.left rfl) (.array (k := 1) rfl)))
    (.left rfl) (.written (.object (decode?_map_char _))) (.left rfl)
    (.object hdecode hperm (by simp [note]))

theorem ofText_of_inText_small :
    (∃ t, ofText document = .ok t ∧ t.onMachine 8 = small) ∧ ofText small.render = .ok small :=
  ⟨(ofText_of_inText rfl).1 8 document small_inText, (ofText_of_inText rfl).2⟩

end Sample

end Settings

end ComponentHooks
