import ComponentHooks.Proofs.Json.Grammar
import ComponentHooks.Proofs.Settings.Groups
import ComponentHooks.Settings.Variables

/-!
# Variables and texts agree

One selection of settings is written twice, once in variables and once as an object. Both are read
as the same settings, or refused for the same reason.

* `Selection`, `Selection.settings`: settings that are given, and the defaults for the others;
* `Selection.InVariables`, `Selection.InText`: the selection in variables and in a text;
* `Selection.ofVariables_eq`, `Selection.ofText_eq`: each is read as the settings it selects;
* **`Selection.ofVariables_eq_ofText`**: so both are read alike.
-/

namespace ComponentHooks

open Json

/-- Settings that are given, each for itself. -/
structure Selection where
  metadataInitialCapacity : Option UInt64 := none
  metadataMaxCapacity : Option UInt64 := none
  metadataIdleSeconds : Option UInt64 := none
  handleInitialCapacity : Option UInt64 := none
  bindPolicy : Option BindPolicy := none
  preloadThreads : Option UInt64 := none

namespace Selection

/-- The defaults with the selection in their place, whether or not they satisfy the rules. -/
def settings (sel : Selection) : Settings where
  metadataCache :=
    let d : MetadataCacheSettings := {}
    { initialCapacity := sel.metadataInitialCapacity.getD d.initialCapacity
      maxCapacity := sel.metadataMaxCapacity.getD d.maxCapacity
      idleSeconds := sel.metadataIdleSeconds }
  handleTable :=
    let d : HandleTableSettings := {}
    { initialCapacity := sel.handleInitialCapacity.getD d.initialCapacity }
  bindPolicy := sel.bindPolicy.getD .all
  preloadThreads := sel.preloadThreads

end Selection

theorem eq_none_of_rel {α β : Type} {W : α → β → Prop} {a? : Option α} {b? : Option β}
    (h : Option.Rel W a? b?) (hb : b? = none) : a? = none := by
  subst hb
  cases h
  rfl

theorem getD_map_some {α : Type} (a? : Option α) : (a?.map some).getD none = a? := by
  cases a? <;> rfl

/-! ## Variables -/

/-- The text of a variable writes the number. -/
inductive WritesNumeral (n : UInt64) (raw : String) : Prop where
  | mk {sign cs : List Char} (hsign : sign = [] ∨ sign = ['+']) (h : Text.Decimal n.toNat cs)
    (hraw : Text.Padded (sign ++ cs) raw.toList)

/-- The text of a variable is the policy's name, with blanks around it. -/
def WritesName (p : BindPolicy) (raw : String) : Prop := Text.Padded p.name.toList raw.toList

theorem readNumeral_of_writesNumeral {n : UInt64} {raw : String} (h : WritesNumeral n raw) :
    Text.readNumeral (Text.trim raw.toList) = .ok n := by
  obtain ⟨hsign, h, hraw⟩ := h
  rename_i sign cs
  have hblank : ∀ c ∈ sign ++ cs, Text.isBlank c = false := by
    intro c hc
    rcases List.mem_append.mp hc with hc | hc
    · rcases hsign with rfl | rfl
      · cases hc
      · rw [List.mem_singleton.mp hc]
        rfl
    · exact Text.isBlank_of_isDigit (h.digits c hc)
  rw [Text.trim_of_padded hblank hraw, Text.readNumeral_of_decimal hsign h]

theorem readNumber_of_writesNumeral {n : UInt64} {raw : String} (h : WritesNumeral n raw)
    (store : UInt64 → Settings) :
    Variable.readNumber (Text.trim raw.toList) store = .ok (store n) := by
  rw [Variable.readNumber, readNumeral_of_writesNumeral h]

theorem ofName?_of_writesName {p : BindPolicy} {raw : String} (h : WritesName p raw) :
    BindPolicy.ofName? (String.ofList (Text.trim raw.toList)) = some p := by
  have hany : p.name.toList.any Text.isBlank = false := by cases p <;> decide
  have hblank : ∀ c ∈ p.name.toList, Text.isBlank c = false := by simpa using hany
  rw [Text.trim_of_padded hblank h]
  exact BindPolicy.ofName?_eq_some_iff.mpr String.ofList_toList

theorem read_of_writesName {p : BindPolicy} {raw : String} (h : WritesName p raw) (s : Settings) :
    Variable.bindPolicy.read (Text.trim raw.toList) s = .ok { s with bindPolicy := p } := by
  rw [Variable.read, ofName?_of_writesName h]

theorem override_of_rel {α β : Type} {W : α → String → Prop} (v : Variable)
    (get : Settings → β) (put : β → Settings → Settings) (f : α → β) (hput : ∀ s, put (get s) s = s)
    (hread : ∀ {a raw}, W a raw → ∀ s, v.read (Text.trim raw.toList) s = .ok (put (f a) s))
    {lookup : String → Option String} {a? : Option α} (h : Option.Rel W a? (lookup v.name))
    (s : Settings) :
    Variable.override lookup s v = .ok (put ((a?.map f).getD (get s)) s) := by
  rw [Variable.override]
  generalize lookup v.name = raw? at h
  cases h with
  | none => exact congrArg Except.ok (hput s).symm
  | some h =>
    simp only
    rw [hread h]
    rfl

namespace Selection

/-- The variables hold the selection; those of settings that are not given are not set. -/
structure InVariables (sel : Selection) (lookup : String → Option String) : Prop where
  metadataInitialCapacity : Option.Rel WritesNumeral sel.metadataInitialCapacity
    (lookup Variable.metadataInitialCapacity.name)
  metadataMaxCapacity : Option.Rel WritesNumeral sel.metadataMaxCapacity
    (lookup Variable.metadataMaxCapacity.name)
  metadataIdleSeconds : Option.Rel WritesNumeral sel.metadataIdleSeconds
    (lookup Variable.metadataIdleSeconds.name)
  handleInitialCapacity : Option.Rel WritesNumeral sel.handleInitialCapacity
    (lookup Variable.handleInitialCapacity.name)
  bindPolicy : Option.Rel WritesName sel.bindPolicy (lookup Variable.bindPolicy.name)
  preloadThreads : Option.Rel WritesNumeral sel.preloadThreads (lookup Variable.preloadThreads.name)

variable {sel : Selection}

/-- **Variables are read as the settings they select.** -/
theorem ofVariables_eq {lookup : String → Option String} (h : sel.InVariables lookup) :
    Settings.ofVariables lookup = sel.settings.checked := by
  obtain ⟨hinitial, hmax, hidle, hhandle, hpolicy, hthreads⟩ := h
  have hinitial := override_of_rel .metadataInitialCapacity (·.metadataCache.initialCapacity)
    (fun n s => { s with metadataCache := { s.metadataCache with initialCapacity := n } }) id
    (fun _ => rfl) (fun h s => readNumber_of_writesNumeral h _) hinitial
  have hmax := override_of_rel .metadataMaxCapacity (·.metadataCache.maxCapacity)
    (fun n s => { s with metadataCache := { s.metadataCache with maxCapacity := n } }) id
    (fun _ => rfl) (fun h s => readNumber_of_writesNumeral h _) hmax
  have hidle := override_of_rel .metadataIdleSeconds (·.metadataCache.idleSeconds)
    (fun n s => { s with metadataCache := { s.metadataCache with idleSeconds := n } }) some
    (fun _ => rfl) (fun h s => readNumber_of_writesNumeral h _) hidle
  have hhandle := override_of_rel .handleInitialCapacity (·.handleTable.initialCapacity)
    (fun n s => { s with handleTable := { s.handleTable with initialCapacity := n } }) id
    (fun _ => rfl) (fun h s => readNumber_of_writesNumeral h _) hhandle
  have hpolicy := override_of_rel .bindPolicy (·.bindPolicy)
    (fun p s => { s with bindPolicy := p }) id (fun _ => rfl) read_of_writesName hpolicy
  have hthreads := override_of_rel .preloadThreads (·.preloadThreads)
    (fun n s => { s with preloadThreads := n }) some
    (fun _ => rfl) (fun h s => readNumber_of_writesNumeral h _) hthreads
  have hall : Variable.all.foldlM (Variable.override lookup) {} = .ok sel.settings := by
    simp only [Variable.all, List.foldlM_cons, List.foldlM_nil, hinitial, hmax, hidle, hhandle,
      hpolicy, hthreads, bind, Except.bind, pure, Except.pure, Option.map_id, id_eq, getD_map_some]
    rfl
  rw [Settings.ofVariables, hall]
  rfl

/-! ## Texts -/

/-- A group is left out with all its members, or written. -/
inductive WrittenGroup (es : List (String × Option Json)) : Option Json → Prop where
  | left (h : ∀ e ∈ es, e.2 = none) : WrittenGroup es none
  | written {j : Json} (h : WritesGroup es j) : WrittenGroup es (some j)

/-- The tree writes the selection: it is an object with members for the settings that are given, in
any order, and objects for their groups. -/
inductive InTree (sel : Selection) : Json → Prop where
  | mk {initial max idle cache handle handles policy threads : Option Json} {j : Json}
    (hinitial : Option.Rel WritesNumber sel.metadataInitialCapacity initial)
    (hmax : Option.Rel WritesNumber sel.metadataMaxCapacity max)
    (hidle : Option.Rel WritesNumber sel.metadataIdleSeconds idle)
    (hcache : WrittenGroup [("initial_capacity", initial), ("max_capacity", max),
      ("time_to_idle_secs", idle)] cache)
    (hhandle : Option.Rel WritesNumber sel.handleInitialCapacity handle)
    (hhandles : WrittenGroup [("initial_capacity", handle)] handles)
    (hpolicy : Option.Rel WritesPolicy sel.bindPolicy policy)
    (hthreads : Option.Rel WritesNumber sel.preloadThreads threads)
    (h : WritesGroup [("metadata_cache", cache), ("handle_cache", handles),
      ("bind_policy", policy), ("preload_threads", threads)] j) : InTree sel j

/-- The text writes the selection. -/
def InText (sel : Selection) (text : String) : Prop :=
  ∃ j, DocumentText j text.toList ∧ sel.InTree j

theorem metadataCache_ofJson? {initial max idle : Option Json} {j : Json}
    (hinitial : Option.Rel WritesNumber sel.metadataInitialCapacity initial)
    (hmax : Option.Rel WritesNumber sel.metadataMaxCapacity max)
    (hidle : Option.Rel WritesNumber sel.metadataIdleSeconds idle)
    (h : WritesGroup [("initial_capacity", initial), ("max_capacity", max),
      ("time_to_idle_secs", idle)] j) :
    MetadataCacheSettings.ofJson? j = some sel.settings.metadataCache := by
  have hgroup := group?_of_writesGroup (by simp) h
  simp only [List.map_cons, List.map_nil] at hgroup
  rw [MetadataCacheSettings.ofJson?, hgroup]
  simp only [Option.bind_eq_bind, Option.bind_some, orDefault_number? hinitial,
    orDefault_number? hmax, orDefault_of_rel hidle (fun _ _ => optional?_of_writesNumber),
    getD_map_some]
  rfl

theorem handleTable_ofJson? {handle : Option Json} {j : Json}
    (hhandle : Option.Rel WritesNumber sel.handleInitialCapacity handle)
    (h : WritesGroup [("initial_capacity", handle)] j) :
    HandleTableSettings.ofJson? j = some sel.settings.handleTable := by
  have hgroup := group?_of_writesGroup (by simp) h
  simp only [List.map_cons, List.map_nil] at hgroup
  rw [HandleTableSettings.ofJson?, hgroup]
  simp only [Option.bind_eq_bind, Option.bind_some, orDefault_number? hhandle]
  rfl

theorem orDefault_of_writtenGroup {α : Type} {es : List (String × Option Json)} {g : Option Json}
    (h : WrittenGroup es g) {read? : Json → Option α} {d a : α}
    (hread : ∀ {j}, WritesGroup es j → read? j = some a) (hleft : (∀ e ∈ es, e.2 = none) → d = a) :
    orDefault read? d g = some a := by
  cases h with
  | left h => exact congrArg some (hleft h)
  | written h => exact hread h

theorem ofJson?_of_inTree {j : Json} (h : sel.InTree j) :
    Settings.ofJson? j = some sel.settings := by
  obtain ⟨hinitial, hmax, hidle, hcache, hhandle, hhandles, hpolicy, hthreads, h⟩ := h
  rename_i initial max idle cache handle handles policy threads
  have hcacheGroup := orDefault_of_writtenGroup hcache (metadataCache_ofJson? hinitial hmax hidle)
    (d := {}) fun hleft => by
      simp only [List.forall_mem_cons] at hleft
      obtain ⟨hnoInitial, hnoMax, hnoIdle, -⟩ := hleft
      simp [settings, eq_none_of_rel hinitial hnoInitial, eq_none_of_rel hmax hnoMax,
        eq_none_of_rel hidle hnoIdle]
  have hhandleGroup := orDefault_of_writtenGroup hhandles (handleTable_ofJson? hhandle)
    (d := {}) fun hleft => by
      have hnoInitial := hleft _ (List.mem_singleton_self _)
      simp [settings, eq_none_of_rel hhandle hnoInitial]
  have hworkers : orDefault (fun v => (number? v).map some) none threads =
      some sel.preloadThreads := by
    rw [orDefault_of_rel hthreads fun _ _ h => congrArg (Option.map some) (number?_of_writesNumber h)]
    exact congrArg some (getD_map_some _)
  have hgroup := group?_of_writesGroup (by simp) h
  simp only [List.map_cons, List.map_nil] at hgroup
  rw [Settings.ofJson?, hgroup]
  simp only [Option.bind_eq_bind, Option.bind_some, hcacheGroup, hhandleGroup,
    orDefault_of_rel hpolicy (f := id) (fun _ _ => policy?_of_writesPolicy),
    hworkers, Option.map_id, id_eq]
  rfl

/-- **A text is read as the settings it selects.** -/
theorem ofText_eq {text : String} (h : sel.InText text) :
    Settings.ofText text = sel.settings.checked := by
  obtain ⟨j, hj, htree⟩ := h
  rw [Settings.ofText, parse?_of_documentText hj, Option.bind_some, ofJson?_of_inTree htree]

/-! ## Agreement -/

/-- **Variables and texts agree.** Where they give the same selection, both are read as the same
settings, or refused for the same reason. -/
theorem ofVariables_eq_ofText {lookup : String → Option String} {text : String}
    (hvariables : sel.InVariables lookup) (htext : sel.InText text) :
    Settings.ofVariables lookup = Settings.ofText text ∧
      Settings.ofText text = sel.settings.checked :=
  ⟨(ofVariables_eq hvariables).trans (ofText_eq htext).symm, ofText_eq htext⟩

namespace Sample

/-- Two settings of six. -/
def two : Selection := { metadataMaxCapacity := some 7, bindPolicy := some .disabled }

def lookup (name : String) : Option String :=
  if name = "LIFEMARK_METADATA_MAX_CAPACITY" then some " +007\t"
  else if name = "LIFEMARK_BIND_POLICY" then some "disabled\n"
  else none

theorem two_inVariables : two.InVariables lookup where
  metadataInitialCapacity := .none
  metadataMaxCapacity := .some ⟨.inr rfl, (Text.decimal_toDigits 7).zeros 2,
    .mk (a := [' ']) (b := ['\t']) (List.all_eq_true.mp rfl) (List.all_eq_true.mp rfl)⟩
  metadataIdleSeconds := .none
  handleInitialCapacity := .none
  bindPolicy := .some (.mk (a := []) (b := ['\n']) nofun (List.all_eq_true.mp rfl))
  preloadThreads := .none

def document : String :=
  "\x7b \"bind_policy\" :\"disabled\",\n\"metadata_cache\":\x7b\"max_capacity\": 7\x7d \x7d"

def plain (name : String) : List Piece := name.toList.map .char

theorem two_inText : two.InText document := by
  have hspace : Blanks [' '] := List.all_eq_true.mp rfl
  have hline : Blanks ['\n'] := List.all_eq_true.mp rfl
  have hname (name : String) (h : name.toList.all isPlain = true) :
      StringText (plain name) (name.toList ++ ['"']) :=
    stringText_plain (List.all_eq_true.mp h)
  have hseven : IntegerText ['7'] :=
    ⟨⟨List.cons_ne_nil _ _, List.all_eq_true.mp rfl⟩, by rintro ds ⟨⟩⟩
  have hcache : ValueText (.object [(plain "max_capacity", .number ['7'])])
      ('{' :: ([] ++ '"' :: (("max_capacity".toList ++ ['"']) ++ ([] ++ ':' ::
        ([' '] ++ (['7'] ++ ([] ++ ['}']))))))) :=
    .object (.last blanks_nil (hname _ (by decide)) blanks_nil hspace
      (.number (.positive (.mk hseven .none .none))) blanks_nil)
  have hpolicy : ValueText (.string (plain "disabled")) ('"' :: ("disabled".toList ++ ['"'])) :=
    .string (hname _ (by decide))
  refine ⟨_, .mk blanks_nil (.object (.more hspace (hname "bind_policy" (by decide)) hspace
    blanks_nil hpolicy blanks_nil (.last hline (hname "metadata_cache" (by decide)) blanks_nil
      blanks_nil hcache hspace))) blanks_nil, ?_⟩
  have hdecode : [(plain "bind_policy", Json.string (plain "disabled")),
      (plain "metadata_cache", .object [(plain "max_capacity", .number ['7'])])].mapM decodeMember? =
      some [("bind_policy".toList, .string (plain "disabled")),
        ("metadata_cache".toList, .object [(plain "max_capacity", .number ['7'])])] := rfl
  exact .mk .none (.some ⟨Text.decimal_toDigits 7⟩) .none (.written (.mk rfl (.refl _))) .none
    (.left (by simp)) (.some ⟨rfl⟩) .none (.mk hdecode (.swap _ _ _))

theorem ofVariables_eq_ofText_two :
    Settings.ofVariables lookup = Settings.ofText document ∧
      Settings.ofText document =
        .ok { metadataCache := { maxCapacity := 7 }, bindPolicy := .disabled } :=
  ofVariables_eq_ofText two_inVariables two_inText

end Sample

end Selection

end ComponentHooks
