import ComponentHooks.Proofs.Source.Clauses

/-!
# Options in several attributes

The options of a struct stand in any number of attributes, and say what they would say in one.

* `joined`, **`clauseRow_terminated_append_iff`**, `exists_clauseList_joined_iff`: lists of options
  in one list;
* `Options.Says`, `Options.merge`: what options say together, and what further attributes add;
* **`reads_options`**: which options are read, and what is read of them.
-/

namespace ComponentHooks.Source

variable {ts us : List Token} {cs : List Clause}

/-! ## Several lists in one -/

/-- The tokens with a comma behind them, unless there are none or a comma is the last. -/
def terminated (ts : List Token) : List Token :=
  if ts.getLast?.all Token.isComma then ts else ts ++ [.mark ',' false]

def joined (parts : List (List Token)) : List Token := parts.flatMap terminated

theorem Clause.IsWritten.exists_mid {c : Clause} {ws vs : List Token} {joint : Bool}
    (h : c.IsWritten ws) (he : ts ++ .mark ',' joint :: us = ws ++ vs) :
    ∃ mid, ts = ws ++ mid ∧ vs = mid ++ .mark ',' joint :: us := by
  rcases List.append_eq_append_iff.mp he with ⟨mid, rfl, hmid⟩ | ⟨mid, hts, hvs⟩
  · cases mid with
    | nil => exact ⟨[], by simp, hmid.symm⟩
    | cons t mid =>
      cases hmid
      have hcomma := h.isComma_eq_false (.mark ',' joint) (by simp)
      cases hcomma
  · exact ⟨mid, hts, hvs⟩

namespace ClauseRow

theorem append {ds : List Clause} (h : ClauseRow ts cs) (h' : ClauseRow us ds) :
    ClauseRow (ts ++ us) (cs ++ ds) := by
  induction h with
  | nil => exact h'
  | bare head tail ih =>
    rw [List.append_assoc]
    exact .bare head ih
  | closed joint head tail ih =>
    rw [List.append_assoc]
    exact .closed joint head ih

theorem terminated (h : ClauseRow ts cs) : ClauseRow (terminated ts) cs := by
  unfold Source.terminated
  split_ifs with hlast
  · exact h
  · -- The last token is no comma, so the last option has none behind it yet.
    induction h with
    | nil => cases hlast rfl
    | @bare c us ts cs head tail ih =>
      rw [List.append_assoc]
      by_cases hts : ts = []
      · subst hts
        exact .closed false head tail
      · rw [List.getLast?_append_of_ne_nil _ hts] at hlast
        exact .bare head (ih hlast)
    | @closed c us ts cs joint head tail ih =>
      rw [List.append_assoc]
      by_cases hts : ts = []
      · subst hts
        exact absurd (by simp [Token.isComma]) hlast
      · rw [List.getLast?_append_of_ne_nil _ (List.cons_ne_nil _ _),
          ← List.singleton_append, List.getLast?_append_of_ne_nil _ hts] at hlast
        exact .closed joint head (ih hlast)

/-- **A comma in a row stands between two rows.** The first one may keep the comma. -/
theorem split {joint : Bool} (h : ClauseRow (ts ++ .mark ',' joint :: us) cs) :
    ∃ front behind, cs = front ++ behind ∧ ClauseRow ts front ∧
      ClauseRow (ts ++ [.mark ',' joint]) front ∧ ClauseRow us behind := by
  generalize hvs : ts ++ .mark ',' joint :: us = vs at h
  induction h generalizing ts with
  | nil => simp at hvs
  | bare head tail ih =>
    obtain ⟨mid, rfl, rfl⟩ := head.exists_mid hvs
    obtain ⟨front, behind, rfl, hrow, hclosed, hbehind⟩ := ih rfl
    refine ⟨_ :: front, behind, rfl, .bare head hrow, ?_, hbehind⟩
    rw [List.append_assoc]
    exact .bare head hclosed
  | closed joint' head tail ih =>
    obtain ⟨mid, rfl, hmid⟩ := head.exists_mid hvs
    cases mid with
    | nil =>
      cases hmid
      rw [List.append_nil]
      exact ⟨[_], _, rfl, .single head, .closed joint head .nil, tail⟩
    | cons t mid =>
      cases hmid
      obtain ⟨front, behind, rfl, hrow, hclosed, hbehind⟩ := ih rfl
      refine ⟨_ :: front, behind, rfl, .closed joint' head hrow, ?_, hbehind⟩
      rw [List.append_assoc]
      exact .closed joint' head hclosed

end ClauseRow

/-- **Two rows in one**: each option stands in one of them. -/
theorem clauseRow_terminated_append_iff :
    ClauseRow (terminated ts ++ us) cs ↔
      ∃ front behind, cs = front ++ behind ∧ ClauseRow ts front ∧ ClauseRow us behind := by
  constructor
  · intro h
    unfold terminated at h
    split_ifs at h with hlast
    · cases hfront : ts.getLast? with
      | none =>
        obtain rfl := List.getLast?_eq_none_iff.mp hfront
        exact ⟨[], cs, rfl, .nil, h⟩
      | some t =>
        obtain ⟨ts', rfl⟩ := List.getLast?_eq_some_iff.mp hfront
        rw [hfront] at hlast
        obtain ⟨joint, rfl⟩ := Token.isComma_iff.mp hlast
        rw [List.append_assoc] at h
        obtain ⟨front, behind, rfl, -, hclosed, hbehind⟩ := h.split
        exact ⟨front, behind, rfl, hclosed, hbehind⟩
    · rw [List.append_assoc] at h
      obtain ⟨front, behind, rfl, hrow, -, hbehind⟩ := h.split
      exact ⟨front, behind, rfl, hrow, hbehind⟩
  · rintro ⟨front, behind, rfl, hts, hus⟩
    exact hts.terminated.append hus

theorem isSeparated_terminated_append_iff :
    IsSeparated (terminated ts ++ us) ↔ IsSeparated ts ∧ IsSeparated us := by
  unfold terminated
  split_ifs with hlast
  · rw [isSeparated_append_iff]
    refine and_congr_right fun _ => and_iff_left ?_
    intro t ht u hu hword
    rw [Option.mem_def.mp ht] at hlast
    exact hlast
  · rw [List.append_assoc]
    exact isSeparated_closed_iff

theorem exists_clauseList_joined_iff {parts : List (List Token)} :
    (∃ cs, ClauseList (joined parts) cs) ↔ ∀ ts ∈ parts, ∃ cs, ClauseList ts cs := by
  induction parts with
  | nil => exact ⟨fun _ => nofun, fun _ => ⟨[], .nil⟩⟩
  | cons ts parts ih =>
    rw [List.forall_mem_cons, ← ih]
    simp only [joined, List.flatMap_cons, clauseList_iff, clauseRow_terminated_append_iff,
      isSeparated_terminated_append_iff]
    constructor
    · rintro ⟨_, ⟨front, behind, rfl, hts, hparts⟩, hseparated, hseparated'⟩
      exact ⟨⟨front, hts, hseparated⟩, behind, hparts, hseparated'⟩
    · rintro ⟨⟨front, hts, hseparated⟩, behind, hparts, hseparated'⟩
      exact ⟨front ++ behind, ⟨front, behind, rfl, hts, hparts⟩, hseparated, hseparated'⟩

/-! ## What options say -/

/-- What the options in a list say together. -/
structure Options.Says (o : Options) (cs : List Clause) : Prop where
  hooked_iff : o.hooked = true ↔ .hooks ∈ cs
  /-- Of several type names the last one counts. -/
  typeName?_eq_some_iff : ∀ s, o.typeName? = some s ↔
    ∃ before behind, cs = before ++ .name s :: behind ∧ ∀ c ∈ behind, ∀ s', c ≠ .name s'
  implements_eq : o.implements = cs.flatMap Clause.interfaces

theorem Clause.typeName?_eq_some_iff {c : Clause} {s : String} :
    c.typeName? = some s ↔ c = .name s := by
  cases c <;> simp [typeName?]

theorem getLast?_typeNames_eq_some_iff {s : String} :
    (cs.filterMap Clause.typeName?).getLast? = some s ↔
      ∃ before behind, cs = before ++ .name s :: behind ∧ ∀ c ∈ behind, ∀ s', c ≠ .name s' := by
  have hnone : ∀ behind : List Clause, behind.filterMap Clause.typeName? = [] ↔
      ∀ c ∈ behind, ∀ s', c ≠ .name s' := by
    intro behind
    simp only [List.filterMap_eq_nil_iff, Option.eq_none_iff_forall_ne_some, ne_eq,
      Clause.typeName?_eq_some_iff]
  rw [List.getLast?_eq_some_iff]
  constructor
  · rintro ⟨names, h⟩
    obtain ⟨before, rest, rfl, -, hrest⟩ := List.filterMap_eq_append_iff.mp h
    obtain ⟨skipped, c, behind, rfl, -, hc, hbehind⟩ := List.filterMap_eq_cons_iff.mp hrest
    obtain rfl := Clause.typeName?_eq_some_iff.mp hc
    exact ⟨before ++ skipped, behind, by simp, (hnone behind).mp hbehind⟩
  · rintro ⟨before, behind, rfl, hbehind⟩
    refine ⟨before.filterMap Clause.typeName?, ?_⟩
    rw [List.filterMap_append, List.filterMap_cons, (hnone behind).mpr hbehind]
    rfl

namespace Options

theorem says_iff {o : Options} : o.Says cs ↔ ofClauses cs = o := by
  have hcs : (ofClauses cs).Says cs :=
    { hooked_iff := List.contains_iff_mem
      typeName?_eq_some_iff := fun s => getLast?_typeNames_eq_some_iff
      implements_eq := rfl }
  constructor
  · intro h
    obtain ⟨hooked, typeName?, implements⟩ := o
    have hhooked : (ofClauses cs).hooked = hooked :=
      Bool.eq_iff_iff.mpr (hcs.hooked_iff.trans h.hooked_iff.symm)
    have htypeName : (ofClauses cs).typeName? = typeName? :=
      Option.ext fun s => (hcs.typeName?_eq_some_iff s).trans (h.typeName?_eq_some_iff s).symm
    have himplements : (ofClauses cs).implements = implements := h.implements_eq.symm
    rw [← hhooked, ← htypeName, ← himplements]
  · rintro rfl
    exact hcs

/-- The options with those of further attributes. -/
def merge (o p : Options) : Options where
  hooked := o.hooked || p.hooked
  typeName? := p.typeName?.or o.typeName?
  implements := o.implements ++ p.implements

theorem ofClauses_append (cs ds : List Clause) :
    ofClauses (cs ++ ds) = (ofClauses cs).merge (ofClauses ds) := by
  simp [ofClauses, merge, List.getLast?_append]

end Options

/-! ## Attributes -/

/-- The attribute with these options. -/
def Attribute.ofOptions (ts : List Token) : Attribute :=
  { name := "lifecycle", arguments := .list ts }

theorem Attribute.eq_ofOptions {a : Attribute} (ha : a.isOptions = true) (h : a.options = .ok ts) :
    a = .ofOptions ts := by
  obtain ⟨name, arguments⟩ := a
  obtain rfl : name = "lifecycle" := of_decide_eq_true ha
  cases arguments with
  | list ts' =>
    cases h
    rfl
  | _ => cases h

theorem readClauses_append (as bs : List Attribute) :
    readClauses (as ++ bs) = do
      let cs ← readClauses as
      let ds ← readClauses bs
      return cs ++ ds := by
  induction as with
  | nil => exact (bind_pure (readClauses bs)).symm
  | cons a as ih =>
    rw [List.cons_append, readClauses, readClauses]
    split_ifs
    · simp only [ih, bind_assoc, pure_bind, List.append_assoc]
    · exact ih

theorem readClauses_filter (as : List Attribute) :
    readClauses (as.filter (·.isOptions)) = readClauses as := by
  induction as with
  | nil => rfl
  | cons a as ih =>
    rw [List.filter_cons]
    by_cases ha : a.isOptions = true
    · rw [if_pos ha, readClauses, readClauses, if_pos ha, if_pos ha, ih]
    · rw [if_neg ha, readClauses, if_neg ha, ih]

theorem exists_parts_of_readClauses {as : List Attribute} (h : readClauses as = .ok cs) :
    ∃ parts : List (List Token), as.filter (·.isOptions) = parts.map .ofOptions := by
  induction as generalizing cs with
  | nil => exact ⟨[], rfl⟩
  | cons a as ih =>
    rw [readClauses] at h
    rw [List.filter_cons]
    split_ifs at h ⊢ with ha
    · obtain ⟨ts, hts, h⟩ := bind_eq_ok_iff.mp h
      obtain ⟨front, -, h⟩ := bind_eq_ok_iff.mp h
      obtain ⟨behind, hbehind, -⟩ := bind_eq_ok_iff.mp h
      obtain ⟨parts, hparts⟩ := ih hbehind
      exact ⟨ts :: parts, by rw [hparts, List.map_cons, Attribute.eq_ofOptions ha hts]⟩
    · exact ih h

theorem readClauses_ofOptions_cons (ts : List Token) (as : List Attribute) :
    readClauses (.ofOptions ts :: as) = do
      let cs ← clauses ts
      let ds ← readClauses as
      return cs ++ ds := rfl

theorem readClauses_singleton_iff : readClauses [.ofOptions ts] = .ok cs ↔ ClauseRow ts cs := by
  rw [← clauses_eq_ok_iff, readClauses_ofOptions_cons]
  cases clauses ts with
  | error e => exact ⟨nofun, nofun⟩
  | ok ds =>
    change Except.ok (ds ++ []) = _ ↔ _
    rw [List.append_nil]

/-- **Options in several attributes** are read as if they stood in one. -/
theorem readClauses_map_ofOptions_iff {parts : List (List Token)} :
    readClauses (parts.map .ofOptions) = .ok cs ↔ ClauseRow (joined parts) cs := by
  induction parts generalizing cs with
  | nil =>
    constructor
    · intro h
      cases h
      exact .nil
    · intro h
      rw [h.eq_nil]
      rfl
  | cons ts parts ih =>
    rw [joined, List.flatMap_cons, clauseRow_terminated_append_iff, List.map_cons,
      readClauses_ofOptions_cons]
    constructor
    · intro h
      obtain ⟨front, hfront, h⟩ := bind_eq_ok_iff.mp h
      obtain ⟨behind, hbehind, h⟩ := bind_eq_ok_iff.mp h
      cases h
      exact ⟨front, behind, rfl, clauses_eq_ok_iff.mp hfront, ih.mp hbehind⟩
    · rintro ⟨front, behind, rfl, hfront, hbehind⟩
      rw [clauses_eq_ok_iff.mpr hfront, ih.mpr hbehind]
      rfl

theorem readOptions_eq_ok_iff {as : List Attribute} {o : Options} :
    readOptions as = .ok o ↔ ∃ cs, readClauses as = .ok cs ∧ o.Says cs := by
  simp only [readOptions, map_eq_ok_iff, Options.says_iff]

theorem readOptions_singleton_iff {o : Options} :
    readOptions [.ofOptions ts] = .ok o ↔ ∃ cs, ClauseRow ts cs ∧ o.Says cs := by
  simp only [readOptions_eq_ok_iff, readClauses_singleton_iff]

theorem exists_readOptions_singleton_iff :
    (∃ o, readOptions [.ofOptions ts] = .ok o) ↔ ∃ cs, ClauseRow ts cs := by
  simp only [readOptions_singleton_iff]
  constructor
  · rintro ⟨_, cs, hrow, -⟩
    exact ⟨cs, hrow⟩
  · rintro ⟨cs, hrow⟩
    exact ⟨_, cs, hrow, Options.says_iff.mpr rfl⟩

theorem readOptions_eq_ok_iff_joined {as : List Attribute} {o : Options} :
    readOptions as = .ok o ↔ ∃ parts : List (List Token),
      as.filter (·.isOptions) = parts.map .ofOptions ∧
        readOptions [.ofOptions (joined parts)] = .ok o := by
  simp only [readOptions_eq_ok_iff, readClauses_singleton_iff]
  constructor
  · rintro ⟨cs, hcs, ho⟩
    obtain ⟨parts, hparts⟩ := exists_parts_of_readClauses hcs
    rw [← readClauses_filter, hparts, readClauses_map_ofOptions_iff] at hcs
    exact ⟨parts, hparts, cs, hcs, ho⟩
  · rintro ⟨parts, hparts, cs, hcs, ho⟩
    rw [← readClauses_map_ofOptions_iff, ← hparts, readClauses_filter] at hcs
    exact ⟨cs, hcs, ho⟩

theorem readOptions_append (as bs : List Attribute) :
    readOptions (as ++ bs) = do
      let o ← readOptions as
      let p ← readOptions bs
      return o.merge p := by
  simp only [readOptions, readClauses_append]
  cases readClauses as with
  | error e => rfl
  | ok cs =>
    cases readClauses bs with
    | error e => rfl
    | ok ds => exact congrArg Except.ok (Options.ofClauses_append cs ds)

/-! ## What is read -/

/-- **The options of a struct.** In one attribute they are read exactly if they stand in a row, and
then what they say is read. A list of options is a row in which every word but the first stands
behind a comma, so just the rows that are not separated are read and are no lists. In several
attributes options are read as if they stood in one, which has a list of options exactly if all of
them have; and those of further attributes are added to those before. -/
theorem reads_options (ts : List Token) (parts : List (List Token)) (as bs : List Attribute) :
    (∀ o, readOptions [.ofOptions ts] = .ok o ↔ ∃ cs, ClauseRow ts cs ∧ o.Says cs) ∧
      (∀ cs, ClauseList ts cs ↔ ClauseRow ts cs ∧ IsSeparated ts) ∧
      (((∃ o, readOptions [.ofOptions ts] = .ok o) ↔ ∃ cs, ClauseList ts cs) ↔
        ∀ cs, ClauseRow ts cs → IsSeparated ts) ∧
      (∀ o, readOptions as = .ok o ↔ ∃ lists : List (List Token),
        as.filter (·.isOptions) = lists.map .ofOptions ∧
          readOptions [.ofOptions (joined lists)] = .ok o) ∧
      ((∃ cs, ClauseList (joined parts) cs) ↔ ∀ us ∈ parts, ∃ cs, ClauseList us cs) ∧
      readOptions (as ++ bs) = do
        let o ← readOptions as
        let p ← readOptions bs
        return o.merge p := by
  refine ⟨fun o => readOptions_singleton_iff, fun cs => clauseList_iff, ?_,
    fun o => readOptions_eq_ok_iff_joined, exists_clauseList_joined_iff, readOptions_append as bs⟩
  rw [exists_readOptions_singleton_iff]
  simp only [clauseList_iff]
  constructor
  · intro h cs hrow
    obtain ⟨_, _, hseparated⟩ := h.mp ⟨cs, hrow⟩
    exact hseparated
  · exact fun h => exists_congr fun cs => (and_iff_left_of_imp (h cs)).symm

namespace Sample

/-- The options of a mailer, in two lists. -/
def mailerOptions : List (List Token) :=
  [[.word "hooks", .mark ',' false, .word "implements", .group .round [.text "app::Sender"]],
    [.word "name", .mark '=' false, .text "app::Mailer", .mark ',' false,
      .word "implements", .group .round [.text "app::Closer", .mark ',' false]]]

theorem reads_options_mailer :
    readOptions (mailerOptions.map .ofOptions) = .ok
      { hooked := true, typeName? := some "app::Mailer"
        implements := [.named "app::Sender", .named "app::Closer"] } := by
  have hsender : SupertypeList [.text "app::Sender"] [.named "app::Sender"] := .last (.named rfl)
  have hcloser : SupertypeList ([.text "app::Closer"] ++ .mark ',' false :: [])
      [.named "app::Closer"] := .more false (.named rfl) .nil
  have hrow : ClauseRow (joined mailerOptions) [.hooks, .implements [.named "app::Sender"],
      .name "app::Mailer", .implements [.named "app::Closer"]] :=
    .closed false .hooks (.closed false (.implements hsender)
      (.closed false (.name false rfl) (.closed false (.implements hcloser) .nil)))
  obtain ⟨hreads, -, -, hjoins, -⟩ :=
    reads_options (joined mailerOptions) mailerOptions (mailerOptions.map .ofOptions) []
  exact (hjoins _).mpr ⟨mailerOptions, rfl, (hreads _).mpr ⟨_, hrow, Options.says_iff.mpr rfl⟩⟩

/-- Two options with no comma between them are let through. -/
theorem not_forall_separated :
    ¬ ∀ ts : List Token, (∃ o, readOptions [.ofOptions ts] = .ok o) ↔ ∃ cs, ClauseList ts cs := by
  intro h
  have hrow : ClauseRow [.word "hooks", .word "name", .mark '=' false, .text "app::Mailer"]
      [.hooks, .name "app::Mailer"] := .bare .hooks (.bare (.name false rfl) .nil)
  obtain ⟨cs, hcs⟩ := (h _).mp (exists_readOptions_singleton_iff.mpr ⟨_, hrow⟩)
  have hseparated := (clauseList_iff.mp hcs).2
  simp [IsSeparated, Token.isWord, Token.isComma] at hseparated

end Sample

end ComponentHooks.Source
