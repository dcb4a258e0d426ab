import ComponentHooks.Proofs.Source.Remainder
import ComponentHooks.Proofs.Source.WellFormed
import Mathlib.Data.List.Chain

/-!
# Lists of options

Which tokens write options of a struct, said without a reader of options, and which of them are
read.

* `CommaList`, `Reader.closed_all_iff`: items with commas between them, and the reader for them;
* `Supertype.Stands`, `Clause.IsWritten`: the tokens of an interface and of an option;
* `ClauseList`: options with commas between them, and perhaps one behind;
* `ClauseRow`, **`clauses_eq_ok_iff`**: options with or without commas behind them, which are the
  tokens that are read;
* `IsSeparated`, **`clauseList_iff`**: a row is a list if every word but the first stands behind a
  comma.
-/

namespace ComponentHooks.Source

/-! ## Lists with commas -/

section Lists

variable {α : Type}

/-- Items with commas between them and perhaps one behind the last. `Stands a us behind` says that
the tokens `us` write `a` where `behind` follows. -/
inductive CommaList (Stands : α → List Token → List Token → Prop) : List Token → List α → Prop where
  | nil : CommaList Stands [] []
  | last {a : α} {us : List Token} (head : Stands a us []) : CommaList Stands us [a]
  | more {a : α} {us ts : List Token} {as : List α} (joint : Bool)
    (head : Stands a us (.mark ',' joint :: ts)) (tail : CommaList Stands ts as) :
    CommaList Stands (us ++ .mark ',' joint :: ts) (a :: as)

namespace Reader

variable {r : Reader α} {ts rest : List Token} {a : α}

theorem all_eq_of_read (h : r.read ts = .ok (a, rest)) :
    r.all ts = (r.all rest).map (a :: ·) := by
  cases ts with
  | nil => exact absurd (r.shorter h) (Nat.not_lt_zero _)
  | cons t ts => exact all_of_read h

theorem next_read {β : Type} {f : α → Tail β} (h : r.read ts = .ok (a, rest)) :
    (r.next f).read ts = (f a).read rest := by
  unfold next
  dsimp only
  rw [h, chain]

theorem relaxed_read (h : r.read ts = .ok (a, rest)) :
    r.relaxed.read ts = .ok (a, skipComma rest) := by
  unfold relaxed
  dsimp only
  rw [h, chain]

theorem closed_all_iff {Q : α → Prop} {Stands : α → List Token → List Token → Prop}
    (hr : ∀ {ts rest a}, r.read ts = .ok (a, rest) ∧ Q a ↔ ∃ us, ts = us ++ rest ∧ Stands a us rest)
    {as : List α} : (r.closed.all ts = .ok as ∧ ∀ a ∈ as, Q a) ↔ CommaList Stands ts as := by
  constructor
  · rintro ⟨h, hq⟩
    fun_induction Reader.all r.closed ts generalizing as with
    | case1 =>
      cases h
      exact .nil
    | case2 => cases h
    | case3 t ts a rest hread ih =>
      obtain ⟨as, hrest, rfl⟩ := map_eq_ok_iff.1 h
      obtain ⟨ha, has⟩ := List.forall_mem_cons.mp hq
      obtain ⟨behind, hitem, hclose⟩ := closed_read_eq_ok_iff.mp hread
      obtain ⟨us, hts, hstands⟩ := hr.mp ⟨hitem, ha⟩
      rw [hts]
      rcases hclose with ⟨rfl, rfl⟩ | ⟨joint, rfl⟩
      · cases (all_nil _).symm.trans hrest
        rw [List.append_nil]
        exact .last hstands
      · exact .more joint hstands (ih hrest has)
  · intro h
    induction h with
    | nil => exact ⟨all_nil _, List.forall_mem_nil _⟩
    | @last a us head =>
      obtain ⟨hread, ha⟩ := hr.mpr ⟨us, (List.append_nil us).symm, head⟩
      have hclosed : r.closed.read us = .ok (a, []) :=
        closed_read_eq_ok_iff.mpr ⟨[], hread, .inl ⟨rfl, rfl⟩⟩
      rw [all_eq_of_read hclosed, all_nil]
      exact ⟨rfl, List.forall_mem_singleton.mpr ha⟩
    | @more a us ts as joint head tail ih =>
      obtain ⟨hread, ha⟩ := hr.mpr ⟨us, rfl, head⟩
      obtain ⟨hall, has⟩ := ih
      have hclosed : r.closed.read (us ++ .mark ',' joint :: ts) = .ok (a, ts) :=
        closed_read_eq_ok_iff.mpr ⟨_, hread, .inr ⟨joint, rfl⟩⟩
      rw [all_eq_of_read hclosed, hall]
      exact ⟨rfl, List.forall_mem_cons.mpr ⟨ha, has⟩⟩

end Reader

end Lists

variable {ts us rest : List Token} {cs : List Clause} {c : Clause}

/-! ## Interfaces -/

/-- The tokens write the interface where `behind` follows. What follows counts because a path goes
as far as it can. -/
inductive Supertype.Stands : Supertype → List Token → List Token → Prop where
  | linked {p : Path} {us behind : List Token} (reads : path.read (us ++ behind) = .ok (p, behind))
    (whole : p.overfull? = none) : Stands (.linked p) us behind
  | named {t : Token} {s : String} {behind : List Token} (text : t.text? = some s) :
    Stands (.named s) [t] behind

abbrev SupertypeList : List Token → List Supertype → Prop := CommaList Supertype.Stands

theorem startsWithText_of_path {p : Path} (h : path.read ts = .ok (p, rest)) :
    startsWithText ts = false := by
  by_contra htext
  rw [Bool.not_eq_false] at htext
  cases ts with
  | nil => cases htext
  | cons t ts =>
    cases t with
    | text s | literal sort source => cases h
    | _ => cases htext

theorem supertype_read_iff {x : Supertype} :
    supertype.read ts = .ok (x, rest) ∧ x.overfull? = none ↔
      ∃ us, ts = us ++ rest ∧ x.Stands us rest := by
  unfold supertype Reader.look
  dsimp only
  constructor
  · rintro ⟨h, hwhole⟩
    split_ifs at h with htext
    · obtain ⟨s, mid, hread, hs⟩ := chain_eq_ok_iff.1 h
      cases hs
      obtain ⟨t, rfl, ht⟩ := text_read_eq_ok_iff.mp hread
      exact ⟨[t], rfl, .named ht⟩
    · obtain ⟨p, mid, hread, hp⟩ := chain_eq_ok_iff.1 h
      cases hp
      obtain ⟨us, rfl⟩ := path_suffix hread
      exact ⟨us, rfl, .linked hread hwhole⟩
  · rintro ⟨us, rfl, hstands⟩
    cases hstands with
    | linked reads whole =>
      rw [startsWithText_of_path reads, if_neg Bool.false_ne_true]
      exact ⟨Reader.next_read reads, whole⟩
    | @named t s _ ht =>
      have htext : startsWithText ([t] ++ rest) = true := by simp [startsWithText, ht]
      rw [if_pos htext]
      exact ⟨Reader.next_read (text_read_eq_ok_iff.mpr ⟨t, rfl, ht⟩), rfl⟩

theorem parentheses_read_eq_ok_iff {inner : List Token} :
    parentheses.read ts = .ok (inner, rest) ↔ ts = .group .round inner :: rest := by
  unfold parentheses group single
  cases ts with
  | nil => simp
  | cons t ts =>
    cases t with
    | group b us => cases b <;> simp
    | _ => simp

theorem supertypes_read_iff {xs : List Supertype} :
    (supertypes.read ts = .ok (xs, rest) ∧ ∀ x ∈ xs, x.overfull? = none) ↔
      ∃ inner, ts = .group .round inner :: rest ∧ SupertypeList inner xs := by
  constructor
  · rintro ⟨h, hwhole⟩
    obtain ⟨inner, mid, hgroup, hinner⟩ := chain_eq_ok_iff.1 h
    obtain ⟨xs', hall, he⟩ := map_eq_ok_iff.1 hinner
    cases he
    exact ⟨inner, parentheses_read_eq_ok_iff.mp hgroup,
      (Reader.closed_all_iff supertype_read_iff).mp ⟨hall, hwhole⟩⟩
  · rintro ⟨inner, rfl, hlist⟩
    obtain ⟨hall, hwhole⟩ := (Reader.closed_all_iff supertype_read_iff).mpr hlist
    have hgroup : parentheses.read (.group .round inner :: rest) = .ok (inner, rest) :=
      parentheses_read_eq_ok_iff.mpr rfl
    refine ⟨?_, hwhole⟩
    unfold supertypes
    dsimp only
    rw [hgroup, chain, hall]
    rfl

/-! ## Options -/

/-- The tokens write the option. -/
inductive Clause.IsWritten : Clause → List Token → Prop where
  | hooks : IsWritten .hooks [.word "hooks"]
  | name {t : Token} {s : String} (joint : Bool) (text : t.text? = some s) :
    IsWritten (.name s) [.word "name", .mark '=' joint, t]
  | implements {inner : List Token} {xs : List Supertype} (list : SupertypeList inner xs) :
    IsWritten (.implements xs) [.word "implements", .group .round inner]

theorem identifier_read_eq_ok_iff {w : String} :
    identifier.read ts = .ok (w, rest) ↔ ts = .word w :: rest ∧ isKeyword w = false := by
  cases ts with
  | nil => simp [identifier]
  | cons t ts =>
    cases t with
    | word v =>
      by_cases hv : isKeyword v = true
      · simp only [identifier, hv, if_true]
        constructor
        · intro h
          cases h
        · rintro ⟨he, hw⟩
          cases he
          rw [hv] at hw
          cases hw
      · simp only [identifier, hv]
        constructor
        · intro h
          cases h
          exact ⟨rfl, eq_false_of_ne_true hv⟩
        · rintro ⟨he, -⟩
          cases he
          rfl
    | _ => simp [identifier]

theorem mark_equals_read_eq_ok_iff {u : Unit} :
    (mark "=").read ts = .ok (u, rest) ↔ ∃ joint, ts = .mark '=' joint :: rest := by
  have hafter : after "=" ts = afterMarks '=' [] ts := rfl
  unfold mark
  dsimp only
  rw [hafter]
  cases ts with
  | nil => simp [afterMarks]
  | cons t ts =>
    cases t with
    | mark d joint => by_cases hd : d = '=' <;> simp [afterMarks, hd]
    | _ => simp [afterMarks]

theorem clause_read_iff :
    clause.read ts = .ok (c, rest) ∧ c.overfull? = none ↔
      ∃ us, ts = us ++ rest ∧ c.IsWritten us := by
  constructor
  · rintro ⟨h, hwhole⟩
    obtain ⟨w, mid, hword, htail⟩ := chain_eq_ok_iff.1 h
    obtain ⟨rfl, -⟩ := identifier_read_eq_ok_iff.mp hword
    unfold clauseTail at htail
    split_ifs at htail with hhooks hname himplements
    · cases htail
      exact ⟨_, by rw [hhooks]; rfl, .hooks⟩
    · obtain ⟨_, behind, hmark, htail⟩ := chain_eq_ok_iff.1 htail
      obtain ⟨s, behind', htext, hs⟩ := chain_eq_ok_iff.1 htail
      cases hs
      obtain ⟨joint, rfl⟩ := mark_equals_read_eq_ok_iff.mp hmark
      obtain ⟨t, rfl, ht⟩ := text_read_eq_ok_iff.mp htext
      exact ⟨_, by rw [hname]; rfl, .name joint ht⟩
    · obtain ⟨xs, behind, hlist, hxs⟩ := chain_eq_ok_iff.1 htail
      cases hxs
      obtain ⟨inner, rfl, hinner⟩ := supertypes_read_iff.mp
        ⟨hlist, List.findSome?_eq_none_iff.mp hwhole⟩
      exact ⟨_, by rw [himplements]; rfl, .implements hinner⟩
    · cases htail
  · rintro ⟨us, rfl, hwritten⟩
    cases hwritten with
    | hooks => exact ⟨rfl, rfl⟩
    | @name t s joint ht =>
      have hmark : (mark "=").read (.mark '=' joint :: t :: rest) = .ok ((), t :: rest) :=
        mark_equals_read_eq_ok_iff.mpr ⟨joint, rfl⟩
      have htext : text.read (t :: rest) = .ok (s, rest) :=
        text_read_eq_ok_iff.mpr ⟨t, rfl, ht⟩
      have htail : (clauseTail "name").read (.mark '=' joint :: t :: rest) = .ok (.name s, rest) :=
        (Reader.next_read hmark).trans (Reader.next_read htext)
      exact ⟨htail, rfl⟩
    | @implements inner xs list =>
      obtain ⟨hread, hwhole⟩ := supertypes_read_iff.mpr ⟨inner, rfl, list⟩
      exact ⟨Reader.next_read hread, List.findSome?_eq_none_iff.mpr hwhole⟩

/-! ## Rows -/

/-- Options one after another, each with a comma behind it or without. -/
inductive ClauseRow : List Token → List Clause → Prop where
  | nil : ClauseRow [] []
  | bare {c : Clause} {us ts : List Token} {cs : List Clause} (head : c.IsWritten us)
    (tail : ClauseRow ts cs) : ClauseRow (us ++ ts) (c :: cs)
  | closed {c : Clause} {us ts : List Token} {cs : List Clause} (joint : Bool)
    (head : c.IsWritten us) (tail : ClauseRow ts cs) :
    ClauseRow (us ++ .mark ',' joint :: ts) (c :: cs)

theorem Clause.IsWritten.exists_word (h : c.IsWritten us) : ∃ w vs, us = .word w :: vs := by
  cases h <;> exact ⟨_, _, rfl⟩

namespace ClauseRow

theorem exists_word (h : ClauseRow ts cs) : ts = [] ∨ ∃ w vs, ts = .word w :: vs := by
  cases h with
  | nil => exact .inl rfl
  | bare head tail | closed _ head tail =>
    obtain ⟨w, vs, rfl⟩ := head.exists_word
    exact .inr ⟨w, _, rfl⟩

theorem eq_nil (h : ClauseRow [] cs) : cs = [] := by
  generalize hts : ([] : List Token) = ts at h
  cases h with
  | nil => rfl
  | bare head tail | closed _ head tail =>
    obtain ⟨w, vs, rfl⟩ := head.exists_word
    cases hts

/-- No comma stands in front of a row, so a comma behind an option is not taken for another one. -/
theorem skipComma_eq (h : ClauseRow ts cs) : Reader.skipComma ts = ts := by
  rcases h.exists_word with rfl | ⟨w, vs, rfl⟩ <;> rfl

theorem single (h : c.IsWritten us) : ClauseRow us [c] := by
  have hrow : ClauseRow (us ++ []) [c] := .bare h .nil
  rwa [List.append_nil] at hrow

end ClauseRow

theorem skipComma_cases (ts : List Token) :
    Reader.skipComma ts = ts ∨ ∃ joint, ts = .mark ',' joint :: Reader.skipComma ts := by
  unfold Reader.skipComma
  split
  · exact .inr ⟨_, rfl⟩
  · exact .inl rfl

theorem clause_relaxed_all_iff :
    (clause.relaxed.all ts = .ok cs ∧ ∀ c ∈ cs, c.overfull? = none) ↔ ClauseRow ts cs := by
  constructor
  · rintro ⟨h, hwhole⟩
    fun_induction Reader.all clause.relaxed ts generalizing cs with
    | case1 =>
      cases h
      exact .nil
    | case2 => cases h
    | case3 t ts c rest hread ih =>
      obtain ⟨cs, hrest, rfl⟩ := map_eq_ok_iff.1 h
      obtain ⟨hc, hcs⟩ := List.forall_mem_cons.mp hwhole
      obtain ⟨c', behind, hclause, hskip⟩ := chain_eq_ok_iff.1 hread
      cases hskip
      obtain ⟨us, hts, hwritten⟩ := clause_read_iff.mp ⟨hclause, hc⟩
      have htail := ih hrest hcs
      rw [hts]
      rcases skipComma_cases behind with hbare | ⟨joint, hclosed⟩
      · rw [hbare] at htail
        exact .bare hwritten htail
      · rw [hclosed]
        exact .closed joint hwritten htail
  · intro h
    induction h with
    | nil => exact ⟨Reader.all_nil _, List.forall_mem_nil _⟩
    | @bare c us ts cs head tail ih =>
      obtain ⟨hread, hc⟩ := clause_read_iff.mpr ⟨us, rfl, head⟩
      obtain ⟨hall, hcs⟩ := ih
      rw [Reader.all_eq_of_read (Reader.relaxed_read hread), tail.skipComma_eq, hall]
      exact ⟨rfl, List.forall_mem_cons.mpr ⟨hc, hcs⟩⟩
    | @closed c us ts cs joint head tail ih =>
      obtain ⟨hread, hc⟩ := clause_read_iff.mpr ⟨us, rfl, head⟩
      obtain ⟨hall, hcs⟩ := ih
      rw [Reader.all_eq_of_read (Reader.relaxed_read hread), Reader.skipComma, hall]
      exact ⟨rfl, List.forall_mem_cons.mpr ⟨hc, hcs⟩⟩

/-- **Options are read exactly where they stand in a row.** -/
theorem clauses_eq_ok_iff : clauses ts = .ok cs ↔ ClauseRow ts cs := by
  rw [← clause_relaxed_all_iff, ← List.findSome?_eq_none_iff, clauses]
  constructor
  · intro h
    obtain ⟨ds, hall, h⟩ := bind_eq_ok_iff.mp h
    split at h
    · cases h
    · rename_i hwhole
      cases h
      exact ⟨hall, hwhole⟩
  · rintro ⟨hall, hwhole⟩
    refine bind_eq_ok_iff.mpr ⟨cs, hall, ?_⟩
    rw [hwhole]
    rfl

/-! ## Rows that are lists -/

/-- Options with commas between them, and perhaps one behind the last. -/
abbrev ClauseList : List Token → List Clause → Prop := CommaList fun c us _ => c.IsWritten us

namespace Token

def isWord : Token → Bool
  | word _ => true
  | _ => false

def isComma : Token → Bool
  | mark ',' _ => true
  | _ => false

theorem isComma_iff {t : Token} : t.isComma = true ↔ ∃ joint, t = .mark ',' joint := by
  unfold isComma
  split
  · simp
  · rename_i hmark
    exact ⟨nofun, fun ⟨joint, ht⟩ => absurd ht (hmark joint)⟩

theorem isWord_of_text? {t : Token} {s : String} (h : t.text? = some s) : t.isWord = false := by
  cases t with
  | word w => cases h
  | _ => rfl

theorem isComma_of_text? {t : Token} {s : String} (h : t.text? = some s) : t.isComma = false := by
  cases t with
  | mark c joint => cases h
  | _ => rfl

end Token

/-- Every word but the first stands behind a comma. -/
def IsSeparated (ts : List Token) : Prop :=
  ts.IsChain fun t u => u.isWord = true → t.isComma = true

theorem isSeparated_append_iff :
    IsSeparated (ts ++ us) ↔ IsSeparated ts ∧ IsSeparated us ∧
      ∀ t ∈ ts.getLast?, ∀ u ∈ us.head?, u.isWord = true → t.isComma = true :=
  List.isChain_append

theorem isSeparated_closed_iff {joint : Bool} :
    IsSeparated (us ++ .mark ',' joint :: ts) ↔ IsSeparated us ∧ IsSeparated ts := by
  have hcomma : IsSeparated (.mark ',' joint :: ts) ↔ IsSeparated ts := by
    rw [IsSeparated, List.isChain_cons]
    exact and_iff_right fun _ _ _ => rfl
  rw [isSeparated_append_iff, hcomma]
  simp [Token.isWord]

namespace Clause.IsWritten

theorem isSeparated (h : c.IsWritten us) : IsSeparated us := by
  cases h with
  | hooks => exact .singleton _
  | name joint text =>
    have hword := Token.isWord_of_text? text
    exact .cons_cons nofun (.cons_cons (fun h => nomatch hword.symm.trans h) (.singleton _))
  | implements list => exact .cons_cons nofun (.singleton _)

theorem isComma_eq_false (h : c.IsWritten us) : ∀ t ∈ us, t.isComma = false := by
  cases h with
  | hooks => simp [Token.isComma]
  | name joint text =>
    have hcomma := Token.isComma_of_text? text
    exact List.forall_mem_cons.mpr ⟨rfl, List.forall_mem_cons.mpr
      ⟨rfl, List.forall_mem_singleton.mpr hcomma⟩⟩
  | implements list => simp [Token.isComma]

end Clause.IsWritten

/-- **A row is a list** exactly if every word but the first stands behind a comma. -/
theorem clauseList_iff : ClauseList ts cs ↔ ClauseRow ts cs ∧ IsSeparated ts := by
  constructor
  · intro h
    induction h with
    | nil => exact ⟨.nil, .nil⟩
    | last head => exact ⟨.single head, head.isSeparated⟩
    | more joint head tail ih =>
      exact ⟨.closed joint head ih.1, isSeparated_closed_iff.mpr ⟨head.isSeparated, ih.2⟩⟩
  · rintro ⟨h, hseparated⟩
    induction h with
    | nil => exact .nil
    | @bare c us ts cs head tail ih =>
      rcases tail.exists_word with rfl | ⟨w, vs, rfl⟩
      · obtain rfl := tail.eq_nil
        rw [List.append_nil]
        exact .last head
      · -- The next option would stand behind the end of this one, which is no comma.
        obtain ⟨-, -, hjoint⟩ := isSeparated_append_iff.mp hseparated
        obtain ⟨v, us', rfl⟩ := head.exists_word
        have hcomma := hjoint _ (List.getLast?_eq_some_getLast (List.cons_ne_nil _ _)) _ rfl rfl
        rw [head.isComma_eq_false _ (List.getLast_mem _)] at hcomma
        cases hcomma
    | closed joint head tail ih =>
      exact .more joint head (ih (isSeparated_closed_iff.mp hseparated).2)

end ComponentHooks.Source
