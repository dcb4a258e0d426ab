import ComponentHooks.Source.Statement
import Mathlib.Data.List.Infix
import Mathlib.Tactic.SplitIfs

/-!
# What readers leave

A reader takes tokens from the front, so what it leaves is the end of what it was given. The readers
from which others are put together keep this, and paths are read by such readers only.

* `Tail.LeavesEnd`, `Reader.LeavesEnd`: what is left is the end of what was there;
* `Nested.LeavesEnd`: this holds for what is nested in a path;
* **`path_suffix`**: it holds for paths.
-/

namespace ComponentHooks.Source

variable {α β σ : Type}

/-- What the tail leaves is the end of what it was given. -/
class Tail.LeavesEnd (t : Tail α) : Prop where
  suffix : ∀ {ts a rest}, t.read ts = .ok (a, rest) → rest <:+ ts

/-- What the reader leaves is the end of what it was given. -/
class Reader.LeavesEnd (r : Reader α) : Prop where
  suffix : ∀ {ts a rest}, r.read ts = .ok (a, rest) → rest <:+ ts

/-! ## Sequences and choices -/

namespace Tail

instance (a : α) : (done a).LeavesEnd where
  suffix h := by
    cases h
    exact List.suffix_rfl

instance (f : Fault) : (fail f : Tail α).LeavesEnd := ⟨nofun⟩

instance (t : Tail α) (f : α → Tail β) [ht : t.LeavesEnd] [hf : ∀ a, (f a).LeavesEnd] :
    (t.next f).LeavesEnd where
  suffix h := by
    obtain ⟨a, mid, hread, hnext⟩ := chain_eq_ok_iff.1 h
    exact ((hf a).suffix hnext).trans (ht.suffix hread)

instance (a : α) : (pure a : Tail α).LeavesEnd := inferInstanceAs (done a).LeavesEnd

instance LeavesEnd.bind (t : Tail α) (f : α → Tail β) [t.LeavesEnd] [∀ a, (f a).LeavesEnd] :
    (t >>= f).LeavesEnd := inferInstanceAs (t.next f).LeavesEnd

instance (f : α → β) (t : Tail α) [t.LeavesEnd] : (t.map f).LeavesEnd :=
  inferInstanceAs (t.next fun a => done (f a)).LeavesEnd

instance LeavesEnd.look (f : List Token → Tail α) [hf : ∀ ts, (f ts).LeavesEnd] :
    (look f).LeavesEnd where
  suffix h := (hf _).suffix h

instance (t : Tail α) (f : α → Reader β) [ht : t.LeavesEnd] [hf : ∀ a, (f a).LeavesEnd] :
    (t.before f).LeavesEnd where
  suffix h := by
    obtain ⟨a, mid, hread, hnext⟩ := chain_eq_ok_iff.1 h
    exact ((hf a).suffix hnext).trans (ht.suffix hread)

-- What stands inside a group is not looked at: the tokens behind the group are left in any case.
instance (inner : List Token) (t : Tail α) : (within inner t).LeavesEnd where
  suffix h := by
    obtain ⟨p, -, he⟩ := map_eq_ok_iff.1 h
    cases he
    exact List.suffix_rfl

instance (c : Prop) [Decidable c] (t u : Tail α) [ht : t.LeavesEnd] [hu : u.LeavesEnd] :
    (if c then t else u).LeavesEnd := by
  split
  · exact ht
  · exact hu

end Tail

namespace Reader

instance (r : Reader α) [hr : r.LeavesEnd] : r.tail.LeavesEnd := ⟨hr.suffix⟩

instance (r : Reader α) [r.LeavesEnd] : (liftM r : Tail α).LeavesEnd :=
  inferInstanceAs r.tail.LeavesEnd

instance LeavesEnd.next (r : Reader α) (f : α → Tail β) [hr : r.LeavesEnd]
    [hf : ∀ a, (f a).LeavesEnd] : (r.next f).LeavesEnd where
  suffix h := by
    obtain ⟨a, mid, hread, hnext⟩ := chain_eq_ok_iff.1 h
    exact ((hf a).suffix hnext).trans (hr.suffix hread)

instance (f : α → β) (r : Reader α) [r.LeavesEnd] : (r.map f).LeavesEnd :=
  inferInstanceAs (r.next fun a => .done (f a)).LeavesEnd

instance (f : List Token → Reader α) [hf : ∀ ts, (f ts).LeavesEnd] : (look f).LeavesEnd where
  suffix h := (hf _).suffix h

instance (f : List Token → Fault) : (fail f : Reader α).LeavesEnd := ⟨nofun⟩

instance (r : Reader α) [hr : r.LeavesEnd] : r.withTokens.LeavesEnd where
  suffix h := by
    obtain ⟨p, hread, he⟩ := map_eq_ok_iff.1 h
    cases he
    exact hr.suffix hread

instance (c : Prop) [Decidable c] (r s : Reader α) [hr : r.LeavesEnd] [hs : s.LeavesEnd] :
    (if c then r else s).LeavesEnd := by
  split
  · exact hr
  · exact hs

end Reader

instance (goesOn : σ → List Token → Bool) (step : σ → Reader σ) (s : σ)
    [hstep : ∀ s, (step s).LeavesEnd] : (Tail.loop goesOn step s).LeavesEnd where
  suffix {ts a rest} h := by
    change Reader.iterate goesOn step s ts = _ at h
    fun_induction Reader.iterate goesOn step s ts with
    | case1 => cases h
    | case2 s ts _ s' mid hread ih => exact (ih h).trans ((hstep s).suffix hread)
    | case3 =>
      cases h
      exact List.suffix_rfl

/-! ## Single tokens -/

instance (w : Wanted) (f : Token → Option α) : (single w f).LeavesEnd where
  suffix {ts a rest} h := by
    cases ts with
    | nil => cases h
    | cons t ts =>
      unfold single at h
      dsimp only at h
      split at h
      · cases h
        exact List.suffix_cons t _
      · cases h

instance : identifier.LeavesEnd where
  suffix {ts a rest} h := by
    unfold identifier at h
    dsimp only at h
    split at h
    · cases h
    · split_ifs at h
      cases h
      exact List.suffix_cons _ _
    · cases h

theorem afterMarks_suffix {c : Char} {cs : List Char} {ts rest : List Token}
    (h : afterMarks c cs ts = some rest) : rest <:+ ts := by
  fun_induction afterMarks c cs ts with
  | case1 =>
    cases h
    exact List.suffix_cons _ _
  | case3 _ _ _ _ ih => exact (ih h).trans (List.suffix_cons _ _)
  | _ => cases h

instance (s : String) : (mark s).LeavesEnd where
  suffix {ts a rest} h := by
    unfold mark after at h
    dsimp only at h
    split at h
    · rename_i hafter
      cases h
      split at hafter
      · cases hafter
      · exact afterMarks_suffix hafter
    · cases h

instance (b : Bracket) : (group b).LeavesEnd := inferInstanceAs (single _ _).LeavesEnd

instance : parentheses.LeavesEnd := inferInstanceAs (group _).LeavesEnd

/-! ## Phrases -/

instance (t u : Tail Phrase) [t.LeavesEnd] [u.LeavesEnd] : (t ++ u).LeavesEnd :=
  inferInstanceAs (t.next fun x => u.next fun y => .done (x ++ y)).LeavesEnd

instance (r : Reader Phrase) (t : Tail Phrase) [r.LeavesEnd] [t.LeavesEnd] : (r ++ t).LeavesEnd :=
  inferInstanceAs (r.next fun x => t.next fun y => .done (x ++ y)).LeavesEnd

instance (r s : Reader Phrase) [r.LeavesEnd] [s.LeavesEnd] : (r ++ s).LeavesEnd :=
  inferInstanceAs (r ++ s.tail : Reader Phrase).LeavesEnd

instance (t : Tail Phrase) (r : Reader Phrase) [t.LeavesEnd] [r.LeavesEnd] : (t ++ r).LeavesEnd :=
  inferInstanceAs (t.before fun x => r.map (x ++ ·)).LeavesEnd

instance : blank.LeavesEnd := inferInstanceAs (Tail.done _).LeavesEnd

instance (present : List Token → Bool) (r : Reader Phrase) [r.LeavesEnd] :
    (optional present r).LeavesEnd := by
  unfold optional
  infer_instance

instance (s : String) : (sign s).LeavesEnd := by
  unfold sign
  infer_instance

instance (word : String) : (keyword word).LeavesEnd := by
  unfold keyword
  infer_instance

instance : anyWord.LeavesEnd := by
  unfold anyWord
  infer_instance

instance : name.LeavesEnd := by
  unfold name
  infer_instance

instance : lifetime.LeavesEnd := by
  unfold lifetime
  infer_instance

instance (w : Wanted) : (anyToken w).LeavesEnd := by
  unfold anyToken
  infer_instance

instance : anyGroup.LeavesEnd := by
  unfold anyGroup
  infer_instance

instance : literal.LeavesEnd := by
  unfold literal
  infer_instance

instance (s : String) : (optionalSign s).LeavesEnd := by
  unfold optionalSign
  infer_instance

instance (word : String) : (optionalWord word).LeavesEnd := by
  unfold optionalWord
  infer_instance

instance (r : Reader Phrase) [r.LeavesEnd] : r.asWritten.LeavesEnd := by
  unfold Reader.asWritten
  infer_instance

instance (b : Bracket) (t more : Tail Phrase) [more.LeavesEnd] : (holding b t more).LeavesEnd := by
  unfold holding
  infer_instance

instance (b : Bracket) (t : Tail Phrase) : (inside b t).LeavesEnd := by
  unfold inside
  infer_instance

instance (goesOn : List Token → Bool) (r : Reader Phrase) [r.LeavesEnd] :
    (several goesOn r).LeavesEnd := by
  unfold several
  infer_instance

instance (separator : String) (stop : List Token → Bool) (r : Reader Phrase) [r.LeavesEnd] :
    (items separator stop r).LeavesEnd := by
  unfold items
  infer_instance

instance (separator : String) (stop : List Token → Bool) (r : Reader Phrase) [r.LeavesEnd] :
    (separated separator stop r).LeavesEnd := by
  unfold separated
  infer_instance

instance (comma : Reader Phrase) (r : Reader (Bool × Phrase)) [comma.LeavesEnd] [r.LeavesEnd] :
    (angled comma r).LeavesEnd := by
  unfold angled sortedItems
  infer_instance

instance : segmentWord.LeavesEnd := by
  unfold segmentWord
  infer_instance

instance : captured.LeavesEnd := by
  unfold captured
  infer_instance

instance : optionalColons.LeavesEnd := by
  unfold optionalColons
  infer_instance

instance (goesOn : List Token → Bool) (segment : Reader Segment) (p : Path) [segment.LeavesEnd] :
    (Path.more goesOn segment p).LeavesEnd := by
  unfold Path.more
  infer_instance

instance (goesOn : List Token → Bool) (first later : Reader Segment) [first.LeavesEnd]
    [later.LeavesEnd] : (Path.reader goesOn first later).LeavesEnd := by
  unfold Path.reader
  infer_instance

/-! ## Paths -/

namespace Nested

/-- What stands in a path outside of groups leaves the end of what it was given. -/
class LeavesEnd (g : Nested) : Prop where
  type : ∀ plus, (g.type plus).LeavesEnd
  bound : g.bound.LeavesEnd
  parameter : g.parameter.LeavesEnd

variable (g : Nested)

instance : g.constant.LeavesEnd := by
  unfold constant body
  infer_instance

instance : g.attributePhrase.LeavesEnd := by
  unfold attributePhrase attributes annotation
  infer_instance

variable [hg : g.LeavesEnd]

instance (plus : Bool) : (g.type plus).LeavesEnd := hg.type plus

instance : g.bound.LeavesEnd := hg.bound

instance : g.parameter.LeavesEnd := hg.parameter

/-- What follows a type depends on what kind of type it is. -/
instance (r : Reader Written) (f : Written → Tail α) [r.LeavesEnd]
    [hpath : ∀ p, (f (.path p)).LeavesEnd] [htrait : ∀ x y, (f (.trait x y)).LeavesEnd]
    [hother : ∀ x, (f (.other x)).LeavesEnd] : (r.next f).LeavesEnd := by
  have hf : ∀ t, (f t).LeavesEnd
    | .path p => hpath p
    | .trait x y => htrait x y
    | .other x => hother x
  infer_instance

instance (plus : Bool) : (g.typePhrase plus).LeavesEnd := by
  unfold typePhrase
  infer_instance

instance (plus : Bool) : (g.output plus).LeavesEnd := by
  unfold output
  infer_instance

set_option synthInstance.maxSize 256 in
instance : g.argument.LeavesEnd := by
  unfold argument
  infer_instance

instance (opens : List Token → Bool) : (g.segment opens).LeavesEnd := by
  unfold segment arguments
  infer_instance

instance : g.pathToType.LeavesEnd := by
  unfold pathToType pathWith
  infer_instance

instance (opens : List Token → Bool) : (g.qualifiedPath opens).LeavesEnd := by
  unfold qualifiedPath
  infer_instance

/-! ### Bounds and parameters -/

instance : g.binder.LeavesEnd := by
  unfold binder
  infer_instance

instance : g.call.LeavesEnd := by
  unfold call
  infer_instance

instance (constants : Bool) : (constness constants).LeavesEnd := by
  unfold constness
  infer_instance

instance : g.pathToTrait.LeavesEnd := by
  unfold pathToTrait
  infer_instance

instance (constants : Bool) : (g.trait constants).LeavesEnd := by
  unfold trait optionalBinder
  infer_instance

instance (captures constants : Bool) : (g.boundOf captures constants).LeavesEnd := by
  unfold boundOf
  infer_instance

instance (captures constants : Bool) (x : Bool × Phrase) :
    (g.moreBounds captures constants x).LeavesEnd := by
  unfold moreBounds
  infer_instance

instance : g.dueBounds.LeavesEnd := by
  unfold dueBounds
  infer_instance

instance (plus captures constants : Bool) (m : Misuse) :
    (g.bounds plus captures constants m).LeavesEnd := by
  unfold bounds
  infer_instance

instance (stop : List Token → Bool) (r : Reader Phrase) [r.LeavesEnd] :
    (constraint stop r).LeavesEnd := by
  unfold constraint
  infer_instance

instance : g.parameterOf.LeavesEnd := by
  unfold parameterOf typeParameter lifetimeParameter constantParameter
  infer_instance

/-! ### Types -/

instance (plus : Bool) (binder? : Option Phrase) : (g.pathType plus binder?).LeavesEnd := by
  unfold pathType
  infer_instance

instance : builtin.LeavesEnd := by
  unfold builtin groupPhrase
  infer_instance

instance (plus : Bool) : (g.boundType plus).LeavesEnd := by
  unfold boundType
  infer_instance

instance (plus : Bool) : (g.enclosedType plus).LeavesEnd := by
  unfold enclosedType enclosedBounds
  refine @Reader.LeavesEnd.next _ _ _ _ _ fun inner => ?_
  split_ifs
  · infer_instance
  · infer_instance
  · infer_instance
  · -- What follows the parentheses depends on whether one trait alone stands in them.
    refine @Tail.LeavesEnd.bind _ _ _ _ _ fun ⟨⟨t, more⟩, left⟩ => ?_
    refine @Tail.LeavesEnd.look _ _ fun ts => ?_
    split <;> infer_instance

instance (plus : Bool) : (g.dynamicType plus).LeavesEnd := by
  unfold dynamicType
  infer_instance

instance : g.functionType.LeavesEnd := by
  unfold functionType convention
  infer_instance

instance : g.pointerType.LeavesEnd := by
  unfold pointerType
  infer_instance

instance : g.referenceType.LeavesEnd := by
  unfold referenceType optionalLifetime
  infer_instance

instance : g.sliceType.LeavesEnd := by
  unfold sliceType
  infer_instance

instance (plus : Bool) : (g.typeOf plus).LeavesEnd := by
  unfold typeOf
  infer_instance

end Nested

instance (n : Nat) : (deep n).LeavesEnd := by
  induction n with
  | zero =>
    exact { type := fun _ => inferInstanceAs (Reader.fail _).LeavesEnd
            bound := inferInstanceAs (Reader.fail _).LeavesEnd
            parameter := inferInstanceAs (Reader.fail _).LeavesEnd }
  | succ n ih =>
    exact { type := fun plus => inferInstanceAs ((deep n).typeOf plus).LeavesEnd
            bound := inferInstanceAs (((deep n).boundOf false true).map (·.2)).LeavesEnd
            parameter := inferInstanceAs (deep n).parameterOf.LeavesEnd }

instance : path.LeavesEnd := by
  unfold path Nested.throughout
  infer_instance

/-- **A path is taken from the front**, and what follows it is left as it is. -/
theorem path_suffix {ts rest : List Token} {p : Path} (h : path.read ts = .ok (p, rest)) :
    rest <:+ ts :=
  Reader.LeavesEnd.suffix h

end ComponentHooks.Source
