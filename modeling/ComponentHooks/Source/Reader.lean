import ComponentHooks.Source.Fault
import ComponentHooks.Source.Front

/-!
# Readers of tokens

A `Reader` takes one thing from the front of a list of tokens, and what it leaves is shorter. A
`Tail` may also take nothing. Readers and tails are put together one after another, and by a look at
what comes next.

* `Tail`, `Reader`: what they take, and that they leave no more than there was;
* `Reader.next`, `Tail.before`, `Reader.look`, `Tail.look`, `Tail.ask`: sequences and choices;
* `Tail.loop`: steps as long as a condition on the tokens holds;
* `Reader.all`: everything up to the end;
* `Reader.closed`, `Reader.relaxed`: the comma behind an item, due or optional;
* `Reader.withTokens`: what is read, with the tokens that it stands for;
* `text`, `identifier`, `mark`, `parentheses`, `group`: readers for single tokens.
-/

namespace ComponentHooks.Source

theorem map_eq_ok_iff {α β : Type} {x : Except Fault α} {f : α → β} {b : β} :
    x.map f = .ok b ↔ ∃ a, x = .ok a ∧ f a = b := by
  cases x <;> simp [Except.map]

/-- Takes something, or nothing, from the front of a list of tokens. -/
structure Tail (α : Type) where
  read : List Token → Except Fault (α × List Token)
  noLonger : ∀ {ts a rest}, read ts = .ok (a, rest) → rest.length ≤ ts.length

/-- Takes one thing from the front of a list of tokens. -/
structure Reader (α : Type) where
  read : List Token → Except Fault (α × List Token)
  shorter : ∀ {ts a rest}, read ts = .ok (a, rest) → rest.length < ts.length

variable {α β σ : Type}

/-- What a step leaves, handed on to what comes after it. -/
def chain (x : Except Fault (α × List Token))
    (f : α → List Token → Except Fault (β × List Token)) : Except Fault (β × List Token) :=
  match x with
  | .error e => .error e
  | .ok (a, rest) => f a rest

theorem chain_eq_ok_iff {x : Except Fault (α × List Token)}
    {f : α → List Token → Except Fault (β × List Token)} {r : β × List Token} :
    chain x f = .ok r ↔ ∃ a rest, x = .ok (a, rest) ∧ f a rest = .ok r := by
  cases x with
  | error e => simp [chain]
  | ok p => exact ⟨fun h => ⟨p.1, p.2, rfl, h⟩, fun ⟨_, _, hp, h⟩ => by cases hp; exact h⟩

/-! ## Tails -/

namespace Tail

/-- Takes nothing. -/
def done (a : α) : Tail α where
  read ts := .ok (a, ts)
  noLonger h := by
    obtain ⟨_, rfl⟩ := Prod.mk.inj (Except.ok.inj h)
    exact Nat.le_refl _

/-- Finds a fault. -/
def fail (f : Fault) : Tail α where
  read _ := .error f
  noLonger h := by cases h

/-- One tail behind another. -/
def next (t : Tail α) (f : α → Tail β) : Tail β where
  read ts := chain (t.read ts) fun a => (f a).read
  noLonger h := by
    obtain ⟨a, mid, ht, hf⟩ := chain_eq_ok_iff.1 h
    exact Nat.le_trans ((f a).noLonger hf) (t.noLonger ht)

instance : Monad Tail where
  pure := done
  bind := next

/-- What is read, changed. -/
def map (f : α → β) (t : Tail α) : Tail β := t.next fun a => done (f a)

/-- Looks at the tokens before it takes anything. -/
def look (f : List Token → Tail α) : Tail α where
  read ts := (f ts).read ts
  noLonger h := (f _).noLonger h

/-- Whether something holds of the tokens. -/
def ask (p : List Token → Bool) : Tail Bool := look fun ts => done (p ts)

/-- A reader behind a tail. -/
def before (t : Tail α) (f : α → Reader β) : Reader β where
  read ts := chain (t.read ts) fun a => (f a).read
  shorter h := by
    obtain ⟨a, mid, ht, hf⟩ := chain_eq_ok_iff.1 h
    exact Nat.lt_of_lt_of_le ((f a).shorter hf) (t.noLonger ht)

/-- What a tail takes from the front of other tokens, and what it leaves of them. -/
def within (inner : List Token) (t : Tail α) : Tail (α × List Token) where
  read ts := (t.read inner).map (·, ts)
  noLonger h := by
    obtain ⟨_, _, he⟩ := map_eq_ok_iff.1 h
    obtain ⟨_, rfl⟩ := Prod.mk.inj he
    exact Nat.le_refl _

end Tail

/-! ## Readers -/

namespace Reader

/-- A reader as a tail. -/
def tail (r : Reader α) : Tail α where
  read := r.read
  noLonger h := Nat.le_of_lt (r.shorter h)

instance : MonadLift Reader Tail where
  monadLift := tail

/-- A tail behind a reader. -/
def next (r : Reader α) (f : α → Tail β) : Reader β where
  read ts := chain (r.read ts) fun a => (f a).read
  shorter h := by
    obtain ⟨a, mid, hr, hf⟩ := chain_eq_ok_iff.1 h
    exact Nat.lt_of_le_of_lt ((f a).noLonger hf) (r.shorter hr)

/-- What is read, changed. -/
def map (f : α → β) (r : Reader α) : Reader β := r.next fun a => .done (f a)

/-- Looks at the tokens before it takes anything. -/
def look (f : List Token → Reader α) : Reader α where
  read ts := (f ts).read ts
  shorter h := (f _).shorter h

/-- Takes nothing, and finds a fault. -/
def fail (f : List Token → Fault) : Reader α where
  read ts := .error (f ts)
  shorter h := by cases h

/-- Steps as long as `goesOn` holds of what has been read and of the tokens left. -/
def iterate (goesOn : σ → List Token → Bool) (step : σ → Reader σ) (s : σ) (ts : List Token) :
    Except Fault (σ × List Token) :=
  if goesOn s ts then
    match _h : (step s).read ts with
    | .error e => .error e
    | .ok (s', rest) => iterate goesOn step s' rest
  else .ok (s, ts)
termination_by ts.length
decreasing_by exact (step s).shorter ‹_›

theorem iterate_length (goesOn : σ → List Token → Bool) (step : σ → Reader σ) (s : σ)
    (ts : List Token) {s' : σ} {rest : List Token}
    (h : iterate goesOn step s ts = .ok (s', rest)) : rest.length ≤ ts.length := by
  fun_induction iterate goesOn step s ts with
  | case1 => cases h
  | case2 s ts _ _ mid hr ih =>
    exact Nat.le_trans (ih h) (Nat.le_of_lt ((step s).shorter hr))
  | case3 =>
    obtain ⟨_, rfl⟩ := Prod.mk.inj (Except.ok.inj h)
    exact Nat.le_refl _

end Reader

/-- Steps as long as `goesOn` holds of what has been read and of the tokens left. -/
def Tail.loop (goesOn : σ → List Token → Bool) (step : σ → Reader σ) (s : σ) : Tail σ where
  read := Reader.iterate goesOn step s
  noLonger h := Reader.iterate_length goesOn step s _ h

namespace Reader

/-- What is read, with the tokens that it stands for. -/
def withTokens (r : Reader α) : Reader (α × List Token) where
  read ts := (r.read ts).map fun (a, rest) => ((a, ts.take (ts.length - rest.length)), rest)
  shorter h := by
    obtain ⟨p, hr, he⟩ := map_eq_ok_iff.1 h
    obtain ⟨_, rfl⟩ := Prod.mk.inj he
    exact r.shorter hr

end Reader

/-! ## Lists -/

namespace Reader

/-- Everything up to the end of the tokens. -/
def all (r : Reader α) (ts : List Token) : Except Fault (List α) :=
  match ts with
  | [] => .ok []
  | t :: ts =>
    match _h : r.read (t :: ts) with
    | .error e => .error e
    | .ok (a, rest) => (r.all rest).map (a :: ·)
termination_by ts.length
decreasing_by exact r.shorter ‹_›

/-- The tokens behind an item: a comma is due unless they end. -/
def closeItem : List Token → Except Fault (List Token)
  | [] => .ok []
  | .mark ',' _ :: ts => .ok ts
  | _ => .error (.missing (.mark ","))

theorem closeItem_length {ts rest : List Token} (h : closeItem ts = .ok rest) :
    rest.length ≤ ts.length := by
  unfold closeItem at h
  split at h <;> simp_all

/-- The tokens behind an item and, if there is one, a comma. -/
def skipComma : List Token → List Token
  | .mark ',' _ :: ts => ts
  | ts => ts

theorem skipComma_length (ts : List Token) : (skipComma ts).length ≤ ts.length := by
  unfold skipComma
  split <;> simp

/-- An item with the comma behind it, which only the last one can do without. -/
def closed (r : Reader α) : Reader α where
  read ts := chain (r.read ts) fun a rest => (closeItem rest).map (a, ·)
  shorter {ts a rest} h := by
    obtain ⟨b, mid, hr, hc⟩ := chain_eq_ok_iff.1 h
    obtain ⟨last, hl, he⟩ := map_eq_ok_iff.1 hc
    obtain ⟨rfl, rfl⟩ := Prod.mk.inj he
    exact Nat.lt_of_le_of_lt (closeItem_length hl) (r.shorter hr)

/-- An item, with or without a comma behind it. -/
def relaxed (r : Reader α) : Reader α where
  read ts := chain (r.read ts) fun a rest => .ok (a, skipComma rest)
  shorter {ts a rest} h := by
    obtain ⟨b, mid, hr, hc⟩ := chain_eq_ok_iff.1 h
    obtain ⟨rfl, rfl⟩ := Prod.mk.inj (Except.ok.inj hc)
    exact Nat.lt_of_le_of_lt (skipComma_length mid) (r.shorter hr)

end Reader

/-! ## Single tokens -/

/-- What is wrong where something is wanted. -/
def Wanted.fault (w : Wanted) : List Token → Fault
  | [] => .ended w
  | _ => .missing w

/-- The front token, if `f` takes it. -/
def single (w : Wanted) (f : Token → Option α) : Reader α where
  read
    | [] => .error (.ended w)
    | t :: ts =>
      match f t with
      | some a => .ok (a, ts)
      | none => .error (.missing w)
  shorter {ts a rest} h := by
    split at h
    · cases h
    · split at h <;> simp_all

/-- A string literal. -/
def text : Reader String := single .text Token.text?

/-- An identifier. -/
def identifier : Reader String where
  read
    | [] => .error (.ended .identifier)
    | .word w :: ts => if isKeyword w then .error (.keyword w) else .ok (w, ts)
    | _ => .error (.missing .identifier)
  shorter {ts a rest} h := by
    split at h
    · simp at h
    · split at h <;> simp_all
    · simp at h

/-- A piece of punctuation. Where it is missing, the end of the tokens is not told apart. -/
def mark (s : String) : Reader Unit where
  read ts :=
    match after s ts with
    | some rest => .ok ((), rest)
    | none => .error (.missing (.mark s))
  shorter {ts a rest} h := by
    split at h
    · next h' =>
      obtain ⟨_, rfl⟩ := Prod.mk.inj (Except.ok.inj h)
      exact after_length h'
    · cases h

/-- What stands in brackets. -/
def group (b : Bracket) : Reader (List Token) := single (.group b) fun
  | .group c inner => if c = b then some inner else none
  | _ => none

/-- What stands in parentheses. -/
def parentheses : Reader (List Token) := group .round

/-- One string literal that stands alone. -/
def loneText (ts : List Token) : Except Fault String :=
  match text.read ts with
  | .error e => .error e
  | .ok (s, []) => .ok s
  | .ok _ => .error .leftover

end ComponentHooks.Source
