import ComponentHooks.Event

/-!
# Steps that emit events

`Logged σ α` is a step on a state `σ` with an answer `α`, together with the events it emits, in
order of emission.

* `Logged.emit`, `Logged.onPart`: one event; a step on a part of the state.

**`Logged.bind_apply`**: the events of two steps in a row are the first's, then the second's.
-/

namespace ComponentHooks

/-- A step on a state: the answer, the next state, and the events in order of emission. -/
def Logged (σ α : Type) : Type := σ → α × σ × List Event

namespace Logged

variable {σ ρ α β : Type}

instance : Monad (Logged σ) where
  pure a := fun s => (a, s, [])
  bind x f := fun s =>
    match x s with
    | (a, s, events) =>
      match f a s with
      | (b, s, more) => (b, s, events ++ more)

/-- Emits one event. -/
def emit (e : Event) : Logged σ Unit := fun s => ((), s, [e])

/-- The state. -/
def read : Logged σ σ := fun s => (s, s, [])

/-- Changes the state. -/
def change (f : σ → σ) : Logged σ Unit := fun s => ((), f s, [])

/-- A step on a part of the state. -/
def onPart (part : σ → ρ) (put : ρ → σ → σ) (x : Logged ρ α) : Logged σ α := fun s =>
  match x (part s) with
  | (a, r, events) => (a, put r s, events)

@[simp] theorem pure_apply (a : α) (s : σ) : (pure a : Logged σ α) s = (a, s, []) := rfl

@[simp] theorem bind_apply (x : Logged σ α) (f : α → Logged σ β) (s : σ) :
    (x >>= f) s = ((f (x s).1 (x s).2.1).1, (f (x s).1 (x s).2.1).2.1,
      (x s).2.2 ++ (f (x s).1 (x s).2.1).2.2) := rfl

@[simp] theorem emit_apply (e : Event) (s : σ) : emit e s = ((), s, [e]) := rfl

@[simp] theorem read_apply (s : σ) : read s = (s, s, []) := rfl

@[simp] theorem change_apply (f : σ → σ) (s : σ) : change f s = ((), f s, []) := rfl

@[simp] theorem onPart_apply (part : σ → ρ) (put : ρ → σ → σ) (x : Logged ρ α) (s : σ) :
    onPart part put x s = ((x (part s)).1, put (x (part s)).2.1 s, (x (part s)).2.2) := rfl

instance : LawfulMonad (Logged σ) :=
  LawfulMonad.mk' (Logged σ)
    (fun x => by
      funext s
      change ((x s).1, (x s).2.1, (x s).2.2 ++ []) = x s
      rw [List.append_nil])
    (fun a f => by
      funext s
      simp)
    (fun x f g => by
      funext s
      simp)

end Logged

end ComponentHooks
