import Mathlib.Logic.Basic
import Mathlib.Tactic.SplitIfs

/-! # Methods of an object

A method runs on the state of its object.  It returns or raises, and leaves a state in both cases:
what was written before an exception stays written.  A method is `Atomic` when an exception leaves
the state as it was, which holds when everything that can raise comes before the first write
(`Atomic.bind`, `Atomic.of_returns`). -/

/-- A method on a state `σ` that raises an `ε` or returns an `α`. -/
def Method (σ ε α : Type) : Type := σ → Except ε α × σ

namespace Method

variable {σ ε α β : Type}

/-- Sequencing: an exception of the first method skips the second, with the writes made so far. -/
def andThen (x : Method σ ε α) (f : α → Method σ ε β) : Method σ ε β := fun s =>
  match x s with
  | (.ok a, t) => f a t
  | (.error e, t) => (.error e, t)

instance : Monad (Method σ ε) where
  pure a := fun s => (.ok a, s)
  bind := andThen

/-- A computation that does not touch the state. -/
def lift (x : Except ε α) : Method σ ε α := fun s => (x, s)

/-- The state. -/
def state : Method σ ε σ := fun s => (.ok s, s)

/-- A write. -/
def write (f : σ → σ) : Method σ ε Unit := fun s => (.ok (), f s)

/-! ### Results -/

@[simp] theorem pure_apply (a : α) (s : σ) : (pure a : Method σ ε α) s = (.ok a, s) := rfl

@[simp] theorem state_bind (f : σ → Method σ ε α) (s : σ) : (state >>= f) s = f s s := rfl

@[simp] theorem write_bind (g : σ → σ) (f : Unit → Method σ ε α) (s : σ) : (write g >>= f) s = f () (g s) := rfl

@[simp] theorem write_apply (g : σ → σ) (s : σ) : (write g : Method σ ε Unit) s = (.ok (), g s) := rfl

@[simp] theorem lift_apply_ok {x : Except ε α} {s t : σ} {a : α} :
    lift x s = (.ok a, t) ↔ x = .ok a ∧ t = s := by
  simp only [lift, Prod.mk.injEq]
  exact and_congr_right fun _ => eq_comm

@[simp] theorem lift_bind_ok {x : Except ε α} {f : α → Method σ ε β} {s t : σ} {b : β} :
    (lift x >>= f) s = (.ok b, t) ↔ ∃ a, x = .ok a ∧ f a s = (.ok b, t) := by
  show andThen (lift x) f s = (.ok b, t) ↔ _
  cases x with
  | error e => simp [andThen, lift]
  | ok a => simp [andThen, lift]

theorem bind_ok {x : Method σ ε α} {f : α → Method σ ε β} {s u : σ} {b : β} :
    (x >>= f) s = (.ok b, u) ↔ ∃ a t, x s = (.ok a, t) ∧ f a t = (.ok b, u) := by
  show andThen x f s = (.ok b, u) ↔ _
  unfold andThen
  rcases hx : x s with ⟨r, t⟩
  cases r with
  | error e => simp
  | ok a =>
    simp only [Prod.mk.injEq, Except.ok.injEq]
    exact ⟨fun h => ⟨a, t, ⟨rfl, rfl⟩, h⟩, fun ⟨_, _, ⟨rfl, rfl⟩, h⟩ => h⟩

theorem bind_error {x : Method σ ε α} {f : α → Method σ ε β} {s u : σ} {e : ε} :
    (x >>= f) s = (.error e, u) ↔ x s = (.error e, u) ∨ ∃ a t, x s = (.ok a, t) ∧ f a t = (.error e, u) := by
  show andThen x f s = (.error e, u) ↔ _
  unfold andThen
  rcases hx : x s with ⟨r, t⟩
  cases r with
  | error e' => simp
  | ok a =>
    simp only [Prod.mk.injEq, Except.ok.injEq, reduceCtorEq, false_and, false_or]
    exact ⟨fun h => ⟨a, t, ⟨rfl, rfl⟩, h⟩, fun ⟨_, _, ⟨rfl, rfl⟩, h⟩ => h⟩

/-! ### Atomic methods -/

/-- An exception leaves the state as it was. -/
def Atomic (x : Method σ ε α) : Prop := ∀ s e t, x s = (.error e, t) → t = s

/-- The method does not write. -/
def ReadOnly (x : Method σ ε α) : Prop := ∀ s, (x s).2 = s

/-- The method does not raise. -/
def Returns (x : Method σ ε α) : Prop := ∀ s e t, x s ≠ (.error e, t)

theorem readOnly_lift (x : Except ε α) : ReadOnly (lift x : Method σ ε α) := fun _ => rfl

theorem readOnly_state : ReadOnly (state : Method σ ε σ) := fun _ => rfl

theorem returns_write (g : σ → σ) : Returns (write g : Method σ ε Unit) := fun _ _ _ h => nomatch h

theorem returns_pure (a : α) : Returns (pure a : Method σ ε α) := fun _ _ _ h => nomatch h

theorem Returns.bind {x : Method σ ε α} {f : α → Method σ ε β} (hx : x.Returns) (hf : ∀ a, (f a).Returns) :
    (x >>= f).Returns := by
  intro s e u h
  rcases bind_error.mp h with h | ⟨a, t, -, h⟩
  · exact hx s e u h
  · exact hf a t e u h

theorem ReadOnly.eq {x : Method σ ε α} (h : x.ReadOnly) {s t : σ} {r : Except ε α} (hx : x s = (r, t)) : t = s := by
  have hs := h s
  rwa [hx] at hs

theorem ReadOnly.atomic {x : Method σ ε α} (h : x.ReadOnly) : x.Atomic := fun _ _ _ hx => h.eq hx

theorem Atomic.of_returns {x : Method σ ε α} (h : x.Returns) : x.Atomic := fun s e t hx => absurd hx (h s e t)

/-- A method that only reads may come before an atomic one. -/
theorem Atomic.bind {x : Method σ ε α} {f : α → Method σ ε β} (hx : x.ReadOnly) (hf : ∀ a, (f a).Atomic) :
    (x >>= f).Atomic := by
  intro s e u h
  obtain hraise | ⟨a, t, ht, hrest⟩ := bind_error.mp h
  · exact hx.atomic s e u hraise
  · obtain rfl := hx.eq ht
    exact hf a t e u hrest

/-- Writes that do not raise may come after an atomic method. -/
theorem Atomic.andThen_returns {x : Method σ ε α} {f : α → Method σ ε β} (hx : x.Atomic) (hf : ∀ a, (f a).Returns) :
    (x >>= f).Atomic := by
  intro s e u h
  obtain h | ⟨a, t, -, h⟩ := bind_error.mp h
  · exact hx s e u h
  · exact absurd h (hf a t e u)

theorem Atomic.ite {c : Prop} [Decidable c] {x y : Method σ ε α} (hx : x.Atomic) (hy : y.Atomic) :
    (if c then x else y).Atomic := by
  split_ifs
  · exact hx
  · exact hy

theorem ReadOnly.bind {x : Method σ ε α} {f : α → Method σ ε β} (hx : x.ReadOnly) (hf : ∀ a, (f a).ReadOnly) :
    (x >>= f).ReadOnly := by
  intro s
  show (andThen x f s).2 = s
  unfold andThen
  rcases hr : x s with ⟨r, t⟩
  obtain rfl := hx.eq hr
  cases r with
  | error e => rfl
  | ok a => exact hf a t

end Method
