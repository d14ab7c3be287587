import SevenLens.Library.Prog
import Mathlib.Data.List.Basic
import Mathlib.Logic.Relation

/-! # Programs that run at the same time

A pool is a state and the programs that run over it, each for a request.  A step answers the next call of one
program; a program whose calls are answered no more has crashed.  What the other programs may do to the state, as
seen from program `i`, is the relation `Rely i`.  A program is proved once, by `wp` in the system in which every
call comes after steps of others (`alone`); that each call, made where it is acceptable, stays within what the
others rely on, is proved once for each call (`Guarded`).  Then all programs keep their postconditions, in
whatever order they run (`sound`). -/

namespace Calls

open Prog

namespace Prog

variable {S : Sig} {ε α β σ : Type} {M : System S ε σ}

/-- A sequence, by what its first program reaches. -/
theorem wp_bind_of {p : Prog S ε α} {f : α → Prog S ε β} {P : Except ε α → σ → Prop} {Q : Except ε β → σ → Prop} {s : σ}
    (hp : wp M p P s) (hok : ∀ a s', P (.ok a) s' → wp M (f a) Q s') (herror : ∀ e s', P (.error e) s' → Q (.error e) s') :
    wp M (p.bind f) Q s := by
  refine wp_bind.mpr (wp_mono (fun r s' h => ?_) hp)
  cases r with
  | ok a => exact hok a s' h
  | error e => exact herror e s' h

/-- A handler, by what the program reaches that it is for. -/
theorem wp_tryCatch_of {p : Prog S ε α} {f : ε → Prog S ε α} {P Q : Except ε α → σ → Prop} {s : σ}
    (hp : wp M p P s) (hok : ∀ a s', P (.ok a) s' → Q (.ok a) s') (herror : ∀ e s', P (.error e) s' → wp M (f e) Q s') :
    wp M (p.tryCatch f) Q s := by
  refine wp_tryCatch.mpr (wp_mono (fun r s' h => ?_) hp)
  cases r with
  | ok a => exact hok a s' h
  | error e => exact herror e s' h

/-- What a program has ended in. -/
def outcome : Prog S ε α → Option (Except ε α)
  | ret a => some (.ok a)
  | raise e => some (.error e)
  | call _ _ => none

theorem of_outcome {p : Prog S ε α} {r : Except ε α} {Q : Except ε α → σ → Prop} {s : σ} (hr : p.outcome = some r)
    (hp : wp M p Q s) : Q r s := by
  cases p with
  | ret a => exact Option.some.inj hr ▸ hp
  | raise e => exact Option.some.inj hr ▸ hp
  | call c k => cases hr

end Prog

variable {S : Sig} {ε α σ ρ : Type}

structure Pool (S : Sig) (ε α σ ρ : Type) where
  state : σ
  threads : List (ρ × Prog S ε α)

section Steps

variable (program : ρ → Prog S ε α) (M : Nat → System S ε σ)

/-- A program starts, or its next call is answered. -/
inductive Pool.Step : Pool S ε α σ ρ → Pool S ε α σ ρ → Prop
  | start (s : σ) (threads : List (ρ × Prog S ε α)) (x : ρ) : Step ⟨s, threads⟩ ⟨s, threads ++ [(x, program x)]⟩
  | call {s s' : σ} {threads : List (ρ × Prog S ε α)} {i : Nat} {x : ρ} {c : S.Call}
      {k : Except ε (S.Ans c) → Prog S ε α} {r : Except ε (S.Ans c)} (running : threads[i]? = some (x, .call c k))
      (answered : (M i).Step s c r s') : Step ⟨s, threads⟩ ⟨s', threads.set i (x, k r)⟩

/-- What is reached by steps. -/
abbrev Pool.Reaches : Pool S ε α σ ρ → Pool S ε α σ ρ → Prop := Relation.ReflTransGen (Pool.Step program M)

end Steps

/-! ### Rely and guarantee -/

/-- What the programs rely on of each other, and the invariant of the state.  `Fresh i` holds while no program has
the number `i`. -/
structure Discipline (σ : Type) where
  Inv : σ → Prop
  Rely : Nat → σ → σ → Prop
  Fresh : Nat → σ → Prop
  refl : ∀ i s, Rely i s s
  trans : ∀ i {s s' s''}, Rely i s s' → Rely i s' s'' → Rely i s s''
  fresh : ∀ i {s s'}, Rely i s s' → Fresh i s → Fresh i s'

namespace Discipline

variable (D : Discipline σ) (M : Nat → System S ε σ)

/-- What program `i` sees: others may come before each of its calls. -/
def alone (i : Nat) : System S ε σ where
  Step s c r s' := ∃ s₁, D.Rely i s s₁ ∧ D.Inv s₁ ∧ (M i).Step s₁ c r s'
  Ok s c := ∀ s₁, D.Rely i s s₁ → D.Inv s₁ → (M i).Ok s₁ c

/-- An acceptable call keeps the invariant and what the other programs rely on. -/
def Guarded : Prop := ∀ i s c r s', D.Inv s → (M i).Ok s c → (M i).Step s c r s' →
  D.Inv s' ∧ ∀ j ≠ i, D.Rely j s s'

variable {D M}

/-- What a program is to reach is not lost by steps of others. -/
theorem wp_rely {i : Nat} {p : Prog S ε α} {Q : Except ε α → σ → Prop} (hQ : ∀ r s s', D.Rely i s s' → Q r s → Q r s')
    {s s' : σ} (hr : D.Rely i s s') (hp : wp (D.alone M i) p Q s) : wp (D.alone M i) p Q s' := by
  cases p with
  | ret a => exact hQ _ _ _ hr hp
  | raise e => exact hQ _ _ _ hr hp
  | call c k =>
    refine ⟨fun s₁ h₁ hI => hp.1 s₁ (D.trans i hr h₁) hI, ?_⟩
    rintro r s'' ⟨s₁, h₁, hI, hstep⟩
    exact hp.2 r s'' ⟨s₁, D.trans i hr h₁, hI, hstep⟩

/-- What neither the others nor acceptable calls lose holds still when the program ends. -/
theorem wp_frame_alone {i : Nat} {P : σ → Prop} (hrely : ∀ s s', D.Rely i s s' → P s → P s')
    (hcall : ∀ s c r s', D.Inv s → (M i).Ok s c → (M i).Step s c r s' → P s → P s') {p : Prog S ε α}
    {Q : Except ε α → σ → Prop} {s : σ} (h : P s) (hp : wp (D.alone M i) p Q s) :
    wp (D.alone M i) p (fun r s' => Q r s' ∧ P s') s := by
  induction p generalizing s with
  | ret a => exact ⟨hp, h⟩
  | raise e => exact ⟨hp, h⟩
  | call c k ih =>
    refine ⟨hp.1, ?_⟩
    rintro r s' ⟨s₁, hr, hI, hstep⟩
    exact ih r (hcall s₁ c r s' hI (hp.1 s₁ hr hI) hstep (hrely s s₁ hr h)) (hp.2 r s' ⟨s₁, hr, hI, hstep⟩)

/-- A call, by what others leave alone and what holds where it is issued. -/
theorem wp_perform_alone {i : Nat} {c : S.Call} {P : σ → Prop} {Q : Except ε (S.Ans c) → σ → Prop}
    (hP : ∀ s s', D.Rely i s s' → P s → P s') {s : σ} (h : P s)
    (hcall : ∀ s₁, D.Inv s₁ → P s₁ → (M i).Ok s₁ c ∧ ∀ r s', (M i).Step s₁ c r s' → Q r s') :
    wp (D.alone M i) (perform c) Q s := by
  rw [wp_perform]
  refine ⟨fun s₁ hr hI => (hcall s₁ hI (hP _ _ hr h)).1, ?_⟩
  rintro r s' ⟨s₁, hr, hI, hstep⟩
  exact (hcall s₁ hI (hP _ _ hr h)).2 r s' hstep

/-- The invariant holds, every program is on its way to its postcondition, and the numbers of programs to come are
fresh. -/
structure Sound (D : Discipline σ) (M : Nat → System S ε σ) (Q : Nat → ρ → Except ε α → σ → Prop)
    (P : Pool S ε α σ ρ) : Prop where
  inv : D.Inv P.state
  thread : ∀ i x p, P.threads[i]? = some (x, p) → wp (D.alone M i) p (Q i x) P.state
  fresh : ∀ i, P.threads.length ≤ i → D.Fresh i P.state

section Run

variable {program : ρ → Prog S ε α} {Q : Nat → ρ → Except ε α → σ → Prop} {P P' : Pool S ε α σ ρ}

/-- A step keeps all programs on their way. -/
theorem Sound.step (hguard : D.Guarded M) (hstable : ∀ i x r s s', D.Rely i s s' → Q i x r s → Q i x r s')
    (hstart : ∀ i x s, D.Inv s → D.Fresh i s → wp (D.alone M i) (program x) (Q i x) s) (h : Sound D M Q P)
    (hstep : P.Step program M P') : Sound D M Q P' := by
  cases hstep with
  | start s threads x =>
    refine ⟨h.inv, fun i y p hi => ?_, fun i hi => h.fresh i ?_⟩
    · rcases Nat.lt_trichotomy i threads.length with hlt | rfl | hgt
      · exact h.thread i y p (by rwa [List.getElem?_append_left hlt] at hi)
      · rw [List.getElem?_concat_length] at hi
        obtain ⟨rfl, rfl⟩ := Prod.mk.inj (Option.some.inj hi)
        exact hstart _ x s h.inv (h.fresh _ (Nat.le_refl _))
      · rw [List.getElem?_eq_none (by rw [List.length_append, List.length_singleton]; exact hgt)] at hi
        cases hi
    · simp only [List.length_append, List.length_singleton] at hi
      show threads.length ≤ i
      omega
  | @call s s' threads i x c k r running answered =>
    have hwp := h.thread i x _ running
    obtain ⟨hinv, hrely⟩ := hguard i s c r s' h.inv (hwp.1 s (D.refl i s) h.inv) answered
    have hlt : i < threads.length := (List.getElem?_eq_some_iff.mp running).1
    refine ⟨hinv, fun j y p hj => ?_, fun j hj => ?_⟩
    · by_cases hij : j = i
      · subst hij
        rw [List.getElem?_set_self hlt] at hj
        obtain ⟨rfl, rfl⟩ := Prod.mk.inj (Option.some.inj hj)
        exact hwp.2 r s' ⟨s, D.refl j s, h.inv, answered⟩
      · rw [List.getElem?_set_ne (Ne.symm hij)] at hj
        exact wp_rely (hstable j y) (hrely j hij) (h.thread j y p hj)
    · rw [List.length_set] at hj
      have hne : j ≠ i := by omega
      exact D.fresh j (hrely j hne) (h.fresh j hj)

/-- In whatever order the programs run, each is on its way to its postcondition. -/
theorem sound (hguard : D.Guarded M) (hstable : ∀ i x r s s', D.Rely i s s' → Q i x r s → Q i x r s')
    (hstart : ∀ i x s, D.Inv s → D.Fresh i s → wp (D.alone M i) (program x) (Q i x) s) {s : σ} (hinv : D.Inv s)
    (hfresh : ∀ i, D.Fresh i s) (hrun : Pool.Reaches program M ⟨s, []⟩ P) : Sound D M Q P := by
  induction hrun with
  | refl => exact ⟨hinv, by simp, fun i _ => hfresh i⟩
  | tail _ hstep ih => exact ih.step hguard hstable hstart hstep

/-- What every acceptable call keeps, and what is kept in succession, a run keeps. -/
theorem Sound.kept {K : σ → σ → Prop} (hrefl : ∀ s, K s s) (htrans : ∀ {s s' s''}, K s s' → K s' s'' → K s s'')
    (hkeep : ∀ i s c r s', D.Inv s → (M i).Ok s c → (M i).Step s c r s' → K s s') (hguard : D.Guarded M)
    (hstable : ∀ i x r s s', D.Rely i s s' → Q i x r s → Q i x r s')
    (hstart : ∀ i x s, D.Inv s → D.Fresh i s → wp (D.alone M i) (program x) (Q i x) s) (h : Sound D M Q P)
    (hrun : Pool.Reaches program M P P') : Sound D M Q P' ∧ K P.state P'.state := by
  induction hrun with
  | refl => exact ⟨h, hrefl _⟩
  | tail _ hstep ih =>
    refine ⟨ih.1.step hguard hstable hstart hstep, htrans ih.2 ?_⟩
    have hsound := ih.1
    cases hstep with
    | start s threads x => exact hrefl s
    | @call s s' threads i x c k r running answered =>
      exact hkeep i s c r s' hsound.inv ((hsound.thread i x _ running).1 s (D.refl i s) hsound.inv) answered

end Run

end Discipline

end Calls
