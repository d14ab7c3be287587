import Mathlib.Logic.Basic

/-! # Programs over a signature of calls

A program issues *calls* (to a store, a remote service, a clock) and continues with the
answer.  Every call is answered by a value or by an exception, so a `Prog S ε α` is a tree
whose inner nodes are calls and whose leaves return an `α` or raise an `ε`.  The tree is
well founded: along every sequence of answers the program stops.

Two semantics are given.

* `run h p s` executes `p` with a handler `h` that answers every call from a state.
* `wp M p Q s` is the weakest precondition for a system `M`, which says by a relation what
  a call may answer and do to the state (failures and interference of others included) and
  by `M.Ok` in which states a call may be issued at all.  It is sound for the small steps
  of `Reach` (`wp_reach`), so an obligation `Ok` proved by `wp` holds at every call issued
  in every execution (`ok_of_reach`).

Both are compositional in `bind` and `tryCatch`. -/

namespace Calls

/-- The calls a program may issue, and the type of the answer to each of them. -/
structure Sig where
  Call : Type
  Ans : Call → Type

/-- A program that issues calls of `S`, raises exceptions in `ε` and returns an `α`. -/
inductive Prog (S : Sig) (ε α : Type) : Type where
  | ret (a : α)
  | raise (e : ε)
  | call (c : S.Call) (k : Except ε (S.Ans c) → Prog S ε α)

namespace Prog

variable {S : Sig} {ε α β γ σ : Type}

/-- Sequencing: an exception of the first program skips the second. -/
def bind : Prog S ε α → (α → Prog S ε β) → Prog S ε β
  | ret a, f => f a
  | raise e, _ => raise e
  | call c k, f => call c (fun r => bind (k r) f)

/-- Run a program and continue with the handler when it raises. -/
def tryCatch : Prog S ε α → (ε → Prog S ε α) → Prog S ε α
  | ret a, _ => ret a
  | raise e, h => h e
  | call c k, h => call c (fun r => tryCatch (k r) h)

instance : Monad (Prog S ε) where
  pure := ret
  bind := bind

instance : MonadExceptOf ε (Prog S ε) where
  throw := raise
  tryCatch := tryCatch

/-- Continue with an answer: return its value or raise its exception. -/
def ofExcept : Except ε α → Prog S ε α
  | .ok a => ret a
  | .error e => raise e

/-- Issue one call. -/
def perform (c : S.Call) : Prog S ε (S.Ans c) := call c ofExcept

/-- Run a program for its effect and forget its exception. -/
def suppress (p : Prog S ε Unit) : Prog S ε Unit := tryCatch p (fun _ => ret ())

@[simp] theorem pure_eq_ret (a : α) : (pure a : Prog S ε α) = ret a := rfl

@[simp] theorem throw_eq_raise (e : ε) : (throw e : Prog S ε α) = raise e := rfl

@[simp] theorem bind_eq (p : Prog S ε α) (f : α → Prog S ε β) : p >>= f = p.bind f := rfl

@[simp] theorem tryCatch_eq (p : Prog S ε α) (h : ε → Prog S ε α) :
    (MonadExcept.tryCatch p h : Prog S ε α) = p.tryCatch h := rfl

@[simp] theorem tryCatchThe_eq (p : Prog S ε α) (h : ε → Prog S ε α) :
    (tryCatchThe ε p h : Prog S ε α) = p.tryCatch h := rfl

theorem bind_assoc (p : Prog S ε α) (f : α → Prog S ε β) (g : β → Prog S ε γ) :
    (p.bind f).bind g = p.bind (fun a => (f a).bind g) := by
  induction p with
  | ret a => rfl
  | raise e => rfl
  | call c k ih =>
      simp only [bind]
      congr 1
      funext r
      exact ih r

theorem bind_ret (p : Prog S ε α) : p.bind ret = p := by
  induction p with
  | ret a => rfl
  | raise e => rfl
  | call c k ih =>
      simp only [bind]
      congr 1
      funext r
      exact ih r

instance : LawfulMonad (Prog S ε) :=
  LawfulMonad.mk' (Prog S ε) (fun p => bind_ret p) (fun _ _ => rfl) (fun p f g => bind_assoc p f g)

/-! ### Execution with a handler -/

/-- A handler answers a call from a state and updates the state. -/
abbrev Handler (S : Sig) (ε σ : Type) := (c : S.Call) → σ → Except ε (S.Ans c) × σ

/-- Execute a program with a handler. -/
def run (h : Handler S ε σ) : Prog S ε α → σ → Except ε α × σ
  | ret a, s => (.ok a, s)
  | raise e, s => (.error e, s)
  | call c k, s => run h (k (h c s).1) (h c s).2

variable (h : Handler S ε σ)

@[simp] theorem run_ret (a : α) (s : σ) : run h (ret a : Prog S ε α) s = (.ok a, s) := rfl

@[simp] theorem run_raise (e : ε) (s : σ) : run h (raise e : Prog S ε α) s = (.error e, s) := rfl

theorem run_bind (p : Prog S ε α) (f : α → Prog S ε β) (s : σ) :
    run h (p.bind f) s = match run h p s with
      | (.ok a, s') => run h (f a) s'
      | (.error e, s') => (.error e, s') := by
  induction p generalizing s with
  | ret a => rfl
  | raise e => rfl
  | call c k ih => exact ih (h c s).1 (h c s).2

theorem run_tryCatch (p : Prog S ε α) (f : ε → Prog S ε α) (s : σ) :
    run h (p.tryCatch f) s = match run h p s with
      | (.ok a, s') => (.ok a, s')
      | (.error e, s') => run h (f e) s' := by
  induction p generalizing s with
  | ret a => rfl
  | raise e => rfl
  | call c k ih => exact ih (h c s).1 (h c s).2

@[simp] theorem run_ofExcept (r : Except ε α) (s : σ) :
    run h (ofExcept r : Prog S ε α) s = (r, s) := by
  cases r <;> rfl

@[simp] theorem run_perform (c : S.Call) (s : σ) : run h (perform c) s = h c s := by
  simp [perform, run]

theorem run_suppress (p : Prog S ε Unit) (s : σ) :
    run h (suppress p) s = (.ok (), (run h p s).2) := by
  rw [suppress, run_tryCatch]
  rcases run h p s with ⟨r, s'⟩
  cases r <;> rfl

theorem run_ite (c : Prop) [Decidable c] (p q : Prog S ε α) (s : σ) :
    run h (if c then p else q) s = if c then run h p s else run h q s := by
  split <;> rfl

/-- The outcome of a sequence whose first program returns. -/
theorem run_bind_ok {p : Prog S ε α} {f : α → Prog S ε β} {s s' : σ} {a : α}
    (hp : run h p s = (.ok a, s')) : run h (p.bind f) s = run h (f a) s' := by
  rw [run_bind, hp]

/-- The outcome of a sequence whose first program raises. -/
theorem run_bind_error {p : Prog S ε α} {f : α → Prog S ε β} {s s' : σ} {e : ε}
    (hp : run h p s = (.error e, s')) : run h (p.bind f) s = (.error e, s') := by
  rw [run_bind, hp]

end Prog

/-! ### Systems and weakest preconditions -/

/-- What calls may do: `Step s c r s'` when call `c` issued in `s` may be answered by `r`
and leave `s'`, and `Ok s c` when issuing `c` in `s` is acceptable. -/
structure System (S : Sig) (ε σ : Type) where
  Step : σ → (c : S.Call) → Except ε (S.Ans c) → σ → Prop
  Ok : σ → S.Call → Prop

namespace Prog

variable {S : Sig} {ε α β σ : Type} (M : System S ε σ)

/-- Every call `p` issues from `s` is acceptable, and however it is answered the program
ends in `Q`. -/
def wp : Prog S ε α → (Except ε α → σ → Prop) → σ → Prop
  | ret a, Q, s => Q (.ok a) s
  | raise e, Q, s => Q (.error e) s
  | call c k, Q, s => M.Ok s c ∧ ∀ r s', M.Step s c r s' → wp (k r) Q s'

/-- Continue a postcondition through a sequence. -/
def andThen (Q : Except ε β → σ → Prop) (P : α → σ → Prop) : Except ε α → σ → Prop
  | .ok a, s => P a s
  | .error e, s => Q (.error e) s

/-- Continue a postcondition through an exception handler. -/
def orElse (Q : Except ε α → σ → Prop) (P : ε → σ → Prop) : Except ε α → σ → Prop
  | .ok a, s => Q (.ok a) s
  | .error e, s => P e s

@[simp] theorem andThen_ok (Q : Except ε β → σ → Prop) (P : α → σ → Prop) (a : α) (s : σ) :
    andThen Q P (.ok a) s = P a s := rfl

@[simp] theorem andThen_error (Q : Except ε β → σ → Prop) (P : α → σ → Prop) (e : ε) (s : σ) :
    andThen Q P (.error e) s = Q (.error e) s := rfl

@[simp] theorem orElse_ok (Q : Except ε α → σ → Prop) (P : ε → σ → Prop) (a : α) (s : σ) :
    orElse Q P (.ok a) s = Q (.ok a) s := rfl

@[simp] theorem orElse_error (Q : Except ε α → σ → Prop) (P : ε → σ → Prop) (e : ε) (s : σ) :
    orElse Q P (.error e) s = P e s := rfl

variable {M}

@[simp] theorem wp_ret {Q : Except ε α → σ → Prop} {a : α} {s : σ} :
    wp M (ret a) Q s ↔ Q (.ok a) s := Iff.rfl

@[simp] theorem wp_raise {Q : Except ε α → σ → Prop} {e : ε} {s : σ} :
    wp M (raise e) Q s ↔ Q (.error e) s := Iff.rfl

theorem wp_mono {p : Prog S ε α} {Q Q' : Except ε α → σ → Prop}
    (hQ : ∀ r s, Q r s → Q' r s) {s : σ} (hp : wp M p Q s) : wp M p Q' s := by
  induction p generalizing s with
  | ret a => exact hQ _ _ hp
  | raise e => exact hQ _ _ hp
  | call c k ih => exact ⟨hp.1, fun r s' hs => ih r (hp.2 r s' hs)⟩

theorem wp_bind {p : Prog S ε α} {f : α → Prog S ε β} {Q : Except ε β → σ → Prop} {s : σ} :
    wp M (p.bind f) Q s ↔ wp M p (andThen Q (fun a s' => wp M (f a) Q s')) s := by
  induction p generalizing s with
  | ret a => exact Iff.rfl
  | raise e => exact Iff.rfl
  | call c k ih =>
      simp only [bind, wp]
      exact and_congr_right fun _ => forall_congr' fun r => forall_congr' fun s' =>
        imp_congr_right fun _ => ih r

theorem wp_tryCatch {p : Prog S ε α} {f : ε → Prog S ε α} {Q : Except ε α → σ → Prop} {s : σ} :
    wp M (p.tryCatch f) Q s ↔ wp M p (orElse Q (fun e s' => wp M (f e) Q s')) s := by
  induction p generalizing s with
  | ret a => exact Iff.rfl
  | raise e => exact Iff.rfl
  | call c k ih =>
      simp only [tryCatch, wp]
      exact and_congr_right fun _ => forall_congr' fun r => forall_congr' fun s' =>
        imp_congr_right fun _ => ih r

@[simp] theorem wp_ofExcept {r : Except ε α} {Q : Except ε α → σ → Prop} {s : σ} :
    wp M (ofExcept r) Q s ↔ Q r s := by
  cases r <;> exact Iff.rfl

@[simp] theorem wp_perform {c : S.Call} {Q : Except ε (S.Ans c) → σ → Prop} {s : σ} :
    wp M (perform c) Q s ↔ M.Ok s c ∧ ∀ r s', M.Step s c r s' → Q r s' := by
  simp [perform, wp]

theorem wp_suppress {p : Prog S ε Unit} {Q : Except ε Unit → σ → Prop} {s : σ} :
    wp M (suppress p) Q s ↔ wp M p (fun _ s' => Q (.ok ()) s') s := by
  rw [suppress, wp_tryCatch]
  constructor <;> refine wp_mono fun r s' h => ?_ <;> cases r <;> exact h

/-! ### Small steps -/

/-- `Reach M s p s' p'`: executing `p` from `s` may reach state `s'` with `p'` left to run. -/
inductive Reach (M : System S ε σ) : σ → Prog S ε α → σ → Prog S ε α → Prop
  | refl (s : σ) (p : Prog S ε α) : Reach M s p s p
  | step {s s₁ s' : σ} {c : S.Call} {k : Except ε (S.Ans c) → Prog S ε α} {p' : Prog S ε α}
      {r : Except ε (S.Ans c)} :
      M.Step s c r s₁ → Reach M s₁ (k r) s' p' → Reach M s (call c k) s' p'

/-- A weakest precondition survives every step of the execution. -/
theorem wp_reach {p p' : Prog S ε α} {Q : Except ε α → σ → Prop} {s s' : σ}
    (hr : Reach M s p s' p') (hp : wp M p Q s) : wp M p' Q s' := by
  induction hr with
  | refl s p => exact hp
  | step hs _ ih => exact ih (hp.2 _ _ hs)

/-- Every call issued in an execution is acceptable where it is issued. -/
theorem ok_of_reach {p : Prog S ε α} {Q : Except ε α → σ → Prop} {s s' : σ} {c : S.Call}
    {k : Except ε (S.Ans c) → Prog S ε α} (hp : wp M p Q s) (hr : Reach M s p s' (call c k)) :
    M.Ok s' c := (wp_reach hr hp).1

/-- An invariant that acceptable calls keep holds throughout the execution. -/
theorem Reach.invariant {I : σ → Prop} {p p' : Prog S ε α} {Q : Except ε α → σ → Prop} {s s' : σ}
    (hstep : ∀ s c r s', I s → M.Ok s c → M.Step s c r s' → I s') (hr : Reach M s p s' p')
    (hp : wp M p Q s) (hs : I s) : I s' := by
  induction hr with
  | refl s p => exact hs
  | step h _ ih => exact ih (hp.2 _ _ h) (hstep _ _ _ _ hs hp.1 h)

theorem Reach.trans {p p₁ p' : Prog S ε α} {s s₁ s' : σ} (h : Reach M s p s₁ p₁) (h' : Reach M s₁ p₁ s' p') :
    Reach M s p s' p' := by
  induction h with
  | refl s p => exact h'
  | step hs _ ih => exact .step hs (ih h')

/-- Executions depend on the steps of a system only. -/
theorem Reach.mono {N : System S ε σ} {p p' : Prog S ε α} {s s' : σ}
    (hstep : ∀ s c r s', M.Step s c r s' → N.Step s c r s') (hr : Reach M s p s' p') : Reach N s p s' p' := by
  induction hr with
  | refl s p => exact .refl s p
  | step h _ ih => exact .step (hstep _ _ _ _ h) ih

theorem Reach.snoc {p : Prog S ε α} {s s₁ s' : σ} {c : S.Call} {k : Except ε (S.Ans c) → Prog S ε α}
    {r : Except ε (S.Ans c)} (hp : Reach M s p s₁ (call c k)) (hs : M.Step s₁ c r s') :
    Reach M s p s' (k r) := by
  generalize hq : call c k = q at hp
  induction hp with
  | refl s p =>
      subst hq
      exact .step hs (.refl _ _)
  | step h _ ih => exact .step h (ih hs hq)

/-- Execute the first `n` calls with a handler. -/
def advance (h : Handler S ε σ) : Nat → Prog S ε α → σ → Prog S ε α × σ
  | n + 1, call c k, s => advance h n (k (h c s).1) (h c s).2
  | _, p, s => (p, s)

/-- The call a program issues next. -/
def next : Prog S ε α → Option S.Call
  | call c _ => some c
  | _ => none

theorem eq_call_of_next {p : Prog S ε α} {c : S.Call} (h : p.next = some c) : ∃ k, p = call c k := by
  cases p with
  | ret a => cases h
  | raise e => cases h
  | call c' k =>
      cases h
      exact ⟨k, rfl⟩

theorem advance_succ {h : Handler S ε σ} {n : Nat} {p : Prog S ε α} {s s' : σ} {c : S.Call}
    {k : Except ε (S.Ans c) → Prog S ε α} (hp : advance h n p s = (call c k, s')) :
    advance h (n + 1) p s = (k (h c s').1, (h c s').2) := by
  induction n generalizing p s with
  | zero =>
      cases p <;> cases hp
      simp [advance]
  | succ n ih =>
      cases p with
      | ret a => cases hp
      | raise e => cases hp
      | call c' k' => exact ih hp

/-- A system that can follow a handler reaches what the handler computes. -/
theorem reach_advance {τ : Type} {h : Handler S ε τ} {f : σ → τ}
    (hf : ∀ s c, ∃ s', M.Step s c (h c (f s)).1 s' ∧ f s' = (h c (f s)).2) (n : Nat) (p : Prog S ε α)
    (s : σ) : ∃ s', Reach M s p s' (advance h n p (f s)).1 ∧ f s' = (advance h n p (f s)).2 := by
  induction n generalizing p s with
  | zero => cases p <;> exact ⟨s, .refl _ _, rfl⟩
  | succ n ih =>
      cases p with
      | ret a => exact ⟨s, .refl _ _, rfl⟩
      | raise e => exact ⟨s, .refl _ _, rfl⟩
      | call c k =>
          obtain ⟨s₁, hstep, hs₁⟩ := hf s c
          obtain ⟨s', hreach, hs'⟩ := ih (k (h c (f s)).1) s₁
          rw [hs₁] at hreach hs'
          exact ⟨s', .step hstep hreach, hs'⟩

/-- A system that can follow a handler reaches the end of its run. -/
theorem reach_run {h : Handler S ε σ} (hf : ∀ s c, M.Step s c (h c s).1 (h c s).2) (p : Prog S ε α) (s : σ) :
    ∃ p', Reach M s p (run h p s).2 p' := by
  induction p generalizing s with
  | ret a => exact ⟨_, .refl _ _⟩
  | raise e => exact ⟨_, .refl _ _⟩
  | call c k ih =>
      obtain ⟨p', hreach⟩ := ih (h c s).1 (h c s).2
      exact ⟨p', .step (hf s c) hreach⟩

/-! ### Calls and exceptions of a program -/

/-- As long as calls raise only exceptions in `E`, the program issues only calls in `C` and
raises only exceptions in `E`. -/
def Within (C : S.Call → Prop) (E : ε → Prop) : Prog S ε α → Prop
  | ret _ => True
  | raise e => E e
  | call c k => C c ∧ ∀ r, (∀ e, r = .error e → E e) → Within C E (k r)

section Within

variable {C : S.Call → Prop} {E : ε → Prop}

@[simp] theorem within_ret (a : α) : Within C E (ret a : Prog S ε α) := trivial

@[simp] theorem within_pure (a : α) : Within C E (pure a : Prog S ε α) := trivial

@[simp] theorem within_raise (e : ε) : Within C E (raise e : Prog S ε α) ↔ E e := Iff.rfl

theorem within_ofExcept {r : Except ε α} (h : ∀ e, r = .error e → E e) :
    Within C E (ofExcept r : Prog S ε α) := by
  cases r with
  | ok a => trivial
  | error e => exact h e rfl

theorem within_perform {c : S.Call} (h : C c) : Within C E (perform c : Prog S ε (S.Ans c)) :=
  ⟨h, fun _ hr => within_ofExcept hr⟩

theorem within_bind {p : Prog S ε α} {f : α → Prog S ε β} (hp : Within C E p)
    (hf : ∀ a, Within C E (f a)) : Within C E (p.bind f) := by
  induction p with
  | ret a => exact hf a
  | raise e => exact hp
  | call c k ih => exact ⟨hp.1, fun r hr => ih r (hp.2 r hr)⟩

theorem within_true (p : Prog S ε α) : Within (fun _ => True) (fun _ => True) p := by
  induction p with
  | ret a => trivial
  | raise e => trivial
  | call c k ih => exact ⟨trivial, fun r _ => ih r⟩

theorem within_tryCatch {p : Prog S ε α} {f : ε → Prog S ε α} (hp : Within C E p)
    (hf : ∀ e, E e → Within C E (f e)) : Within C E (p.tryCatch f) := by
  induction p with
  | ret a => trivial
  | raise e => exact hf e hp
  | call c k ih => exact ⟨hp.1, fun r hr => ih r (hp.2 r hr)⟩

/-- A handler for every exception: what the program raises does not matter. -/
theorem within_catch {p : Prog S ε α} {f : ε → Prog S ε α} (hp : Within C (fun _ => True) p)
    (hf : ∀ e, Within C E (f e)) : Within C E (p.tryCatch f) := by
  induction p with
  | ret a => trivial
  | raise e => exact hf e
  | call c k ih => exact ⟨hp.1, fun r _ => ih r (hp.2 r fun _ _ => trivial)⟩

theorem within_suppress {p : Prog S ε Unit} (hp : Within C E p) : Within C E (suppress p) :=
  within_tryCatch hp fun _ _ => trivial

theorem within_ite {c : Prop} [Decidable c] {p q : Prog S ε α} (hp : c → Within C E p)
    (hq : ¬ c → Within C E q) : Within C E (if c then p else q) := by
  split
  · exact hp ‹_›
  · exact hq ‹_›

theorem within_foldlM {f : β → α → Prog S ε β} {l : List α} {b : β}
    (hf : ∀ b a, Within C E (f b a)) : Within C E (l.foldlM f b) := by
  induction l generalizing b with
  | nil => trivial
  | cons a l ih =>
      rw [List.foldlM_cons]
      exact within_bind (hf b a) fun b => ih

theorem Within.mono {C' : S.Call → Prop} (hC : ∀ c, C c → C' c) {p : Prog S ε α} (hp : Within C E p) :
    Within C' E p := by
  induction p with
  | ret a => trivial
  | raise e => exact hp
  | call c k ih => exact ⟨hC c hp.1, fun r hr => ih r (hp.2 r hr)⟩

/-- An invariant kept by the calls in `C` holds after every program within `C`. -/
theorem wp_within {I : σ → Prop}
    (hstep : ∀ s c r s', I s → C c → M.Step s c r s' → I s' ∧ ∀ e, r = .error e → E e)
    (hok : ∀ s c, I s → C c → M.Ok s c) {p : Prog S ε α} (hp : Within C E p) {s : σ} (hs : I s) :
    wp M p (fun r s' => I s' ∧ ∀ e, r = .error e → E e) s := by
  induction p generalizing s with
  | ret a => exact ⟨hs, by rintro e ⟨⟩⟩
  | raise e => exact ⟨hs, by rintro x ⟨⟩; exact hp⟩
  | call c k ih =>
      refine ⟨hok s c hs hp.1, fun r s' hstep' => ?_⟩
      obtain ⟨hs', hr⟩ := hstep s c r s' hs hp.1 hstep'
      exact ih r (hp.2 r hr) hs'

/-- An execution whose calls are in `C` keeps an invariant that these calls keep. -/
theorem run_invariant {τ : Type} {h : Handler S ε τ} {I : τ → Prop}
    (hC : ∀ s c, I s → C c → I (h c s).2) {p : Prog S ε α} (hp : Within C (fun _ => True) p) {s : τ}
    (hs : I s) : I (run h p s).2 := by
  induction p generalizing s with
  | ret a => exact hs
  | raise e => exact hs
  | call c k ih => exact ih _ (hp.2 _ fun _ _ => trivial) (hC s c hs hp.1)

end Within

/-! ### Answers -/

/-- The system in which a call may be answered as `A` says. -/
def answering (A : (c : S.Call) → Except ε (S.Ans c) → Prop) : System S ε Unit :=
  ⟨fun _ c r _ => A c r, fun _ _ => True⟩

/-- Whatever calls answer within `A`, a value that the program returns is in `Q`. -/
def Yields (A : (c : S.Call) → Except ε (S.Ans c) → Prop) (p : Prog S ε α) (Q : α → Prop) : Prop :=
  wp (answering A) p (fun r _ => ∀ a, r = .ok a → Q a) ()

section Yields

variable {A : (c : S.Call) → Except ε (S.Ans c) → Prop}

theorem yields_ret {Q : α → Prop} {a : α} (h : Q a) : Yields A (ret a) Q := by
  rintro _ ⟨⟩
  exact h

theorem yields_raise {Q : α → Prop} (e : ε) : Yields A (raise e) Q := by
  rintro _ ⟨⟩

theorem yields_ofExcept {Q : α → Prop} {r : Except ε α} (h : ∀ a, r = .ok a → Q a) :
    Yields A (ofExcept r) Q := wp_ofExcept.mpr h

theorem yields_perform {c : S.Call} {Q : S.Ans c → Prop} (h : ∀ a, A c (.ok a) → Q a) :
    Yields A (perform c) Q := by
  refine wp_perform.mpr ⟨trivial, fun r _ hr a ha => ?_⟩
  subst ha
  exact h a hr

theorem yields_bind {p : Prog S ε α} {f : α → Prog S ε β} {P : α → Prop} {Q : β → Prop}
    (hp : Yields A p P) (hf : ∀ a, P a → Yields A (f a) Q) : Yields A (p.bind f) Q := by
  refine wp_bind.mpr (wp_mono (fun r _ hr => ?_) hp)
  cases r with
  | ok a => exact hf a (hr a rfl)
  | error e => rintro _ ⟨⟩

theorem yields_tryCatch {p : Prog S ε α} {f : ε → Prog S ε α} {Q : α → Prop} (hp : Yields A p Q)
    (hf : ∀ e, Yields A (f e) Q) : Yields A (p.tryCatch f) Q := by
  refine wp_tryCatch.mpr (wp_mono (fun r _ hr => ?_) hp)
  cases r with
  | ok a => exact hr
  | error e => exact hf e

theorem Yields.mono {p : Prog S ε α} {P Q : α → Prop} (hp : Yields A p P) (h : ∀ a, P a → Q a) :
    Yields A p Q :=
  wp_mono (fun _ _ hr a ha => h a (hr a ha)) hp

theorem yields_true (p : Prog S ε α) : Yields A p (fun _ => True) := by
  induction p with
  | ret a => exact yields_ret trivial
  | raise e => exact yields_raise e
  | call c k ih => exact ⟨trivial, fun r _ _ => ih r⟩

theorem yields_foldlM {f : β → α → Prog S ε β} {I : β → Prop} {l : List α}
    (hf : ∀ b, ∀ a ∈ l, I b → Yields A (f b a) I) {b : β} (hb : I b) : Yields A (l.foldlM f b) I := by
  induction l generalizing b with
  | nil => exact yields_ret hb
  | cons a l ih =>
      rw [List.foldlM_cons]
      refine yields_bind (hf b a List.mem_cons_self hb) fun b' hb' => ?_
      exact ih (fun b x hx => hf b x (List.mem_cons_of_mem a hx)) hb'

/-- A fold that ends well (`C`) has passed every element well: each round that ends well has started
well and its element passes.  `I` is an invariant of the accumulator. -/
theorem yields_foldlM_each {f : β → α → Prog S ε β} {I C : β → Prop} {P : α → Prop} {l : List α}
    (hf : ∀ b, ∀ a ∈ l, I b → Yields A (f b a) (fun b' => I b' ∧ (C b' → C b ∧ P a))) {b : β} (hb : I b) :
    Yields A (l.foldlM f b) (fun b' => I b' ∧ (C b' → C b ∧ ∀ a ∈ l, P a)) := by
  induction l generalizing b with
  | nil => exact yields_ret ⟨hb, fun hc => ⟨hc, by simp⟩⟩
  | cons a l ih =>
      rw [List.foldlM_cons]
      refine yields_bind (hf b a List.mem_cons_self hb) fun b₁ hb₁ => ?_
      refine (ih (fun b x hx => hf b x (List.mem_cons_of_mem a hx)) hb₁.1).mono fun b' hb' => ⟨hb'.1, fun hc => ?_⟩
      obtain ⟨hc₁, hrest⟩ := hb'.2 hc
      obtain ⟨hc₀, ha⟩ := hb₁.2 hc₁
      exact ⟨hc₀, List.forall_mem_cons.mpr ⟨ha, hrest⟩⟩

/-- An execution whose handler answers within `A` returns what the program yields. -/
theorem Yields.run {τ : Type} {h : Handler S ε τ} {C : S.Call → Prop} {I : τ → Prop}
    (hI : ∀ t c, I t → C c → A c (h c t).1 ∧ I (h c t).2) {p : Prog S ε α} {Q : α → Prop}
    (hp : Within C (fun _ => True) p) (hy : Yields A p Q) {t : τ} (ht : I t) {a : α}
    (ha : (Prog.run h p t).1 = .ok a) : Q a := by
  induction p generalizing t with
  | ret x => exact hy a ha
  | raise e => cases ha
  | call c k ih =>
      obtain ⟨hc, hI'⟩ := hI t c ht hp.1
      exact ih _ (hp.2 _ fun _ _ => trivial) (hy.2 _ () hc) hI' ha

/-- A system that answers within `A` returns what the program yields. -/
theorem Yields.wp {C : S.Call → Prop} {I : σ → Prop}
    (hI : ∀ s c r s', I s → C c → M.Step s c r s' → A c r ∧ I s') (hok : ∀ s c, I s → C c → M.Ok s c)
    {p : Prog S ε α} {Q : α → Prop} (hp : Within C (fun _ => True) p) (hy : Yields A p Q) {s : σ} (hs : I s) :
    Prog.wp M p (fun r s' => I s' ∧ ∀ a, r = .ok a → Q a) s := by
  induction p generalizing s with
  | ret x => exact ⟨hs, hy⟩
  | raise e => exact ⟨hs, by rintro a ⟨⟩⟩
  | call c k ih =>
      refine ⟨hok s c hs hp.1, fun r s' hstep => ?_⟩
      obtain ⟨hc, hI'⟩ := hI s c r s' hs hp.1 hstep
      exact ih r (hp.2 r fun _ _ => trivial) (hy.2 r () hc) hI'

end Yields

/-! ### Fixed answers -/

/-- The outcome of a program whose calls have fixed answers. -/
def eval (f : (c : S.Call) → Except ε (S.Ans c)) : Prog S ε α → Except ε α
  | ret a => .ok a
  | raise e => .error e
  | call c k => eval f (k (f c))

section Eval

variable {f : (c : S.Call) → Except ε (S.Ans c)}

@[simp] theorem eval_ret (a : α) : eval f (ret a : Prog S ε α) = .ok a := rfl

@[simp] theorem eval_raise (e : ε) : eval f (raise e : Prog S ε α) = .error e := rfl

@[simp] theorem eval_ofExcept (r : Except ε α) : eval f (ofExcept r : Prog S ε α) = r := by
  cases r <;> rfl

@[simp] theorem eval_perform (c : S.Call) : eval f (perform c : Prog S ε (S.Ans c)) = f c := by
  simp [perform, eval]

theorem eval_bind (p : Prog S ε α) (g : α → Prog S ε β) :
    eval f (p.bind g) = match eval f p with
      | .ok a => eval f (g a)
      | .error e => .error e := by
  induction p with
  | ret a => rfl
  | raise e => rfl
  | call c k ih => exact ih (f c)

theorem eval_tryCatch (p : Prog S ε α) (g : ε → Prog S ε α) :
    eval f (p.tryCatch g) = match eval f p with
      | .ok a => .ok a
      | .error e => eval f (g e) := by
  induction p with
  | ret a => rfl
  | raise e => rfl
  | call c k ih => exact ih (f c)

theorem eval_bind_ok {p : Prog S ε α} {g : α → Prog S ε β} {a : α} (h : eval f p = .ok a) :
    eval f (p.bind g) = eval f (g a) := by
  rw [eval_bind, h]

theorem eval_bind_error {p : Prog S ε α} {g : α → Prog S ε β} {e : ε} (h : eval f p = .error e) :
    eval f (p.bind g) = .error e := by
  rw [eval_bind, h]

/-- Programs whose calls have the same answers have the same outcome. -/
theorem eval_congr {g : (c : S.Call) → Except ε (S.Ans c)} {C : S.Call → Prop} {E : ε → Prop}
    (hC : ∀ c, C c → f c = g c) (hE : ∀ c e, f c = .error e → E e) {p : Prog S ε α} (hp : Within C E p) :
    eval f p = eval g p := by
  induction p with
  | ret a => rfl
  | raise e => rfl
  | call c k ih =>
      show eval f (k (f c)) = eval g (k (g c))
      rw [← hC c hp.1]
      exact ih (f c) (hp.2 _ fun e => hE c e)

/-- Exceptions of calls and of the program are in `E`. -/
theorem eval_error_within {C : S.Call → Prop} {E : ε → Prop} (hC : ∀ c, C c → ∀ e, f c = .error e → E e)
    {p : Prog S ε α} (hp : Within C E p) {e : ε} (he : eval f p = .error e) : E e := by
  induction p with
  | ret a => cases he
  | raise x =>
      cases he
      exact hp
  | call c k ih => exact ih (f c) (hp.2 _ fun e => hC c hp.1 e) he

/-- A handler that gives the calls in `C` fixed answers computes `eval`. -/
theorem run_eq_eval {τ : Type} {h : Handler S ε τ} {C : S.Call → Prop} {I : τ → Prop}
    (hC : ∀ s c, I s → C c → (h c s).1 = f c ∧ I (h c s).2) {p : Prog S ε α}
    (hp : Within C (fun _ => True) p) {s : τ} (hs : I s) :
    (run h p s).1 = eval f p ∧ I (run h p s).2 := by
  induction p generalizing s with
  | ret a => exact ⟨rfl, hs⟩
  | raise e => exact ⟨rfl, hs⟩
  | call c k ih =>
      obtain ⟨ha, hI⟩ := hC s c hs hp.1
      have hk := ih (h c s).1 (hp.2 _ fun _ _ => trivial) hI
      rw [ha] at hk
      simpa [run, eval, ha] using hk

end Eval

/-! ### Calls of a run -/

/-- The calls of a run with their answers, in order. -/
def trace (h : Handler S ε σ) : Prog S ε α → σ → List ((c : S.Call) × Except ε (S.Ans c))
  | ret _, _ => []
  | raise _, _ => []
  | call c k, s => ⟨c, (h c s).1⟩ :: trace h (k (h c s).1) (h c s).2

section Trace

variable (h : Handler S ε σ)

@[simp] theorem trace_ret (a : α) (s : σ) : trace h (ret a : Prog S ε α) s = [] := rfl

@[simp] theorem trace_raise (e : ε) (s : σ) : trace h (raise e : Prog S ε α) s = [] := rfl

@[simp] theorem trace_ofExcept (r : Except ε α) (s : σ) : trace h (ofExcept r : Prog S ε α) s = [] := by
  cases r <;> rfl

@[simp] theorem trace_perform (c : S.Call) (s : σ) : trace h (perform c) s = [⟨c, (h c s).1⟩] := by
  simp [perform, trace]

theorem trace_bind (p : Prog S ε α) (f : α → Prog S ε β) (s : σ) :
    trace h (p.bind f) s = trace h p s ++ match run h p s with
      | (.ok a, s') => trace h (f a) s'
      | (.error _, _) => [] := by
  induction p generalizing s with
  | ret a => rfl
  | raise e => rfl
  | call c k ih =>
      simp only [bind, trace, run, List.cons_append]
      rw [ih]

variable {h}

theorem trace_bind_ok {p : Prog S ε α} {f : α → Prog S ε β} {s s' : σ} {a : α} (hp : run h p s = (.ok a, s')) :
    trace h (p.bind f) s = trace h p s ++ trace h (f a) s' := by
  rw [trace_bind, hp]

/-- A sequence returns what its second program returns, after a value of the first. -/
theorem run_bind_eq_ok {p : Prog S ε α} {f : α → Prog S ε β} {s s' : σ} {b : β} (hrun : run h (p.bind f) s = (.ok b, s')) :
    ∃ a s₁, run h p s = (.ok a, s₁) ∧ run h (f a) s₁ = (.ok b, s') := by
  rw [run_bind] at hrun
  rcases hp : run h p s with ⟨r, s₁⟩
  rw [hp] at hrun
  cases r with
  | ok a => exact ⟨a, s₁, rfl, hrun⟩
  | error e => cases hrun

end Trace

/-- Folding a program over a list keeps an invariant that every round keeps. -/
theorem wp_foldlM {f : β → α → Prog S ε β} {I : σ → Prop} {Q : Except ε β → σ → Prop} {l : List α}
    (hround : ∀ b a s, I s → wp M (f b a) (andThen Q (fun _ s' => I s')) s)
    (hend : ∀ b s, I s → Q (.ok b) s) {b : β} {s : σ} (hs : I s) : wp M (l.foldlM f b) Q s := by
  induction l generalizing b s with
  | nil => exact hend b s hs
  | cons a l ih =>
      rw [List.foldlM_cons]
      show wp M ((f b a).bind _) Q s
      rw [wp_bind]
      refine wp_mono (fun r s' hr => ?_) (hround b a s hs)
      cases r with
      | ok b' => exact ih hr
      | error e => exact hr

end Prog

end Calls
