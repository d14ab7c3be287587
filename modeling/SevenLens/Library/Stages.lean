import Mathlib.Data.List.Basic

/-! # Calls in stages

A call runs its stages one after the other on a shared state and ends at the first one that fails.
It can also be stopped between two stages, and then the state keeps what the stages before have
done.  A stage is settled in a state if it goes through there and changes nothing.  When every
stage leaves itself and the stages before it settled, a call that was stopped or that failed can be
made again: it ends as if it had not been made before (`run_again`). -/

namespace Stages

variable {ε σ : Type}

/-- The state after the stages, and how the call failed if it did. -/
def run : List (σ → Except ε σ) → σ → σ × Option ε
  | [], s => (s, none)
  | f :: fs, s =>
    match f s with
    | .ok t => run fs t
    | .error e => (s, some e)

/-- The stages go through and change nothing. -/
def Settled (fs : List (σ → Except ε σ)) (s : σ) : Prop := ∀ f ∈ fs, f s = .ok s

/-- Each stage leaves the stages up to it settled. -/
def Resumable (fs : List (σ → Except ε σ)) : Prop :=
  ∀ done f rest, fs = done ++ f :: rest → ∀ s t, Settled done s → f s = .ok t → Settled (done ++ [f]) t

theorem run_append {fs : List (σ → Except ε σ)} (gs : List (σ → Except ε σ)) (s : σ) :
    run (fs ++ gs) s = match run fs s with
      | (t, none) => run gs t
      | (t, some e) => (t, some e) := by
  induction fs generalizing s with
  | nil => rfl
  | cons f fs ih =>
    rw [List.cons_append, run, run]
    cases f s with
    | ok t => exact ih t
    | error e => rfl

theorem run_append_of_settled {done : List (σ → Except ε σ)} {s : σ} (h : Settled done s) (rest : List (σ → Except ε σ)) :
    run (done ++ rest) s = run rest s := by
  induction done with
  | nil => rfl
  | cons f done ih =>
    obtain ⟨hf, hdone⟩ := List.forall_mem_cons.mp h
    rw [List.cons_append, run, hf]
    exact ih hdone

/-- Where a call that was stopped is continued: some stages are settled, and the call behaves like
the rest of them. -/
theorem exists_rest {done fs rest : List (σ → Except ε σ)} (h : Resumable (done ++ fs ++ rest)) {s : σ}
    (hs : Settled done s) :
    ∃ done' rest', done ++ fs ++ rest = done' ++ rest' ∧ Settled done' (run fs s).1 ∧
      run (fs ++ rest) s = run rest' (run fs s).1 := by
  induction fs generalizing done s with
  | nil =>
    rw [List.append_nil] at h ⊢
    exact ⟨done, rest, rfl, hs, rfl⟩
  | cons f fs ih =>
    cases hf : f s with
    | error e =>
      refine ⟨done, f :: fs ++ rest, by simp, ?_, ?_⟩
      · rw [run, hf]
        exact hs
      · have hfail : run (f :: fs) s = (s, some e) := by rw [run, hf]
        rw [hfail]
    | ok t =>
      have hsplit : done ++ f :: fs ++ rest = done ++ [f] ++ fs ++ rest := by simp
      rw [hsplit] at h ⊢
      have ht : Settled (done ++ [f]) t := h done f (fs ++ rest) (by simp) s t hs hf
      obtain ⟨done', rest', hlist, hsettled, hrun⟩ := ih h ht
      refine ⟨done', rest', hlist, ?_, ?_⟩
      · rw [run, hf]
        exact hsettled
      · rw [List.cons_append, run, hf, run, hf]
        exact hrun

/-- A call that is made again after it was stopped, or after it failed, ends as if it had been made
once. -/
theorem run_again {fs rest : List (σ → Except ε σ)} (h : Resumable (fs ++ rest)) (s : σ) :
    run (fs ++ rest) (run fs s).1 = run (fs ++ rest) s := by
  have hs : Settled ([] : List (σ → Except ε σ)) s := fun _ hf => nomatch hf
  obtain ⟨done, rest', hlist, hsettled, hrun⟩ := @exists_rest _ _ [] fs rest (by simpa using h) s hs
  rw [List.nil_append] at hlist
  rw [hrun]
  exact (congrArg (fun gs => run gs (run fs s).1) hlist).trans (run_append_of_settled hsettled rest')

/-- It is enough to look at the stages two by two: each is settled when it has gone through, and a
later one leaves an earlier one settled. -/
theorem resumable_of_pairwise {fs : List (σ → Except ε σ)} (hself : ∀ f ∈ fs, ∀ s t, f s = .ok t → f t = .ok t)
    (hkeep : fs.Pairwise (fun g f => ∀ s t, g s = .ok s → f s = .ok t → g t = .ok t)) : Resumable fs := by
  rintro done f rest rfl s t hs ht g hg
  rcases List.mem_append.mp hg with hg | hg
  · exact (List.pairwise_append.mp hkeep).2.2 g hg f (by simp) s t (hs g hg) ht
  · rw [List.mem_singleton.mp hg]
    exact hself f (by simp) s t ht

/-! ### Related states -/

theorem bind_congr {α β : Type} {x : Except ε α} {f g : α → Except ε β} (h : ∀ a, x = .ok a → f a = g a) :
    (x >>= f) = (x >>= g) := by
  cases x with
  | ok a => exact h a rfl
  | error e => rfl

/-- Both results fail in the same way, or both give states that are related. -/
inductive Alike (rel : σ → σ → Prop) : Except ε σ → Except ε σ → Prop where
  | ok {s t : σ} (h : rel s t) : Alike rel (.ok s) (.ok t)
  | error (e : ε) : Alike rel (.error e) (.error e)

/-- A check that does not read the state keeps results alike. -/
theorem Alike.bind {α : Type} {rel : σ → σ → Prop} (x : Except ε α) {f g : α → Except ε σ}
    (h : ∀ a, x = .ok a → Alike rel (f a) (g a)) : Alike rel (x >>= f) (x >>= g) := by
  cases x with
  | ok a => exact h a rfl
  | error e => exact .error e

/-- Stages that keep states related do so one after the other. -/
theorem run_alike {rel : σ → σ → Prop} {fs : List (σ → Except ε σ)}
    (hfs : ∀ f ∈ fs, ∀ s t, rel s t → Alike rel (f s) (f t)) {s t : σ} (h : rel s t) : rel (run fs s).1 (run fs t).1 := by
  induction fs generalizing s t with
  | nil => exact h
  | cons f fs ih =>
    obtain ⟨hf, hfs⟩ := List.forall_mem_cons.mp hfs
    have hnext := hf s t h
    rw [run, run]
    cases hfst : f s with
    | ok s' =>
      rw [hfst] at hnext
      cases htft : f t with
      | ok t' =>
        rw [htft] at hnext
        cases hnext with
        | ok h' => exact ih hfs h'
      | error e =>
        rw [htft] at hnext
        cases hnext
    | error e =>
      rw [hfst] at hnext
      cases htft : f t with
      | ok t' =>
        rw [htft] at hnext
        cases hnext
      | error e' => exact h

/-- What every stage keeps, the call keeps. -/
theorem run_keeps {keep : σ → σ → Prop} (hrefl : ∀ s, keep s s) (htrans : ∀ s t u, keep s t → keep t u → keep s u)
    {fs : List (σ → Except ε σ)} (hfs : ∀ f ∈ fs, ∀ s t, f s = .ok t → keep s t) (s : σ) : keep s (run fs s).1 := by
  induction fs generalizing s with
  | nil => exact hrefl s
  | cons f fs ih =>
    obtain ⟨hf, hfs⟩ := List.forall_mem_cons.mp hfs
    rw [run]
    cases hfs' : f s with
    | ok t => exact htrans s t _ (hf s t hfs') (ih hfs t)
    | error e => exact hrefl s

end Stages
