import SevenLens.Library.Prog

/-! # Programs in a transaction

A program works on a connection whose transaction a commit makes durable and a rollback discards.  A part of the
state is read twice: as it is durable, and as the transaction sees it.  When every call of a run leaves the part
alone, its fate is decided by the first end of the transaction (`run_outcome`), whatever else the run does.

`Keeps` is the rule of invariants for programs: it composes along the program, and calls that always keep an
invariant are covered by `Within` (`keeps_within`). -/

namespace Calls

/-- How a transaction ends. -/
inductive Ending where
  | commit | discard
deriving DecidableEq

/-- What becomes of a value that is durably `d` and seen as `v`, by the first end of the transaction. -/
def Ending.outcome {V : Type} (d v : V) : Option Ending → V × V
  | none => (d, v)
  | some .commit => (v, v)
  | some .discard => (d, d)

@[simp] theorem Ending.outcome_self {V : Type} (v : V) (e : Option Ending) : Ending.outcome v v e = (v, v) := by
  obtain _ | _ | _ := e <;> rfl

namespace Prog

variable {S : Sig} {ε α β σ : Type}

/-! ### Invariants of programs -/

section Keeps

variable {M : System S ε σ} {I : σ → Prop}

/-- The program keeps the invariant, however it ends. -/
def Keeps (M : System S ε σ) (I : σ → Prop) (p : Prog S ε α) : Prop := ∀ s, I s → wp M p (fun _ s' => I s') s

theorem keeps_ret (a : α) : Keeps M I (ret a) := fun _ hs => hs

theorem keeps_raise (e : ε) : Keeps M I (raise e : Prog S ε α) := fun _ hs => hs

theorem keeps_perform {c : S.Call} (hok : ∀ s, I s → M.Ok s c) (hstep : ∀ s r s', I s → M.Step s c r s' → I s') :
    Keeps M I (perform c : Prog S ε (S.Ans c)) := fun s hs => wp_perform.mpr ⟨hok s hs, fun r s' h => hstep s r s' hs h⟩

theorem keeps_bind {p : Prog S ε α} {f : α → Prog S ε β} (hp : Keeps M I p) (hf : ∀ a, Keeps M I (f a)) :
    Keeps M I (p.bind f) := by
  intro s hs
  rw [wp_bind]
  refine wp_mono (fun r s' hs' => ?_) (hp s hs)
  cases r with
  | ok a => exact hf a s' hs'
  | error e => exact hs'

theorem keeps_tryCatch {p : Prog S ε α} {f : ε → Prog S ε α} (hp : Keeps M I p) (hf : ∀ e, Keeps M I (f e)) :
    Keeps M I (p.tryCatch f) := by
  intro s hs
  rw [wp_tryCatch]
  refine wp_mono (fun r s' hs' => ?_) (hp s hs)
  cases r with
  | ok a => exact hs'
  | error e => exact hf e s' hs'

theorem keeps_ite {c : Prop} [Decidable c] {p q : Prog S ε α} (hp : c → Keeps M I p) (hq : ¬ c → Keeps M I q) :
    Keeps M I (if c then p else q) := by
  split
  · exact hp ‹_›
  · exact hq ‹_›

theorem keeps_foldlM {f : β → α → Prog S ε β} {l : List α} (hf : ∀ a ∈ l, ∀ b, Keeps M I (f b a)) (b : β) :
    Keeps M I (l.foldlM f b) := by
  induction l generalizing b with
  | nil => exact keeps_ret b
  | cons a l ih =>
    rw [List.foldlM_cons]
    exact keeps_bind (hf a List.mem_cons_self b) fun b => ih (fun a ha => hf a (List.mem_cons_of_mem _ ha)) b

/-- Calls that keep the invariant make programs that do. -/
theorem keeps_within {C : S.Call → Prop} (hstep : ∀ s c r s', I s → C c → M.Step s c r s' → I s')
    (hok : ∀ s c, I s → C c → M.Ok s c) {p : Prog S ε α} (hp : Within C (fun _ => True) p) : Keeps M I p :=
  fun _ hs => wp_mono (fun _ _ h => h.1)
    (wp_within (fun s c r s' hs hc h => ⟨hstep s c r s' hs hc h, fun _ _ => trivial⟩) hok hp hs)

end Keeps

/-! ### The end of the transaction -/

section Ends

variable {V : Type} (h : Handler S ε σ) (ends : σ → S.Call → Option Ending)

/-- The first end of the transaction that the program reaches. -/
def firstEnd : Prog S ε α → σ → Option Ending
  | ret _, _ => none
  | raise _, _ => none
  | call c k, s => (ends s c).or (firstEnd (k (h c s).1) (h c s).2)

/-- The execution by a handler, where every call has to be `ok`. -/
def executing (ok : σ → S.Call → Prop) : System S ε σ := ⟨fun s c r s' => h c s = (r, s'), ok⟩

/-- The call leaves a part of the state alone, which is durably `durable` and seen as `seen`. -/
structure Spared (durable seen : σ → V) (s : σ) (c : S.Call) : Prop where
  kept : ends s c = none → durable (h c s).2 = durable s ∧ seen (h c s).2 = seen s
  committed : ends s c = some .commit → durable (h c s).2 = seen s ∧ seen (h c s).2 = seen s
  discarded : ends s c = some .discard → durable (h c s).2 = durable s ∧ seen (h c s).2 = durable s

variable {h ends} {ok : σ → S.Call → Prop} {durable seen : σ → V}

theorem run_of_wp {p : Prog S ε α} {Q : Except ε α → σ → Prop} {s : σ} (hp : wp (executing h ok) p Q s) :
    Q (run h p s).1 (run h p s).2 := by
  induction p generalizing s with
  | ret a => exact hp
  | raise e => exact hp
  | call c k ih => exact ih _ (hp.2 _ _ rfl)

theorem Spared.outcome {s : σ} {c : S.Call} (hc : Spared h ends durable seen s c) :
    durable (h c s).2 = (Ending.outcome (durable s) (seen s) (ends s c)).1 ∧
      seen (h c s).2 = (Ending.outcome (durable s) (seen s) (ends s c)).2 := by
  obtain hnone | ⟨_ | _, hend⟩ := Option.eq_none_or_eq_some (ends s c)
  · rw [hnone]
    exact hc.kept hnone
  · rw [hend]
    exact hc.committed hend
  · rw [hend]
    exact hc.discarded hend

/-- What a run of sparing calls makes of the part is decided by the first end of the transaction. -/
theorem run_outcome (hok : ∀ s c, ok s c → Spared h ends durable seen s c) {p : Prog S ε α}
    {Q : Except ε α → σ → Prop} {s : σ} (hp : wp (executing h ok) p Q s) :
    (durable (run h p s).2, seen (run h p s).2) = Ending.outcome (durable s) (seen s) (firstEnd h ends p s) := by
  induction p generalizing s with
  | ret a => rfl
  | raise e => rfl
  | call c k ih =>
    obtain ⟨hdurable, hseen⟩ := (hok s c hp.1).outcome
    rw [run, ih _ (hp.2 _ _ rfl), firstEnd, hdurable, hseen]
    -- after the first end the two readings agree, and later ends do not tell them apart
    obtain _ | _ | _ := ends s c
    · rfl
    · exact Ending.outcome_self _ _
    · exact Ending.outcome_self _ _

/-- A property of both readings is kept by sparing calls. -/
theorem Spared.both {P : V → Prop} {s : σ} {c : S.Call} (hc : Spared h ends durable seen s c) (hd : P (durable s))
    (hv : P (seen s)) : P (durable (h c s).2) ∧ P (seen (h c s).2) := by
  obtain ⟨hdurable, hseen⟩ := hc.outcome
  rw [hdurable, hseen]
  obtain _ | _ | _ := ends s c
  · exact ⟨hd, hv⟩
  · exact ⟨hv, hv⟩
  · exact ⟨hd, hd⟩

end Ends

end Prog

end Calls
