import Mathlib.Logic.Function.Basic
import SevenLens.Library.SlidingWindow
import SevenLens.Securities.Contracts

/-! # The rate budget of a source family

`_reserve_rate` keeps for each family the instants at which a request was admitted, drops those
that are older than the window of the family, and refuses a request when the window or the last
second is full.  The verdict is the one that all admissions would give (`verdict_iff`), although
both branches rewrite the list that is kept (`kept_eq`). -/

namespace SevenLens.Sources

open Securities

/-! ### Policies -/

def maxWindowSeconds : Nat := 3600

/-- What the transport reads of the policy of a family, with what `_validate_budgets` asks of it. -/
structure SourceFamilyPolicy where
  requestsPerWindow : Nat
  windowSeconds : Nat
  burstLimit : Nat
  window_ok : 1 ≤ windowSeconds ∧ windowSeconds ≤ maxWindowSeconds
  positive : 1 ≤ requestsPerWindow ∧ 1 ≤ burstLimit

/-- `_PINNED_RATES`: requests, seconds of the window, burst. -/
def pinnedRates : P4SourceFamily → Nat × Nat × Nat
  | .alpacaAssets | .alpacaHistoricalBars | .alpacaIexQuotes | .alpacaCorporateActions => (200, 60, 10)
  | .secEdgar => (5, 1, 5)
  | .fredAlfred => (120, 60, 10)
  | .treasury | .bea | .eia => (30, 60, 5)
  | .issuerIr | .exchangeOfficial | .bls | .tavily | .gdelt | .yfinance => (10, 60, 5)

/-- The policy of each family. -/
abbrev Registry : Type := P4SourceFamily → SourceFamilyPolicy

/-- The one registry that `_validate_budgets` lets through. -/
def pinnedRegistry : Registry := fun family =>
  ⟨(pinnedRates family).1, (pinnedRates family).2.1, (pinnedRates family).2.2, by cases family <;> decide,
    by cases family <;> decide⟩

/-! ### Reservations -/

section

variable {T : Type} [LinearOrder T] (c : Clock T) (R : Registry)

/-- `_rate_history` -/
abbrev RateHistory (T : Type) : Type := P4SourceFamily → List T

/-- `_reserve_rate` -/
def reserveRate (rateHistory : RateHistory T) (family : P4SourceFamily) (now : T) : Bool × RateHistory T :=
  let policy := R family
  let history := (rateHistory family).filter (fun stamp => c.elapsed now stamp < policy.windowSeconds)
  let burstCount := history.countP (fun stamp => c.elapsed now stamp < 1)
  if policy.requestsPerWindow ≤ history.length ∨ policy.burstLimit ≤ burstCount then
    (false, Function.update rateHistory family history)
  else (true, Function.update rateHistory family (history ++ [now]))

/-- The lists that the transport keeps, beside all admissions so far. -/
structure Reservations (T : Type) where
  history : RateHistory T
  admitted : RateHistory T

/-- One call. -/
def reserve (s : Reservations T) (call : P4SourceFamily × T) : Reservations T :=
  match reserveRate c R s.history call.1 call.2 with
  | (true, history) => ⟨history, Function.update s.admitted call.1 (s.admitted call.1 ++ [call.2])⟩
  | (false, history) => ⟨history, s.admitted⟩

/-- The calls one after the other, from a new transport. -/
def reserveAll (calls : List (P4SourceFamily × T)) : Reservations T :=
  calls.foldl (reserve c R) ⟨fun _ => [], fun _ => []⟩

/-- The instants at which a call for the family was admitted. -/
def admissions (calls : List (P4SourceFamily × T)) (family : P4SourceFamily) : List T :=
  (reserveAll c R calls).admitted family

/-- The answer to a call after others. -/
def verdict (calls : List (P4SourceFamily × T)) (call : P4SourceFamily × T) : Bool :=
  (reserveRate c R (reserveAll c R calls).history call.1 call.2).1

/-- Admitting a request at the instant would keep to both limits. -/
def Admits (policy : SourceFamilyPolicy) (admitted : List T) (now : T) : Prop :=
  admitted.countP (c.recent policy.windowSeconds now) < policy.requestsPerWindow ∧
    admitted.countP (c.recent 1 now) < policy.burstLimit

/-- The admissions of every family keep to its limits in every window, a call is refused only if its admission would not,
and the answers to later calls are as if a refused call had not been made. -/
structure WithinBudget (calls : List (P4SourceFamily × T)) : Prop where
  window : ∀ family start, (admissions c R calls family).countP (c.inWindow start (R family).windowSeconds) ≤
    (R family).requestsPerWindow
  burst : ∀ family start, (admissions c R calls family).countP (c.inWindow start 1) ≤ (R family).burstLimit
  refusal : ∀ before call, before ++ [call] <+: calls → verdict c R before call = false →
    (∃ start, c.inWindow start (R call.1).windowSeconds call.2 = true ∧ (R call.1).requestsPerWindow <
      (admissions c R before call.1 ++ [call.2]).countP (c.inWindow start (R call.1).windowSeconds)) ∨
    ∃ start, c.inWindow start 1 call.2 = true ∧ (R call.1).burstLimit <
      (admissions c R before call.1 ++ [call.2]).countP (c.inWindow start 1)
  unspent : ∀ before refused after call, before ++ refused :: (after ++ [call]) <+: calls →
    verdict c R before refused = false → verdict c R (before ++ refused :: after) call = verdict c R (before ++ after) call

end

/-! ### What is kept -/

section

variable {T : Type} [LinearOrder T] {c : Clock T} {R : Registry} {calls : List (P4SourceFamily × T)}
  {call : P4SourceFamily × T}

theorem SourceFamilyPolicy.second_le (policy : SourceFamilyPolicy) : (1 : ℚ) ≤ policy.windowSeconds := by
  exact_mod_cast policy.window_ok.1

/-- A call decides by what is kept, keeps what is recent and adds itself if it is admitted. -/
theorem reserveRate_eq (history : RateHistory T) (family : P4SourceFamily) (now : T) :
    ((reserveRate c R history family now).1 = true ↔ Admits c (R family) (history family) now) ∧
    (reserveRate c R history family now).2 = Function.update history family
      ((history family).filter (c.recent (R family).windowSeconds now) ++
        if (reserveRate c R history family now).1 then [now] else []) := by
  have hlength : ((history family).filter (fun stamp => decide (c.elapsed now stamp < (R family).windowSeconds))).length =
      (history family).countP (c.recent (R family).windowSeconds now) := List.countP_eq_length_filter.symm
  have hburst : ((history family).filter (fun stamp => decide (c.elapsed now stamp < (R family).windowSeconds))).countP
      (fun stamp => decide (c.elapsed now stamp < 1)) = (history family).countP (c.recent 1 now) :=
    Clock.countP_filter_recent (R family).second_le now (history family)
  unfold reserveRate
  simp only [hlength, hburst]
  by_cases hfull : (R family).requestsPerWindow ≤ (history family).countP (c.recent (R family).windowSeconds now) ∨
      (R family).burstLimit ≤ (history family).countP (c.recent 1 now)
  · simp only [if_pos hfull, Bool.false_eq_true, if_false, List.append_nil, false_iff]
    exact ⟨fun h => hfull.elim (not_le.mpr h.1) (not_le.mpr h.2), rfl⟩
  · simp only [if_neg hfull, if_true, true_iff]
    obtain ⟨hwindow, hlast⟩ := not_or.mp hfull
    exact ⟨⟨not_le.mp hwindow, not_le.mp hlast⟩, rfl⟩

theorem reserveAll_concat (calls : List (P4SourceFamily × T)) (call : P4SourceFamily × T) :
    reserveAll c R (calls ++ [call]) = reserve c R (reserveAll c R calls) call := by
  rw [reserveAll, List.foldl_append]
  rfl

theorem history_concat (calls : List (P4SourceFamily × T)) (call : P4SourceFamily × T) :
    (reserveAll c R (calls ++ [call])).history = (reserveRate c R (reserveAll c R calls).history call.1 call.2).2 := by
  rw [reserveAll_concat, reserve]
  split <;> rename_i h <;> rw [h]

theorem admissions_concat (calls : List (P4SourceFamily × T)) (call : P4SourceFamily × T) (family : P4SourceFamily) :
    admissions c R (calls ++ [call]) family =
      admissions c R calls family ++ if call.1 = family ∧ verdict c R calls call = true then [call.2] else [] := by
  rw [admissions, reserveAll_concat, reserve, verdict]
  split <;> rename_i h <;> rw [h]
  · by_cases hf : call.1 = family
    · subst hf
      simp [admissions]
    · simp [admissions, hf, Function.update_of_ne (Ne.symm hf)]
  · simp [admissions]

/-- Every admission was at a call. -/
theorem mem_of_admissions {family : P4SourceFamily} {t : T} (h : t ∈ admissions c R calls family) :
    ∃ call ∈ calls, call.2 = t := by
  induction calls using List.reverseRecOn with
  | nil => exact absurd h List.not_mem_nil
  | append_singleton calls call ih =>
    rw [admissions_concat, List.mem_append] at h
    rcases h with h | h
    · obtain ⟨x, hx, rfl⟩ := ih h
      exact ⟨x, List.mem_append_left _ hx, rfl⟩
    · split_ifs at h
      · exact ⟨call, List.mem_append_right _ (List.mem_singleton_self call), (List.mem_singleton.mp h).symm⟩
      · cases h

/-- The calls are made at instants that do not decrease. -/
def InOrder (calls : List (P4SourceFamily × T)) : Prop := (calls.map Prod.snd).Pairwise (· ≤ ·)

theorem inOrder_concat : InOrder (calls ++ [call]) ↔ InOrder calls ∧ ∀ x ∈ calls, x.2 ≤ call.2 := by
  simp only [InOrder, List.map_append, List.map_cons, List.map_nil, List.pairwise_append, List.pairwise_singleton, true_and,
    List.forall_mem_singleton, List.forall_mem_map]

theorem InOrder.of_prefix {before : List (P4SourceFamily × T)} (h : InOrder calls) (hb : before <+: calls) : InOrder before :=
  h.sublist (hb.sublist.map Prod.snd)

theorem pairwise_admissions (h : InOrder calls) (family : P4SourceFamily) :
    (admissions c R calls family).Pairwise (· ≤ ·) := by
  induction calls using List.reverseRecOn with
  | nil => exact List.Pairwise.nil
  | append_singleton calls call ih =>
    obtain ⟨hcalls, hlast⟩ := inOrder_concat.mp h
    rw [admissions_concat, List.pairwise_append]
    refine ⟨ih hcalls, by split_ifs <;> simp, fun a ha b hb => ?_⟩
    obtain ⟨x, hx, rfl⟩ := mem_of_admissions ha
    split_ifs at hb
    · rw [List.mem_singleton.mp hb]
      exact hlast x hx
    · cases hb

/-- Of what is kept and of all admissions the same is recent, now and later. -/
theorem kept_eq (h : InOrder calls) (family : P4SourceFamily) {now : T} (hnow : ∀ x ∈ calls, x.2 ≤ now) :
    ((reserveAll c R calls).history family).filter (c.recent (R family).windowSeconds now) =
      (admissions c R calls family).filter (c.recent (R family).windowSeconds now) := by
  induction calls using List.reverseRecOn with
  | nil => rfl
  | append_singleton calls call ih =>
    obtain ⟨hcalls, hlast⟩ := inOrder_concat.mp h
    have hcall : call.2 ≤ now := hnow call (List.mem_append_right _ (List.mem_singleton_self call))
    have ih := ih hcalls fun x hx => hnow x (List.mem_append_left _ hx)
    rw [history_concat, (reserveRate_eq _ _ _).2, admissions_concat]
    by_cases hf : call.1 = family
    · subst hf
      rw [Function.update_self, List.filter_append, List.filter_append, Clock.filter_recent_filter hcall, ih, ← verdict]
      simp
    · rw [Function.update_of_ne (Ne.symm hf), if_neg (fun hand => hf hand.1), List.append_nil, ih]

/-- The answer to a call is the one that all admissions give. -/
theorem verdict_iff (h : InOrder (calls ++ [call])) :
    verdict c R calls call = true ↔ Admits c (R call.1) (admissions c R calls call.1) call.2 := by
  obtain ⟨hcalls, hlast⟩ := inOrder_concat.mp h
  have hkept := kept_eq (c := c) (R := R) hcalls call.1 hlast
  have hburst := congrArg (List.countP (c.recent 1 call.2)) hkept
  rw [Clock.countP_filter_recent (R call.1).second_le, Clock.countP_filter_recent (R call.1).second_le] at hburst
  rw [verdict, (reserveRate_eq _ _ _).1, Admits, Admits, List.countP_eq_length_filter, hkept,
    ← List.countP_eq_length_filter, hburst]

theorem budgeted_admissions (h : InOrder calls) (family : P4SourceFamily) :
    c.Budgeted (R family).windowSeconds (R family).requestsPerWindow (admissions c R calls family) ∧
      c.Budgeted 1 (R family).burstLimit (admissions c R calls family) := by
  induction calls using List.reverseRecOn with
  | nil => exact ⟨Clock.budgeted_nil, Clock.budgeted_nil⟩
  | append_singleton calls call ih =>
    obtain ⟨hwindow, hburst⟩ := ih (inOrder_concat.mp h).1
    rw [admissions_concat]
    split_ifs with hadmitted
    · obtain ⟨rfl, hv⟩ := hadmitted
      obtain ⟨hw, hb⟩ := (verdict_iff h).mp hv
      exact ⟨hwindow.concat hw, hburst.concat hb⟩
    · rw [List.append_nil]
      exact ⟨hwindow, hburst⟩

/-- A refused call leaves no trace in the admissions. -/
theorem admissions_refused {before after : List (P4SourceFamily × T)} {refused : P4SourceFamily × T}
    (h : InOrder (before ++ refused :: after)) (hrefused : verdict c R before refused = false) (family : P4SourceFamily) :
    admissions c R (before ++ refused :: after) family = admissions c R (before ++ after) family := by
  induction after using List.reverseRecOn generalizing family with
  | nil =>
    rw [admissions_concat, hrefused, List.append_nil]
    simp
  | append_singleton after call ih =>
    rw [← List.cons_append, ← List.append_assoc] at h ⊢
    rw [← List.append_assoc]
    have hshort : InOrder (before ++ after ++ [call]) :=
      h.sublist (((List.sublist_cons_self refused after).append_left before).append_right [call] |>.map Prod.snd)
    have ih := ih (inOrder_concat.mp h).1
    have hverdict : verdict c R (before ++ refused :: after) call = verdict c R (before ++ after) call := by
      rw [Bool.eq_iff_iff, verdict_iff h, verdict_iff hshort, ih]
    rw [admissions_concat, admissions_concat, ih, hverdict]

end

/-! ### The budget -/

/-- Whatever calls are made in order of time, each family stays within its budget, and no more is refused than that asks for. -/
theorem rate_budget {T : Type} [LinearOrder T] (c : Clock T) (R : Registry) (calls : List (P4SourceFamily × T))
    (h : (calls.map Prod.snd).Pairwise (· ≤ ·)) : WithinBudget c R calls where
  window family start := (budgeted_admissions h family).1.countP_le start
  burst family start := (budgeted_admissions h family).2.countP_le start
  refusal before call hb hrefused := by
    have hprefix : InOrder (before ++ [call]) := InOrder.of_prefix h hb
    obtain ⟨hbefore, hlast⟩ := inOrder_concat.mp hprefix
    have hnow : ∀ s ∈ admissions c R before call.1, s ≤ call.2 := by
      intro s hs
      obtain ⟨x, hx, rfl⟩ := mem_of_admissions hs
      exact hlast x hx
    have hsorted := pairwise_admissions (c := c) (R := R) hbefore call.1
    have hfull : ¬ Admits c (R call.1) (admissions c R before call.1) call.2 := by
      rw [← verdict_iff hprefix, hrefused]
      exact Bool.false_ne_true
    rw [Admits, not_and_or, not_lt, not_lt] at hfull
    exact hfull.imp (Clock.exists_full_window hsorted hnow (R call.1).positive.1)
      (Clock.exists_full_window hsorted hnow (R call.1).positive.2)
  unspent before refused after call hb hrefused := by
    have hall : InOrder (before ++ refused :: after ++ [call]) := by
      rw [List.append_assoc]
      exact InOrder.of_prefix h hb
    have hshort : InOrder (before ++ after ++ [call]) :=
      hall.sublist (((List.sublist_cons_self refused after).append_left before).append_right [call] |>.map Prod.snd)
    rw [Bool.eq_iff_iff, verdict_iff hall, verdict_iff hshort, admissions_refused (inOrder_concat.mp hall).1 hrefused]

/-- Six requests to the filings within a second, of which the last one is refused, and one to the treasury. -/
theorem rate_budget_filings : WithinBudget Clock.exact pinnedRegistry
    [(.secEdgar, 0), (.secEdgar, 1 / 8), (.secEdgar, 1 / 4), (.treasury, 1 / 4), (.secEdgar, 3 / 8), (.secEdgar, 1 / 2),
      (.secEdgar, 5 / 8)] :=
  rate_budget Clock.exact pinnedRegistry _ (by norm_num)

end SevenLens.Sources
