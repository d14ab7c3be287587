import Mathlib.Data.List.Infix
import SevenLens.Library.Rank

/-! # Greedy choice from a ranked list

A list is gone through once.  An entry is passed over if what has been chosen before tells against
it, or if no more can be taken; otherwise its value is chosen.  What is chosen from a beginning of
the list is a beginning of what is chosen (`greedy_begins`), so that each entry is either chosen or
passed over for a reason that lies before it (`greedy_maximal`).

Beside it, what two sorted arrangements of the same entries have in common: their keys
(`map_key_sortOn`). -/

namespace List

variable {α β κ : Type}

/-! ### Sorting -/

/-- Lists with the same keys have the same of everything that depends on the key alone. -/
theorem map_eq_of_key {key : α → κ} {f : α → β} (hf : ∀ a b, key a = key b → f a = f b) {l m : List α} (h : l.map key = m.map key) :
    l.map f = m.map f := by
  induction l generalizing m with
  | nil => rw [map_eq_nil_iff.mp h.symm, map_nil]
  | cons a l ih =>
    cases m with
    | nil => cases h
    | cons b m =>
      obtain ⟨hab, hlm⟩ := cons.inj h
      rw [map_cons, map_cons, hf a b hab, ih hlm]

section Sorting

variable [LinearOrder κ] {key : α → κ}

/-- The keys of the sorted list do not depend on the order of the input, even where they are repeated. -/
theorem map_key_sortOn {l m : List α} (h : l.Perm m) : (l.sortOn key).map key = (m.sortOn key).map key := by
  have hsorted : ∀ l : List α, ((l.sortOn key).map key).Pairwise (· ≤ ·) := fun l =>
    pairwise_map.mpr (pairwise_sortOn key l)
  have hperm := (((sortOn_perm key l).trans h).trans (sortOn_perm key m).symm).map key
  exact hperm.eq_of_pairwise (fun _ _ _ _ => le_antisymm) (hsorted l) (hsorted m)

/-- A function that keeps the key commutes with sorting. -/
theorem map_sortOn_map {g : α → α} (hg : ∀ a, key (g a) = key a) (l : List α) :
    (l.sortOn key).map g = (l.map g).sortOn key :=
  map_insertionSort _ _ g l fun a _ b _ => by simp only [hg]

end Sorting

/-! ### Greedy choice -/

section Greedy

variable (value : α → β) (passes full : List β → α → Prop) [∀ chosen a, Decidable (passes chosen a)]
  [∀ chosen a, Decidable (full chosen a)]

/-- One entry. -/
def greedyStep (chosen : List β) (a : α) : List β :=
  if passes chosen a ∨ full chosen a then chosen else chosen ++ [value a]

/-- The list is gone through once. -/
def greedy (l : List α) : List β := l.foldl (greedyStep value passes full) []

variable {value passes full} {l before after : List α} {a : α}

theorem greedy_concat (l : List α) (a : α) :
    greedy value passes full (l ++ [a]) = greedyStep value passes full (greedy value passes full l) a := by
  rw [greedy, foldl_append]
  rfl

/-- What holds of nothing and is kept by every choice holds of what is chosen. -/
theorem greedy_rec {P : List β → Prop} (hnil : P [])
    (hstep : ∀ chosen, ∀ a ∈ l, P chosen → ¬ passes chosen a → ¬ full chosen a → P (chosen ++ [value a])) :
    P (greedy value passes full l) := by
  induction l using reverseRecOn with
  | nil => exact hnil
  | append_singleton l a ih =>
    have ih := ih fun chosen b hb => hstep chosen b (mem_append_left [a] hb)
    rw [greedy_concat, greedyStep]
    split_ifs with h
    · exact ih
    · obtain ⟨hpass, hfull⟩ := not_or.mp h
      exact hstep _ a (mem_append_right l (mem_singleton_self a)) ih hpass hfull

/-- What is chosen are the values of some entries, in their order. -/
theorem greedy_eq_map (l : List α) : ∃ picked : List α, picked.Sublist l ∧ greedy value passes full l = picked.map value := by
  induction l using reverseRecOn with
  | nil => exact ⟨[], Sublist.slnil, rfl⟩
  | append_singleton l a ih =>
    obtain ⟨picked, hsub, heq⟩ := ih
    rw [greedy_concat, greedyStep]
    split_ifs
    · exact ⟨picked, hsub.trans (sublist_append_left l [a]), heq⟩
    · exact ⟨picked ++ [a], hsub.append_right [a], by rw [heq, map_append, map_singleton]⟩

/-- What is chosen from a beginning is chosen first. -/
theorem greedy_begins (l after : List α) : greedy value passes full l <+: greedy value passes full (l ++ after) := by
  induction after using reverseRecOn with
  | nil => rw [append_nil]
  | append_singleton after a ih =>
    rw [← append_assoc, greedy_concat, greedyStep]
    split_ifs
    · exact ih
    · exact ih.trans (prefix_append _ _)

/-- An entry is chosen after those before it, or passed over for what has been chosen from these. -/
theorem greedy_maximal (before : List α) (a : α) (after : List α) :
    greedy value passes full before ++ [value a] <+: greedy value passes full (before ++ a :: after) ∨
      passes (greedy value passes full before) a ∨ full (greedy value passes full before) a := by
  by_cases h : passes (greedy value passes full before) a ∨ full (greedy value passes full before) a
  · exact .inr h
  · have hstep : greedy value passes full (before ++ [a]) = greedy value passes full before ++ [value a] := by
      rw [greedy_concat, greedyStep, if_neg h]
    rw [← hstep, append_cons before a after]
    exact .inl (greedy_begins (before ++ [a]) after)

/-- Once no more can be taken the rest of the list changes nothing. -/
theorem foldl_greedyStep_of_full {chosen : List β} (h : ∀ a, full chosen a) (l : List α) :
    l.foldl (greedyStep value passes full) chosen = chosen := by
  induction l with
  | nil => rfl
  | cons a l ih => rw [foldl_cons, greedyStep, if_pos (.inr (h a)), ih]

end Greedy

end List
