import SevenLens.Library.Rank
import Mathlib.Data.List.Infix
import Mathlib.Data.List.Dedup

/-! # Windows of a list

The runs of `n` neighbours of a list.  Where the keys of the list increase, they include every
choice of `n` entries with consecutive keys (`isInfix_of_consecutive`).  Beside them, the entry
that comes after all others on a scale. -/

namespace List

variable {α : Type}

/-- The runs of `n` neighbours. -/
def windows (n : Nat) (l : List α) : List (List α) := (range (l.length + 1 - n)).map (fun i => (l.drop i).take n)

theorem mem_windows {n : Nat} {l w : List α} : w ∈ windows n l ↔ w.length = n ∧ w <:+: l := by
  simp only [windows, mem_map, mem_range]
  constructor
  · rintro ⟨i, hi, rfl⟩
    refine ⟨?_, ( take_prefix n _).isInfix.trans (drop_suffix i l).isInfix⟩
    rw [length_take, length_drop]
    omega
  · rintro ⟨rfl, s, t, rfl⟩
    refine ⟨s.length, ?_, ?_⟩
    · simp only [length_append]
      omega
    · rw [append_assoc, drop_left, take_left]

section Consecutive

variable {key : α → Nat} {l w : List α}

/-- A list whose keys increase is cut in two by a bound. -/
theorem filter_lt_append_filter_le (h : l.Pairwise (fun a b => key a < key b)) (k : Nat) :
    l.filter (fun a => decide (key a < k)) ++ l.filter (fun a => decide (k ≤ key a)) = l := by
  induction l with
  | nil => rfl
  | cons a l ih =>
    obtain ⟨ha, hl⟩ := pairwise_cons.mp h
    by_cases hk : key a < k
    · rw [filter_cons_of_pos (by simpa using hk), filter_cons_of_neg (by simpa using hk), cons_append, ih hl]
    · have hnone : l.filter (fun b => decide (key b < k)) = [] := by
        rw [filter_eq_nil_iff]
        intro b hb
        have := ha b hb
        simp only [decide_eq_true_eq]
        omega
      have hall : l.filter (fun b => decide (k ≤ key b)) = l := by
        rw [filter_eq_self]
        intro b hb
        have := ha b hb
        simp only [decide_eq_true_eq]
        omega
      rw [filter_cons_of_neg (by simpa using hk), filter_cons_of_pos (by simpa using hk), hnone, hall, nil_append]

theorem pairwise_lt_of_consecutive {k n : Nat} (h : w.map key = range' k n) :
    w.Pairwise (fun a b => key a < key b) := by
  rw [← pairwise_map (f := key) (R := (· < ·)), h]
  exact pairwise_lt_range'

theorem key_of_consecutive {k n : Nat} (h : w.map key = range' k n) {a : α} (ha : a ∈ w) :
    k ≤ key a ∧ key a < k + n := by
  have hmem : key a ∈ range' k n := h ▸ mem_map_of_mem ha
  simpa [mem_range'_1] using hmem

/-- Entries with consecutive keys are neighbours where the keys increase. -/
theorem isInfix_of_consecutive (hl : l.Pairwise (fun a b => key a < key b)) (hw : ∀ a ∈ w, a ∈ l) {k n : Nat}
    (hk : w.map key = range' k n) : w <:+: l := by
  have hinj : ∀ {a b}, a ∈ l → b ∈ l → key a = key b → a = b := by
    intro a b ha hb hab
    have hn : (l.map key).Nodup := by
      rw [Nodup, pairwise_map]
      exact hl.imp (fun h => h.ne)
    exact inj_on_of_nodup_map hn ha hb hab
  have hrest : (l.filter (fun a => decide (k ≤ key a))).Pairwise (fun a b => key a < key b) := hl.filter _
  have hmid : w = (l.filter (fun a => decide (k ≤ key a))).filter (fun a => decide (key a < k + n)) := by
    refine eq_of_pairwise_lt (pairwise_lt_of_consecutive hk) (hrest.filter _) (fun a => ⟨fun ha => ?_, fun ha => ?_⟩)
    · obtain ⟨hlow, hhigh⟩ := key_of_consecutive hk ha
      simp only [mem_filter, decide_eq_true_eq]
      exact ⟨⟨hw a ha, hlow⟩, hhigh⟩
    · simp only [mem_filter, decide_eq_true_eq] at ha
      obtain ⟨⟨hal, hlow⟩, hhigh⟩ := ha
      have hmem : key a ∈ w.map key := by
        rw [hk, mem_range'_1]
        exact ⟨hlow, hhigh⟩
      obtain ⟨b, hb, hab⟩ := mem_map.mp hmem
      rwa [← hinj (hw b hb) hal hab]
  refine ⟨l.filter (fun a => decide (key a < k)),
    (l.filter (fun a => decide (k ≤ key a))).filter (fun a => decide (k + n ≤ key a)), ?_⟩
  rw [hmid, append_assoc, filter_lt_append_filter_le hrest, filter_lt_append_filter_le hl]

end Consecutive

/-! ### The latest entry -/

section Latest

variable [DecidableEq α] {f : α → Nat} {l : List α} {a : α}

/-- The entry that comes after all others on a scale. -/
def uniqueLatest (f : α → Nat) (l : List α) : Option α := do
  let latest ← (l.map f).max?
  match (l.filter (fun a => decide (f a = latest))).dedup with
  | [a] => some a
  | _ => none

theorem dedup_eq_singleton : l.dedup = [a] ↔ a ∈ l ∧ ∀ b ∈ l, b = a := by
  constructor
  · intro h
    have hmem : ∀ b, b ∈ l ↔ b = a := fun b => by rw [← mem_dedup, h, mem_singleton]
    exact ⟨(hmem a).mpr rfl, fun b hb => (hmem b).mp hb⟩
  · rintro ⟨ha, hall⟩
    refine perm_singleton.mp ((perm_ext_iff_of_nodup (nodup_dedup l) (nodup_singleton a)).mpr (fun b => ?_))
    rw [mem_dedup, mem_singleton]
    exact ⟨hall b, fun h => h ▸ ha⟩

theorem uniqueLatest_eq_some : uniqueLatest f l = some a ↔ a ∈ l ∧ ∀ b ∈ l, b = a ∨ f b < f a := by
  have hmatch : ∀ m : List α, (match m with | [a] => some a | _ => none) = some a ↔ m = [a] := by
    intro m
    split <;> simp_all
  simp only [uniqueLatest, Option.bind_eq_bind, Option.bind_eq_some_iff, hmatch, dedup_eq_singleton, mem_filter,
    decide_eq_true_eq]
  constructor
  · rintro ⟨m, hm, ⟨ha, rfl⟩, hall⟩
    refine ⟨ha, fun b hb => ?_⟩
    have hle : f b ≤ f a := (max?_eq_some_iff.mp hm).2 (f b) (mem_map_of_mem hb)
    exact hle.eq_or_lt.imp_left (fun h => hall b ⟨hb, h⟩)
  · rintro ⟨ha, hall⟩
    refine ⟨f a, max?_eq_some_iff.mpr ⟨mem_map_of_mem ha, fun m hm => ?_⟩, ⟨ha, rfl⟩, fun b hb => ?_⟩
    · obtain ⟨b, hb, rfl⟩ := mem_map.mp hm
      rcases hall b hb with rfl | h
      · exact le_rfl
      · exact h.le
    · exact (hall b hb.1).resolve_right (fun h => h.ne hb.2)

end Latest

end List
