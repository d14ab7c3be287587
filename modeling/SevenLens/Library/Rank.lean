import Mathlib.Data.List.Sort
import Mathlib.Order.OrderDual
import Mathlib.Data.List.Nodup

/-! # Sorting by a key and places in a sorted list

`sortOn` is the stable sort by a key: a permutation whose keys do not decrease, and the only
one when the keys are distinct.  In a sorted list the first place of a value is the number of
smaller entries, its last place the number of entries that are not larger, less one. -/

namespace List

variable {α κ : Type} [LinearOrder κ]

/-- Stable sort by a key. -/
def sortOn (key : α → κ) (l : List α) : List α := l.insertionSort (fun a b => key a ≤ key b)

section SortOn

variable {key : α → κ}

instance keyOrder_total : Std.Total (fun a b : α => key a ≤ key b) := ⟨fun a b => le_total (key a) (key b)⟩

instance keyOrder_trans : IsTrans α (fun a b => key a ≤ key b) := ⟨fun _ _ _ => le_trans⟩

theorem sortOn_perm (key : α → κ) (l : List α) : (l.sortOn key).Perm l := perm_insertionSort _ l

@[simp] theorem mem_sortOn {a : α} {l : List α} : a ∈ l.sortOn key ↔ a ∈ l := (sortOn_perm key l).mem_iff

@[simp] theorem length_sortOn (l : List α) : (l.sortOn key).length = l.length := (sortOn_perm key l).length_eq

theorem pairwise_sortOn (key : α → κ) (l : List α) : (l.sortOn key).Pairwise (fun a b => key a ≤ key b) :=
  pairwise_insertionSort _ l

/-- With distinct keys the sorted list is strictly increasing. -/
theorem pairwise_lt_sortOn {l : List α} (h : (l.map key).Nodup) :
    (l.sortOn key).Pairwise (fun a b => key a < key b) := by
  have hn : ((l.sortOn key).map key).Nodup := ((sortOn_perm key l).map key).nodup_iff.mpr h
  rw [Nodup, pairwise_map] at hn
  exact (pairwise_sortOn key l).imp₂ (fun _ _ h1 h2 => lt_of_le_of_ne h1 h2) hn

/-- A list is the one that is sorted from it exactly when it is in order. -/
theorem insertionSort_eq_self {r : α → α → Prop} [DecidableRel r] [Std.Total r] [IsTrans α r] {l : List α} :
    l.insertionSort r = l ↔ l.Pairwise r := by
  refine ⟨fun h => ?_, fun h => h.insertionSort_eq⟩
  rw [← h]
  exact pairwise_insertionSort r l

/-- A list whose keys increase is left alone. -/
theorem sortOn_of_pairwise {l : List α} (h : l.Pairwise (fun a b => key a ≤ key b)) : l.sortOn key = l :=
  h.insertionSort_eq

/-- Two strictly increasing lists with the same entries are the same list. -/
theorem eq_of_pairwise_lt {l m : List α} (hl : l.Pairwise (fun a b => key a < key b))
    (hm : m.Pairwise (fun a b => key a < key b)) (h : ∀ a, a ∈ l ↔ a ∈ m) : l = m := by
  have hnodup : ∀ {l : List α}, l.Pairwise (fun a b => key a < key b) → l.Nodup := by
    intro l hl
    exact hl.imp (fun hab e => absurd (e ▸ hab) (lt_irrefl _))
  have hperm : l.Perm m := (perm_ext_iff_of_nodup (hnodup hl) (hnodup hm)).mpr h
  exact hperm.eq_of_pairwise (fun a b _ _ h1 h2 => absurd (h1.trans h2) (lt_irrefl _)) hl hm

/-- With distinct keys the result does not depend on the order of the input. -/
theorem sortOn_congr {l m : List α} (hp : l.Perm m) (h : (l.map key).Nodup) :
    l.sortOn key = m.sortOn key := by
  have hm : (m.map key).Nodup := (hp.map key).nodup_iff.mp h
  refine eq_of_pairwise_lt (pairwise_lt_sortOn h) (pairwise_lt_sortOn hm) ?_
  intro a
  rw [mem_sortOn, mem_sortOn, hp.mem_iff]

/-- What relates two entries of a sorted list and then also all that lie between them relates two neighbours. -/
theorem pairwise_of_neighbours {R : α → α → Prop} {l : List α} (hsorted : l.Pairwise (fun a b => key a ≤ key b))
    (hbetween : ∀ a b c, key a ≤ key b → key b ≤ key c → R a c → R a b) (h : l.IsChain (fun a b => ¬ R a b)) :
    l.Pairwise (fun a b => ¬ R a b) := by
  induction l with
  | nil => exact Pairwise.nil
  | cons a l ih =>
    obtain ⟨ha, hl⟩ := pairwise_cons.mp hsorted
    cases l with
    | nil => exact pairwise_singleton _ a
    | cons b l =>
      obtain ⟨hab, htail⟩ := isChain_cons_cons.mp h
      refine pairwise_cons.mpr ⟨fun c hc hR => hab ?_, ih hl htail⟩
      obtain rfl | hc := mem_cons.mp hc
      · exact hR
      · exact hbetween a b c (ha b mem_cons_self) ((pairwise_cons.mp hl).1 c hc) hR

theorem sortOn_map {β : Type} (f : β → α) (l : List β) :
    (l.map f).sortOn key = (l.sortOn (fun b => key (f b))).map f :=
  (map_insertionSort _ _ f l fun _ _ _ _ => Iff.rfl).symm

/-- In a strictly increasing list the smaller of two entries stands before the other one. -/
theorem sublist_of_lt {l : List α} (h : l.Pairwise (fun a b => key a < key b)) {a b : α} (ha : a ∈ l) (hb : b ∈ l)
    (hab : key a < key b) : [a, b].Sublist l := by
  obtain ⟨front, rest, rfl⟩ := append_of_mem ha
  obtain ⟨-, hrest, hfront⟩ := pairwise_append.mp h
  rcases mem_append.mp hb with hb | hb
  · exact absurd (hfront b hb a mem_cons_self) hab.not_gt
  · rcases mem_cons.mp hb with rfl | hb
    · exact absurd hab (lt_irrefl _)
    · exact ((singleton_sublist.mpr hb).cons_cons a).trans (sublist_append_right _ _)

/-- What is smaller than an entry that a cut of the list keeps is kept too. -/
theorem mem_take_of_lt {l : List α} (h : l.Pairwise (fun a b => key a < key b)) {n : Nat} {a b : α} (ha : a ∈ l)
    (hb : b ∈ l.take n) (hab : key a < key b) : a ∈ l.take n := by
  rw [← take_append_drop n l] at ha h
  rcases mem_append.mp ha with ha | ha
  · exact ha
  · exact absurd ((pairwise_append.mp h).2.2 b hb a ha) hab.not_gt

end SortOn

/-! ### Places of a value -/

theorem findIdx_getElem_of_nodup {α : Type} [DecidableEq α] {l : List α} (h : l.Nodup) {i : Nat} (hi : i < l.length) :
    l.findIdx (fun b => decide (b = l[i])) = i := by
  rw [findIdx_eq hi]
  refine ⟨decide_eq_true rfl, fun j hj => decide_eq_false fun heq => ?_⟩
  exact absurd ((h.getElem_inj_iff).mp heq) hj.ne

/-- Some entries of a list of distinct ones, in its order, are in the order of their places. -/
theorem sortOn_findIdx_of_sublist {α : Type} [DecidableEq α] {l m : List α} (h : l.Sublist m) (hm : m.Nodup) :
    l.sortOn (fun a => m.findIdx (fun b => decide (b = a))) = l := by
  refine sortOn_of_pairwise (Pairwise.sublist h (pairwise_iff_getElem.mpr fun i j hi hj hij => ?_))
  rw [findIdx_getElem_of_nodup hm hi, findIdx_getElem_of_nodup hm hj]
  exact hij.le

/-- The first place of a value that occurs in a sorted list. -/
theorem findIdx_eq_countP {l : List κ} (h : l.Pairwise (· ≤ ·)) {v : κ} (hv : v ∈ l) :
    l.findIdx (fun w => decide (w = v)) = l.countP (fun w => decide (w < v)) := by
  induction l with
  | nil => cases hv
  | cons a t ih =>
    obtain ⟨ha, ht⟩ := pairwise_cons.mp h
    rw [findIdx_cons, countP_cons]
    by_cases e : a = v
    · -- nothing smaller comes after the first occurrence
      have h0 : t.countP (fun w => decide (w < v)) = 0 := by
        rw [countP_eq_zero]
        intro w hw
        simpa [e] using not_lt.mpr (e ▸ ha w hw)
      simp [e, h0]
    · have hvt : v ∈ t := (mem_cons.mp hv).resolve_left (Ne.symm e)
      have hav : a < v := lt_of_le_of_ne (ha v hvt) e
      simp [e, hav, ih ht hvt]

/-- The last place of a value that occurs in a sorted list, read from the end. -/
theorem findIdx_reverse_eq_countP {l : List κ} (h : l.Pairwise (· ≤ ·)) {v : κ} (hv : v ∈ l) :
    l.reverse.findIdx (fun w => decide (w = v)) = l.countP (fun w => decide (v < w)) := by
  have hr : l.reverse.Pairwise (fun a b => b ≤ a) := by
    rw [pairwise_reverse]
    exact h
  have h1 := findIdx_eq_countP (κ := κᵒᵈ) (l := l.reverse) hr (v := v) (mem_reverse.mpr hv)
  rw [show l.reverse.findIdx (fun w => decide (w = v)) = _ from h1]
  exact countP_reverse

theorem countP_le_add_countP_lt (l : List κ) (v : κ) :
    l.countP (fun w => decide (w ≤ v)) + l.countP (fun w => decide (v < w)) = l.length := by
  rw [length_eq_countP_add_countP (fun w => decide (w ≤ v))]
  simp

theorem countP_lt_mono (l : List κ) {v w : κ} (h : v ≤ w) :
    l.countP (fun x => decide (x < v)) ≤ l.countP (fun x => decide (x < w)) := by
  refine countP_mono_left (fun x _ hx => ?_)
  simpa using (of_decide_eq_true hx).trans_le h

theorem countP_le_mono (l : List κ) {v w : κ} (h : v ≤ w) :
    l.countP (fun x => decide (x ≤ v)) ≤ l.countP (fun x => decide (x ≤ w)) := by
  refine countP_mono_left (fun x _ hx => ?_)
  simpa using (of_decide_eq_true hx).trans h

end List
