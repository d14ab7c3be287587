import Mathlib.Algebra.Order.Group.Unbundled.Basic
import Mathlib.Algebra.Order.Ring.Rat
import Mathlib.Data.List.Infix
import Mathlib.Data.List.Pairwise
import Mathlib.Order.Interval.Set.Defs

/-! # Counting events in sliding windows

Events have instants, and what lies between two instants is measured by a clock.  A clock may
round, as long as a later instant is not measured as less far away: `Clock.exact` subtracts, and
`Clock.rounded` rounds the difference.

If each event has fewer than `n` earlier ones within `w` of it (`Budgeted`), then every window of
width `w` holds at most `n` of them, wherever it begins (`Budgeted.countP_le`).  An event that is
not budgeted would make a window of more than `n` (`exists_full_window`).  Forgetting what is
older than `w` at one instant loses nothing at a later one (`filter_recent_filter`). -/

/-- How far an instant is from an earlier one. -/
structure Clock (T : Type) [LinearOrder T] where
  elapsed : T → T → ℚ
  elapsed_mono : ∀ {now later : T} (stamp : T), now ≤ later → elapsed now stamp ≤ elapsed later stamp
  elapsed_anti : ∀ {stamp later : T} (now : T), stamp ≤ later → elapsed now later ≤ elapsed now stamp

namespace Clock

/-- The difference as it is. -/
def exact : Clock ℚ where
  elapsed now stamp := now - stamp
  elapsed_mono _ h := sub_le_sub_right h _
  elapsed_anti _ h := sub_le_sub_left h _

/-- The difference, rounded in a way that keeps the order. -/
def rounded (round : ℚ → ℚ) (h : Monotone round) : Clock ℚ where
  elapsed now stamp := round (now - stamp)
  elapsed_mono _ hle := h (sub_le_sub_right hle _)
  elapsed_anti _ hle := h (sub_le_sub_left hle _)

variable {T : Type} [LinearOrder T] (c : Clock T) {w : ℚ} {n : Nat} {l : List T}

/-- The stamp is less than `w` old. -/
def recent (w : ℚ) (now stamp : T) : Bool := c.elapsed now stamp < w

/-- The instant lies in the half-open window of width `w` that begins at `start`. -/
def inWindow (start : T) (w : ℚ) (t : T) : Bool := decide (start ≤ t) && c.recent w t start

/-- Each event has fewer than `n` earlier ones within `w` of it. -/
def Budgeted (w : ℚ) (n : Nat) (l : List T) : Prop :=
  ∀ before t, before ++ [t] <+: l → before.countP (c.recent w t) < n

theorem exact_inWindow_iff {start t : ℚ} : exact.inWindow start w t = true ↔ t ∈ Set.Ico start (start + w) := by
  simp only [inWindow, recent, exact, Bool.and_eq_true, decide_eq_true_eq, Set.mem_Ico, sub_lt_iff_lt_add']

/-! ### Older and newer instants -/

variable {c}

theorem recent_of_le {now later stamp : T} (h : now ≤ later) (hr : c.recent w later stamp = true) :
    c.recent w now stamp = true :=
  decide_eq_true ((c.elapsed_mono stamp h).trans_lt (of_decide_eq_true hr))

theorem recent_of_width {w' : ℚ} (hw : w ≤ w') {now stamp : T} (hr : c.recent w now stamp = true) :
    c.recent w' now stamp = true := decide_eq_true ((of_decide_eq_true hr).trans_le hw)

/-- What has been forgotten is not asked for later. -/
theorem filter_recent_filter {now later : T} (h : now ≤ later) (l : List T) :
    (l.filter (c.recent w now)).filter (c.recent w later) = l.filter (c.recent w later) := by
  rw [List.filter_filter]
  refine List.filter_congr fun stamp _ => ?_
  cases hr : c.recent w later stamp with
  | false => rfl
  | true => rw [recent_of_le h hr, Bool.true_and]

/-- The smaller window can be counted in what is kept for the larger one. -/
theorem countP_filter_recent {w' : ℚ} (hw : w ≤ w') (now : T) (l : List T) :
    (l.filter (c.recent w' now)).countP (c.recent w now) = l.countP (c.recent w now) := by
  rw [List.countP_filter]
  refine List.countP_congr fun stamp _ => ?_
  rw [Bool.and_eq_true]
  exact ⟨And.left, fun hr => ⟨hr, recent_of_width hw hr⟩⟩

/-- Two instants of one window: the earlier one is recent at the later one. -/
theorem recent_of_inWindow {start now stamp : T} (hnow : c.inWindow start w now = true)
    (hstamp : c.inWindow start w stamp = true) : c.recent w now stamp = true := by
  simp only [inWindow, Bool.and_eq_true, decide_eq_true_eq] at hnow hstamp
  exact decide_eq_true ((c.elapsed_anti now hstamp.1).trans_lt (of_decide_eq_true hnow.2))

/-! ### Budgets -/

theorem budgeted_nil : c.Budgeted w n [] := by
  intro before t h
  rw [List.prefix_nil] at h
  exact absurd h (List.append_ne_nil_of_right_ne_nil before (List.cons_ne_nil t []))

theorem Budgeted.concat (h : c.Budgeted w n l) {t : T} (ht : l.countP (c.recent w t) < n) : c.Budgeted w n (l ++ [t]) := by
  intro before s hb
  rcases List.prefix_concat_iff.mp hb with heq | hb
  · obtain ⟨rfl, hs⟩ := List.append_inj' heq rfl
    rw [List.singleton_inj.mp hs]
    exact ht
  · exact h before s hb

/-- No window holds more events than the budget. -/
theorem Budgeted.countP_le (h : c.Budgeted w n l) (start : T) : l.countP (c.inWindow start w) ≤ n := by
  induction l using List.reverseRecOn with
  | nil => exact Nat.zero_le n
  | append_singleton l t ih =>
    have hl := ih fun before s hb => h before s (hb.trans (List.prefix_append l [t]))
    rw [List.countP_append, List.countP_singleton]
    split_ifs with ht
    · -- what the window holds besides `t` is recent at `t`
      have hle : l.countP (c.inWindow start w) ≤ l.countP (c.recent w t) :=
        List.countP_mono_left fun s _ hs => recent_of_inWindow ht hs
      have hlt := h l t List.prefix_rfl
      omega
    · exact hl

/-- One more event where the budget is used up makes a window of more than the budget. -/
theorem exists_full_window (hsorted : l.Pairwise (· ≤ ·)) {now : T} (hnow : ∀ s ∈ l, s ≤ now) (hn : 0 < n)
    (hfull : n ≤ l.countP (c.recent w now)) :
    ∃ start, c.inWindow start w now = true ∧ n < (l ++ [now]).countP (c.inWindow start w) := by
  rw [List.countP_eq_length_filter] at hfull
  cases hrecent : l.filter (c.recent w now) with
  | nil =>
    rw [hrecent, List.length_nil] at hfull
    omega
  | cons start rest =>
    have hmem : start ∈ l.filter (c.recent w now) := by rw [hrecent]; exact List.mem_cons_self
    obtain ⟨hstart, hold⟩ := List.mem_filter.mp hmem
    have hfirst : ∀ s ∈ l.filter (c.recent w now), start ≤ s := by
      have hpair := hsorted.sublist (List.filter_sublist (p := c.recent w now))
      rw [hrecent, List.pairwise_cons] at hpair
      intro s hs
      rw [hrecent] at hs
      rcases List.mem_cons.mp hs with rfl | hs
      · exact le_rfl
      · exact hpair.1 s hs
    have hin : ∀ s, s ≤ now → start ≤ s → c.inWindow start w s = true := fun s hs hle =>
      Bool.and_eq_true_iff.mpr ⟨decide_eq_true hle, recent_of_le hs hold⟩
    have hself := hin now le_rfl (hnow start hstart)
    refine ⟨start, hself, ?_⟩
    have hle : (l.filter (c.recent w now)).length ≤ l.countP (c.inWindow start w) := by
      rw [← List.countP_eq_length_filter]
      refine List.countP_mono_left fun s hs hr => hin s (hnow s hs) (hfirst s (List.mem_filter.mpr ⟨hs, hr⟩))
    rw [List.countP_append, List.countP_singleton, if_pos hself]
    omega

end Clock
