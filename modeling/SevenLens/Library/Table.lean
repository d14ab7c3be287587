import Mathlib.Data.List.Nodup
import Mathlib.Data.List.Basic

/-! # Keyed tables

A table is a list of rows with distinct keys.  `get` reads a row by its key, `put` replaces
the row that has the same key in place, `add` appends a row under a fresh key.  Rows keep
their position, so a listing of the table is the row list itself. -/

/-- A table of rows of type `ν`, at most one for each value of `key`. -/
structure Table {κ ν : Type} [DecidableEq κ] (key : ν → κ) where
  rows : List ν
  nodup : (rows.map key).Nodup

namespace Table

variable {κ ν : Type} [DecidableEq κ] {key : ν → κ}

instance [DecidableEq ν] : DecidableEq (Table key) := fun s t =>
  if h : s.rows = t.rows then isTrue (by cases s; cases t; cases h; rfl)
  else isFalse (fun e => h (e ▸ rfl))

/-- The table without rows. -/
def empty : Table key := ⟨[], by simp⟩

/-- The row under key `k`. -/
def get (t : Table key) (k : κ) : Option ν := t.rows.find? (fun v => key v = k)

/-- Replace the row under `key v` by `v`; without such a row nothing changes. -/
def put (t : Table key) (v : ν) : Table key where
  rows := t.rows.map (fun w => if key w = key v then v else w)
  nodup := by
    have e : (t.rows.map (fun w => if key w = key v then v else w)).map key = t.rows.map key := by
      rw [List.map_map]
      apply List.map_congr_left
      intro w _
      by_cases h : key w = key v <;> simp [h]
    rw [e]
    exact t.nodup

/-- Append `v`; under a key that is taken nothing changes. -/
def add (t : Table key) (v : ν) : Table key :=
  if h : key v ∈ t.rows.map key then t
  else
    ⟨t.rows ++ [v], by
      rw [List.map_append, List.nodup_append]
      refine ⟨t.nodup, by simp, fun a ha b hb => ?_⟩
      rw [List.map_cons, List.map_nil, List.mem_singleton] at hb
      rintro rfl
      exact h (hb ▸ ha)⟩

theorem ext {s t : Table key} (h : s.rows = t.rows) : s = t := by
  cases s; cases t; cases h; rfl

/-! ### Reading -/

theorem key_of_get {t : Table key} {k : κ} {v : ν} (h : t.get k = some v) : key v = k := by
  simpa using List.find?_some h

theorem mem_of_get {t : Table key} {k : κ} {v : ν} (h : t.get k = some v) : v ∈ t.rows :=
  List.mem_of_find?_eq_some h

theorem eq_of_mem_of_key {t : Table key} {v w : ν} (hv : v ∈ t.rows) (hw : w ∈ t.rows)
    (h : key v = key w) : v = w := List.inj_on_of_nodup_map t.nodup hv hw h

theorem get_of_mem {t : Table key} {v : ν} (h : v ∈ t.rows) : t.get (key v) = some v := by
  cases hg : t.get (key v) with
  | none =>
      have := (List.find?_eq_none.mp hg) v h
      simp at this
  | some w => rw [eq_of_mem_of_key (mem_of_get hg) h (key_of_get hg)]

theorem mem_rows_iff {t : Table key} {v : ν} : v ∈ t.rows ↔ t.get (key v) = some v :=
  ⟨get_of_mem, mem_of_get⟩

theorem get_eq_none_iff {t : Table key} {k : κ} : t.get k = none ↔ ∀ v ∈ t.rows, key v ≠ k := by
  simp [get, List.find?_eq_none]

theorem get_eq_none_iff_notMem {t : Table key} {k : κ} :
    t.get k = none ↔ k ∉ t.rows.map key := by
  rw [get_eq_none_iff]
  simp

/-! ### Writing -/

theorem find?_map_put (l : List ν) (v : ν) (k : κ) :
    (l.map (fun w => if key w = key v then v else w)).find? (fun w => key w = k) =
      if key v = k then (l.find? (fun w => key w = k)).map (fun _ => v)
      else l.find? (fun w => key w = k) := by
  induction l with
  | nil => simp
  | cons w l ih =>
      by_cases hw : key w = key v
      · by_cases hk : key v = k
        · simp [hw, hk]
        · rw [List.map_cons, if_pos hw, List.find?_cons_of_neg (by simpa using hk), ih,
            List.find?_cons_of_neg (by simpa [hw] using hk)]
      · by_cases hk : key w = k
        · have : ¬ key v = k := fun e => hw (hk.trans e.symm)
          rw [List.map_cons, if_neg hw, List.find?_cons_of_pos (by simpa using hk), if_neg this,
            List.find?_cons_of_pos (by simpa using hk)]
        · rw [List.map_cons, if_neg hw, List.find?_cons_of_neg (by simpa using hk), ih,
            List.find?_cons_of_neg (by simpa using hk)]

theorem get_put (t : Table key) (v : ν) (k : κ) :
    (t.put v).get k = if key v = k then (t.get k).map (fun _ => v) else t.get k :=
  find?_map_put t.rows v k

theorem get_put_self {t : Table key} {v w : ν} (h : t.get (key v) = some w) :
    (t.put v).get (key v) = some v := by
  rw [get_put, if_pos rfl, h]
  rfl

theorem get_put_of_ne {t : Table key} {v : ν} {k : κ} (h : key v ≠ k) :
    (t.put v).get k = t.get k := by
  rw [get_put, if_neg h]

theorem mem_put_iff {t : Table key} {v w u : ν} (hg : t.get (key v) = some u) :
    w ∈ (t.put v).rows ↔ w = v ∨ (w ∈ t.rows ∧ key w ≠ key v) := by
  rw [mem_rows_iff, get_put]
  by_cases h : key v = key w
  · rw [if_pos h, ← h, hg]
    simp only [Option.map_some, Option.some.injEq]
    constructor
    · rintro rfl
      exact Or.inl rfl
    · rintro (rfl | ⟨_, hn⟩)
      · rfl
      · exact absurd rfl hn
  · rw [if_neg h, ← mem_rows_iff]
    constructor
    · exact fun hw => Or.inr ⟨hw, fun e => h e.symm⟩
    · rintro (rfl | ⟨hw, _⟩)
      · exact absurd rfl h
      · exact hw

theorem put_self {t : Table key} {v : ν} (h : t.get (key v) = some v) : t.put v = t := by
  apply ext
  show t.rows.map _ = t.rows
  rw [List.map_congr_left (g := id), List.map_id]
  intro w hw
  by_cases hk : key w = key v
  · rw [if_pos hk]
    exact eq_of_mem_of_key (mem_of_get h) hw hk.symm
  · rw [if_neg hk]
    rfl

theorem put_put (t : Table key) {v w : ν} (h : key v = key w) : (t.put v).put w = t.put w := by
  apply ext
  show (t.rows.map _).map _ = t.rows.map _
  rw [List.map_map]
  apply List.map_congr_left
  intro u _
  by_cases hu : key u = key v
  · simp [hu, h]
  · simp [hu, h ▸ hu]

/-- A replacement that keeps some other column keeps that column of the whole table. -/
theorem map_put {β : Type} (g : ν → β) {t : Table key} {v : ν}
    (h : ∀ u, t.get (key v) = some u → g u = g v) : (t.put v).rows.map g = t.rows.map g := by
  show (t.rows.map _).map g = t.rows.map g
  rw [List.map_map]
  apply List.map_congr_left
  intro w hw
  by_cases hk : key w = key v
  · simp [hk, h w (hk ▸ get_of_mem hw)]
  · simp [hk]

theorem add_rows {t : Table key} {v : ν} (h : t.get (key v) = none) :
    (t.add v).rows = t.rows ++ [v] := by
  rw [get_eq_none_iff_notMem] at h
  simp [add, h]

theorem get_add_of_ne {t : Table key} {v : ν} {k : κ} (h : key v ≠ k) :
    (t.add v).get k = t.get k := by
  unfold add
  split
  · rfl
  · simp [get, List.find?_append, h]

theorem get_add_self {t : Table key} {v : ν} (h : t.get (key v) = none) :
    (t.add v).get (key v) = some v := by
  have hr := add_rows h
  rw [get, hr, List.find?_append]
  rw [get] at h
  simp [h]

theorem mem_add_iff {t : Table key} {v w : ν} (h : t.get (key v) = none) :
    w ∈ (t.add v).rows ↔ w ∈ t.rows ∨ w = v := by
  rw [add_rows h]
  simp

end Table
