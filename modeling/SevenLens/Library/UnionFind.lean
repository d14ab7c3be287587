import Mathlib.Combinatorics.SimpleGraph.Connectivity.Connected
import Mathlib.Logic.Function.Iterate

/-! # Union-find with path halving

A forest of parent pointers together with a number of steps in which a root is reached from
everywhere.  A search points the entries it passes at their grandparents, which moves no entry
below another root (`root_find`); a union puts the one root below the other (`root_union`).

After the unions of a list of edges, two entries have one root exactly if the edges connect
them (`root_unions_iff`), whatever the order of the edges. -/

namespace UnionFind

variable {α : Type}

structure Forest (α : Type) where
  parent : α → α
  steps : Nat
  grounded : ∀ x, parent (parent^[steps] x) = parent^[steps] x

namespace Forest

/-- Every entry is a root. -/
def discrete : Forest α := ⟨id, 0, fun _ => rfl⟩

/-- The root above an entry. -/
def root (f : Forest α) (x : α) : α := f.parent^[f.steps] x

theorem parent_root (f : Forest α) (x : α) : f.parent (f.root x) = f.root x := f.grounded x

theorem parent_of_root {f g : Forest α} (h : f.root = g.root) {x y : α} (hy : y = g.root x) : f.parent y = y := by
  rw [hy, ← h]
  exact f.parent_root x

theorem iterate_eq_root (f : Forest α) {n : Nat} {x : α} (h : f.parent (f.parent^[n] x) = f.parent^[n] x) :
    f.parent^[n] x = f.root x := by
  have hn := Function.iterate_fixed h f.steps
  have hs := Function.iterate_fixed (f.parent_root x) n
  rw [root] at hs ⊢
  rw [← hn, ← Function.iterate_add_apply, Nat.add_comm, Function.iterate_add_apply, hs]

theorem root_of_parent (f : Forest α) {x : α} (h : f.parent x = x) : f.root x = x :=
  (f.iterate_eq_root (n := 0) h).symm

section

open Relation

theorem eqvGen_bind {r s : α → α → Prop} (h : ∀ a b, r a b → EqvGen s a b) {x y : α} (hxy : EqvGen r x y) :
    EqvGen s x y := by
  induction hxy with
  | rel u v huv => exact h u v huv
  | refl u => exact .refl u
  | symm u v _ ih => exact ih.symm
  | trans u v w _ _ ih₁ ih₂ => exact ih₁.trans _ _ _ ih₂

/-- The edges of a list generate the connection in their graph. -/
theorem eqvGen_iff_reachable {G : SimpleGraph α} {edges : List (α × α)}
    (hG : ∀ a b, G.Adj a b ↔ a ≠ b ∧ ((a, b) ∈ edges ∨ (b, a) ∈ edges)) {x y : α} :
    EqvGen (fun u v => (u, v) ∈ edges) x y ↔ G.Reachable x y := by
  constructor
  · intro h
    induction h with
    | rel u v huv =>
      by_cases e : u = v
      · rw [e]
      · exact ((hG u v).mpr ⟨e, .inl huv⟩).reachable
    | refl u => exact .refl u
    | symm u v _ ih => exact ih.symm
    | trans u v w _ _ ih₁ ih₂ => exact ih₁.trans ih₂
  · intro h
    rw [SimpleGraph.reachable_iff_reflTransGen] at h
    induction h with
    | refl => exact .refl x
    | @tail u v _ huv ih =>
      refine .trans _ _ _ ih ?_
      rcases ((hG u v).mp huv).2 with h | h
      · exact .rel _ _ h
      · exact .symm _ _ (.rel _ _ h)

end

/-! ### Searching -/

variable [DecidableEq α]

/-- A shortcut over its parent leads an entry to the root it had. -/
theorem iterate_halved {p : α → α} {r : α} (hr : p r = r) (v : α) (n : Nat) :
    ∀ {x}, p^[n] x = r → (Function.update p v (p (p v)))^[n] x = r := by
  induction n with
  | zero => exact id
  | succ n ih =>
    intro x hx
    rw [Function.iterate_succ_apply] at hx ⊢
    by_cases hv : x = v
    · subst hv
      rw [Function.update_self]
      -- the grandparent is one step closer than the parent, and a root is its own parent
      refine ih ?_
      rw [← Function.iterate_succ_apply, Function.iterate_succ_apply', hx, hr]
    · rw [Function.update_of_ne hv]
      exact ih hx

theorem halved_root {p : α → α} {r : α} (hr : p r = r) (v : α) : Function.update p v (p (p v)) r = r := by
  by_cases hv : r = v
  · subst hv
    rw [Function.update_self, hr, hr]
  · rw [Function.update_of_ne hv, hr]

/-- `parent[v] = parent[parent[v]]` -/
def halve (f : Forest α) (v : α) : Forest α where
  parent := Function.update f.parent v (f.parent (f.parent v))
  steps := f.steps
  grounded := fun x => by
    rw [iterate_halved (f.grounded x) v f.steps rfl]
    exact halved_root (f.grounded x) v

theorem root_halve (f : Forest α) (v : α) : (f.halve v).root = f.root :=
  funext fun x => iterate_halved (f.grounded x) v f.steps rfl

/-- `while parent[v] != v: parent[v] = parent[parent[v]]; v = parent[v]`, for so many turns. -/
def findFrom : Nat → Forest α → α → Forest α × α
  | 0, f, v => (f, v)
  | n + 1, f, v =>
    if f.parent v = v then (f, v)
    else findFrom n (f.halve v) ((f.halve v).parent v)

def find (f : Forest α) (v : α) : Forest α × α := findFrom f.steps f v

theorem findFrom_spec {n : Nat} {f : Forest α} {v : α} (h : f.parent^[n] v = f.root v) :
    (findFrom n f v).1.root = f.root ∧ (findFrom n f v).2 = f.root v := by
  induction n generalizing f v with
  | zero => exact ⟨rfl, h⟩
  | succ n ih =>
    rw [findFrom]
    by_cases hv : f.parent v = v
    · rw [if_pos hv]
      exact ⟨rfl, (f.root_of_parent hv).symm⟩
    · rw [if_neg hv]
      -- after the shortcut the next turn starts with one step less to go
      have hnext : (f.halve v).parent^[n] ((f.halve v).parent v) = f.root v :=
        iterate_halved (f.parent_root v) v (n + 1) h
      have hroot : (f.halve v).parent^[n] ((f.halve v).parent v) = (f.halve v).root ((f.halve v).parent v) := by
        refine iterate_eq_root _ ?_
        rw [hnext]
        exact halved_root (f.parent_root v) v
      obtain ⟨h1, h2⟩ := ih hroot
      exact ⟨h1.trans (root_halve f v), h2.trans (hroot.symm.trans hnext)⟩

@[simp] theorem root_find (f : Forest α) (v : α) : (f.find v).1.root = f.root := (findFrom_spec rfl).1

@[simp] theorem find_snd (f : Forest α) (v : α) : (f.find v).2 = f.root v := (findFrom_spec rfl).2

/-! ### Unions -/

/-- The entries below the one root come to lie below the other one. -/
theorem iterate_linked {p : α → α} {a b : α} (ha : p a = a) (hb : p b = b) (n : Nat) :
    ∀ {x r}, p^[n] x = r → p r = r → (Function.update p b a)^[n + 1] x = if r = b then a else r := by
  have hfix : Function.update p b a a = a := by
    by_cases h : a = b
    · rw [h, Function.update_self]
    · rw [Function.update_of_ne h, ha]
  induction n with
  | zero =>
    rintro x r rfl hr
    rw [Function.iterate_zero_apply] at hr ⊢
    rw [Function.iterate_one]
    by_cases h : x = b
    · rw [if_pos h, h, Function.update_self]
    · rw [if_neg h, Function.update_of_ne h, hr]
  | succ n ih =>
    intro x r hx hr
    rw [Function.iterate_succ_apply] at hx ⊢
    by_cases h : x = b
    · subst h
      rw [hb, Function.iterate_fixed hb] at hx
      rw [if_pos hx.symm, Function.update_self, Function.iterate_fixed hfix]
    · rw [Function.update_of_ne h]
      exact ih hx hr

/-- `parent[b] = a`, for two roots. -/
def link (f : Forest α) (a b : α) (ha : f.parent a = a) (hb : f.parent b = b) : Forest α where
  parent := Function.update f.parent b a
  steps := f.steps + 1
  grounded := fun x => by
    rw [iterate_linked ha hb f.steps rfl (f.grounded x)]
    split_ifs with h
    · by_cases hab : a = b
      · rw [hab, Function.update_self]
      · rw [Function.update_of_ne hab, ha]
    · rw [Function.update_of_ne h, f.grounded]

theorem root_link (f : Forest α) {a b : α} (ha : f.parent a = a) (hb : f.parent b = b) (x : α) :
    (f.link a b ha hb).root x = if f.root x = b then a else f.root x :=
  iterate_linked ha hb f.steps rfl (f.grounded x)

/-- Both roots are looked up, and the second one is put below the first. -/
def union (f : Forest α) (a b : α) : Forest α :=
  let first := f.find a
  let second := first.1.find b
  if first.2 = second.2 then second.1
  else second.1.link first.2 second.2
    (parent_of_root ((root_find first.1 b).trans (root_find f a)) (find_snd f a))
    (parent_of_root (root_find first.1 b) (find_snd first.1 b))

theorem root_union (f : Forest α) (a b x : α) :
    (f.union a b).root x = if f.root x = f.root b then f.root a else f.root x := by
  unfold union
  simp only [root_find, find_snd]
  by_cases h : f.root a = f.root b
  · rw [if_pos h, root_find, root_find]
    split_ifs with hx
    · rw [hx, h]
    · rfl
  · rw [if_neg h, root_link, root_find, root_find]

/-! ### Edges -/

def unions (f : Forest α) (edges : List (α × α)) : Forest α := edges.foldl (fun f e => f.union e.1 e.2) f

open Relation

/-- One union makes its ends one class and joins no more than that. -/
theorem root_union_iff (f : Forest α) (a b x y : α) :
    (f.union a b).root x = (f.union a b).root y ↔
      EqvGen (fun u v => f.root u = f.root v ∨ u = a ∧ v = b) x y := by
  have hab : EqvGen (fun u v => f.root u = f.root v ∨ u = a ∧ v = b) a b := .rel _ _ (.inr ⟨rfl, rfl⟩)
  constructor
  · intro h
    rw [root_union, root_union] at h
    split_ifs at h with hx hy hy
    · exact .rel _ _ (.inl (hx.trans hy.symm))
    · exact .trans _ _ _ (.rel _ _ (.inl hx)) (.trans _ _ _ (.symm _ _ hab) (.rel _ _ (.inl h)))
    · exact .trans _ _ _ (.rel _ _ (.inl h)) (.trans _ _ _ hab (.rel _ _ (.inl hy.symm)))
    · exact .rel _ _ (.inl h)
  · intro h
    induction h with
    | rel u v huv =>
      rw [root_union, root_union]
      rcases huv with huv | ⟨rfl, rfl⟩
      · rw [huv]
      · rw [if_pos rfl]
        split_ifs <;> rfl
    | refl u => rfl
    | symm u v _ ih => exact ih.symm
    | trans u v w _ _ ih₁ ih₂ => exact ih₁.trans ih₂

theorem root_unions_eqvGen (f : Forest α) (edges : List (α × α)) (x y : α) :
    (f.unions edges).root x = (f.unions edges).root y ↔
      EqvGen (fun u v => f.root u = f.root v ∨ (u, v) ∈ edges) x y := by
  induction edges generalizing f with
  | nil =>
    refine ⟨fun h => .rel _ _ (.inl h), fun h => ?_⟩
    simpa [unions] using (Equivalence.eqvGen_iff (r := fun u v => f.root u = f.root v)
      ⟨fun _ => rfl, Eq.symm, Eq.trans⟩).mp (by simpa using h)
  | cons e edges ih =>
    refine (ih (f.union e.1 e.2)).trans ⟨eqvGen_bind ?_, eqvGen_bind ?_⟩
    · rintro u v (h | h)
      · refine eqvGen_bind ?_ ((root_union_iff f e.1 e.2 u v).mp h)
        rintro u v (h | ⟨rfl, rfl⟩)
        · exact .rel _ _ (.inl h)
        · exact .rel _ _ (.inr List.mem_cons_self)
      · exact .rel _ _ (.inr (List.mem_cons_of_mem _ h))
    · rintro u v (h | h)
      · refine .rel _ _ (.inl ?_)
        rw [root_union, root_union, h]
      · rcases List.mem_cons.mp h with rfl | h
        · exact .rel _ _ (.inl ((root_union_iff f u v u v).mpr (.rel _ _ (.inr ⟨rfl, rfl⟩))))
        · exact .rel _ _ (.inr h)

/-- The roots tell the components of the graph of the edges. -/
theorem root_unions_iff {G : SimpleGraph α} {edges : List (α × α)}
    (hG : ∀ a b, G.Adj a b ↔ a ≠ b ∧ ((a, b) ∈ edges ∨ (b, a) ∈ edges)) (x y : α) :
    (discrete.unions edges).root x = (discrete.unions edges).root y ↔ G.Reachable x y := by
  rw [root_unions_eqvGen, ← eqvGen_iff_reachable hG]
  refine ⟨eqvGen_bind ?_, eqvGen_bind fun u v h => .rel _ _ (.inr h)⟩
  rintro u v (h | h)
  · obtain rfl : u = v := h
    exact .refl u
  · exact .rel _ _ h

end Forest

end UnionFind
