import Mathlib.Data.List.Nodup
import Mathlib.Data.List.Pairwise

/-! # Rows linked by hash

A row names the row before it by hash.  `From` says that a list of rows is a single chain in
the order of the list.  `rebuild` puts a chain together without that order: it starts at the
row without a predecessor and follows an index by predecessor, and it refuses rows with several
roots, with a cycle, or off the chain.  On a chain it gives the rows back
(`rebuild_of_from`).

Rows may also make up several chains (`Chains`): a new row starts one or is put at the end of one.
When the rows that are seen at some moment come first in their chain, the ones that no seen row
follows are the last seen rows of the chains (`Chains.heads`). -/

namespace Linked

variable {α κ : Type} (hash : α → κ) (previous : α → Option κ)

/-- Every row names the row before it, and the first one names `before`. -/
def From : Option κ → List α → Prop
  | _, [] => True
  | before, a :: rows => previous a = before ∧ From (some (hash a)) rows

section

variable {hash previous}

theorem From.append_singleton {before : Option κ} {rows : List α} {a : α} (h : From hash previous before rows)
    (ha : previous a = (rows.getLast?.map hash).or before) : From hash previous before (rows ++ [a]) := by
  induction rows generalizing before with
  | nil => exact ⟨ha, trivial⟩
  | cons b rows ih =>
    refine ⟨h.1, ih h.2 ?_⟩
    rw [ha, List.getLast?_cons]
    cases rows.getLast? <;> rfl

/-- Only the predecessors of the rows matter. -/
theorem From.congr {previous' : α → Option κ} {before : Option κ} {rows : List α} (h : From hash previous before rows)
    (heq : ∀ a ∈ rows, previous' a = previous a) : From hash previous' before rows := by
  induction rows generalizing before with
  | nil => trivial
  | cons b rows ih =>
    obtain ⟨hb, hrows⟩ := List.forall_mem_cons.mp heq
    exact ⟨hb.trans h.1, ih h.2 hrows⟩

/-- A row after the first one has a predecessor. -/
theorem From.previous_ne_none {h : κ} {rows : List α} (hl : From hash previous (some h) rows) :
    ∀ a ∈ rows, previous a ≠ none := by
  induction rows generalizing h with
  | nil => simp
  | cons b rows ih =>
    intro a ha
    rcases List.mem_cons.mp ha with rfl | ha
    · rw [hl.1]
      simp
    · exact ih hl.2 a ha

/-- A row that is not the last one is followed. -/
theorem From.previous_of_split {before : Option κ} {pre post : List α} {t q : α}
    (h : From hash previous before (pre ++ t :: q :: post)) : previous q = some (hash t) := by
  induction pre generalizing before with
  | nil => exact h.2.1
  | cons p pre ih => exact ih h.2

/-- A transitive relation that holds along the links holds from every row to the later ones. -/
theorem From.pairwise {rel : α → α → Prop} (htrans : ∀ a b c, rel a b → rel b c → rel a c) {before : Option κ}
    {rows : List α} (h : From hash previous before rows)
    (hlink : ∀ a ∈ rows, ∀ b ∈ rows, previous b = some (hash a) → rel a b) : rows.Pairwise rel := by
  induction rows generalizing before with
  | nil => exact .nil
  | cons a rows ih =>
    have hrest : rows.Pairwise rel :=
      ih h.2 fun x hx y hy => hlink x (List.mem_cons_of_mem a hx) y (List.mem_cons_of_mem a hy)
    refine List.pairwise_cons.mpr ⟨?_, hrest⟩
    cases rows with
    | nil => nofun
    | cons b rows =>
      have hab : rel a b := hlink a List.mem_cons_self b (List.mem_cons_of_mem a List.mem_cons_self) h.2.1
      refine List.forall_mem_cons.mpr ⟨hab, fun c hc => ?_⟩
      exact htrans a b c hab ((List.pairwise_cons.mp hrest).1 c hc)

theorem hash_notMem_of_nodup {pre post : List α} {a : α} (hn : ((pre ++ a :: post).map hash).Nodup) :
    hash a ∉ pre.map hash := by
  rw [List.map_append, List.nodup_append] at hn
  intro h
  exact hn.2.2 _ h (hash a) (by simp) rfl

end

/-! ### Following the links -/

section Follow

variable [DecidableEq κ]

inductive Fault where
  | roots | cycle | unreachable
deriving DecidableEq, Repr

/-- The index by predecessor, in which a later row replaces an earlier one. -/
def next (rows : List α) (h : κ) : Option α :=
  (rows.filter (fun a => decide (previous a = some h))).getLast?

/-- The rows from one row on.  A walk that outlasts the fuel has come to a row twice. -/
def follow (rows : List α) : Nat → α → List κ → Except Fault (List α)
  | 0, _, _ => .error .cycle
  | fuel + 1, a, seen =>
    if hash a ∈ seen then .error .cycle
    else match next previous rows (hash a) with
      | none => .ok [a]
      | some b => do
        let rest ← follow rows fuel b (hash a :: seen)
        return a :: rest

/-- The chain that the rows make up. -/
def rebuild (rows : List α) : Except Fault (List α) :=
  match rows.filter (fun a => decide (previous a = none)) with
  | [root] => do
    let chain ← follow hash previous rows (rows.length + 1) root []
    if chain.length ≠ rows.length then .error .unreachable else .ok chain
  | _ => .error .roots

variable {hash previous}

/-- Nothing follows a hash that does not occur. -/
theorem From.filter_eq_nil {before : Option κ} {h : κ} {rows : List α} (hl : From hash previous before rows)
    (hb : before ≠ some h) (hh : h ∉ rows.map hash) :
    rows.filter (fun a => decide (previous a = some h)) = [] := by
  induction rows generalizing before with
  | nil => rfl
  | cons a rows ih =>
    rw [List.map_cons, List.mem_cons, not_or] at hh
    rw [List.filter_cons_of_neg (by simpa [hl.1] using hb)]
    exact ih hl.2 (fun e => hh.1 (Option.some.inj e).symm) hh.2

/-- What follows a row is the row after it. -/
theorem From.filter_eq {before : Option κ} {pre post : List α} {a : α}
    (hl : From hash previous before (pre ++ a :: post)) (hb : before ≠ some (hash a))
    (hn : ((pre ++ a :: post).map hash).Nodup) :
    (pre ++ a :: post).filter (fun b => decide (previous b = some (hash a))) = post.head?.toList := by
  induction pre generalizing before with
  | nil =>
    obtain ⟨hp, hl⟩ := hl
    rw [List.nil_append, List.map_cons, List.nodup_cons] at hn
    rw [List.nil_append, List.filter_cons_of_neg (by simpa [hp] using hb)]
    cases post with
    | nil => rfl
    | cons b post =>
      obtain ⟨hpb, hl⟩ := hl
      rw [List.map_cons, List.mem_cons, not_or] at hn
      rw [List.filter_cons_of_pos (by simpa using hpb),
        hl.filter_eq_nil (fun e => hn.1.1 (Option.some.inj e).symm) hn.1.2]
      rfl
  | cons p pre ih =>
    obtain ⟨hp, hl⟩ := hl
    rw [List.cons_append, List.map_cons, List.nodup_cons] at hn
    rw [List.cons_append, List.filter_cons_of_neg (by simpa [hp] using hb)]
    refine ih hl (fun e => hn.1 ?_) hn.2
    rw [Option.some.inj e]
    exact List.mem_map.mpr ⟨a, by simp, rfl⟩

theorem next_eq {pre post : List α} {a : α} (hl : From hash previous none (pre ++ a :: post))
    (hn : ((pre ++ a :: post).map hash).Nodup) : next previous (pre ++ a :: post) (hash a) = post.head? := by
  rw [next, hl.filter_eq (Option.some_ne_none _).symm hn]
  cases post.head? <;> rfl

/-- The walk from a row of a chain gives the rest of the chain. -/
theorem follow_eq {rows pre post : List α} {a : α} (hl : From hash previous none rows)
    (hn : (rows.map hash).Nodup) (hrows : rows = pre ++ a :: post) {fuel : Nat} (hf : post.length < fuel)
    {seen : List κ} (hs : seen ⊆ pre.map hash) : follow hash previous rows fuel a seen = .ok (a :: post) := by
  induction post generalizing pre a fuel seen with
  | nil =>
    obtain ⟨fuel, rfl⟩ := Nat.exists_eq_add_of_lt hf
    subst hrows
    have ha : hash a ∉ seen := fun h => hash_notMem_of_nodup hn (hs h)
    simp only [follow, if_neg ha, next_eq hl hn]
    rfl
  | cons b post ih =>
    obtain ⟨fuel, rfl⟩ := Nat.exists_eq_add_of_lt hf
    have hseen : hash a :: seen ⊆ (pre ++ [a]).map hash := by
      rw [List.map_append]
      exact List.cons_subset.mpr ⟨by simp, fun k hk => List.mem_append_left _ (hs hk)⟩
    have hrest := @ih (pre ++ [a]) b (by rw [hrows]; simp) ((b :: post).length + fuel) (by simp; omega) _ hseen
    subst hrows
    have ha : hash a ∉ seen := fun h => hash_notMem_of_nodup hn (hs h)
    simp only [follow, if_neg ha, next_eq hl hn, List.head?_cons, hrest]
    rfl

theorem follow_subset {rows chain : List α} {fuel : Nat} {a : α} {seen : List κ} (ha : a ∈ rows)
    (h : follow hash previous rows fuel a seen = .ok chain) : chain ⊆ rows := by
  induction fuel generalizing a seen chain with
  | zero => cases h
  | succ fuel ih =>
    rw [follow] at h
    split_ifs at h
    split at h
    · cases h
      simpa using ha
    · rename_i b hb
      have hmem : b ∈ rows := List.mem_of_mem_filter (List.mem_of_getLast? hb)
      cases hrest : follow hash previous rows fuel b (hash a :: seen) with
      | error fault => simp [hrest, bind, Except.bind] at h
      | ok rest =>
        rw [hrest] at h
        cases h
        exact List.cons_subset.mpr ⟨ha, ih hmem hrest⟩

/-- The chain is made of the rows. -/
theorem rebuild_subset {rows chain : List α} (h : rebuild hash previous rows = .ok chain) : chain ⊆ rows := by
  unfold rebuild at h
  split at h
  · rename_i root hroot
    have hmem : root ∈ rows := by
      refine List.mem_of_mem_filter (p := fun a => decide (previous a = none)) ?_
      rw [hroot]
      exact List.mem_singleton_self root
    cases hf : follow hash previous rows (rows.length + 1) root [] with
    | error fault => simp [hf, bind, Except.bind] at h
    | ok walk =>
      simp only [hf, bind, Except.bind] at h
      split_ifs at h
      cases h
      exact follow_subset hmem hf
  · cases h

/-- A chain is given back as it is. -/
theorem rebuild_of_from {rows : List α} (hne : rows ≠ []) (hl : From hash previous none rows)
    (hn : (rows.map hash).Nodup) : rebuild hash previous rows = .ok rows := by
  cases rows with
  | nil => exact absurd rfl hne
  | cons root rest =>
    have hroots : (root :: rest).filter (fun a => decide (previous a = none)) = [root] := by
      rw [List.filter_cons_of_pos (by simpa using hl.1), List.filter_eq_nil_iff.mpr]
      intro a ha
      simpa using hl.2.previous_ne_none a ha
    have hchain : follow hash previous (root :: rest) ((root :: rest).length + 1) root [] = .ok (root :: rest) :=
      follow_eq hl hn (List.nil_append _).symm (by rw [List.length_cons]; omega) (List.nil_subset _)
    simp only [rebuild, hroots, hchain, bind, Except.bind, ne_eq, not_true_eq_false, if_false]

end Follow

/-! ### Several chains -/

variable {hash previous}

/-- The rows are made up of chains, each in its order. -/
structure Chains (hash : α → κ) (previous : α → Option κ) (rows : List α) (chains : List (List α)) : Prop where
  perm : chains.flatten.Perm rows
  nonempty : ∀ c ∈ chains, c ≠ []
  linked : ∀ c ∈ chains, From hash previous none c

namespace Chains

variable {rows : List α} {chains : List (List α)}

theorem nil : Chains hash previous [] [] := ⟨.nil, nofun, nofun⟩

theorem mem_iff (h : Chains hash previous rows chains) {a : α} : a ∈ rows ↔ ∃ c ∈ chains, a ∈ c := by
  rw [← h.perm.mem_iff, List.mem_flatten]

/-- A row without a predecessor starts a chain. -/
theorem start (h : Chains hash previous rows chains) {a : α} (ha : previous a = none) :
    Chains hash previous (rows ++ [a]) (chains ++ [[a]]) := by
  refine ⟨?_, ?_, ?_⟩
  · rw [List.flatten_append, List.flatten_singleton]
    exact h.perm.append_right [a]
  · intro c hc
    rcases List.mem_append.mp hc with hc | hc
    · exact h.nonempty c hc
    · rw [List.mem_singleton.mp hc]
      exact List.cons_ne_nil a []
  · intro c hc
    rcases List.mem_append.mp hc with hc | hc
    · exact h.linked c hc
    · rw [List.mem_singleton.mp hc]
      exact ⟨ha, trivial⟩

/-- A row whose predecessor is there and not yet followed is put at the end of its chain. -/
theorem extend (h : Chains hash previous rows chains) {a t : α} (ht : t ∈ rows) (ha : previous a = some (hash t))
    (hnew : ∀ r ∈ rows, previous r ≠ some (hash t)) : ∃ chains', Chains hash previous (rows ++ [a]) chains' := by
  obtain ⟨c, hc, htc⟩ := h.mem_iff.mp ht
  obtain ⟨pre, post, rfl⟩ := List.append_of_mem htc
  obtain rfl : post = [] := by
    cases post with
    | nil => rfl
    | cons q post =>
      exact absurd ((h.linked _ hc).previous_of_split) (hnew q (h.mem_iff.mpr ⟨_, hc, by simp⟩))
  obtain ⟨left, right, rfl⟩ := List.append_of_mem hc
  refine ⟨left ++ (pre ++ [t] ++ [a]) :: right, ?_, ?_, ?_⟩
  · have hmove : (left ++ (pre ++ [t] ++ [a]) :: right).flatten.Perm ((left ++ (pre ++ [t]) :: right).flatten ++ [a]) := by
      simp only [List.flatten_append, List.flatten_cons, List.append_assoc]
      exact ((List.perm_append_comm.append_left [t]).append_left pre).append_left left.flatten
    exact hmove.trans (h.perm.append_right [a])
  · intro d hd
    rcases List.mem_append.mp hd with hd | hd
    · exact h.nonempty d (List.mem_append_left _ hd)
    · rcases List.mem_cons.mp hd with rfl | hd
      · simp
      · exact h.nonempty d (List.mem_append_right _ (List.mem_cons_of_mem _ hd))
  · intro d hd
    rcases List.mem_append.mp hd with hd | hd
    · exact h.linked d (List.mem_append_left _ hd)
    · rcases List.mem_cons.mp hd with rfl | hd
      · exact (h.linked _ hc).append_singleton (by simpa using ha)
      · exact h.linked d (List.mem_append_right _ (List.mem_cons_of_mem _ hd))

/-- A row that follows a row of a chain is in that chain. -/
theorem mem_of_follows (h : Chains hash previous rows chains) (hnodup : (rows.map hash).Nodup) {c : List α}
    (hc : c ∈ chains) {a b : α} (ha : a ∈ c) (hb : b ∈ rows) (hprevious : previous b = some (hash a)) : b ∈ c := by
  obtain ⟨d, hd, hbd⟩ := h.mem_iff.mp hb
  have hinj := List.inj_on_of_nodup_map hnodup
  obtain ⟨pre, post, rfl⟩ := List.append_of_mem hbd
  obtain rfl | ⟨front, a', rfl⟩ := List.eq_nil_or_concat pre
  · have hfirst : previous b = none := (h.linked _ hd).1
    rw [hprevious] at hfirst
    cases hfirst
  · have hsplit : front.concat a' ++ b :: post = front ++ a' :: b :: post := by simp
    rw [hsplit] at hd
    have hlink := (h.linked _ hd).previous_of_split
    have hsame : a = a' := by
      refine hinj (h.mem_iff.mpr ⟨c, hc, ha⟩) (h.mem_iff.mpr ⟨_, hd, by simp⟩) ?_
      exact Option.some.inj (hprevious.symm.trans hlink)
    subst hsame
    have hflat : chains.flatten.Nodup := h.perm.nodup_iff.mpr (List.Nodup.of_map hash hnodup)
    have hdisjoint := (List.nodup_flatten.mp hflat).2
    have hsymm : Std.Symm (@List.Disjoint α) := ⟨fun _ _ hxy a hy hx => hxy hx hy⟩
    by_cases hcd : c = front ++ a :: b :: post
    · rw [hcd]
      simp
    · have hpair := hdisjoint.forall hc hd hcd
      exact absurd (by simp) (hpair ha)

/-! ### The last rows that are seen -/

section Heads

variable {seen : α → Prop}

/-- No seen row of the list follows the row. -/
def Unfollowed (previous : α → Option κ) (seen : α → Prop) (hash : α → κ) (rows : List α) (a : α) : Prop :=
  ∀ b ∈ rows, seen b → previous b ≠ some (hash a)

instance [DecidableEq κ] [DecidablePred seen] (rows : List α) (a : α) :
    Decidable (Unfollowed previous seen hash rows a) := inferInstanceAs (Decidable (∀ _ ∈ _, _))

/-- After a row that is not seen none is. -/
theorem unseen_of_from {before : Option κ} {c : List α} (hc : From hash previous before c)
    (hbefore : ∀ b ∈ c, previous b = before → ¬ seen b)
    (hclosed : ∀ a ∈ c, ∀ b ∈ c, previous b = some (hash a) → seen b → seen a) : ∀ b ∈ c, ¬ seen b := by
  induction c generalizing before with
  | nil => nofun
  | cons a rest ih =>
    have ha : ¬ seen a := hbefore a List.mem_cons_self hc.1
    refine List.forall_mem_cons.mpr ⟨ha, ih hc.2 ?_ ?_⟩
    · exact fun b hb hprevious hseen => ha (hclosed a List.mem_cons_self b (List.mem_cons_of_mem a hb) hprevious hseen)
    · exact fun x hx y hy => hclosed x (List.mem_cons_of_mem a hx) y (List.mem_cons_of_mem a hy)

variable [DecidableEq κ] [DecidablePred seen]

/-- In a chain the seen row that no seen row follows is the last one that is seen. -/
theorem filter_unfollowed {before : Option κ} {c : List α} (hc : From hash previous before c)
    (hbefore : ∀ a ∈ c, before ≠ some (hash a)) (hnodup : (c.map hash).Nodup)
    (hclosed : ∀ a ∈ c, ∀ b ∈ c, previous b = some (hash a) → seen b → seen a) :
    c.filter (fun a => decide (seen a ∧ Unfollowed previous seen hash c a)) =
      (c.filter (fun a => decide (seen a))).getLast?.toList := by
  induction c generalizing before with
  | nil => rfl
  | cons a rest ih =>
    obtain ⟨hprevious, hrest⟩ := hc
    obtain ⟨hnot, hrestNodup⟩ := List.nodup_cons.mp hnodup
    have hrestClosed : ∀ x ∈ rest, ∀ y ∈ rest, previous y = some (hash x) → seen y → seen x :=
      fun x hx y hy => hclosed x (List.mem_cons_of_mem a hx) y (List.mem_cons_of_mem a hy)
    have hne : ∀ x ∈ rest, some (hash a) ≠ some (hash x) := by
      intro x hx heq
      exact hnot (Option.some.inj heq ▸ List.mem_map_of_mem hx)
    -- the first row follows none of the others, so it makes no difference to them
    have hcongr : rest.filter (fun x => decide (seen x ∧ Unfollowed previous seen hash (a :: rest) x)) =
        rest.filter (fun x => decide (seen x ∧ Unfollowed previous seen hash rest x)) := by
      refine List.filter_congr fun x hx => ?_
      have hfirst : previous a ≠ some (hash x) := by
        rw [hprevious]
        exact hbefore x (List.mem_cons_of_mem a hx)
      refine decide_eq_decide.mpr (and_congr_right fun _ => ?_)
      exact ⟨fun hun => (List.forall_mem_cons.mp hun).2, fun hun => List.forall_mem_cons.mpr ⟨fun _ => hfirst, hun⟩⟩
    rw [List.filter_cons, List.filter_cons, hcongr, ih hrest hne hrestNodup hrestClosed]
    by_cases hseen : ∃ b ∈ rest, seen b
    · have hlast : ∃ last, (rest.filter (fun x => decide (seen x))).getLast? = some last := by
        obtain ⟨b, hb, hsb⟩ := hseen
        cases hlast : (rest.filter (fun x => decide (seen x))).getLast? with
        | some last => exact ⟨last, rfl⟩
        | none =>
          have hnil := List.getLast?_eq_none_iff.mp hlast
          exact absurd hsb (by simpa using List.filter_eq_nil_iff.mp hnil b hb)
      obtain ⟨last, hlast⟩ := hlast
      have hfollowed : ¬ (seen a ∧ Unfollowed previous seen hash (a :: rest) a) := by
        rintro ⟨-, hun⟩
        refine absurd hseen (not_exists.mpr fun b => not_and.mpr fun hb => ?_)
        exact unseen_of_from hrest (fun y hy hfrom hy' => hun y (List.mem_cons_of_mem a hy) hy' hfrom) hrestClosed b hb
      rw [if_neg (by simpa using hfollowed)]
      split_ifs
      · rw [List.getLast?_cons, hlast]
        rfl
      · rfl
    · have hnone : rest.filter (fun x => decide (seen x)) = [] := by
        rw [List.filter_eq_nil_iff]
        intro b hb hsb
        exact hseen ⟨b, hb, of_decide_eq_true hsb⟩
      have hun : Unfollowed previous seen hash (a :: rest) a := by
        refine List.forall_mem_cons.mpr ⟨fun _ => ?_, fun b hb hsb => absurd ⟨b, hb, hsb⟩ hseen⟩
        rw [hprevious]
        exact hbefore a List.mem_cons_self
      rw [hnone]
      by_cases ha : seen a
      · rw [if_pos (by simpa using ⟨ha, hun⟩), if_pos (by simpa using ha)]
        rfl
      · rw [if_neg (by simp [ha]), if_neg (by simp [ha])]

/-- The seen rows that no seen row follows are the last seen rows of the chains. -/
theorem heads (h : Chains hash previous rows chains) (hnodup : (rows.map hash).Nodup)
    (hclosed : ∀ a ∈ rows, ∀ b ∈ rows, previous b = some (hash a) → seen b → seen a) :
    (rows.filter (fun a => decide (seen a ∧ Unfollowed previous seen hash rows a))).Perm
      (chains.filterMap (fun c => (c.filter (fun a => decide (seen a))).getLast?)) := by
  have hchain : ∀ c ∈ chains, c.filter (fun a => decide (seen a ∧ Unfollowed previous seen hash rows a)) =
      (c.filter (fun a => decide (seen a))).getLast?.toList := by
    intro c hc
    have hsub : ∀ a ∈ c, a ∈ rows := fun a ha => h.mem_iff.mpr ⟨c, hc, ha⟩
    have hcnodup : (c.map hash).Nodup := by
      have hflat : (chains.flatten.map hash).Nodup := (h.perm.map hash).nodup_iff.mpr hnodup
      rw [List.map_flatten] at hflat
      exact (List.nodup_flatten.mp hflat).1 _ (List.mem_map_of_mem hc)
    rw [← filter_unfollowed (h.linked c hc) (fun _ _ => nofun) hcnodup
      (fun a ha b hb => hclosed a (hsub a ha) b (hsub b hb))]
    refine List.filter_congr fun a ha => ?_
    refine decide_eq_decide.mpr (and_congr_right fun _ => ?_)
    constructor
    · exact fun hun b hb => hun b (hsub b hb)
    · exact fun hun b hb hsb hprevious => hun b (h.mem_of_follows hnodup hc ha hb hprevious) hsb hprevious
  have hflatten : (chains.flatten).filter (fun a => decide (seen a ∧ Unfollowed previous seen hash rows a)) =
      chains.filterMap (fun c => (c.filter (fun a => decide (seen a))).getLast?) := by
    rw [List.filter_flatten, List.map_congr_left hchain]
    generalize chains = l
    induction l with
    | nil => rfl
    | cons c l ih =>
      rw [List.map_cons, List.flatten_cons, ih, List.filterMap_cons]
      cases (c.filter (fun a => decide (seen a))).getLast? <;> rfl
  rw [← hflatten]
  exact (h.perm.filter _).symm

end Heads

end Chains

end Linked
