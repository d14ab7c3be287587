import Mathlib.Data.List.Basic

/-! # Character patterns

The fragment of regular expressions whose repetitions are bounded repetitions of one
character class.  `rest r s` lists what is left of `s` after every way in which `r` can
consume a beginning of it, so matching is structural in the pattern and `fullmatch` can be
evaluated.  `fullmatch_iff` says which texts a pattern matches, and `all_of_fullmatch` bounds the
alphabet of a matched text by the classes of the pattern. -/

inductive Pattern where
  | eps
  | cls (p : Char → Bool)
  | upTo (n : Nat) (p : Char → Bool)
  | seq (a b : Pattern)
  | alt (a b : Pattern)

namespace Pattern

/-- The pattern that matches exactly one text. -/
def lit (s : String) : Pattern := s.toList.foldr (fun c r => seq (cls (· == c)) r) eps

/-- A concatenation of patterns. -/
def cat (rs : List Pattern) : Pattern := rs.foldr seq eps

/-- Between `lo` and `hi` characters of a class. -/
def between (lo hi : Nat) (p : Char → Bool) : Pattern :=
  cat (List.replicate lo (cls p) ++ [upTo (hi - lo) p])

/-- What is left after consuming at most `n` characters of a class. -/
def dropUpTo (p : Char → Bool) : Nat → List Char → List (List Char)
  | 0, s => [s]
  | _ + 1, [] => [[]]
  | n + 1, c :: s => if p c then (c :: s) :: dropUpTo p n s else [c :: s]

/-- What is left of a text after every way of matching a beginning of it. -/
def rest : Pattern → List Char → List (List Char)
  | eps, s => [s]
  | cls _, [] => []
  | cls p, c :: s => if p c then [s] else []
  | upTo n p, s => dropUpTo p n s
  | seq a b, s => (rest a s).flatMap (rest b)
  | alt a b, s => rest a s ++ rest b s

/-- The pattern matches the whole text. -/
def fullmatch (r : Pattern) (s : String) : Bool := (rest r s.toList).contains []

/-- Every character class of the pattern lies inside `P`. -/
def Within (P : Char → Prop) : Pattern → Prop
  | eps => True
  | cls p => ∀ c, p c = true → P c
  | upTo _ p => ∀ c, p c = true → P c
  | seq a b => Within P a ∧ Within P b
  | alt a b => Within P a ∧ Within P b

/-! ### The texts of a pattern -/

/-- The pattern describes the text. -/
def Matches : Pattern → List Char → Prop
  | eps, u => u = []
  | cls p, u => ∃ c, u = [c] ∧ p c = true
  | upTo n p, u => u.length ≤ n ∧ ∀ c ∈ u, p c = true
  | seq a b, u => ∃ v w, u = v ++ w ∧ Matches a v ∧ Matches b w
  | alt a b, u => Matches a u ∨ Matches b u

theorem mem_dropUpTo {p : Char → Bool} {n : Nat} {s t : List Char} :
    t ∈ dropUpTo p n s ↔ ∃ u, s = u ++ t ∧ u.length ≤ n ∧ ∀ c ∈ u, p c = true := by
  induction n generalizing s with
  | zero =>
    constructor
    · intro h
      exact ⟨[], (List.mem_singleton.mp h).symm, Nat.le_refl 0, by simp⟩
    · rintro ⟨u, rfl, hu, -⟩
      obtain rfl := List.length_eq_zero_iff.mp (Nat.le_zero.mp hu)
      exact List.mem_singleton_self t
  | succ n ih =>
    cases s with
    | nil =>
      constructor
      · intro h
        exact ⟨[], (List.mem_singleton.mp h).symm, Nat.zero_le _, by simp⟩
      · rintro ⟨u, hu, -, -⟩
        obtain ⟨-, rfl⟩ := List.append_eq_nil_iff.mp hu.symm
        exact List.mem_singleton_self []
    | cons c s =>
      have hsplit : (∃ u, c :: s = u ++ t ∧ u.length ≤ n + 1 ∧ ∀ d ∈ u, p d = true) ↔
          t = c :: s ∨ (p c = true ∧ ∃ u, s = u ++ t ∧ u.length ≤ n ∧ ∀ d ∈ u, p d = true) := by
        constructor
        · rintro ⟨_ | ⟨d, u⟩, hu, hlen, hall⟩
          · exact Or.inl hu.symm
          · obtain ⟨rfl, rfl⟩ := List.cons.inj hu
            obtain ⟨hc, hall⟩ := List.forall_mem_cons.mp hall
            exact Or.inr ⟨hc, u, rfl, Nat.le_of_succ_le_succ hlen, hall⟩
        · rintro (rfl | ⟨hc, u, rfl, hlen, hall⟩)
          · exact ⟨[], rfl, Nat.zero_le _, by simp⟩
          · exact ⟨c :: u, rfl, Nat.succ_le_succ hlen, List.forall_mem_cons.mpr ⟨hc, hall⟩⟩
      rw [hsplit, dropUpTo]
      split
      · rename_i hc
        rw [List.mem_cons, ih, and_iff_right hc]
      · rename_i hc
        rw [List.mem_singleton, or_iff_left fun h => hc h.1]

/-- What is left of a text, by what has been consumed. -/
theorem mem_rest_iff (r : Pattern) {s t : List Char} : t ∈ r.rest s ↔ ∃ u, s = u ++ t ∧ r.Matches u := by
  induction r generalizing s t with
  | eps =>
    rw [rest, List.mem_singleton]
    exact ⟨fun h => ⟨[], h.symm, rfl⟩, by rintro ⟨u, rfl, rfl⟩; rfl⟩
  | cls p =>
    cases s with
    | nil => simp [rest, Matches]
    | cons c s =>
      rw [rest]
      constructor
      · intro h
        split at h
        · rename_i hc
          exact ⟨[c], by rw [List.mem_singleton.mp h]; rfl, c, rfl, hc⟩
        · cases h
      · rintro ⟨u, hu, d, rfl, hd⟩
        obtain ⟨rfl, rfl⟩ := List.cons.inj hu
        rw [if_pos hd]
        exact List.mem_singleton_self _
  | upTo n p => exact mem_dropUpTo
  | seq a b iha ihb =>
    rw [rest, List.mem_flatMap]
    constructor
    · rintro ⟨m, hm, ht⟩
      obtain ⟨v, rfl, hv⟩ := iha.mp hm
      obtain ⟨w, rfl, hw⟩ := ihb.mp ht
      exact ⟨v ++ w, (List.append_assoc v w t).symm, v, w, rfl, hv, hw⟩
    · rintro ⟨u, rfl, v, w, rfl, hv, hw⟩
      exact ⟨w ++ t, iha.mpr ⟨v, List.append_assoc v w t, hv⟩, ihb.mpr ⟨w, rfl, hw⟩⟩
  | alt a b iha ihb =>
    rw [rest, List.mem_append, iha, ihb]
    constructor
    · rintro (⟨u, hu, h⟩ | ⟨u, hu, h⟩)
      · exact ⟨u, hu, Or.inl h⟩
      · exact ⟨u, hu, Or.inr h⟩
    · rintro ⟨u, hu, h | h⟩
      · exact Or.inl ⟨u, hu, h⟩
      · exact Or.inr ⟨u, hu, h⟩

theorem fullmatch_iff {r : Pattern} {s : String} : r.fullmatch s = true ↔ r.Matches s.toList := by
  rw [fullmatch, List.contains_iff_mem, mem_rest_iff]
  simp

variable {P : Char → Prop}

/-- A text of a pattern is made of characters of its classes. -/
theorem Matches.all {r : Pattern} (hr : r.Within P) {u : List Char} (h : r.Matches u) : ∀ c ∈ u, P c := by
  induction r generalizing u with
  | eps =>
    obtain rfl := h
    exact List.forall_mem_nil _
  | cls p =>
    obtain ⟨c, rfl, hc⟩ := h
    exact List.forall_mem_singleton.mpr (hr c hc)
  | upTo n p => exact fun c hc => hr c (h.2 c hc)
  | seq a b iha ihb =>
    obtain ⟨v, w, rfl, hv, hw⟩ := h
    intro c hc
    exact (List.mem_append.mp hc).elim (iha hr.1 hv c) (ihb hr.2 hw c)
  | alt a b iha ihb => exact h.elim (iha hr.1) (ihb hr.2)

theorem all_of_fullmatch {r : Pattern} (hr : r.Within P) {s : String} (h : r.fullmatch s = true) :
    ∀ c ∈ s.toList, P c := (fullmatch_iff.mp h).all hr

theorem matches_cat_nil {u : List Char} : (cat []).Matches u ↔ u = [] := Iff.rfl

theorem matches_cat_cons {a : Pattern} {rs : List Pattern} {u : List Char} :
    (cat (a :: rs)).Matches u ↔ ∃ v w, u = v ++ w ∧ a.Matches v ∧ (cat rs).Matches w := Iff.rfl

theorem matches_lit {s : String} {u : List Char} : (lit s).Matches u ↔ u = s.toList := by
  unfold lit
  induction s.toList generalizing u with
  | nil => exact Iff.rfl
  | cons c l ih =>
    rw [List.foldr_cons]
    constructor
    · rintro ⟨v, w, rfl, ⟨d, rfl, hd⟩, hw⟩
      rw [ih.mp hw, beq_iff_eq.mp hd]
      rfl
    · rintro rfl
      exact ⟨[c], l, rfl, ⟨c, rfl, by simp⟩, ih.mpr rfl⟩

/-- A text of a concatenation is a text of each part, one after the other. -/
theorem matches_cat {rs : List Pattern} {u : List Char} :
    (cat rs).Matches u ↔ ∃ us, List.Forall₂ Matches rs us ∧ u = us.flatten := by
  induction rs generalizing u with
  | nil =>
    rw [matches_cat_nil]
    exact ⟨fun h => ⟨[], .nil, h⟩, by rintro ⟨us, ⟨⟩, h⟩; exact h⟩
  | cons a rs ih =>
    rw [matches_cat_cons]
    constructor
    · rintro ⟨v, w, rfl, hv, hw⟩
      obtain ⟨us, hus, rfl⟩ := ih.mp hw
      exact ⟨v :: us, .cons hv hus, rfl⟩
    · rintro ⟨us, hus, rfl⟩
      obtain _ | ⟨hv, hus⟩ := hus
      exact ⟨_, _, rfl, hv, ih.mpr ⟨_, hus, rfl⟩⟩

/-! ### Texts that match -/

theorem mem_rest_seq {a b : Pattern} {s t u : List Char} (h : t ∈ a.rest s) (k : u ∈ b.rest t) :
    u ∈ (seq a b).rest s := List.mem_flatMap.mpr ⟨t, h, k⟩

/-- A literal text is consumed. -/
theorem mem_rest_lit (s : String) (t : List Char) : t ∈ (lit s).rest (s.toList ++ t) := by
  unfold lit
  induction s.toList with
  | nil => simp [rest]
  | cons c l ih => exact mem_rest_seq (by simp [rest]) ih

/-- Characters of a class are consumed one by one. -/
theorem mem_rest_replicate {p : Char → Bool} {b : Pattern} {u t : List Char} {s : List Char}
    (h : ∀ c ∈ u, p c = true) (k : s ∈ b.rest t) :
    s ∈ (cat (List.replicate u.length (cls p) ++ [b])).rest (u ++ t) := by
  induction u with
  | nil => exact mem_rest_seq k (by simp [rest])
  | cons c u ih =>
      obtain ⟨hc, hu⟩ := List.forall_mem_cons.mp h
      exact mem_rest_seq (by simp [rest, hc]) (ih hu)

/-- A fixed number of characters of a class is consumed. -/
theorem mem_rest_between {t : String} {n : Nat} {p : Char → Bool} (hn : t.length = n)
    (hp : t.toList.all p = true) : [] ∈ (between n n p).rest t.toList := by
  subst hn
  have hend : [] ∈ (upTo (t.length - t.length) p).rest [] := by simp [rest, dropUpTo]
  have hclass := mem_rest_replicate (List.all_eq_true.mp hp) hend
  rwa [List.append_nil, String.length_toList] at hclass

theorem fullmatch_between {t : String} {n : Nat} {p : Char → Bool} (hn : t.length = n)
    (hp : t.toList.all p = true) : (between n n p).fullmatch t = true := by
  rw [fullmatch, List.contains_iff_mem]
  exact mem_rest_between hn hp

/-- A literal text and then a fixed number of characters of a class. -/
theorem fullmatch_lit_between {s t : String} {n : Nat} {p : Char → Bool} (hn : t.length = n)
    (hp : t.toList.all p = true) : (cat [lit s, between n n p]).fullmatch (s ++ t) = true := by
  rw [fullmatch, List.contains_iff_mem, String.toList_append]
  exact mem_rest_seq (mem_rest_lit s t.toList) (mem_rest_seq (mem_rest_between hn hp) (List.mem_singleton_self []))

/-- A bounded repetition consumes a whole text of its class. -/
theorem nil_mem_dropUpTo {p : Char → Bool} {n : Nat} {s : List Char} :
    [] ∈ dropUpTo p n s ↔ s.length ≤ n ∧ ∀ c ∈ s, p c = true := by
  rw [mem_dropUpTo]
  simp

/-- A character of one class, and then at most `n` of another one. -/
theorem fullmatch_cls_upTo {p q : Char → Bool} {n : Nat} {s : String} :
    (cat [cls p, upTo n q]).fullmatch s = true ↔
      ∃ c l, s.toList = c :: l ∧ p c = true ∧ l.length ≤ n ∧ ∀ d ∈ l, q d = true := by
  rw [fullmatch, List.contains_iff_mem]
  cases s.toList with
  | nil => simp [cat, rest]
  | cons c l =>
      by_cases hc : p c = true
      · simp [cat, rest, hc, nil_mem_dropUpTo]
      · simp [cat, rest, hc]

end Pattern
