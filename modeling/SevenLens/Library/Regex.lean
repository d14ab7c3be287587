import Mathlib.Data.List.Basic

/-! # Patterns that look around

Regular expressions over characters with tests of what stands before and behind a place, such as
word edges and look-arounds.  `ends r z` lists the places that `r` can reach from `z`, in the order
in which a backtracking matcher tries them, so that matching is structural in the pattern and
`search` can be evaluated.  `Matches` is the relation between a text and its context, and
`search_iff` says what is found. -/

/-- A pattern over characters. -/
inductive Regex where
  /-- A test of what stands before, the nearest first, and of what follows. -/
  | test (p : List Char → List Char → Bool)
  | cls (p : Char → Bool)
  | seq (a b : Regex)
  | alt (a b : Regex)
  | upTo (n : Nat) (a : Regex)
  | many (a : Regex)

namespace Regex

/-- A place in a text: what stands before it, the nearest first, and what follows. -/
abbrev Place := List Char × List Char

/-- Steps that follow each other, at most `n` of them and the longest way first. -/
def repeated (f : Place → List Place) : Nat → Place → List Place
  | 0, z => [z]
  | n + 1, z => (f z).flatMap (repeated f n) ++ [z]

/-- The places that a pattern reaches, in the order in which they are tried. -/
def ends : Regex → Place → List Place
  | test p, z => if p z.1 z.2 then [z] else []
  | cls _, (_, []) => []
  | cls p, (before, c :: after) => if p c then [(c :: before, after)] else []
  | seq a b, z => (a.ends z).flatMap b.ends
  | alt a b, z => a.ends z ++ b.ends z
  | upTo n a, z => repeated a.ends n z
  | many a, z => repeated a.ends z.2.length z

theorem ends_test (p : List Char → List Char → Bool) (z : Place) : (test p).ends z = if p z.1 z.2 then [z] else [] := rfl

theorem ends_cls_cons (p : Char → Bool) (before after : List Char) (c : Char) :
    (cls p).ends (before, c :: after) = if p c then [(c :: before, after)] else [] := rfl

theorem ends_seq (a b : Regex) (z : Place) : (seq a b).ends z = (a.ends z).flatMap b.ends := rfl

theorem ends_upTo (n : Nat) (a : Regex) (z : Place) : (upTo n a).ends z = repeated a.ends n z := rfl

theorem ends_many (a : Regex) (z : Place) : (many a).ends z = repeated a.ends z.2.length z := rfl

/-! ### Derived patterns -/

def eps : Regex := test fun _ _ => true

/-- A concatenation of patterns. -/
def cat (rs : List Regex) : Regex := rs.foldr seq eps

/-- One of several patterns. -/
def oneOf (rs : List Regex) : Regex := rs.foldr alt (cls fun _ => false)

def plus (a : Regex) : Regex := seq a (many a)

def optional (a : Regex) : Regex := upTo 1 a

/-- Between `lo` and `lo + more` repetitions. -/
def between (lo more : Nat) (a : Regex) : Regex := seq (cat (List.replicate lo a)) (upTo more a)

/-- No character of a class follows. -/
def notBefore (p : Char → Bool) : Regex := test fun _ after => !after.head?.any p

/-- No character of a class stands before. -/
def notAfter (p : Char → Bool) : Regex := test fun before _ => !before.head?.any p

/-- The edge of a word. -/
def edge (word : Char → Bool) : Regex := test fun before after => before.head?.any word != after.head?.any word

/-- The beginning of the text. -/
def start : Regex := test fun before _ => before.isEmpty

/-! ### Matches -/

/-- The pattern describes `u` between `before`, the nearest first, and `after`. -/
def Matches (r : Regex) (before u after : List Char) : Prop := (u.reverse ++ before, after) ∈ r.ends (before, u ++ after)

/-- What is reached has consumed a text. -/
def Advances (z w : Place) (u : List Char) : Prop := z.2 = u ++ w.2 ∧ w.1 = u.reverse ++ z.1

theorem Advances.refl (z : Place) : Advances z z [] := ⟨rfl, rfl⟩

theorem Advances.trans {x y z : Place} {u v : List Char} (h : Advances x y u) (k : Advances y z v) : Advances x z (u ++ v) := by
  refine ⟨?_, ?_⟩
  · rw [h.1, k.1, List.append_assoc]
  · rw [k.2, h.2, List.reverse_append, List.append_assoc]

theorem repeated_advances {f : Place → List Place} (hf : ∀ z, ∀ w ∈ f z, ∃ u, Advances z w u) (n : Nat) {z w : Place}
    (h : w ∈ repeated f n z) : ∃ u, Advances z w u := by
  induction n generalizing z with
  | zero => exact ⟨[], List.mem_singleton.mp h ▸ .refl z⟩
  | succ n ih =>
    rcases List.mem_append.mp h with h | h
    · obtain ⟨y, hy, hw⟩ := List.mem_flatMap.mp h
      obtain ⟨u, hu⟩ := hf z y hy
      obtain ⟨v, hv⟩ := ih hw
      exact ⟨u ++ v, hu.trans hv⟩
    · exact ⟨[], List.mem_singleton.mp h ▸ .refl z⟩

theorem ends_advances (r : Regex) {z w : Place} (h : w ∈ r.ends z) : ∃ u, Advances z w u := by
  induction r generalizing z w with
  | test p =>
    rw [ends_test] at h
    split at h
    · exact ⟨[], List.mem_singleton.mp h ▸ .refl z⟩
    · cases h
  | cls p =>
    obtain ⟨before, _ | ⟨c, after⟩⟩ := z
    · cases h
    · rw [ends_cls_cons] at h
      split at h
      · obtain rfl := List.mem_singleton.mp h
        exact ⟨[c], rfl, rfl⟩
      · cases h
  | seq a b iha ihb =>
    obtain ⟨y, hy, hw⟩ := List.mem_flatMap.mp h
    obtain ⟨u, hu⟩ := iha hy
    obtain ⟨v, hv⟩ := ihb hw
    exact ⟨u ++ v, hu.trans hv⟩
  | alt a b iha ihb => exact (List.mem_append.mp h).elim iha ihb
  | upTo n a ih => exact repeated_advances (fun z w => ih) n h
  | many a ih => exact repeated_advances (fun z w => ih) _ h

/-- A place is reached by a match. -/
theorem mem_ends_iff {r : Regex} {before text : List Char} {w : Place} :
    w ∈ r.ends (before, text) ↔ ∃ u, text = u ++ w.2 ∧ w.1 = u.reverse ++ before ∧ r.Matches before u w.2 := by
  constructor
  · intro h
    obtain ⟨u, htext, hbefore⟩ := r.ends_advances h
    refine ⟨u, htext, hbefore, ?_⟩
    rw [Matches, ← hbefore, ← show text = u ++ w.2 from htext]
    exact h
  · rintro ⟨u, rfl, hbefore, h⟩
    rw [Matches, ← hbefore] at h
    exact h

section

variable {a b : Regex} {before u after : List Char}

theorem matches_test {p : List Char → List Char → Bool} :
    (test p).Matches before u after ↔ u = [] ∧ p before after = true := by
  rw [Matches, ends_test]
  constructor
  · intro h
    split at h
    · rename_i hp
      obtain ⟨-, hafter⟩ := Prod.mk.inj (List.mem_singleton.mp h)
      obtain rfl : u = [] := by simpa using hafter
      exact ⟨rfl, hp⟩
    · cases h
  · rintro ⟨rfl, hp⟩
    rw [if_pos (by exact hp)]
    exact List.mem_singleton_self _

theorem matches_cls {p : Char → Bool} : (cls p).Matches before u after ↔ ∃ c, u = [c] ∧ p c = true := by
  rw [Matches]
  constructor
  · intro h
    cases u with
    | nil =>
      cases after with
      | nil => cases h
      | cons c after =>
        rw [List.nil_append, ends_cls_cons] at h
        split at h
        · have hlength := congrArg (fun z : Place => z.2.length) (List.mem_singleton.mp h)
          simp at hlength
        · cases h
    | cons c u =>
      rw [List.cons_append, ends_cls_cons] at h
      split at h
      · rename_i hc
        obtain ⟨-, hafter⟩ := Prod.mk.inj (List.mem_singleton.mp h)
        obtain rfl : u = [] := by simpa using hafter
        exact ⟨c, rfl, hc⟩
      · cases h
  · rintro ⟨c, rfl, hc⟩
    rw [List.singleton_append, ends_cls_cons, if_pos hc]
    exact List.mem_singleton_self _

theorem matches_seq : (seq a b).Matches before u after ↔
    ∃ v w, u = v ++ w ∧ a.Matches before v (w ++ after) ∧ b.Matches (v.reverse ++ before) w after := by
  rw [Matches, ends_seq, List.mem_flatMap]
  constructor
  · rintro ⟨⟨middle, text⟩, ha, hb⟩
    obtain ⟨v, htext, hmiddle, hv⟩ := mem_ends_iff.mp ha
    obtain ⟨w, htext', hw', hw⟩ := mem_ends_iff.mp hb
    dsimp only at htext hmiddle hv htext' hw' hw
    subst htext' hmiddle
    refine ⟨v, w, ?_, hv, hw⟩
    rw [← List.append_assoc] at htext
    exact List.append_cancel_right htext
  · rintro ⟨v, w, rfl, hv, hw⟩
    refine ⟨(v.reverse ++ before, w ++ after), ?_, ?_⟩
    · rw [List.append_assoc]
      exact hv
    · rw [List.reverse_append, List.append_assoc]
      exact hw

theorem matches_alt : (alt a b).Matches before u after ↔ a.Matches before u after ∨ b.Matches before u after :=
  List.mem_append

end

/-! ### Repetitions -/

/-- A longer bound allows whatever a shorter one does. -/
theorem repeated_mono {f : Place → List Place} {n m : Nat} (h : n ≤ m) {z w : Place} (hw : w ∈ repeated f n z) :
    w ∈ repeated f m z := by
  induction n generalizing z m with
  | zero =>
    obtain rfl := List.mem_singleton.mp hw
    cases m with
    | zero => exact hw
    | succ m => exact List.mem_append_right _ (List.mem_singleton_self _)
  | succ n ih =>
    obtain ⟨m, rfl⟩ := Nat.exists_eq_add_of_le' (Nat.le_trans (Nat.le_add_left 1 n) h)
    rcases List.mem_append.mp hw with hw | hw
    · obtain ⟨y, hy, hw⟩ := List.mem_flatMap.mp hw
      exact List.mem_append_left _ (List.mem_flatMap.mpr ⟨y, hy, ih (Nat.le_of_succ_le_succ h) hw⟩)
    · exact List.mem_append_right _ hw

/-- The last of the steps. -/
theorem repeated_last {f : Place → List Place} {n : Nat} {z w : Place} (h : w ∈ repeated f n z) :
    w = z ∨ ∃ y ∈ repeated f n z, w ∈ f y := by
  induction n generalizing z with
  | zero => exact .inl (List.mem_singleton.mp h)
  | succ n ih =>
    rcases List.mem_append.mp h with h | h
    · obtain ⟨y, hy, hw⟩ := List.mem_flatMap.mp h
      rcases ih hw with rfl | ⟨x, hx, hw⟩
      · exact .inr ⟨z, List.mem_append_right _ (List.mem_singleton_self z), hy⟩
      · exact .inr ⟨x, List.mem_append_left _ (List.mem_flatMap.mpr ⟨y, hy, hx⟩), hw⟩
    · exact .inl (List.mem_singleton.mp h)

theorem mem_repeated_cls {p : Char → Bool} {n : Nat} {before text : List Char} {w : Place} :
    w ∈ repeated (cls p).ends n (before, text) ↔
      ∃ u, text = u ++ w.2 ∧ w.1 = u.reverse ++ before ∧ u.length ≤ n ∧ ∀ c ∈ u, p c = true := by
  obtain ⟨first, rest⟩ := w
  induction n generalizing before text with
  | zero =>
    rw [repeated, List.mem_singleton]
    constructor
    · rintro ⟨⟩
      exact ⟨[], rfl, rfl, Nat.le_refl 0, List.forall_mem_nil _⟩
    · rintro ⟨u, rfl, hfirst, hlength, -⟩
      obtain rfl := List.length_eq_zero_iff.mp (Nat.le_zero.mp hlength)
      exact Prod.ext hfirst rfl
  | succ n ih =>
    rw [repeated, List.mem_append, List.mem_flatMap]
    constructor
    · rintro (⟨⟨middle, text'⟩, hstep, hrest⟩ | hend)
      · obtain ⟨v, htext, hmiddle, hv⟩ := mem_ends_iff.mp hstep
        obtain ⟨c, rfl, hc⟩ := matches_cls.mp hv
        obtain ⟨u, htext', hfirst, hlength, hall⟩ := ih.mp hrest
        dsimp only at htext hmiddle htext' hfirst
        subst htext' hmiddle htext
        exact ⟨c :: u, rfl, by simpa using hfirst, Nat.succ_le_succ hlength, List.forall_mem_cons.mpr ⟨hc, hall⟩⟩
      · obtain ⟨rfl, rfl⟩ := Prod.mk.inj (List.mem_singleton.mp hend)
        exact ⟨[], rfl, rfl, Nat.zero_le _, List.forall_mem_nil _⟩
    · rintro ⟨_ | ⟨c, u⟩, rfl, hfirst, hlength, hall⟩
      · exact .inr (List.mem_singleton.mpr (Prod.ext hfirst rfl))
      · obtain ⟨hc, hall⟩ := List.forall_mem_cons.mp hall
        refine .inl ⟨(c :: before, u ++ rest), ?_, ih.mpr ⟨u, rfl, by simpa using hfirst, Nat.le_of_succ_le_succ hlength, hall⟩⟩
        rw [List.cons_append, ends_cls_cons, if_pos hc]
        exact List.mem_singleton_self _

section

variable {a b : Regex} {p : Char → Bool} {before u after : List Char}

theorem matches_upTo_cls {n : Nat} : (upTo n (cls p)).Matches before u after ↔ u.length ≤ n ∧ ∀ c ∈ u, p c = true := by
  rw [Matches, ends_upTo, mem_repeated_cls]
  constructor
  · rintro ⟨v, htext, -, h⟩
    rwa [List.append_cancel_right htext]
  · exact fun h => ⟨u, rfl, rfl, h⟩

theorem matches_many_cls : (many (cls p)).Matches before u after ↔ ∀ c ∈ u, p c = true := by
  rw [Matches, ends_many, mem_repeated_cls]
  constructor
  · rintro ⟨v, htext, -, -, h⟩
    rwa [List.append_cancel_right htext]
  · exact fun h => ⟨u, rfl, rfl, by simp, h⟩

/-- What is repeated ends with a match of its own. -/
theorem Matches.last (h : (plus a).Matches before u after) :
    ∃ v w, u = v ++ w ∧ a.Matches (v.reverse ++ before) w after := by
  obtain ⟨v, w, rfl, hv, hw⟩ := matches_seq.mp h
  rcases repeated_last hw with hend | ⟨⟨middle, text⟩, hmiddle, hlast⟩
  · obtain rfl : w = [] := by simpa using congrArg (fun z : Place => z.2.length) hend
    exact ⟨[], v, by simp, by simpa using hv⟩
  · obtain ⟨x, htext, hx⟩ := repeated_advances (fun z w => a.ends_advances) _ hmiddle
    obtain ⟨y, hy, -, hmatch⟩ := mem_ends_iff.mp hlast
    dsimp only at htext hx hy hmatch
    subst hy hx
    rw [← List.append_assoc] at htext
    refine ⟨v ++ x, y, by rw [List.append_cancel_right htext, List.append_assoc], ?_⟩
    rw [List.reverse_append, List.append_assoc]
    exact hmatch

theorem matches_many_nil : (many a).Matches before [] after := repeated_mono (Nat.zero_le _) (List.mem_singleton_self _)

theorem Matches.plus (h : a.Matches before u after) : (plus a).Matches before u after :=
  matches_seq.mpr ⟨u, [], (List.append_nil u).symm, h, matches_many_nil⟩

end

/-! ### Characters that a match needs -/

/-- Every match has a character of `q`. -/
def Needs (q : Char → Prop) : Regex → Prop
  | test _ => False
  | cls p => ∀ c, p c = true → q c
  | seq a b => Needs q a ∨ Needs q b
  | alt a b => Needs q a ∧ Needs q b
  | upTo _ _ => False
  | many _ => False

theorem Matches.exists_of_needs {q : Char → Prop} {r : Regex} (hr : r.Needs q) {before u after : List Char}
    (h : r.Matches before u after) : ∃ c ∈ u, q c := by
  induction r generalizing before u after with
  | test p => exact hr.elim
  | cls p =>
    obtain ⟨c, rfl, hc⟩ := matches_cls.mp h
    exact ⟨c, List.mem_singleton_self c, hr c hc⟩
  | seq a b iha ihb =>
    obtain ⟨v, w, rfl, hv, hw⟩ := matches_seq.mp h
    rcases hr with hr | hr
    · obtain ⟨c, hc, hq⟩ := iha hr hv
      exact ⟨c, List.mem_append_left w hc, hq⟩
    · obtain ⟨c, hc, hq⟩ := ihb hr hw
      exact ⟨c, List.mem_append_right v hc, hq⟩
  | alt a b iha ihb => exact (matches_alt.mp h).elim (iha hr.1) (ihb hr.2)
  | upTo n a ih => exact hr.elim
  | many a ih => exact hr.elim

/-- Every character class of the pattern lies inside `q`. -/
def Within (q : Char → Prop) : Regex → Prop
  | test _ => True
  | cls p => ∀ c, p c = true → q c
  | seq a b => Within q a ∧ Within q b
  | alt a b => Within q a ∧ Within q b
  | upTo _ a => Within q a
  | many a => Within q a

/-- Steps whose texts are of characters of `q`, one after the other. -/
theorem repeated_all {q : Char → Prop} {f : Place → List Place}
    (hf : ∀ z, ∀ w ∈ f z, ∃ u, Advances z w u ∧ ∀ c ∈ u, q c) (n : Nat) {z w : Place} (h : w ∈ repeated f n z) :
    ∃ u, Advances z w u ∧ ∀ c ∈ u, q c := by
  induction n generalizing z with
  | zero => exact ⟨[], List.mem_singleton.mp h ▸ .refl z, List.forall_mem_nil _⟩
  | succ n ih =>
    rcases List.mem_append.mp h with h | h
    · obtain ⟨y, hy, hw⟩ := List.mem_flatMap.mp h
      obtain ⟨u, hu, hall⟩ := hf z y hy
      obtain ⟨v, hv, hall'⟩ := ih hw
      exact ⟨u ++ v, hu.trans hv, List.forall_mem_append.mpr ⟨hall, hall'⟩⟩
    · exact ⟨[], List.mem_singleton.mp h ▸ .refl z, List.forall_mem_nil _⟩

theorem ends_all {q : Char → Prop} {r : Regex} (hr : ∀ {before u after}, r.Matches before u after → ∀ c ∈ u, q c)
    {z w : Place} (h : w ∈ r.ends z) : ∃ u, Advances z w u ∧ ∀ c ∈ u, q c := by
  obtain ⟨u, htext, hbefore, hmatch⟩ := mem_ends_iff.mp h
  exact ⟨u, ⟨htext, hbefore⟩, hr hmatch⟩

theorem Matches.all {q : Char → Prop} {r : Regex} (hr : r.Within q) {before u after : List Char}
    (h : r.Matches before u after) : ∀ c ∈ u, q c := by
  induction r generalizing before u after with
  | test p =>
    obtain ⟨rfl, -⟩ := matches_test.mp h
    exact List.forall_mem_nil _
  | cls p =>
    obtain ⟨c, rfl, hc⟩ := matches_cls.mp h
    exact List.forall_mem_singleton.mpr (hr c hc)
  | seq a b iha ihb =>
    obtain ⟨v, w, rfl, hv, hw⟩ := matches_seq.mp h
    exact List.forall_mem_append.mpr ⟨iha hr.1 hv, ihb hr.2 hw⟩
  | alt a b iha ihb => exact (matches_alt.mp h).elim (iha hr.1) (ihb hr.2)
  | upTo n a ih =>
    obtain ⟨v, hv, hall⟩ := repeated_all (fun z w hw => ends_all (ih hr) hw) n h
    rwa [List.append_cancel_right hv.1]
  | many a ih =>
    obtain ⟨v, hv, hall⟩ := repeated_all (fun z w hw => ends_all (ih hr) hw) _ h
    rwa [List.append_cancel_right hv.1]

theorem within_cat {q : Char → Prop} {rs : List Regex} : (cat rs).Within q ↔ ∀ r ∈ rs, r.Within q := by
  induction rs with
  | nil => exact ⟨fun _ _ hr => (nomatch hr), fun _ => trivial⟩
  | cons r rs ih => exact (and_congr_right fun _ => ih).trans List.forall_mem_cons.symm

theorem within_oneOf {q : Char → Prop} {rs : List Regex} : (oneOf rs).Within q ↔ ∀ r ∈ rs, r.Within q := by
  induction rs with
  | nil => exact ⟨fun _ _ hr => (nomatch hr), fun _ _ hc => (nomatch hc)⟩
  | cons r rs ih => exact (and_congr_right fun _ => ih).trans List.forall_mem_cons.symm

theorem needs_cat {q : Char → Prop} {rs : List Regex} : (cat rs).Needs q ↔ ∃ r ∈ rs, r.Needs q := by
  induction rs with
  | nil => exact ⟨False.elim, fun ⟨_, hr, _⟩ => nomatch hr⟩
  | cons r rs ih => exact (or_congr_right ih).trans (by simp)

theorem needs_oneOf {q : Char → Prop} {rs : List Regex} : (oneOf rs).Needs q ↔ ∀ r ∈ rs, r.Needs q := by
  induction rs with
  | nil => exact ⟨fun _ _ hr => (nomatch hr), fun _ _ hc => (nomatch hc)⟩
  | cons r rs ih => exact (and_congr_right fun _ => ih).trans List.forall_mem_cons.symm

theorem needs_plus {q : Char → Prop} {r : Regex} (h : r.Needs q) : (plus r).Needs q := .inl h

/-! ### Search -/

/-- A match somewhere from a place on. -/
def searchFrom (r : Regex) : List Char → List Char → Bool
  | before, [] => !(r.ends (before, [])).isEmpty
  | before, c :: after => !(r.ends (before, c :: after)).isEmpty || searchFrom r (c :: before) after

/-- A match somewhere in a text. -/
def search (r : Regex) (text : List Char) : Bool := searchFrom r [] text

/-- The pattern has a match from the place `i` to the place `j` of a text. -/
def Found (r : Regex) (text : List Char) (i j : Nat) : Prop :=
  ∃ before u after, text = before.reverse ++ (u ++ after) ∧ i = before.length ∧ j = i + u.length ∧ r.Matches before u after

theorem Found.le_length {r : Regex} {text : List Char} {i j : Nat} (h : r.Found text i j) : i ≤ j ∧ j ≤ text.length := by
  obtain ⟨before, u, after, rfl, rfl, rfl, -⟩ := h
  simp only [List.length_append, List.length_reverse]
  omega

theorem ends_nonempty_iff {r : Regex} {before text : List Char} :
    (!(r.ends (before, text)).isEmpty) = true ↔ ∃ u after, text = u ++ after ∧ r.Matches before u after := by
  rw [Bool.not_eq_true', List.isEmpty_eq_false_iff_exists_mem]
  constructor
  · rintro ⟨w, hw⟩
    obtain ⟨u, htext, -, h⟩ := mem_ends_iff.mp hw
    exact ⟨u, w.2, htext, h⟩
  · rintro ⟨u, after, rfl, h⟩
    exact ⟨_, h⟩

theorem searchFrom_iff {r : Regex} {before text : List Char} : searchFrom r before text = true ↔
    ∃ gone u after, text = gone ++ (u ++ after) ∧ r.Matches (gone.reverse ++ before) u after := by
  induction text generalizing before with
  | nil =>
    rw [searchFrom, ends_nonempty_iff]
    constructor
    · rintro ⟨u, after, htext, h⟩
      exact ⟨[], u, after, htext, h⟩
    · rintro ⟨gone, u, after, htext, h⟩
      obtain ⟨rfl, hrest⟩ := List.append_eq_nil_iff.mp htext.symm
      exact ⟨u, after, hrest.symm, h⟩
  | cons c text ih =>
    rw [searchFrom, Bool.or_eq_true, ends_nonempty_iff, ih]
    constructor
    · rintro (⟨u, after, htext, h⟩ | ⟨gone, u, after, htext, h⟩)
      · exact ⟨[], u, after, htext, h⟩
      · exact ⟨c :: gone, u, after, by rw [htext]; rfl, by simpa using h⟩
    · rintro ⟨_ | ⟨d, gone⟩, u, after, htext, h⟩
      · exact .inl ⟨u, after, htext, h⟩
      · obtain ⟨rfl, rfl⟩ := List.cons.inj htext
        exact .inr ⟨gone, u, after, rfl, by simpa using h⟩

theorem search_iff {r : Regex} {text : List Char} : r.search text = true ↔ ∃ i j, r.Found text i j := by
  rw [search, searchFrom_iff]
  constructor
  · rintro ⟨gone, u, after, rfl, h⟩
    exact ⟨_, _, gone.reverse, u, after, by rw [List.reverse_reverse], rfl, rfl, by simpa using h⟩
  · rintro ⟨_, _, before, u, after, rfl, rfl, rfl, h⟩
    exact ⟨before.reverse, u, after, rfl, by simpa using h⟩

/-- A text without the characters that a match needs has no match. -/
theorem search_eq_false_of_needs {q : Char → Prop} {r : Regex} (hr : r.Needs q) {text : List Char} (h : ∀ c ∈ text, ¬ q c) :
    r.search text = false := by
  rw [Bool.eq_false_iff]
  intro hsearch
  obtain ⟨_, _, before, u, after, rfl, -, -, hmatch⟩ := search_iff.mp hsearch
  obtain ⟨c, hc, hq⟩ := hmatch.exists_of_needs hr
  exact h c (List.mem_append_right _ (List.mem_append_left _ hc)) hq

/-! ### All matches -/

/-- The places where the matches from a place on begin and end. -/
def spansFrom (r : Regex) : List Char → List Char → List (Nat × Nat)
  | before, [] => (r.ends (before, [])).map fun z => (before.length, z.1.length)
  | before, c :: after =>
    ((r.ends (before, c :: after)).map fun z => (before.length, z.1.length)) ++ spansFrom r (c :: before) after

def spans (r : Regex) (text : List Char) : List (Nat × Nat) := spansFrom r [] text

theorem mem_ends_spans {r : Regex} {before text : List Char} {i j : Nat} :
    (i, j) ∈ ((r.ends (before, text)).map fun z => (before.length, z.1.length)) ↔
      ∃ u after, text = u ++ after ∧ i = before.length ∧ j = i + u.length ∧ r.Matches before u after := by
  rw [List.mem_map]
  constructor
  · rintro ⟨⟨first, after⟩, hz, hij⟩
    obtain ⟨u, htext, hfirst, h⟩ := mem_ends_iff.mp hz
    obtain ⟨rfl, rfl⟩ := Prod.mk.inj hij
    dsimp only at htext hfirst h
    exact ⟨u, after, htext, rfl, by rw [hfirst, List.length_append, List.length_reverse, Nat.add_comm], h⟩
  · rintro ⟨u, after, rfl, rfl, rfl, h⟩
    exact ⟨_, h, by rw [List.length_append, List.length_reverse, Nat.add_comm]⟩

theorem mem_spansFrom_iff {r : Regex} {before text : List Char} {i j : Nat} : (i, j) ∈ spansFrom r before text ↔
    ∃ gone u after, text = gone ++ (u ++ after) ∧ i = before.length + gone.length ∧ j = i + u.length ∧
      r.Matches (gone.reverse ++ before) u after := by
  induction text generalizing before with
  | nil =>
    rw [spansFrom, mem_ends_spans]
    constructor
    · rintro ⟨u, after, htext, hi, hj, h⟩
      exact ⟨[], u, after, htext, hi, hj, h⟩
    · rintro ⟨gone, u, after, htext, hi, hj, h⟩
      obtain ⟨rfl, hrest⟩ := List.append_eq_nil_iff.mp htext.symm
      exact ⟨u, after, hrest.symm, hi, hj, h⟩
  | cons c text ih =>
    rw [spansFrom, List.mem_append, mem_ends_spans, ih]
    constructor
    · rintro (⟨u, after, htext, hi, hj, h⟩ | ⟨gone, u, after, htext, hi, hj, h⟩)
      · exact ⟨[], u, after, htext, hi, hj, h⟩
      · refine ⟨c :: gone, u, after, by rw [htext]; rfl, ?_, hj, by simpa using h⟩
        rw [hi, List.length_cons, List.length_cons, Nat.add_right_comm, Nat.add_assoc]
    · rintro ⟨_ | ⟨d, gone⟩, u, after, htext, hi, hj, h⟩
      · exact .inl ⟨u, after, htext, hi, hj, h⟩
      · obtain ⟨rfl, rfl⟩ := List.cons.inj htext
        refine .inr ⟨gone, u, after, rfl, ?_, hj, by simpa using h⟩
        rw [hi, List.length_cons, List.length_cons, Nat.add_right_comm, Nat.add_assoc]

/-- The matches of a text can be listed. -/
theorem mem_spans_iff {r : Regex} {text : List Char} {i j : Nat} : (i, j) ∈ r.spans text ↔ r.Found text i j := by
  rw [spans, mem_spansFrom_iff]
  constructor
  · rintro ⟨gone, u, after, htext, hi, hj, h⟩
    exact ⟨gone.reverse, u, after, by rw [List.reverse_reverse, htext], by simpa using hi, hj, by simpa using h⟩
  · rintro ⟨before, u, after, htext, hi, hj, h⟩
    exact ⟨before.reverse, u, after, htext, by simpa using hi, hj, by simpa using h⟩

/-- Every match of the one pattern lies in a match of the other one. -/
def CoveredBy (r q : Regex) (text : List Char) : Prop :=
  ∀ i j, r.Found text i j → ∃ k l, q.Found text k l ∧ k ≤ i ∧ j ≤ l

theorem coveredBy_iff {r q : Regex} {text : List Char} : r.CoveredBy q text ↔
    ∀ p ∈ r.spans text, ∃ p' ∈ q.spans text, p'.1 ≤ p.1 ∧ p.2 ≤ p'.2 := by
  constructor
  · rintro h ⟨i, j⟩ hp
    obtain ⟨k, l, hfound, hin⟩ := h i j (mem_spans_iff.mp hp)
    exact ⟨(k, l), mem_spans_iff.mpr hfound, hin⟩
  · intro h i j hfound
    obtain ⟨⟨k, l⟩, hp', hin⟩ := h (i, j) (mem_spans_iff.mpr hfound)
    exact ⟨k, l, mem_spans_iff.mp hp', hin⟩

instance (r q : Regex) (text : List Char) : Decidable (r.CoveredBy q text) := decidable_of_iff' _ coveredBy_iff

/-- Without matches of the covering pattern nothing is covered. -/
theorem CoveredBy.search {r q : Regex} {text : List Char} (h : r.CoveredBy q text) (hr : r.search text = true) :
    q.search text = true := by
  obtain ⟨i, j, hfound⟩ := search_iff.mp hr
  obtain ⟨k, l, hfound, -⟩ := h i j hfound
  exact search_iff.mpr ⟨k, l, hfound⟩

theorem coveredBy_of_search {r q : Regex} {text : List Char} (h : r.search text = false) : r.CoveredBy q text := by
  intro i j hfound
  rw [search_iff.mpr ⟨i, j, hfound⟩] at h
  cases h

/-! ### Successive matches -/

/-- Where a match that consumes something ends, if that is what is tried first. -/
def firstEnd (r : Regex) (before text : List Char) : Option Place :=
  (r.ends (before, text)).head?.filter fun z => decide (z.2.length < text.length)

/-- The matches that follow each other, with the places where they begin.  What matches nothing but the empty text is
passed over. -/
def finditerFrom (r : Regex) : Nat → List Char → List Char → List (Nat × List Char)
  | 0, _, _ => []
  | n + 1, before, text =>
    match r.firstEnd before text with
    | some z => (before.length, text.take (text.length - z.2.length)) :: finditerFrom r n z.1 z.2
    | none =>
      match text with
      | [] => []
      | c :: after => finditerFrom r n (c :: before) after

def finditer (r : Regex) (text : List Char) : List (Nat × List Char) := finditerFrom r (text.length + 1) [] text

theorem firstEnd_some {r : Regex} {before text : List Char} {z : Place} (h : r.firstEnd before text = some z) :
    ∃ u, text = u ++ z.2 ∧ z.1 = u.reverse ++ before ∧ r.Matches before u z.2 ∧
      text.take (text.length - z.2.length) = u := by
  obtain ⟨hhead, -⟩ := Option.filter_eq_some_iff.mp h
  obtain ⟨u, htext, hbefore, hmatch⟩ := mem_ends_iff.mp (List.mem_of_mem_head? hhead)
  refine ⟨u, htext, hbefore, hmatch, ?_⟩
  rw [htext, List.length_append, Nat.add_sub_cancel, List.take_left]

/-- What is listed is a match. -/
theorem mem_finditer {r : Regex} {text token : List Char} {i : Nat} (h : (i, token) ∈ r.finditer text) :
    ∃ before after, text = before.reverse ++ (token ++ after) ∧ i = before.length ∧ r.Matches before token after := by
  have hfrom : ∀ n before rest, before.reverse ++ rest = text → (i, token) ∈ finditerFrom r n before rest →
      ∃ before after, text = before.reverse ++ (token ++ after) ∧ i = before.length ∧ r.Matches before token after := by
    intro n
    induction n with
    | zero => exact fun _ _ _ hmem => nomatch hmem
    | succ n ih =>
      intro before rest htext hmem
      cases hend : r.firstEnd before rest with
      | some z =>
        obtain ⟨u, hrest, hbefore, hmatch, htake⟩ := firstEnd_some hend
        simp only [finditerFrom, hend] at hmem
        rcases List.mem_cons.mp hmem with heq | hmem
        · obtain ⟨rfl, rfl⟩ := Prod.mk.inj heq
          rw [htake]
          exact ⟨before, z.2, by rw [← htext, ← hrest], rfl, hmatch⟩
        · refine ih z.1 z.2 ?_ hmem
          rw [hbefore, List.reverse_append, List.reverse_reverse, List.append_assoc, ← hrest, htext]
      | none =>
        cases rest with
        | nil => simp [finditerFrom, hend] at hmem
        | cons c after =>
          simp only [finditerFrom, hend] at hmem
          exact ih (c :: before) after (by rw [← htext]; simp) hmem
  exact hfrom _ [] text rfl h

end Regex
