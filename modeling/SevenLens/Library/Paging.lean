import Mathlib.Data.List.Nodup
import Mathlib.Data.Nat.Basic

/-! # Lists that are read in pages

A server cuts a list into pages: a cursor names an entry, and the page is what follows it, up to a
size.  A reader that moves the cursor to the last entry of every full page reads the list in order
(`remaining_cursorAfter`), and no cursor comes back (`cursor_fresh`).  A reader of arbitrary pages
keeps the first entry of every key (`FirstOfEach`). -/

namespace Paging

variable {α κ : Type} [DecidableEq κ]

/-! ### Pages of a list -/

section Server

variable (key : α → κ)

/-- What comes after the entry of a key. -/
def behind (l : List α) (k : κ) : List α := (l.dropWhile (fun a => key a ≠ k)).drop 1

/-- What a cursor leaves to be read. -/
def remaining (l : List α) : Option κ → List α
  | none => l
  | some k => behind key l k

/-- The page at a cursor. -/
def page (size : Nat) (l : List α) (cursor : Option κ) : List α := (remaining key l cursor).take size

/-- The cursor of a reader: the key of the last entry it has read. -/
def cursorAfter (read : List α) : Option κ := read.getLast?.map key

end Server

/-- The pages of a list of `n` entries: the last one is the first that is not full.  After a multiple of the
size it is empty. -/
def pages (size n : Nat) : Nat := n / size + 1

theorem pages_pos (size n : Nat) : 0 < pages size n := Nat.succ_pos _

theorem pages_of_lt {size n : Nat} (h : n < size) : pages size n = 1 := by
  rw [pages, Nat.div_eq_of_lt h]

theorem pages_of_le {size n : Nat} (hsize : 0 < size) (h : size ≤ n) : pages size n = pages size (n - size) + 1 := by
  rw [pages, pages, Nat.div_eq_sub_div hsize h]

section Reader

variable {key : α → κ} {l done rest : List α}

theorem behind_append {before after : List α} {a : α} (h : ((before ++ a :: after).map key).Nodup) :
    behind key (before ++ a :: after) (key a) = after := by
  rw [List.map_append, List.nodup_append] at h
  obtain ⟨-, -, hdisjoint⟩ := h
  have hdrop : ∀ b ∈ before, decide (key b ≠ key a) = true := fun b hb =>
    decide_eq_true (hdisjoint _ (List.mem_map_of_mem hb) _ (List.mem_map_of_mem List.mem_cons_self))
  rw [behind, List.dropWhile_append_of_pos hdrop, List.dropWhile_cons_of_neg (by simp)]
  rfl

theorem mem_of_mem_page {size : Nat} {cursor : Option κ} {a : α} (h : a ∈ page key size l cursor) : a ∈ l := by
  have hmem := List.mem_of_mem_take h
  cases cursor with
  | none => exact hmem
  | some k => exact (List.dropWhile_sublist _).subset (List.mem_of_mem_drop hmem)

/-- The cursor of a reader leaves what it has not read. -/
theorem remaining_cursorAfter (h : ((done ++ rest).map key).Nodup) :
    remaining key (done ++ rest) (cursorAfter key done) = rest := by
  rcases List.eq_nil_or_concat done with rfl | ⟨before, a, rfl⟩
  · rfl
  · rw [List.concat_eq_append, List.append_assoc] at h ⊢
    rw [cursorAfter, List.getLast?_append_of_ne_nil _ (List.cons_ne_nil a [])]
    exact behind_append h

omit [DecidableEq κ] in
theorem cursorAfter_append (h : rest ≠ []) : cursorAfter key (done ++ rest) = rest.getLast?.map key := by
  rw [cursorAfter, List.getLast?_append_of_ne_nil _ h]

omit [DecidableEq κ] in
/-- The cursor behind a page is not one of the entries before it. -/
theorem cursor_fresh (h : ((done ++ rest).map key).Nodup) {k : κ} (hk : rest.getLast?.map key = some k) :
    k ∉ done.map key := by
  obtain ⟨a, ha, rfl⟩ := Option.map_eq_some_iff.mp hk
  rw [List.map_append, List.nodup_append] at h
  exact fun hmem => h.2.2 _ hmem _ (List.mem_map_of_mem (List.mem_of_getLast? ha)) rfl

end Reader

/-! ### The first entry of every key -/

/-- Append the entries of a page whose key is new. -/
def addFirst (key : α → κ) (found page : List α) : List α :=
  page.foldl (fun found a => if key a ∈ found.map key then found else found ++ [a]) found

/-- Of every key that occurs in a list the first entry, in the order of the list. -/
structure FirstOfEach (key : α → κ) (l found : List α) : Prop where
  sublist : found.Sublist l
  distinct : (found.map key).Nodup
  first : ∀ before a after, l = before ++ a :: after → key a ∉ before.map key → a ∈ found

variable {key : α → κ}

omit [DecidableEq κ] in
theorem firstOfEach_nil : FirstOfEach key [] [] :=
  ⟨List.Sublist.refl _, List.nodup_nil, fun before _ _ h => absurd h (by simp)⟩

namespace FirstOfEach

variable {l found : List α}

omit [DecidableEq κ] in
/-- Every entry of the list has its key among those kept. -/
theorem covers (h : FirstOfEach key l found) {a : α} (ha : a ∈ l) : ∃ b ∈ found, key b = key a := by
  obtain ⟨keys, rest, hkeys, hfresh⟩ := List.eq_append_cons_of_mem (List.mem_map_of_mem (f := key) ha)
  obtain ⟨before, tail, rfl, rfl, htail⟩ := List.map_eq_append_iff.mp hkeys
  obtain ⟨b, after, rfl, hb, -⟩ := List.map_eq_cons_iff.mp htail
  exact ⟨b, h.first before b after rfl (hb ▸ hfresh), hb⟩

/-- One more entry. -/
theorem snoc (h : FirstOfEach key l found) (a : α) :
    FirstOfEach key (l ++ [a]) (if key a ∈ found.map key then found else found ++ [a]) := by
  have hkept : ∀ b ∈ found, b ∈ if key a ∈ found.map key then found else found ++ [a] := by
    intro b hb
    split_ifs
    · exact hb
    · exact List.mem_append_left _ hb
  refine ⟨?_, ?_, fun before b after hsplit hfresh => ?_⟩
  · split_ifs
    · exact h.sublist.trans (List.sublist_append_left l [a])
    · exact h.sublist.append (List.Sublist.refl _)
  · split_ifs with hmem
    · exact h.distinct
    · rw [List.map_append, List.nodup_append]
      refine ⟨h.distinct, List.nodup_singleton _, fun k hk k' hk' => ?_⟩
      rintro rfl
      exact hmem (List.mem_singleton.mp hk' ▸ hk)
  · rcases List.eq_nil_or_concat after with rfl | ⟨after, c, rfl⟩
    · -- the entry is the last one
      obtain ⟨rfl, hb⟩ := List.append_inj' hsplit rfl
      cases hb
      rw [if_neg fun hmem => hfresh ((h.sublist.map key).subset hmem)]
      exact List.mem_append_right _ List.mem_cons_self
    · rw [List.concat_eq_append, ← List.cons_append, ← List.append_assoc] at hsplit
      obtain ⟨rfl, -⟩ := List.append_inj' hsplit rfl
      exact hkept b (h.first before b after rfl hfresh)

/-- One more page. -/
theorem addFirst (h : FirstOfEach key l found) (page : List α) :
    FirstOfEach key (l ++ page) (addFirst key found page) := by
  induction page generalizing l found with
  | nil => rwa [List.append_nil]
  | cons a page ih =>
    have hnext := ih (h.snoc a)
    rwa [List.append_assoc] at hnext

end FirstOfEach

/-- A page of new entries is appended as it is. -/
theorem addFirst_eq {found page : List α} (h : ((found ++ page).map key).Nodup) :
    addFirst key found page = found ++ page := by
  induction page generalizing found with
  | nil => rw [List.append_nil]; rfl
  | cons a page ih =>
    have hnew : key a ∉ found.map key := by
      rw [List.map_append, List.nodup_append] at h
      exact fun hmem => h.2.2 _ hmem _ (List.mem_map_of_mem List.mem_cons_self) rfl
    have hstep : addFirst key found (a :: page) =
        addFirst key (if key a ∈ found.map key then found else found ++ [a]) page := rfl
    rw [List.append_cons] at h ⊢
    rw [hstep, if_neg hnew, ih h]

end Paging
