import SevenLens.Library.Wire

/-! # Codecs of JSON values

A codec says how a value is written in JSON and how it is read, and which values are good.  It
reads exactly what is written of the good ones: what it reads is what would be written (`sound`),
and what is written of a good value is read (`complete`).  Two values that are written exactly are
told apart by what is written (`inj`).  Dictionaries are read under a `Budget`, which whatever is
inside an accepted dictionary keeps.

Codecs are put together of smaller ones: lists, values that may be absent, and records, whose
`Fields` are read in order and given to a constructor. -/

namespace Json

variable {ε α β ρ τ : Type}

/-! ### Budgets -/

/-- What a dictionary is checked for before its fields are read. -/
structure Budget (ε : Type) where
  enter : Json → Except ε Unit
  /-- The error for a dictionary with other fields. -/
  foreign : ε
  inside : ∀ {fields j}, enter j = .ok () → Inside (.obj fields) j → enter (.obj fields) = .ok ()

namespace Budget

variable (B : Budget ε)

/-- The fields of a dictionary that has exactly the given names. -/
def fieldsOf (names : List String) (j : Json) : Except ε (List (String × Json)) := do
  B.enter j
  match j with
  | .obj fields => if (fields.map Prod.fst).Perm names then .ok fields else .error B.foreign
  | _ => .error B.foreign

/-- The dictionaries inside a value pass the check. -/
def Within (j : Json) : Prop := ∀ fields, Inside (.obj fields) j → B.enter (.obj fields) = .ok ()

variable {B}

theorem fieldsOf_ok {names : List String} {j : Json} {fields : List (String × Json)} :
    B.fieldsOf names j = .ok fields ↔
      B.enter j = .ok () ∧ j = .obj fields ∧ (fields.map Prod.fst).Perm names := by
  unfold fieldsOf
  cases hj : B.enter j with
  | error e => simp [bind, Except.bind]
  | ok u =>
    cases j with
    | obj fields' =>
      simp only [bind, Except.bind, true_and, Json.obj.injEq]
      split_ifs with hp
      · simp only [Except.ok.injEq]
        exact ⟨fun h => ⟨h, h ▸ hp⟩, And.left⟩
      · simp only [false_iff, not_and]
        rintro rfl
        exact hp
    | _ => simp [bind, Except.bind]

theorem within_of_enter {j : Json} (h : B.enter j = .ok ()) : B.Within j := fun _ hin => B.inside h hin

theorem Within.item {j : Json} {items : List Json} (h : B.Within (.arr items)) (hj : j ∈ items) : B.Within j :=
  fun fields hin => h fields (.item hj hin)

theorem Within.field {k : String} {j : Json} {fields : List (String × Json)} (h : B.Within (.obj fields))
    (hj : (k, j) ∈ fields) : B.Within j := fun inner hin => h inner (.field hj hin)

end Budget

/-! ### Codecs -/

/-- How a value is written in JSON and how it is read, where exactly the good values are read. -/
structure Codec (B : Budget ε) (α : Type) where
  write : α → Json
  read : Json → Except ε α
  good : α → Prop
  /-- Nothing of the value is lost when it is written. -/
  exact : α → Prop
  canonical : ∀ a, (write a).canon = write a
  sound : ∀ {j a}, read j = .ok a → j.canon = write a ∧ good a
  complete : ∀ {j a}, B.Within j → j.canon = write a → good a → read j = .ok a
  exact_of_good : ∀ {a}, good a → exact a
  inj : ∀ {a b}, exact a → exact b → write a = write b → a = b

namespace Codec

variable {B : Budget ε}

/-- A value is read from what is written of it when it is good. -/
theorem read_write (c : Codec B α) {a : α} (hb : B.Within (c.write a)) : c.read (c.write a) = .ok a ↔ c.good a :=
  ⟨fun hread => (c.sound hread).2, c.complete hb (c.canonical a)⟩

/-- Whatever is read of what is written of a value is that value. -/
theorem eq_of_read_write (c : Codec B α) {a b : α} (ha : c.exact a) (h : c.read (c.write a) = .ok b) : b = a := by
  obtain ⟨hwrite, hgood⟩ := c.sound h
  rw [c.canonical] at hwrite
  exact (c.inj ha (c.exact_of_good hgood) hwrite).symm

/-! ### Scalars -/

/-- A value without items or fields. -/
def IsScalar : Json → Prop
  | .arr _ | .obj _ => False
  | _ => True

theorem canon_of_isScalar {j : Json} (h : IsScalar j) : j.canon = j := by
  cases j with
  | arr items => cases h
  | obj fields => cases h
  | _ => rfl

theorem canon_eq_scalar {j k : Json} (hk : IsScalar k) : j.canon = k ↔ j = k := by
  constructor
  · rintro rfl
    cases j with
    | arr items => rw [canon] at hk; cases hk
    | obj fields => rw [canon, dict] at hk; cases hk
    | _ => rfl
  · rintro rfl
    exact canon_of_isScalar hk

/-- A codec that writes scalars and reads exactly the good ones. -/
def scalar (write : α → Json) (read : Json → Except ε α) (good exact : α → Prop)
    (hscalar : ∀ a, IsScalar (write a)) (h : ∀ j a, read j = .ok a ↔ j = write a ∧ good a)
    (hexact : ∀ a, good a → exact a) (hinj : ∀ a b, exact a → exact b → write a = write b → a = b) : Codec B α where
  write := write
  read := read
  good := good
  exact := exact
  canonical a := canon_of_isScalar (hscalar a)
  sound {j a} hread := by
    rw [canon_eq_scalar (hscalar a)]
    exact (h j a).mp hread
  complete {j a} _ hj hg := (h j a).mpr ⟨(canon_eq_scalar (hscalar a)).mp hj, hg⟩
  exact_of_good {a} := hexact a
  inj {a b} := hinj a b

/-- An absent value is written as null. -/
def nullable (c : Codec B α) (hnull : ∀ a, c.write a ≠ .null) : Codec B (Option α) where
  write a := a.elim .null c.write
  read
    | .null => .ok none
    | j => (c.read j).map some
  good a := ∀ x, a = some x → c.good x
  exact a := ∀ x, a = some x → c.exact x
  canonical a := by
    cases a with
    | none => rfl
    | some x => exact c.canonical x
  sound {j a} hread := by
    split at hread
    · cases hread
      exact ⟨rfl, fun _ he => nomatch he⟩
    · cases hx : c.read j with
      | error e => rw [hx] at hread; cases hread
      | ok x =>
        rw [hx] at hread
        cases hread
        obtain ⟨hj, hg⟩ := c.sound hx
        exact ⟨hj, fun y hy => Option.some.inj hy ▸ hg⟩
  complete {j a} hb hj hg := by
    cases a with
    | none =>
      have hnone : j = .null := (canon_eq_scalar (k := .null) trivial).mp hj
      subst hnone
      rfl
    | some x =>
      have hread := c.complete hb hj (hg x rfl)
      have hne : j ≠ .null := by
        rintro rfl
        exact hnull x hj.symm
      split
      · exact absurd rfl hne
      · rw [hread]
        rfl
  exact_of_good hg x hx := c.exact_of_good (hg x hx)
  inj {a b} ha hb h := by
    cases a with
    | none =>
      cases b with
      | none => rfl
      | some y => exact absurd h.symm (hnull y)
    | some x =>
      cases b with
      | none => exact absurd h (hnull x)
      | some y => rw [c.inj (ha x rfl) (hb y rfl) h]

/-! ### Lists -/

/-- The errors of a list: another type, a wrong length, a repeated item. -/
structure ListErrors (ε : Type) where
  type : ε
  bound : ε
  repeated : ε

/-- The lists within bounds, whose items may have to be distinct. -/
def GoodList (good : α → Prop) (maximum : Nat) (nonempty unique : Bool) (l : List α) : Prop :=
  l.length ≤ maximum ∧ (nonempty = true → l ≠ []) ∧ (∀ a ∈ l, good a) ∧ (unique = true → l.Nodup)

/-- The items of a list, which are read in order. -/
def readList [DecidableEq α] (read : Json → Except ε α) (errors : ListErrors ε) (maximum : Nat)
    (nonempty unique : Bool) : Json → Except ε (List α)
  | .arr items =>
    if maximum < items.length ∨ (nonempty = true ∧ items = []) then .error errors.bound
    else do
      let l ← items.mapM read
      if unique = true ∧ ¬ l.Nodup then .error errors.repeated else .ok l
  | _ => .error errors.type

theorem readList_ok [DecidableEq α] {read : Json → Except ε α} {errors : ListErrors ε} {maximum : Nat}
    {nonempty unique : Bool} {j : Json} {l : List α} : readList read errors maximum nonempty unique j = .ok l ↔
      ∃ items, j = .arr items ∧ List.Forall₂ (fun j a => read j = .ok a) items l ∧
        l.length ≤ maximum ∧ (nonempty = true → l ≠ []) ∧ (unique = true → l.Nodup) := by
  constructor
  · intro h
    unfold readList at h
    split at h
    · rename_i items
      split_ifs at h with hbound
      cases hl : items.mapM read with
      | error e => rw [hl] at h; cases h
      | ok r =>
        rw [hl] at h
        simp only [bind, Except.bind] at h
        split_ifs at h with hrep
        cases h
        have hall := Dict.forall₂_of_mapM hl
        have hlen := hall.length_eq
        refine ⟨items, rfl, hall, ?_, fun hne hnil => ?_, fun hu => ?_⟩
        · simp only [not_or, not_lt] at hbound
          omega
        · refine hbound (.inr ⟨hne, ?_⟩)
          rw [hnil] at hlen
          exact List.length_eq_zero_iff.mp hlen
        · by_contra hdup
          exact hrep ⟨hu, hdup⟩
    · cases h
  · rintro ⟨items, rfl, hall, hmax, hne, huniq⟩
    have hlen := hall.length_eq
    have hbound : ¬ (maximum < items.length ∨ (nonempty = true ∧ items = [])) := by
      rintro (hlt | ⟨hn, rfl⟩)
      · omega
      · exact hne hn (List.length_eq_zero_iff.mp hlen.symm)
    have hrep : ¬ (unique = true ∧ ¬ l.Nodup) := fun hc => hc.2 (huniq hc.1)
    unfold readList
    dsimp only
    rw [if_neg hbound, Dict.mapM_of_forall₂ hall]
    simp only [bind, Except.bind]
    rw [if_neg hrep]

theorem canon_arr_eq {j : Json} {items : List Json} (h : j.canon = .arr items) :
    ∃ raw, j = .arr raw ∧ raw.map canon = items := by
  cases j with
  | arr raw =>
    rw [canon_arr] at h
    exact ⟨raw, rfl, Json.arr.inj h⟩
  | obj fields => rw [canon, Json.dict] at h; cases h
  | _ => cases h

/-- The items that are read are those that would be written. -/
theorem forall₂_sound (c : Codec B α) {items : List Json} {l : List α}
    (h : List.Forall₂ (fun j a => c.read j = .ok a) items l) :
    items.map canon = l.map c.write ∧ ∀ a ∈ l, c.good a := by
  induction h with
  | nil => exact ⟨rfl, fun a ha => nomatch ha⟩
  | cons hx _ ih =>
    obtain ⟨hj, hg⟩ := c.sound hx
    refine ⟨by rw [List.map_cons, List.map_cons, hj, ih.1], fun b hb => ?_⟩
    obtain rfl | hb := List.mem_cons.mp hb
    · exact hg
    · exact ih.2 b hb

theorem forall₂_complete (c : Codec B α) {items : List Json} {l : List α} (hmap : items.map canon = l.map c.write)
    (hb : ∀ j ∈ items, B.Within j) (hg : ∀ a ∈ l, c.good a) :
    List.Forall₂ (fun j a => c.read j = .ok a) items l := by
  induction items generalizing l with
  | nil =>
    cases l with
    | nil => exact .nil
    | cons a l => cases hmap
  | cons j items ih =>
    cases l with
    | nil => cases hmap
    | cons a l =>
      obtain ⟨hhead, htail⟩ := List.cons.inj hmap
      refine .cons (c.complete (hb j List.mem_cons_self) hhead (hg a List.mem_cons_self)) ?_
      exact ih htail (fun k hk => hb k (List.mem_cons_of_mem j hk)) (fun b hb' => hg b (List.mem_cons_of_mem a hb'))

theorem map_write_inj (c : Codec B α) {l m : List α} (hl : ∀ a ∈ l, c.exact a) (hm : ∀ a ∈ m, c.exact a)
    (h : l.map c.write = m.map c.write) : l = m := by
  induction l generalizing m with
  | nil => exact (List.map_eq_nil_iff.mp h.symm).symm
  | cons a l ih =>
    cases m with
    | nil => cases h
    | cons b m =>
      obtain ⟨hhead, htail⟩ := List.cons.inj h
      obtain ⟨ha, hl⟩ := List.forall_mem_cons.mp hl
      obtain ⟨hb, hm⟩ := List.forall_mem_cons.mp hm
      rw [c.inj ha hb hhead, ih hl hm htail]

/-- A list within bounds. -/
def list [DecidableEq α] (c : Codec B α) (errors : ListErrors ε) (maximum : Nat) (nonempty unique : Bool) :
    Codec B (List α) where
  write l := .arr (l.map c.write)
  read := readList c.read errors maximum nonempty unique
  good := GoodList c.good maximum nonempty unique
  exact l := ∀ a ∈ l, c.exact a
  canonical l := by
    rw [canon_arr, List.map_map]
    exact congrArg Json.arr (List.map_congr_left fun a _ => c.canonical a)
  sound {j l} hread := by
    obtain ⟨items, rfl, hall, hmax, hne, huniq⟩ := readList_ok.mp hread
    obtain ⟨hmap, hgood⟩ := c.forall₂_sound hall
    rw [canon_arr, hmap]
    exact ⟨rfl, hmax, hne, hgood, huniq⟩
  complete {j l} hb hj hg := by
    obtain ⟨items, rfl, hmap⟩ := canon_arr_eq hj
    obtain ⟨hmax, hne, hgood, huniq⟩ := hg
    exact readList_ok.mpr ⟨items, rfl, c.forall₂_complete hmap (fun j hj => hb.item hj) hgood, hmax, hne, huniq⟩
  exact_of_good hg a ha := c.exact_of_good (hg.2.2.1 a ha)
  inj ha hb h := c.map_write_inj ha hb (Json.arr.inj h)

end Codec

/-! ### Records -/

/-- Two dictionaries with the same keys in the same order are equal when they have the same fields. -/
theorem eq_of_perm_of_keys {l m : List (String × Json)} (hp : l.Perm m) (hk : l.map Prod.fst = m.map Prod.fst)
    (hn : (m.map Prod.fst).Nodup) : l = m := by
  refine List.ext_getElem hp.length_eq fun i hi hi' => ?_
  have hmem : l[i] ∈ m := hp.mem_iff.mp (List.getElem_mem hi)
  have hkey : l[i].1 = m[i].1 := by
    have := congrArg (fun keys => keys[i]?) hk
    simpa [List.getElem?_eq_getElem, hi, hi'] using this
  exact List.inj_on_of_nodup_map hn hmem (List.getElem_mem hi') hkey

/-- Fields of a record `ρ`.  They are read in the order of the list, and what is read is a tuple of
their values. -/
structure Fields (B : Budget ε) (ρ τ : Type) where
  names : List String
  write : ρ → List (String × Json)
  read : List (String × Json) → Except ε τ
  tuple : ρ → τ
  good : ρ → Prop
  exact : ρ → Prop
  names_write : ∀ r, (write r).map Prod.fst = names
  canonical : ∀ r, ∀ p ∈ write r, p.2.canon = p.2
  sound : ∀ {fields t}, read fields = .ok t → ∀ r, tuple r = t →
    names.map (fun name => (name, (get fields name).canon)) = write r ∧ good r
  complete : ∀ {fields r}, (∀ name ∈ names, B.Within (get fields name)) →
    names.map (fun name => (name, (get fields name).canon)) = write r → good r → read fields = .ok (tuple r)
  exact_of_good : ∀ {r}, good r → exact r
  inj : ∀ {r r'}, exact r → exact r' → write r = write r' → tuple r = tuple r'

namespace Fields

variable {B : Budget ε}

/-- No fields. -/
def nil : Fields B ρ Unit where
  names := []
  write _ := []
  read _ := .ok ()
  tuple _ := ()
  good _ := True
  exact _ := True
  names_write _ := rfl
  canonical _ _ h := nomatch h
  sound _ _ _ := ⟨rfl, trivial⟩
  complete _ _ _ := rfl
  exact_of_good _ := trivial
  inj _ _ _ := rfl

/-- One more field in front: its name, its value in a record and its codec. -/
def field (name : String) (value : ρ → α) (c : Codec B α) (F : Fields B ρ τ) : Fields B ρ (α × τ) where
  names := name :: F.names
  write r := (name, c.write (value r)) :: F.write r
  read fields := do
    let a ← c.read (get fields name)
    let t ← F.read fields
    return (a, t)
  tuple r := (value r, F.tuple r)
  good r := c.good (value r) ∧ F.good r
  exact r := c.exact (value r) ∧ F.exact r
  names_write r := by rw [List.map_cons, F.names_write]
  canonical r p hp := by
    obtain rfl | hp := List.mem_cons.mp hp
    · exact c.canonical _
    · exact F.canonical r p hp
  sound {fields t} hread r ht := by
    cases ha : c.read (get fields name) with
    | error e => rw [ha] at hread; cases hread
    | ok a =>
      cases hF : F.read fields with
      | error e => rw [ha, hF] at hread; cases hread
      | ok t' =>
        rw [ha, hF] at hread
        cases hread
        obtain ⟨rfl, hF'⟩ := Prod.mk.inj ht
        obtain ⟨hj, hg⟩ := c.sound ha
        obtain ⟨hjs, hgs⟩ := F.sound hF r hF'
        exact ⟨by rw [List.map_cons, hj, hjs], hg, hgs⟩
  complete {fields r} hb hj hg := by
    obtain ⟨hhead, htail⟩ := List.cons.inj hj
    have ha := c.complete (hb name List.mem_cons_self) (Prod.mk.inj hhead).2 hg.1
    have hF := F.complete (fun k hk => hb k (List.mem_cons_of_mem name hk)) htail hg.2
    rw [ha, hF]
    rfl
  exact_of_good hg := ⟨c.exact_of_good hg.1, F.exact_of_good hg.2⟩
  inj hr hr' h := by
    obtain ⟨hhead, htail⟩ := List.cons.inj h
    rw [c.inj hr.1 hr'.1 (Prod.mk.inj hhead).2, F.inj hr.2 hr'.2 htail]

end Fields

namespace Codec

variable {B : Budget ε}

/-- A record: a dictionary with exactly the fields, whose values are given to a constructor. -/
def record (F : Fields B ρ τ) (hn : F.names.Nodup) (build : τ → Except ε α) (val : α → ρ)
    (hbuild : ∀ t a, build t = .ok a ↔ F.tuple (val a) = t) : Codec B α where
  write a := dict (F.write (val a))
  read j := do
    let fields ← B.fieldsOf F.names j
    let t ← F.read fields
    build t
  good a := F.good (val a)
  exact a := F.exact (val a)
  canonical a := by
    have hnames := F.names_write (val a)
    have hkeys : ((F.write (val a)).map Prod.fst).Nodup := hnames ▸ hn
    have hself : (F.write (val a)).map (fun p => (p.1, p.2.canon)) = F.write (val a) := by
      conv_rhs => rw [← List.map_id (F.write (val a))]
      exact List.map_congr_left fun p hp => by rw [F.canonical _ p hp]; rfl
    have hperm : (((F.write (val a)).sortOn Prod.fst).map (fun p => (p.1, p.2.canon))).Perm (F.write (val a)) := by
      have hmap := (List.sortOn_perm Prod.fst (F.write (val a))).map (fun p : String × Json => (p.1, p.2.canon))
      rwa [hself] at hmap
    rw [dict, canon, canonFields_eq_map, dict]
    refine congrArg Json.obj (List.sortOn_congr hperm ?_)
    exact (hperm.map Prod.fst).nodup_iff.mpr hkeys
  sound {j a} hread := by
    cases hf : B.fieldsOf F.names j with
    | error e => rw [hf] at hread; cases hread
    | ok fields =>
      cases ht : F.read fields with
      | error e => rw [hf] at hread; simp only [bind, Except.bind, ht] at hread; cases hread
      | ok t =>
        rw [hf] at hread
        simp only [bind, Except.bind, ht] at hread
        obtain ⟨-, rfl, hp⟩ := Budget.fieldsOf_ok.mp hf
        obtain ⟨hwrite, hgood⟩ := F.sound ht (val a) ((hbuild t a).mp hread)
        rw [canon_obj hn hp, hwrite]
        exact ⟨rfl, hgood⟩
  complete {j a} hb hj hg := by
    have hkeys : ((F.write (val a)).map Prod.fst).Nodup := by rw [F.names_write]; exact hn
    obtain ⟨fields, rfl⟩ : ∃ fields, j = .obj fields := by
      cases j with
      | obj fields => exact ⟨fields, rfl⟩
      | arr items => rw [canon] at hj; cases hj
      | _ => cases hj
    have hsort : (fields.map (fun p => (p.1, p.2.canon))).sortOn Prod.fst = (F.write (val a)).sortOn Prod.fst := by
      rw [canon, canonFields_eq_map] at hj
      exact Json.obj.inj hj
    -- the two lists of fields are the same up to their order
    have hperm : (fields.map (fun p => (p.1, p.2.canon))).Perm (F.write (val a)) := by
      have hleft := List.sortOn_perm Prod.fst (fields.map (fun p => (p.1, p.2.canon)))
      rw [hsort] at hleft
      exact hleft.symm.trans (List.sortOn_perm Prod.fst (F.write (val a)))
    have hnames : (fields.map Prod.fst).Perm F.names := by
      have hfst := hperm.map Prod.fst
      rw [List.map_map, F.names_write] at hfst
      exact hfst
    have hfields : (fields.map Prod.fst).Nodup := hnames.nodup_iff.mpr hn
    have hwrite : F.names.map (fun name => (name, (get fields name).canon)) = F.write (val a) := by
      conv_rhs => rw [← List.map_id (F.write (val a))]
      rw [← F.names_write (val a), List.map_map]
      refine List.map_congr_left fun p hp => ?_
      obtain ⟨q, hq, rfl⟩ := List.mem_map.mp (hperm.mem_iff.mpr hp)
      rw [Function.comp_apply, get_of_mem hfields hq]
      rfl
    have hwithin : ∀ name ∈ F.names, B.Within (get fields name) := by
      intro name hname
      obtain ⟨⟨k, v⟩, hmem, rfl⟩ := List.mem_map.mp (hnames.mem_iff.mpr hname)
      rw [get_of_mem hfields hmem]
      exact hb.field hmem
    rw [Budget.fieldsOf_ok.mpr ⟨hb fields (.self _), rfl, hnames⟩]
    simp only [bind, Except.bind]
    rw [F.complete hwithin hwrite hg]
    exact (hbuild _ a).mpr rfl
  exact_of_good hg := F.exact_of_good hg
  inj {a b} ha hb h := by
    -- the two lists of fields have the same names in the same order
    have hperm : (F.write (val a)).Perm (F.write (val b)) := by
      have hleft := List.sortOn_perm Prod.fst (F.write (val a))
      rw [show (F.write (val a)).sortOn Prod.fst = (F.write (val b)).sortOn Prod.fst from Json.obj.inj h] at hleft
      exact hleft.symm.trans (List.sortOn_perm Prod.fst (F.write (val b)))
    have hkeys : ((F.write (val b)).map Prod.fst).Nodup := by rw [F.names_write]; exact hn
    have hwrite : F.write (val a) = F.write (val b) :=
      eq_of_perm_of_keys hperm ((F.names_write _).trans (F.names_write _).symm) hkeys
    have htuple := F.inj ha hb hwrite
    have hbuilt := ((hbuild _ a).mpr rfl).symm.trans (htuple ▸ (hbuild _ b).mpr rfl)
    exact Except.ok.inj hbuilt

end Codec

end Json
