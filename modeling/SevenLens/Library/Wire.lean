import SevenLens.Library.Dict
import SevenLens.Library.Json

/-! # Dictionaries in JSON

Equality of dictionaries does not see the order of their fields, so a dictionary is kept with its
fields in the order of their keys (`dict`), and `canon` brings any value to that form.  A dictionary
with the keys of a record is determined by what it holds under each of them (`canon_obj`), and a
value inside another one is not longer than it (`Inside.bytes_le`). -/

namespace Json

/-! ### Dictionaries -/

/-- A dictionary with the given fields. -/
def dict (fields : List (String × Json)) : Json := .obj (fields.sortOn Prod.fst)

mutual

/-- The value with the fields of every dictionary in the order of their keys. -/
def canon : Json → Json
  | .arr items => .arr (canonItems items)
  | .obj fields => dict (canonFields fields)
  | j => j

def canonItems : List Json → List Json
  | [] => []
  | j :: items => j.canon :: canonItems items

def canonFields : List (String × Json) → List (String × Json)
  | [] => []
  | (k, j) :: fields => (k, j.canon) :: canonFields fields

end

theorem canonItems_eq_map (items : List Json) : canonItems items = items.map canon := by
  induction items with
  | nil => rfl
  | cons j items ih => rw [canonItems, ih, List.map_cons]

theorem canonFields_eq_map (fields : List (String × Json)) :
    canonFields fields = fields.map (fun p => (p.1, p.2.canon)) := by
  induction fields with
  | nil => rfl
  | cons p fields ih => rw [canonFields, ih, List.map_cons]

theorem canon_arr (items : List Json) : (arr items).canon = .arr (items.map canon) := by
  rw [canon, canonItems_eq_map]

/-- `value[name]` of a dictionary that has the name. -/
def get (fields : List (String × Json)) (name : String) : Json := (fields.lookup name).getD .null

theorem get_of_mem {fields : List (String × Json)} (hn : (fields.map Prod.fst).Nodup) {k : String} {j : Json}
    (h : (k, j) ∈ fields) : get fields k = j := by
  rw [get, Dict.lookup_of_mem hn h]
  rfl

theorem get_perm {fields fields' : List (String × Json)} (hn : (fields.map Prod.fst).Nodup)
    (hp : fields'.Perm fields) {k : String} (hk : k ∈ fields.map Prod.fst) : get fields' k = get fields k := by
  obtain ⟨⟨k, j⟩, hmem, rfl⟩ := List.mem_map.mp hk
  have hn' : (fields'.map Prod.fst).Nodup := (hp.map _).nodup_iff.mpr hn
  rw [get_of_mem hn hmem, get_of_mem hn' (hp.mem_iff.mpr hmem)]

/-- What a dictionary holds under a name. -/
theorem get_sortOn {fields : List (String × Json)} (hn : (fields.map Prod.fst).Nodup) {k : String}
    (hk : k ∈ fields.map Prod.fst) : get (fields.sortOn Prod.fst) k = get fields k :=
  get_perm hn (List.sortOn_perm _ _) hk

theorem keys_sortOn_perm (fields : List (String × Json)) :
    ((fields.sortOn Prod.fst).map Prod.fst).Perm (fields.map Prod.fst) := (List.sortOn_perm _ _).map _

/-- A dictionary with the keys of a record is what it holds under each of them. -/
theorem canon_obj {fields : List (String × Json)} {names : List String} (hn : names.Nodup)
    (hp : (fields.map Prod.fst).Perm names) :
    (obj fields).canon = dict (names.map (fun name => (name, (get fields name).canon))) := by
  have hkeys : (fields.map Prod.fst).Nodup := hp.nodup_iff.mpr hn
  have hself : fields.map (fun p => (p.1, p.2.canon)) =
      (fields.map Prod.fst).map (fun name => (name, (get fields name).canon)) := by
    rw [List.map_map]
    refine List.map_congr_left fun p hmem => ?_
    rw [Function.comp_apply, get_of_mem hkeys hmem]
  have hperm : (fields.map (fun p => (p.1, p.2.canon))).Perm
      (names.map (fun name => (name, (get fields name).canon))) := by
    rw [hself]
    exact hp.map _
  rw [canon, canonFields_eq_map, dict, dict, List.sortOn_congr hperm]
  rw [List.map_map]
  exact hkeys

/-! ### Values inside others -/

/-- The first value occurs in the second. -/
inductive Inside : Json → Json → Prop
  | self (j : Json) : Inside j j
  | item {a j : Json} {items : List Json} (hj : j ∈ items) (ha : Inside a j) : Inside a (.arr items)
  | field {a j : Json} {k : String} {fields : List (String × Json)} (hj : (k, j) ∈ fields) (ha : Inside a j) :
      Inside a (.obj fields)

theorem Inside.dict {a j : Json} {k : String} {fields : List (String × Json)} (hj : (k, j) ∈ fields)
    (ha : Inside a j) : Inside a (dict fields) := .field (List.mem_sortOn.mpr hj) ha

theorem bytes_le_bytesItems {j : Json} {items : List Json} (h : j ∈ items) : j.bytes ≤ bytesItems items := by
  induction items with
  | nil => cases h
  | cons j' items ih =>
    rw [bytesItems]
    rcases List.mem_cons.mp h with rfl | h
    · omega
    · have := ih h
      omega

theorem bytes_le_bytesFields {k : String} {j : Json} {fields : List (String × Json)} (h : (k, j) ∈ fields) :
    j.bytes ≤ bytesFields fields := by
  induction fields with
  | nil => cases h
  | cons p fields ih =>
    obtain ⟨k', j'⟩ := p
    rw [bytesFields]
    rcases List.mem_cons.mp h with heq | h
    · cases heq
      omega
    · have := ih h
      omega

/-- A value is not shorter than what occurs in it. -/
theorem Inside.bytes_le {a b : Json} (h : Inside a b) : a.bytes ≤ b.bytes := by
  induction h with
  | self => exact le_rfl
  | item hj _ ih =>
    have := bytes_le_bytesItems hj
    rw [bytes]
    omega
  | field hj _ ih =>
    have := bytes_le_bytesFields hj
    rw [bytes]
    omega

end Json
