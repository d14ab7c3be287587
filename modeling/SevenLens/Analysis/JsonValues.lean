import SevenLens.Library.Wire
import SevenLens.Sources.Records

/-! # The budget of a JSON object

`JsonObject.from_value` walks a value, counts its nodes and refuses what is too deep, too wide or
too long.  Whether it accepts a value does not depend on the walk (`fits_iff`), and a dictionary
inside an accepted one is accepted (`Fits.inside`), so that nested contracts can be read one by
one. -/

namespace SevenLens.Analysis

open Securities

def maxJsonDepth : Nat := 32

def maxSerializedBytes : Nat := 65536

def maxTotalNodes : Nat := 4096

def maxObjectMembers : Nat := 256

def maxListItems : Nat := 512

def maxKeyBytes : Nat := 128

def maxStringBytes : Nat := 16384

/-- The checks at the start of a call of `_normalize_json`: the depth and `consume_node`. -/
def enter (depth nodes : Nat) : Except Failure Unit := do
  require (depth ≤ maxJsonDepth) "persisted payload exceeds maximum JSON depth"
  require (nodes + 1 ≤ maxTotalNodes) "persisted payload exceeds maximum total JSON nodes"

/-- A text without NUL, within a bound. -/
def boundedJsonText (subject nulSubject : String) (maximum : Nat) (s : String) : Except Failure Unit := do
  require (hasNul s = false) (nulSubject ++ " must not contain NUL")
  require (s.utf8ByteSize ≤ maximum) (subject ++ " exceeds maximum UTF-8 bytes")

mutual

/-- `_normalize_json`: the nodes that are counted after the value.  A value of JSON is its own
normal form. -/
def normalizeJson (depth nodes : Nat) : Json → Except Failure Nat
  | .str s => do
    enter depth nodes
    boundedJsonText "persisted payload string" "persisted payload strings" maxStringBytes s
    return nodes + 1
  | .arr items => do
    enter depth nodes
    require (items.length ≤ maxListItems) "persisted payload list exceeds maximum items"
    normalizeItems (depth + 1) (nodes + 1) items
  | .obj fields => do
    enter depth nodes
    require (fields.length ≤ maxObjectMembers) "persisted payload object exceeds maximum members"
    normalizeFields (depth + 1) (nodes + 1) fields
  | _ => do
    enter depth nodes
    return nodes + 1

def normalizeItems (depth nodes : Nat) : List Json → Except Failure Nat
  | [] => return nodes
  | j :: items => do
    let nodes ← normalizeJson depth nodes j
    normalizeItems depth nodes items

def normalizeFields (depth nodes : Nat) : List (String × Json) → Except Failure Nat
  | [] => return nodes
  | (k, j) :: fields => do
    boundedJsonText "persisted payload object key" "persisted payload object keys" maxKeyBytes k
    let nodes ← normalizeJson depth nodes j
    normalizeFields depth nodes fields

end

/-- `JsonObject.from_value`.  The object holds the canonical text of the value. -/
def fromValue (j : Json) : Except Failure Unit := do
  let _ ← normalizeJson 0 0 j
  match j with
  | .obj _ => require (j.bytes ≤ maxSerializedBytes) "persisted payload exceeds maximum UTF-8 bytes"
  | _ => refuse "persisted payload must be a JSON object"

/-- `JsonObject.from_value(value).to_json()` -/
def toJson (j : Json) : Except Failure String := do
  fromValue j
  return j.dumps

/-! ### What is accepted -/

theorem enter_ok {depth nodes : Nat} {u : Unit} : enter depth nodes = .ok u ↔ depth ≤ 32 ∧ nodes + 1 ≤ 4096 := by
  simp only [enter, bind_ok, require_ok, exists_const]
  exact Iff.rfl

theorem boundedJsonText_ok {subject nulSubject s : String} {maximum : Nat} {u : Unit} :
    boundedJsonText subject nulSubject maximum s = .ok u ↔ Sources.storableText maximum s = true := by
  simp only [boundedJsonText, bind_ok, require_ok, exists_const, Sources.storableText, Bool.and_eq_true,
    Bool.not_eq_true', decide_eq_true_eq]

theorem pure_ok {α : Type} {a b : α} : (pure a : Except Failure α) = .ok b ↔ a = b := by
  simp only [pure, Except.pure, Except.ok.injEq]

mutual

/-- The walk passes a value exactly when the bounds on its parts hold and its nodes fit. -/
theorem normalizeJson_ok {depth n m : Nat} (j : Json) : normalizeJson depth n j = .ok m ↔
    Sources.storable depth j = true ∧ n + Sources.nodes j ≤ 4096 ∧ n + Sources.nodes j = m := by
  cases j with
  | null | bool b | int i | float d =>
    simp only [normalizeJson, bind_ok, enter_ok, exists_const, pure_ok, Sources.storable, Sources.nodes,
      decide_eq_true_eq, and_assoc]
  | str s =>
    simp only [normalizeJson, bind_ok, enter_ok, boundedJsonText_ok, exists_const, pure_ok, Sources.storable,
      Sources.nodes, Bool.and_eq_true, decide_eq_true_eq]
    simp only [maxStringBytes]
    tauto
  | arr items =>
    simp only [normalizeJson, bind_ok, enter_ok, require_ok, exists_const, Sources.storable, Sources.nodes,
      Bool.and_eq_true, decide_eq_true_eq]
    simp only [maxListItems]
    constructor
    · rintro ⟨⟨hd, hn⟩, hlen, hitems⟩
      obtain ⟨hs, hn, hm⟩ := (normalizeItems_ok hn items).mp hitems
      exact ⟨⟨⟨hd, hlen⟩, hs⟩, by omega, by omega⟩
    · rintro ⟨⟨⟨hd, hlen⟩, hs⟩, hn, hm⟩
      exact ⟨⟨hd, by omega⟩, hlen, (normalizeItems_ok (by omega) items).mpr ⟨hs, by omega, by omega⟩⟩
  | obj fields =>
    simp only [normalizeJson, bind_ok, enter_ok, require_ok, exists_const, Sources.storable, Sources.nodes,
      Bool.and_eq_true, decide_eq_true_eq]
    simp only [maxObjectMembers]
    constructor
    · rintro ⟨⟨hd, hn⟩, hlen, hfields⟩
      obtain ⟨hs, hn, hm⟩ := (normalizeFields_ok hn fields).mp hfields
      exact ⟨⟨⟨hd, hlen⟩, hs⟩, by omega, by omega⟩
    · rintro ⟨⟨⟨hd, hlen⟩, hs⟩, hn, hm⟩
      exact ⟨⟨hd, by omega⟩, hlen, (normalizeFields_ok (by omega) fields).mpr ⟨hs, by omega, by omega⟩⟩

theorem normalizeItems_ok {depth n m : Nat} (hn : n ≤ 4096) (items : List Json) :
    normalizeItems depth n items = .ok m ↔ Sources.storableItems depth items = true ∧
      n + Sources.nodesItems items ≤ 4096 ∧ n + Sources.nodesItems items = m := by
  cases items with
  | nil =>
    simp only [normalizeItems, pure_ok, Sources.storableItems, Sources.nodesItems, true_and]
    omega
  | cons j items =>
    simp only [normalizeItems, bind_ok, normalizeJson_ok j, Sources.storableItems, Sources.nodesItems,
      Bool.and_eq_true]
    constructor
    · rintro ⟨k, ⟨hj, hk, rfl⟩, hitems⟩
      obtain ⟨hs, hm, rfl⟩ := (normalizeItems_ok hk items).mp hitems
      exact ⟨⟨hj, hs⟩, by omega, by omega⟩
    · rintro ⟨⟨hj, hs⟩, hk, hm⟩
      exact ⟨_, ⟨hj, by omega, rfl⟩, (normalizeItems_ok (by omega) items).mpr ⟨hs, by omega, by omega⟩⟩

theorem normalizeFields_ok {depth n m : Nat} (hn : n ≤ 4096) (fields : List (String × Json)) :
    normalizeFields depth n fields = .ok m ↔ Sources.storableFields depth fields = true ∧
      n + Sources.nodesFields fields ≤ 4096 ∧ n + Sources.nodesFields fields = m := by
  cases fields with
  | nil =>
    simp only [normalizeFields, pure_ok, Sources.storableFields, Sources.nodesFields, true_and]
    omega
  | cons p fields =>
    obtain ⟨k, j⟩ := p
    simp only [normalizeFields, bind_ok, boundedJsonText_ok, normalizeJson_ok j, Sources.storableFields,
      Sources.nodesFields, Bool.and_eq_true, exists_const]
    simp only [maxKeyBytes]
    constructor
    · rintro ⟨hk, i, ⟨hj, hi, rfl⟩, hfields⟩
      obtain ⟨hs, hm, rfl⟩ := (normalizeFields_ok hi fields).mp hfields
      exact ⟨⟨⟨hk, hj⟩, hs⟩, by omega, by omega⟩
    · rintro ⟨⟨⟨hk, hj⟩, hs⟩, hi, hm⟩
      exact ⟨hk, _, ⟨hj, by omega, rfl⟩, (normalizeFields_ok (by omega) fields).mpr ⟨hs, by omega, by omega⟩⟩

end

/-- The value is accepted. -/
def Fits (j : Json) : Prop := fromValue j = .ok ()

instance (j : Json) : Decidable (Fits j) := inferInstanceAs (Decidable (_ = _))

theorem fits_iff {j : Json} : Fits j ↔ (∃ fields, j = .obj fields) ∧ Sources.storable 0 j = true ∧
    Sources.nodes j ≤ 4096 ∧ j.bytes ≤ 65536 := by
  unfold Fits fromValue
  simp only [bind_ok, normalizeJson_ok, Nat.zero_add]
  cases j with
  | obj fields =>
    simp only [require_ok]
    simp only [maxSerializedBytes]
    constructor
    · rintro ⟨n, ⟨hs, hn, -⟩, hb⟩
      exact ⟨⟨_, rfl⟩, hs, hn, hb⟩
    · rintro ⟨-, hs, hn, hb⟩
      exact ⟨_, ⟨hs, hn, rfl⟩, hb⟩
  | _ => simp [refuse, throwing]

theorem toJson_ok {j : Json} {text : String} : toJson j = .ok text ↔ Fits j ∧ j.dumps = text := by
  simp only [toJson, bind_ok, pure_ok, Fits]
  exact ⟨fun ⟨_, h⟩ => h, fun h => ⟨(), h⟩⟩

/-! ### Values inside an accepted one -/

mutual

theorem storable_mono {d d' : Nat} (hd : d' ≤ d) (j : Json) (h : Sources.storable d j = true) :
    Sources.storable d' j = true := by
  cases j with
  | null | bool b | int i | float x =>
    simp only [Sources.storable, decide_eq_true_eq] at h ⊢
    omega
  | str s =>
    simp only [Sources.storable, Bool.and_eq_true, decide_eq_true_eq] at h ⊢
    exact ⟨by omega, h.2⟩
  | arr items =>
    simp only [Sources.storable, Bool.and_eq_true, decide_eq_true_eq] at h ⊢
    exact ⟨⟨by omega, h.1.2⟩, storableItems_mono (Nat.succ_le_succ hd) items h.2⟩
  | obj fields =>
    simp only [Sources.storable, Bool.and_eq_true, decide_eq_true_eq] at h ⊢
    exact ⟨⟨by omega, h.1.2⟩, storableFields_mono (Nat.succ_le_succ hd) fields h.2⟩

theorem storableItems_mono {d d' : Nat} (hd : d' ≤ d) (items : List Json) (h : Sources.storableItems d items = true) :
    Sources.storableItems d' items = true := by
  cases items with
  | nil => rfl
  | cons j items =>
    simp only [Sources.storableItems, Bool.and_eq_true] at h ⊢
    exact ⟨storable_mono hd j h.1, storableItems_mono hd items h.2⟩

theorem storableFields_mono {d d' : Nat} (hd : d' ≤ d) (fields : List (String × Json))
    (h : Sources.storableFields d fields = true) : Sources.storableFields d' fields = true := by
  cases fields with
  | nil => rfl
  | cons p fields =>
    obtain ⟨k, j⟩ := p
    simp only [Sources.storableFields, Bool.and_eq_true] at h ⊢
    exact ⟨⟨h.1.1, storable_mono hd j h.1.2⟩, storableFields_mono hd fields h.2⟩

end

theorem storable_item {d : Nat} {j : Json} {items : List Json} (h : Sources.storableItems d items = true)
    (hj : j ∈ items) : Sources.storable d j = true ∧ Sources.nodes j ≤ Sources.nodesItems items := by
  induction items with
  | nil => cases hj
  | cons j' items ih =>
    simp only [Sources.storableItems, Sources.nodesItems, Bool.and_eq_true] at h ⊢
    rcases List.mem_cons.mp hj with rfl | hj
    · exact ⟨h.1, by omega⟩
    · obtain ⟨hs, hn⟩ := ih h.2 hj
      exact ⟨hs, by omega⟩

theorem storable_field {d : Nat} {k : String} {j : Json} {fields : List (String × Json)}
    (h : Sources.storableFields d fields = true) (hj : (k, j) ∈ fields) :
    Sources.storable d j = true ∧ Sources.nodes j ≤ Sources.nodesFields fields := by
  induction fields with
  | nil => cases hj
  | cons p fields ih =>
    obtain ⟨k', j'⟩ := p
    simp only [Sources.storableFields, Sources.nodesFields, Bool.and_eq_true] at h ⊢
    rcases List.mem_cons.mp hj with heq | hj
    · cases heq
      exact ⟨h.1.2, by omega⟩
    · obtain ⟨hs, hn⟩ := ih h.2 hj
      exact ⟨hs, by omega⟩

theorem storable_inside {a b : Json} (hin : Json.Inside a b) {d : Nat} (h : Sources.storable d b = true) :
    Sources.storable d a = true ∧ Sources.nodes a ≤ Sources.nodes b := by
  induction hin generalizing d with
  | self => exact ⟨h, le_rfl⟩
  | item hj _ ih =>
    simp only [Sources.storable, Bool.and_eq_true, Sources.nodes] at h ⊢
    obtain ⟨hs, hn⟩ := storable_item h.2 hj
    obtain ⟨ha, hle⟩ := ih hs
    exact ⟨storable_mono (Nat.le_succ d) _ ha, by omega⟩
  | field hj _ ih =>
    simp only [Sources.storable, Bool.and_eq_true, Sources.nodes] at h ⊢
    obtain ⟨hs, hn⟩ := storable_field h.2 hj
    obtain ⟨ha, hle⟩ := ih hs
    exact ⟨storable_mono (Nat.le_succ d) _ ha, by omega⟩

/-- A dictionary inside an accepted value is accepted. -/
theorem Fits.inside {fields : List (String × Json)} {j : Json} (h : Fits j) (hin : Json.Inside (.obj fields) j) :
    Fits (.obj fields) := by
  obtain ⟨-, hs, hn, hb⟩ := fits_iff.mp h
  obtain ⟨ha, hle⟩ := storable_inside hin hs
  have hbytes := hin.bytes_le
  exact fits_iff.mpr ⟨⟨fields, rfl⟩, ha, by omega, by omega⟩

end SevenLens.Analysis
