import SevenLens.Analysis.JsonValues
import SevenLens.Library.JsonRoundTrip

/-! # JSON objects

A `JsonObject` holds a text.  The constructor decodes the text and asks that it is what is written for the
decoded value; `from_value` writes a value and hands the text to the constructor.  So the accepted texts are
the texts of the values within the bounds (`construct_iff`), `from_value` is never refused by its own
constructor (`fromValue_iff`), and a text gives back the value that it was written for. -/

namespace SevenLens.Analysis

open Securities Json

namespace JsonObject

/-! ### Values of Python -/

/-- `_encoded_size` after the check for NUL: the text without surrogates, within a bound. -/
def encodedText (field : String) (maximum : Nat) (s : CodePoints) : Except Failure String :=
  match encode s with
  | none => refuse "persisted payload strings must contain valid Unicode"
  | some t => do
    require (t.utf8ByteSize ≤ maximum) (field ++ " exceeds maximum UTF-8 bytes")
    return t

/-- A text or a key of a value. -/
def plainText (field nulField : String) (maximum : Nat) (s : CodePoints) : Except Failure String := do
  require (0 ∉ s) (nulField ++ " must not contain NUL")
  encodedText field maximum s

mutual

/-- `_normalize_json`: the value, and the nodes that are counted after it. -/
def normalize (depth nodes : Nat) : Value → Except Failure (Json × Nat)
  | .null => do
    enter depth nodes
    return (.null, nodes + 1)
  | .bool b => do
    enter depth nodes
    return (.bool b, nodes + 1)
  | .int n => do
    enter depth nodes
    return (.int n, nodes + 1)
  | .str s => do
    enter depth nodes
    let t ← plainText "persisted payload string" "persisted payload strings" maxStringBytes s
    return (.str t, nodes + 1)
  | .float (.finite d) => do
    enter depth nodes
    return (.float d, nodes + 1)
  | .float _ => do
    enter depth nodes
    refuse "persisted payload numbers must be finite"
  | .dict entries => do
    enter depth nodes
    require (entries.length ≤ maxObjectMembers) "persisted payload object exceeds maximum members"
    let r ← normalizeEntries (depth + 1) (nodes + 1) entries
    return (.obj r.1, r.2)
  | .list items => do
    enter depth nodes
    require (items.length ≤ maxListItems) "persisted payload list exceeds maximum items"
    let r ← normalizeValues (depth + 1) (nodes + 1) items
    return (.arr r.1, r.2)
  | .cycle => do
    enter depth nodes
    refuse "persisted payload contains a cycle"
  | .other => do
    enter depth nodes
    refuse "persisted payload contains a non-JSON-safe value"

def normalizeValues (depth nodes : Nat) : List Value → Except Failure (List Json × Nat)
  | [] => return ([], nodes)
  | v :: items => do
    let r ← normalize depth nodes v
    let rest ← normalizeValues depth r.2 items
    return (r.1 :: rest.1, rest.2)

def normalizeEntries (depth nodes : Nat) : List (Option CodePoints × Value) → Except Failure (List (String × Json) × Nat)
  | [] => return ([], nodes)
  | (none, _) :: _ => refuse "persisted payload object keys must be exact strings"
  | (some k, v) :: entries => do
    let k ← plainText "persisted payload object key" "persisted payload object keys" maxKeyBytes k
    let r ← normalize depth nodes v
    let rest ← normalizeEntries depth r.2 entries
    return ((k, r.1) :: rest.1, rest.2)

end

mutual

/-- No integer is longer than what Python turns into text. -/
def intsFit : Json → Bool
  | .int n => decide ((Nat.toDigits 10 n.natAbs).length ≤ intMaxStrDigits)
  | .arr items => intsFitItems items
  | .obj fields => intsFitFields fields
  | _ => true

def intsFitItems : List Json → Bool
  | [] => true
  | j :: items => intsFit j && intsFitItems items

def intsFitFields : List (String × Json) → Bool
  | [] => true
  | (_, j) :: fields => intsFit j && intsFitFields fields

end

/-- `isinstance(value, dict)` -/
def isObject : Json → Bool
  | .obj _ => true
  | _ => false

/-- The canonical text of a normalized value, which has to be a dictionary. -/
def canonicalText (j : Json) : Except Failure String := do
  require (isObject j = true) "persisted payload must be a JSON object"
  require (intsFit j = true)
    "Exceeds the limit (4300 digits) for integer string conversion; use sys.set_int_max_str_digits() to increase the limit"
  return j.dumps

/-- `JsonObject.__post_init__` -/
def check (text : CodePoints) : Except Failure Unit := do
  let t ← encodedText "canonical JSON" maxSerializedBytes text
  match loads .finite t with
  | none => refuse "canonical JSON must be valid and finite"
  | some decoded =>
    let normalized ← normalize 0 0 decoded
    let expected ← canonicalText normalized.1
    require (expected = t) "JsonObject must use its canonical representation"

end JsonObject

/-- A text that the constructor accepts. -/
structure JsonObject where
  canonical : String
  ok : JsonObject.check (codePoints canonical) = .ok ()

namespace JsonObject

/-- The constructor. -/
def construct (text : String) : Except Failure JsonObject :=
  match h : check (codePoints text) with
  | .ok () => .ok ⟨text, h⟩
  | .error e => .error e

/-- `JsonObject.from_value` -/
def fromValue (v : Value) : Except Failure JsonObject := do
  let normalized ← normalize 0 0 v
  let canonical ← canonicalText normalized.1
  require (canonical.utf8ByteSize ≤ maxSerializedBytes) "persisted payload exceeds maximum UTF-8 bytes"
  construct canonical

/-- `to_dict` -/
def toDict (o : JsonObject) : Option Value := loads .plain o.canonical

/-! ### What is accepted -/

theorem encodedText_ok {field : String} {maximum : Nat} {s : CodePoints} {t : String} :
    encodedText field maximum s = .ok t ↔ s = codePoints t ∧ t.utf8ByteSize ≤ maximum := by
  unfold encodedText
  cases hs : encode s with
  | none =>
    simp only [refuse, throwing, reduceCtorEq, false_iff, not_and]
    rintro rfl
    rw [encode_codePoints] at hs
    cases hs
  | some u =>
    obtain rfl := encode_eq_some.mp hs
    simp only [bind_ok, require_ok, exists_const, pure_ok, codePoints_injective.eq_iff]
    constructor
    · rintro ⟨hsize, rfl⟩
      exact ⟨rfl, hsize⟩
    · rintro ⟨rfl, hsize⟩
      exact ⟨hsize, rfl⟩

theorem zero_notMem_codePoints (t : String) : 0 ∉ codePoints t ↔ hasNul t = false := by
  have hzero : ∀ c : Char, c.toNat = 0 ↔ c = Char.ofNat 0 := by
    intro c
    constructor
    · intro h
      rw [← Char.ofNat_toNat c, h]
    · rintro rfl
      rfl
  rw [hasNul, ← Bool.not_eq_true, List.contains_iff_mem, codePoints, List.mem_map]
  simp only [hzero, exists_eq_right]

theorem plainText_ok {field nulField : String} {maximum : Nat} {s : CodePoints} {t : String} :
    plainText field nulField maximum s = .ok t ↔ s = codePoints t ∧ boundedJsonText field nulField maximum t = .ok () := by
  simp only [plainText, boundedJsonText, bind_ok, require_ok, exists_const, encodedText_ok]
  constructor
  · rintro ⟨hzero, rfl, hsize⟩
    exact ⟨rfl, (zero_notMem_codePoints t).mp hzero, hsize⟩
  · rintro ⟨rfl, hnul, hsize⟩
    exact ⟨(zero_notMem_codePoints t).mpr hnul, rfl, hsize⟩

theorem refuse_ne_ok {α : Type} {message : String} {a : α} : refuse message ≠ (.ok a : Except Failure α) := by
  simp [refuse, throwing]

theorem length_toItems (l : List Json) : (toItems l).length = l.length := by
  induction l with
  | nil => rfl
  | cons j l ih => rw [toItems, List.length_cons, List.length_cons, ih]

theorem length_toEntries (l : List (String × Json)) : (toEntries l).length = l.length := by
  induction l with
  | nil => rfl
  | cons p l ih => rw [toEntries, List.length_cons, List.length_cons, ih]

mutual

/-- The walk over a value of Python is the walk over the value of JSON that it is. -/
theorem normalize_ok {depth n m : Nat} {j : Json} (v : Value) :
    normalize depth n v = .ok (j, m) ↔ v = toValue j ∧ normalizeJson depth n j = .ok m := by
  cases v with
  | str s =>
    simp only [normalize, bind_ok, plainText_ok, pure_ok, Prod.mk.injEq]
    constructor
    · rintro ⟨u, henter, t, ⟨rfl, ht⟩, rfl, rfl⟩
      exact ⟨rfl, by simp only [normalizeJson, bind_ok]; exact ⟨u, henter, (), ht, rfl⟩⟩
    · rintro ⟨hv, h⟩
      cases j <;> simp only [toValue, Value.str.injEq, reduceCtorEq] at hv
      simp only [normalizeJson, bind_ok, pure_ok] at h
      obtain ⟨u, henter, u', ht, rfl⟩ := h
      exact ⟨u, henter, _, ⟨hv, ht⟩, rfl, rfl⟩
  | list items =>
    simp only [normalize, bind_ok, require_ok, pure_ok, Prod.mk.injEq]
    constructor
    · rintro ⟨u, henter, u', hlength, ⟨l, k⟩, hr, rfl, rfl⟩
      obtain ⟨rfl, hitems⟩ := (normalizeValues_ok items).mp hr
      refine ⟨rfl, ?_⟩
      simp only [normalizeJson, bind_ok, require_ok]
      exact ⟨u, henter, u', by rwa [length_toItems] at hlength, hitems⟩
    · rintro ⟨hv, h⟩
      cases j <;> simp only [toValue, Value.list.injEq, reduceCtorEq] at hv
      simp only [normalizeJson, bind_ok, require_ok] at h
      obtain ⟨u, henter, u', hlength, hitems⟩ := h
      exact ⟨u, henter, u', by rwa [hv, length_toItems], ⟨_, m⟩, (normalizeValues_ok items).mpr ⟨hv, hitems⟩, rfl, rfl⟩
  | dict entries =>
    simp only [normalize, bind_ok, require_ok, pure_ok, Prod.mk.injEq]
    constructor
    · rintro ⟨u, henter, u', hlength, ⟨l, k⟩, hr, rfl, rfl⟩
      obtain ⟨rfl, hfields⟩ := (normalizeEntries_ok entries).mp hr
      refine ⟨rfl, ?_⟩
      simp only [normalizeJson, bind_ok, require_ok]
      exact ⟨u, henter, u', by rwa [length_toEntries] at hlength, hfields⟩
    · rintro ⟨hv, h⟩
      cases j <;> simp only [toValue, Value.dict.injEq, reduceCtorEq] at hv
      simp only [normalizeJson, bind_ok, require_ok] at h
      obtain ⟨u, henter, u', hlength, hfields⟩ := h
      exact ⟨u, henter, u', by rwa [hv, length_toEntries], ⟨_, m⟩, (normalizeEntries_ok entries).mpr ⟨hv, hfields⟩, rfl, rfl⟩
  | float x =>
    cases x with
    | finite d =>
      simp only [normalize, bind_ok, pure_ok, Prod.mk.injEq]
      constructor
      · rintro ⟨u, henter, rfl, rfl⟩
        exact ⟨rfl, by simp only [normalizeJson, bind_ok]; exact ⟨u, henter, rfl⟩⟩
      · rintro ⟨hv, h⟩
        cases j <;> simp only [toValue, Value.float.injEq, Float64.finite.injEq, reduceCtorEq] at hv
        simp only [normalizeJson, bind_ok, pure_ok] at h
        obtain ⟨u, henter, rfl⟩ := h
        exact ⟨u, henter, by rw [hv], rfl⟩
    | _ =>
      simp only [normalize, bind_ok, refuse_ne_ok, and_false, exists_false, false_iff, not_and]
      intro hv
      cases j <;> cases hv
  | other | cycle =>
    simp only [normalize, bind_ok, refuse_ne_ok, and_false, exists_false, false_iff, not_and]
    intro hv
    cases j <;> cases hv
  | _ =>
    simp only [normalize, bind_ok, pure_ok, Prod.mk.injEq]
    constructor
    · rintro ⟨u, henter, rfl, rfl⟩
      exact ⟨rfl, by simp only [normalizeJson, bind_ok]; exact ⟨u, henter, rfl⟩⟩
    · rintro ⟨hv, h⟩
      cases j <;> simp only [toValue, Value.bool.injEq, Value.int.injEq, reduceCtorEq] at hv
      simp only [normalizeJson, bind_ok, pure_ok] at h
      obtain ⟨u, henter, rfl⟩ := h
      exact ⟨u, henter, by simp [hv], rfl⟩

theorem normalizeValues_ok {depth n m : Nat} {l : List Json} (items : List Value) :
    normalizeValues depth n items = .ok (l, m) ↔ items = toItems l ∧ normalizeItems depth n l = .ok m := by
  cases items with
  | nil => cases l <;> simp [normalizeValues, normalizeItems, toItems, pure_ok]
  | cons v items =>
    simp only [normalizeValues, bind_ok, pure_ok, Prod.mk.injEq]
    constructor
    · rintro ⟨⟨j, k⟩, hv, ⟨l', k'⟩, hitems, rfl, rfl⟩
      obtain ⟨rfl, hj⟩ := (normalize_ok v).mp hv
      obtain ⟨rfl, hl⟩ := (normalizeValues_ok items).mp hitems
      exact ⟨rfl, by simp only [normalizeItems, bind_ok]; exact ⟨k, hj, hl⟩⟩
    · rintro ⟨hv, h⟩
      cases l with
      | nil => cases hv
      | cons j l =>
        obtain ⟨rfl, rfl⟩ := List.cons.inj hv
        simp only [normalizeItems, bind_ok] at h
        obtain ⟨k, hj, hl⟩ := h
        exact ⟨(j, k), (normalize_ok _).mpr ⟨rfl, hj⟩, (l, m), (normalizeValues_ok _).mpr ⟨rfl, hl⟩, rfl, rfl⟩

theorem normalizeEntries_ok {depth n m : Nat} {l : List (String × Json)} (entries : List (Option CodePoints × Value)) :
    normalizeEntries depth n entries = .ok (l, m) ↔ entries = toEntries l ∧ normalizeFields depth n l = .ok m := by
  cases entries with
  | nil => cases l <;> simp [normalizeEntries, normalizeFields, toEntries, pure_ok]
  | cons p entries =>
    obtain ⟨k, v⟩ := p
    cases k with
    | none =>
      simp only [normalizeEntries, refuse_ne_ok, false_iff, not_and]
      intro hv
      cases l <;> cases hv
    | some k =>
      simp only [normalizeEntries, bind_ok, plainText_ok, pure_ok, Prod.mk.injEq]
      constructor
      · rintro ⟨t, ⟨rfl, ht⟩, ⟨j, i⟩, hv, ⟨l', i'⟩, hentries, rfl, rfl⟩
        obtain ⟨rfl, hj⟩ := (normalize_ok v).mp hv
        obtain ⟨rfl, hl⟩ := (normalizeEntries_ok entries).mp hentries
        exact ⟨rfl, by simp only [normalizeFields, bind_ok]; exact ⟨(), ht, i, hj, hl⟩⟩
      · rintro ⟨hv, h⟩
        cases l with
        | nil => cases hv
        | cons q l =>
          obtain ⟨t, j⟩ := q
          obtain ⟨hhead, rfl⟩ := List.cons.inj hv
          obtain ⟨hkey, rfl⟩ := Prod.mk.inj hhead
          simp only [normalizeFields, bind_ok] at h
          obtain ⟨u, ht, i, hj, hl⟩ := h
          exact ⟨t, ⟨Option.some.inj hkey, ht⟩, (j, i), (normalize_ok _).mpr ⟨rfl, hj⟩, (l, m),
            (normalizeEntries_ok _).mpr ⟨rfl, hl⟩, rfl, rfl⟩

end

theorem canonicalText_ok {j : Json} {t : String} :
    canonicalText j = .ok t ↔ isObject j = true ∧ intsFit j = true ∧ j.dumps = t := by
  simp only [canonicalText, bind_ok, require_ok, exists_const, pure_ok]

theorem isObject_iff {j : Json} : isObject j = true ↔ ∃ fields, j = .obj fields := by
  cases j <;> simp [isObject]

theorem fits_iff_normalize {j : Json} : Fits j ↔
    (∃ m, normalizeJson 0 0 j = .ok m) ∧ isObject j = true ∧ j.dumps.utf8ByteSize ≤ maxSerializedBytes := by
  rw [fits_iff, isObject_iff, utf8ByteSize_dumps]
  simp only [normalizeJson_ok, Nat.zero_add, maxSerializedBytes]
  constructor
  · rintro ⟨hobj, hstorable, hnodes, hbytes⟩
    exact ⟨⟨_, hstorable, hnodes, rfl⟩, hobj, hbytes⟩
  · rintro ⟨⟨m, hstorable, hnodes, -⟩, hobj, hbytes⟩
    exact ⟨hobj, hstorable, hnodes, hbytes⟩

theorem keys_toEntries (fields : List (String × Json)) :
    (toEntries fields).map Prod.fst = (fields.map Prod.fst).map (some ∘ codePoints) := by
  induction fields with
  | nil => rfl
  | cons p fields ih => rw [toEntries, List.map_cons, ih]; rfl

mutual

theorem sound_of_proper (j : Json) (h : (toValue j).Proper) (hints : intsFit j = true) : Sound List.Nodup j := by
  cases j with
  | int n =>
    have hlength : (Nat.toDigits 10 n.natAbs).length ≤ intMaxStrDigits := of_decide_eq_true hints
    exact hlength
  | float d => exact h
  | arr items => exact soundItems_of_proper items h hints
  | obj fields =>
    refine ⟨?_, soundFields_of_proper fields h.2 hints⟩
    have hkeys : (toEntries fields).map Prod.fst = (fields.map Prod.fst).map (some ∘ codePoints) := keys_toEntries fields
    have hn : ((toEntries fields).map Prod.fst).Nodup := h.1
    rw [hkeys] at hn
    exact hn.of_map _
  | _ => trivial

theorem soundItems_of_proper (items : List Json) (h : Value.ProperItems (toItems items)) (hints : intsFitItems items = true) :
    SoundItems List.Nodup items := by
  cases items with
  | nil => trivial
  | cons j items =>
    obtain ⟨hj, hitems⟩ := Bool.and_eq_true_iff.mp hints
    exact ⟨sound_of_proper j h.1 hj, soundItems_of_proper items h.2 hitems⟩

theorem soundFields_of_proper (fields : List (String × Json)) (h : Value.ProperEntries (toEntries fields))
    (hints : intsFitFields fields = true) : SoundFields List.Nodup fields := by
  cases fields with
  | nil => trivial
  | cons p fields =>
    obtain ⟨hp, hfields⟩ := Bool.and_eq_true_iff.mp hints
    exact ⟨sound_of_proper p.2 h.1 hp, soundFields_of_proper fields h.2 hfields⟩

end

mutual

theorem intsFit_of_sound {keys : List String → Prop} (j : Json) (h : Sound keys j) : intsFit j = true := by
  cases j with
  | int n => exact decide_eq_true h
  | arr items => exact intsFitItems_of_sound items h
  | obj fields => exact intsFitFields_of_sound fields h.2
  | _ => rfl

theorem intsFitItems_of_sound {keys : List String → Prop} (items : List Json) (h : SoundItems keys items) :
    intsFitItems items = true := by
  cases items with
  | nil => rfl
  | cons j items => exact Bool.and_eq_true_iff.mpr ⟨intsFit_of_sound j h.1, intsFitItems_of_sound items h.2⟩

theorem intsFitFields_of_sound {keys : List String → Prop} (fields : List (String × Json)) (h : SoundFields keys fields) :
    intsFitFields fields = true := by
  cases fields with
  | nil => rfl
  | cons p fields => exact Bool.and_eq_true_iff.mpr ⟨intsFit_of_sound p.2 h.1, intsFitFields_of_sound fields h.2⟩

end

/-! ### The order of entries -/

theorem storableFields_iff {d : Nat} {fields : List (String × Json)} : Sources.storableFields d fields = true ↔
    ∀ p ∈ fields, Sources.storableText 128 p.1 = true ∧ Sources.storable d p.2 = true := by
  induction fields with
  | nil => simp [Sources.storableFields]
  | cons p fields ih =>
    rw [Sources.storableFields, Bool.and_eq_true, Bool.and_eq_true, ih, List.forall_mem_cons]

theorem nodesFields_eq_sum (fields : List (String × Json)) :
    Sources.nodesFields fields = (fields.map (fun p => Sources.nodes p.2)).sum := by
  induction fields with
  | nil => rfl
  | cons p fields ih => rw [Sources.nodesFields, ih, List.map_cons, List.sum_cons]

theorem length_canonFields (fields : List (String × Json)) : (canonFields fields).length = fields.length := by
  rw [canonFields_eq_map, List.length_map]

mutual

theorem nodes_canon (j : Json) : Sources.nodes j.canon = Sources.nodes j := by
  cases j with
  | arr items => rw [canon, Sources.nodes, Sources.nodes, nodesItems_canon items]
  | obj fields =>
    rw [canon, Json.dict, Sources.nodes, Sources.nodes, nodesFields_eq_sum, ← nodesFields_canon fields, nodesFields_eq_sum,
      ((List.sortOn_perm Prod.fst (canonFields fields)).map _).sum_eq]
  | _ => rfl

theorem nodesItems_canon (items : List Json) : Sources.nodesItems (canonItems items) = Sources.nodesItems items := by
  cases items with
  | nil => rfl
  | cons j items => rw [canonItems, Sources.nodesItems, Sources.nodesItems, nodes_canon j, nodesItems_canon items]

theorem nodesFields_canon (fields : List (String × Json)) :
    Sources.nodesFields (canonFields fields) = Sources.nodesFields fields := by
  cases fields with
  | nil => rfl
  | cons p fields => rw [canonFields, Sources.nodesFields, Sources.nodesFields, nodes_canon p.2, nodesFields_canon fields]

end

mutual

theorem storable_canon {d : Nat} (j : Json) (h : Sources.storable d j = true) : Sources.storable d j.canon = true := by
  cases j with
  | arr items =>
    simp only [canon, Sources.storable, Bool.and_eq_true, decide_eq_true_eq, canonItems_eq_map, List.length_map] at h ⊢
    rw [← canonItems_eq_map]
    exact ⟨h.1, storableItems_canon items h.2⟩
  | obj fields =>
    simp only [canon, Json.dict, Sources.storable, Bool.and_eq_true, decide_eq_true_eq, List.length_sortOn,
      length_canonFields] at h ⊢
    have hall := storableFields_iff.mp (storableFields_canon fields h.2)
    exact ⟨h.1, storableFields_iff.mpr fun p hp => hall p (List.mem_sortOn.mp hp)⟩
  | _ => exact h

theorem storableItems_canon {d : Nat} (items : List Json) (h : Sources.storableItems d items = true) :
    Sources.storableItems d (canonItems items) = true := by
  cases items with
  | nil => rfl
  | cons j items =>
    obtain ⟨hj, hitems⟩ := Bool.and_eq_true_iff.mp h
    exact Bool.and_eq_true_iff.mpr ⟨storable_canon j hj, storableItems_canon items hitems⟩

theorem storableFields_canon {d : Nat} (fields : List (String × Json)) (h : Sources.storableFields d fields = true) :
    Sources.storableFields d (canonFields fields) = true := by
  cases fields with
  | nil => rfl
  | cons p fields =>
    obtain ⟨hp, hfields⟩ := Bool.and_eq_true_iff.mp h
    obtain ⟨hkey, hvalue⟩ := Bool.and_eq_true_iff.mp hp
    exact Bool.and_eq_true_iff.mpr
      ⟨Bool.and_eq_true_iff.mpr ⟨hkey, storable_canon p.2 hvalue⟩, storableFields_canon fields hfields⟩

end

theorem fits_canon {j : Json} (h : Fits j) : Fits j.canon := by
  obtain ⟨⟨fields, rfl⟩, hstorable, hnodes, hbytes⟩ := fits_iff.mp h
  refine fits_iff.mpr ⟨⟨_, rfl⟩, storable_canon _ hstorable, by rwa [nodes_canon], ?_⟩
  rwa [← utf8ByteSize_dumps, dumps_canon, utf8ByteSize_dumps]

/-! ### The round trip -/

/-- The accepted texts are the texts of the values within the bounds. -/
theorem construct_iff {text : CodePoints} : check text = .ok () ↔
    ∃ j, Fits j ∧ Sound (List.Pairwise (· < ·)) j ∧ text = codePoints j.dumps := by
  simp only [check, bind_ok, encodedText_ok]
  constructor
  · rintro ⟨t, ⟨rfl, hsize⟩, h⟩
    cases hloads : loads .finite t with
    | none => simp only [hloads, refuse_ne_ok] at h
    | some decoded =>
      simp only [hloads, bind_ok, require_ok, canonicalText_ok] at h
      obtain ⟨⟨j, m⟩, hnormal, expected, ⟨hobj, hints, rfl⟩, rfl⟩ := h
      obtain ⟨rfl, hj⟩ := (normalize_ok decoded).mp hnormal
      have hsound := sound_of_proper j (proper_of_loads hloads) hints
      -- what is read of its own text is in canonical order
      rw [loads_dumps_canon .finite hsound] at hloads
      have hcanon : j.canon = j := toValue_injective (Option.some.inj hloads)
      exact ⟨j, fits_iff_normalize.mpr ⟨⟨m, hj⟩, hobj, hsize⟩, hcanon ▸ sound_canon j hsound, rfl⟩
  · rintro ⟨j, hfits, hsound, rfl⟩
    obtain ⟨⟨m, hj⟩, hobj, hsize⟩ := fits_iff_normalize.mp hfits
    refine ⟨j.dumps, ⟨rfl, hsize⟩, ?_⟩
    simp only [loads_dumps .finite hsound, bind_ok, require_ok, canonicalText_ok]
    exact ⟨(j, m), (normalize_ok _).mpr ⟨rfl, hj⟩, j.dumps, ⟨hobj, intsFit_of_sound j hsound, rfl⟩, rfl⟩

theorem construct_ok {text : String} {o : JsonObject} : construct text = .ok o ↔ o.canonical = text := by
  unfold construct
  constructor
  · intro h
    split at h
    · cases h
      rfl
    · cases h
  · rintro rfl
    split
    · rfl
    · rename_i e he
      rw [o.ok] at he
      cases he

/-- The value that an object was made of, in canonical order. -/
theorem exists_value (o : JsonObject) : ∃ j, Fits j ∧ Sound (List.Pairwise (· < ·)) j ∧ o.canonical = j.dumps ∧
    o.toDict = some (toValue j) := by
  obtain ⟨j, hfits, hsound, htext⟩ := construct_iff.mp o.ok
  have hcanonical := codePoints_injective htext
  exact ⟨j, hfits, hsound, hcanonical, by rw [toDict, hcanonical, loads_dumps .plain hsound]⟩

/-- `from_value` accepts the dictionaries of JSON within the bounds. -/
theorem fromValue_iff {v : Value} (hv : v.Proper) {o : JsonObject} : fromValue v = .ok o ↔
    ∃ j, v = toValue j ∧ Fits j ∧ intsFit j = true ∧ o.canonical = j.dumps := by
  simp only [fromValue, bind_ok, require_ok, exists_const, canonicalText_ok, construct_ok]
  constructor
  · rintro ⟨⟨j, m⟩, hnormal, t, ⟨hobj, hints, rfl⟩, hsize, ho⟩
    obtain ⟨rfl, hj⟩ := (normalize_ok v).mp hnormal
    exact ⟨j, rfl, fits_iff_normalize.mpr ⟨⟨m, hj⟩, hobj, hsize⟩, hints, ho⟩
  · rintro ⟨j, rfl, hfits, hints, ho⟩
    obtain ⟨⟨m, hj⟩, hobj, hsize⟩ := fits_iff_normalize.mp hfits
    exact ⟨(j, m), (normalize_ok _).mpr ⟨rfl, hj⟩, j.dumps, ⟨hobj, hints, rfl⟩, hsize, ho⟩

end JsonObject

/-- The constructor accepts just the texts that are written for values within the bounds.  `from_value` accepts just the
dictionaries of JSON within the bounds, whose object decodes to the value with its entries in order, and this value
gives the same object.  Objects are the same when they decode to the same value. -/
theorem jsonObject_canonical :
    (∀ text, JsonObject.check text = .ok () ↔
      ∃ j, Fits j ∧ Sound (List.Pairwise (· < ·)) j ∧ text = codePoints j.dumps) ∧
    (∀ v : Value, v.Proper →
      ((∃ o, JsonObject.fromValue v = .ok o) ↔ ∃ j, v = toValue j ∧ Fits j ∧ JsonObject.intsFit j = true) ∧
      ∀ o, JsonObject.fromValue v = .ok o → ∃ j, v = toValue j ∧ o.toDict = some (toValue j.canon) ∧
        JsonObject.fromValue (toValue j.canon) = .ok o) ∧
    ∀ o o' : JsonObject, o.toDict = o'.toDict ↔ o = o' := by
  refine ⟨fun text => JsonObject.construct_iff, fun v hv => ⟨?_, fun o ho => ?_⟩, fun o o' => ?_⟩
  · constructor
    · rintro ⟨o, ho⟩
      obtain ⟨j, hj, hfits, hints, -⟩ := (JsonObject.fromValue_iff hv).mp ho
      exact ⟨j, hj, hfits, hints⟩
    · rintro ⟨j, rfl, hfits, hints⟩
      have hsound := sound_canon j (JsonObject.sound_of_proper j hv hints)
      have hcheck : JsonObject.check (codePoints j.dumps) = .ok () :=
        JsonObject.construct_iff.mpr ⟨j.canon, JsonObject.fits_canon hfits, hsound, by rw [dumps_canon]⟩
      exact ⟨⟨j.dumps, hcheck⟩, (JsonObject.fromValue_iff hv).mpr ⟨j, rfl, hfits, hints, rfl⟩⟩
  · obtain ⟨j, rfl, hfits, hints, hcanonical⟩ := (JsonObject.fromValue_iff hv).mp ho
    have hsound := JsonObject.sound_of_proper j hv hints
    have hdict : o.toDict = some (toValue j.canon) := by
      rw [JsonObject.toDict, hcanonical, loads_dumps_canon .plain hsound]
    refine ⟨j, rfl, hdict, ?_⟩
    have hproper : (toValue j.canon).Proper := proper_of_loads (hdict : loads .plain o.canonical = _)
    exact (JsonObject.fromValue_iff hproper).mpr ⟨j.canon, rfl, JsonObject.fits_canon hfits,
      JsonObject.intsFit_of_sound _ (sound_canon j hsound), by rw [hcanonical, dumps_canon]⟩
  · constructor
    · intro h
      obtain ⟨j, -, -, hj, hdict⟩ := o.exists_value
      obtain ⟨j', -, -, hj', hdict'⟩ := o'.exists_value
      rw [hdict, hdict'] at h
      obtain rfl := toValue_injective (Option.some.inj h)
      cases o
      cases o'
      obtain rfl : _ = _ := hj.trans hj'.symm
      rfl
    · rintro rfl
      rfl

end SevenLens.Analysis
