import SevenLens.Analysis.Decimals
import SevenLens.Analysis.JsonValues
import SevenLens.Analysis.Texts
import SevenLens.Library.Codec

/-! # Fields of analysis contracts

The checks of single fields, which the constructors of the contracts run, and the readers of the
same fields from a wire value.  Each reader is a codec: it reads exactly what is written of the
values that are good for it.

What is asked of a text beyond its length goes through Unicode tables and search patterns.  These
are the `Rules`; the texts of identifiers, of instants and of the schema version, which have no
letters but hexadecimal digits, `T` and `Z`, pass them. -/

namespace SevenLens.Analysis

open Securities

/-! ### Rules -/

/-- The rules for texts, the digest and the parser of stored texts. -/
structure Rules where
  /-- What the patterns of `validate_sanitized_text` find, which may allow a bare host. -/
  prohibited : Bool → String → Option String
  /-- `hashlib.sha256(text.encode()).hexdigest()` -/
  sha256 : String → Hash
  /-- `json.loads` of a stored text, which refuses repeated keys and numbers that are not finite. -/
  loads : String → Except Failure Json
  prohibited_runId : ∀ r : RunId, prohibited false r.text = none
  prohibited_timestamp : ∀ t : UtcTimestamp, prohibited false t.text = none
  prohibited_schema : prohibited false "1.0.0" = none

def maxTextBytes : Nat := 2048

def maxSequenceItems : Nat := 32

/-- `_SYMBOL` -/
def symbolPattern : Pattern := .cat [.cls isUpper, .upTo 9 (fun c => isUpper c || isDigit c || c == '.' || c == '-')]

/-- `_REF` -/
def refPattern : Pattern := .cat [.cls isAlnum, .upTo 95 isRecordChar]

/-- `_VERSION` -/
def versionPattern : Pattern :=
  .cat [.cls isAlnum, .upTo 63 (fun c => isAlnum c || c == '.' || c == '_' || c == '+' || c == '-')]

/-- `_SCHEMA_VERSION_PATTERN` -/
def schemaVersionPattern : Pattern :=
  let component : Pattern := .alt (.lit "0") (.cat [.cls (fun c => isDigit c && c != '0'), .upTo 3 isDigit])
  .cat [component, .lit ".", component, .lit ".", component]

/-- `SCHEMA_VERSION` -/
def schemaVersion : SchemaVersion := ⟨"1.0.0"⟩

namespace Rules

variable (R : Rules)

/-- `validate_sanitized_text` -/
def validateSanitizedText (field : String) (maximum : Nat) (allowBareHost : Bool) (s : String) : Except Failure Unit := do
  require (hasNul s = false) (field ++ " must not contain NUL")
  require (s.utf8ByteSize ≤ maximum ∧ s ≠ "") (field ++ " is outside its bounded length")
  match R.prohibited allowBareHost s with
  | some found => refuse (field ++ " contains prohibited " ++ found)
  | none => return ()

/-- `_text` -/
def text (field : String) (maximum : Nat) (s : String) : Except Failure Unit :=
  R.validateSanitizedText field maximum false s

/-- `_symbol` -/
def symbol (s : String) : Except Failure Unit := do
  R.text "symbol" 10 s
  require (symbolPattern.fullmatch s = true) "symbol must use canonical uppercase ticker format"

/-- `_ref` -/
def ref (field s : String) : Except Failure Unit := do
  R.validateSanitizedText field 96 true s
  require (refPattern.fullmatch s = true) (field ++ " must use canonical reference format")

/-- `_version` -/
def version (field s : String) : Except Failure Unit := do
  R.validateSanitizedText field 64 true s
  require (versionPattern.fullmatch s = true) (field ++ " must use canonical version text")

/-- A plain text that no rule prohibits passes. -/
theorem text_of_plain {field s : String} {maximum : Nat} (h : ∀ c ∈ s.toList, Json.PlainChar c)
    (hlen : 0 < s.length) (hmax : s.length ≤ maximum) (hp : R.prohibited false s = none) :
    R.text field maximum s = .ok () := by
  obtain ⟨hnul, hsize⟩ := plain_size h
  have hne : s ≠ "" := by
    rintro rfl
    exact absurd hlen (by decide)
  simp only [text, validateSanitizedText, bind_ok, require_ok, exists_const, hp, pure_ok, and_true]
  exact ⟨hnul, hsize ▸ hmax, hne⟩

theorem text_runId (r : RunId) : R.text "run_id" 36 r.text = .ok () :=
  R.text_of_plain r.plain_text (by rw [r.length_text]; decide) r.length_text.le (R.prohibited_runId r)

theorem text_timestamp (t : UtcTimestamp) : R.text "timestamp" 27 t.text = .ok () :=
  R.text_of_plain t.plain_text (by rw [t.length_text]; decide) t.length_text.le (R.prohibited_timestamp t)

theorem text_schemaVersion : R.text "schema_version" 14 "1.0.0" = .ok () :=
  R.text_of_plain (plain_of_all (by decide)) (by decide) (by decide) R.prohibited_schema

end Rules

/-! ### Sequences in a constructor -/

/-- A check before the rest of a call. -/
theorem check_ok {β : Type} {x : Except Failure Unit} {f : Unit → Except Failure β} {b : β} :
    (x >>= f) = .ok b ↔ x = .ok () ∧ f () = .ok b := by
  rw [bind_ok]
  exact ⟨fun ⟨_, h⟩ => h, fun h => ⟨(), h⟩⟩

theorem exists_unit {p : Unit → Prop} : (∃ u, p u) ↔ p () := ⟨fun ⟨_, h⟩ => h, fun h => ⟨(), h⟩⟩

/-- `_sequence` in a constructor: a bounded list of distinct items that pass a check. -/
def sequence {α : Type} [DecidableEq α] (field : String) (check : α → Except Failure Unit) (maximum : Nat)
    (nonempty : Bool) (l : List α) : Except Failure Unit := do
  require (l.length ≤ maximum ∧ (nonempty = true → l ≠ [])) (field ++ " is outside its item bound")
  l.forM check
  require l.Nodup (field ++ " must not contain duplicates")

theorem sequence_ok {α : Type} [DecidableEq α] {field : String} {check : α → Except Failure Unit} {maximum : Nat}
    {nonempty : Bool} {l : List α} {u : Unit} : sequence field check maximum nonempty l = .ok u ↔
      Json.Codec.GoodList (fun a => check a = .ok ()) maximum nonempty true l := by
  simp only [sequence, bind_ok, require_ok, Dict.forM_ok, exists_const, Json.Codec.GoodList, and_assoc,
    forall_const]

namespace Rules

variable (R : Rules)

/-- `_strings` -/
def strings (field : String) (l : List String) : Except Failure Unit :=
  sequence field (R.text (field ++ " item") maxTextBytes) maxSequenceItems false l

/-- `_refs` -/
def refs (field : String) (maximum : Nat) (nonempty : Bool) (l : List String) : Except Failure Unit :=
  sequence field (R.ref (field ++ " item")) maximum nonempty l

/-- `_sequence(value, field, _symbol, maximum=maximum)` -/
def symbols (field : String) (maximum : Nat) (l : List String) : Except Failure Unit :=
  sequence field R.symbol maximum false l

end Rules

/-! ### Readers -/

/-- `_mapping`: the budget of a wire object. -/
def mapping : Json.Budget Failure where
  enter := fromValue
  foreign := .raised ⟨.valueError, "wire object must contain the exact contract fields"⟩
  inside h hin := Fits.inside h hin

/-- A reader or writer of one field. -/
abbrev Wire (α : Type) := Json.Codec mapping α

/-- A text that passes a check. -/
def readText (field : String) (check : String → Except Failure Unit) : Json → Except Failure String
  | .str s => do
    check s
    return s
  | _ => refuse (field ++ " must be an exact string")

theorem readText_ok {field : String} {check : String → Except Failure Unit} {j : Json} {s : String} :
    readText field check j = .ok s ↔ j = .str s ∧ check s = .ok () := by
  cases j with
  | str s' =>
    simp only [readText, bind_ok, pure_ok, Json.str.injEq]
    constructor
    · rintro ⟨u, h, rfl⟩
      exact ⟨rfl, h⟩
    · rintro ⟨rfl, h⟩
      exact ⟨(), h, rfl⟩
  | _ => simp [readText, refuse, throwing]

namespace Wire

variable (R : Rules)

/-- A text that passes a check. -/
def checkedText (field : String) (check : String → Except Failure Unit) : Wire String :=
  .scalar .str (readText field check) (fun s => check s = .ok ()) (fun _ => True) (fun _ => trivial)
    (fun _ _ => readText_ok) (fun _ _ => trivial) (fun _ _ _ _ h => Json.str.inj h)

/-- `_text` -/
def text (field : String) : Wire String := checkedText field (R.text field maxTextBytes)

/-- `_symbol` -/
def symbol : Wire String := checkedText "symbol" R.symbol

/-- `_ref` -/
def ref (field : String) : Wire String := checkedText field (R.ref field)

/-- `_version` -/
def version (field : String) : Wire String := checkedText field (R.version field)

/-- A text that passes a check and is parsed. -/
def readParsed {α : Type} (field : String) (check : String → Except Failure Unit) (parse : String → Except Failure α)
    (j : Json) : Except Failure α := do
  let s ← readText field check j
  parse s

/-- The codec of a value that is written as a text, where the parser reads exactly these texts. -/
def parsed {α : Type} (field : String) (check : String → Except Failure Unit) (text : α → String)
    (parse : String → Except Failure α) (good : α → Prop)
    (h : ∀ s a, (check s = .ok () ∧ parse s = .ok a) ↔ s = text a ∧ good a) (hinj : Function.Injective text) :
    Wire α :=
  .scalar (fun a => .str (text a)) (readParsed field check parse) good (fun _ => True) (fun _ => trivial) (by
    intro j a
    simp only [readParsed, bind_ok, readText_ok]
    constructor
    · rintro ⟨s, ⟨rfl, hcheck⟩, hparse⟩
      obtain ⟨rfl, hgood⟩ := (h s a).mp ⟨hcheck, hparse⟩
      exact ⟨rfl, hgood⟩
    · rintro ⟨rfl, hgood⟩
      obtain ⟨hcheck, hparse⟩ := (h (text a) a).mpr ⟨rfl, hgood⟩
      exact ⟨_, ⟨rfl, hcheck⟩, hparse⟩)
    (fun _ _ => trivial) (fun _ _ _ _ he => hinj (Json.str.inj he))

/-- `_run_id` -/
def runId : Wire RunId :=
  parsed "run_id" (R.text "run_id" 36) RunId.text RunId.fromString (fun _ => True) (by
    intro s r
    constructor
    · rintro ⟨-, h⟩
      exact ⟨(RunId.text_of_fromString h).symm, trivial⟩
    · rintro ⟨rfl, -⟩
      exact ⟨R.text_runId r, RunId.fromString_text r⟩)
    RunId.text_injective

theorem runId_ne_null (r : RunId) : (runId R).write r ≠ .null := fun h => nomatch h

/-- `_timestamp` -/
def timestamp : Wire UtcTimestamp :=
  parsed "timestamp" (R.text "timestamp" 27) UtcTimestamp.text UtcTimestamp.fromIsoformat (fun _ => True) (by
    intro s t
    constructor
    · rintro ⟨-, h⟩
      exact ⟨(UtcTimestamp.text_of_fromIsoformat h).symm, trivial⟩
    · rintro ⟨rfl, -⟩
      exact ⟨R.text_timestamp t, UtcTimestamp.fromIsoformat_text t⟩)
    UtcTimestamp.text_injective

end Wire

/-- `SchemaVersion(value)`, compared with `SCHEMA_VERSION` -/
def parseSchema (s : String) : Except Failure SchemaVersion := do
  require (schemaVersionPattern.fullmatch s = true)
    "SchemaVersion must use MAJOR.MINOR.PATCH with components from 0 to 9999"
  require ((⟨s⟩ : SchemaVersion) = schemaVersion) "unsupported analysis schema version"
  return ⟨s⟩

theorem parseSchema_ok {s : String} {v : SchemaVersion} : parseSchema s = .ok v ↔ s = "1.0.0" ∧ v = schemaVersion := by
  simp only [parseSchema, bind_ok, require_ok, exists_const, pure_ok]
  constructor
  · rintro ⟨-, h, rfl⟩
    exact ⟨congrArg SchemaVersion.value h, h⟩
  · rintro ⟨rfl, rfl⟩
    exact ⟨by decide, rfl, rfl⟩

/-- A text of 64 lowercase hexadecimal digits, as `_HASH` matches it. -/
def parseHash (field s : String) : Except Failure Hash :=
  if h : s.length = 64 ∧ s.toList.all isHex = true then .ok ⟨s, h⟩
  else refuse (field ++ " must be a lowercase SHA-256 hex digest")

theorem parseHash_ok {field s : String} {h : Hash} : parseHash field s = .ok h ↔ s = h.text := by
  unfold parseHash
  constructor
  · intro hp
    split_ifs at hp
    · cases hp
      rfl
    · cases hp
  · rintro rfl
    rw [dif_pos h.ok]

/-- `_hash` -/
def readHash (field : String) : Json → Except Failure Hash
  | .str s => parseHash field s
  | _ => refuse (field ++ " must be a lowercase SHA-256 hex digest")

/-- `_integer` -/
def readInteger (field : String) (minimum maximum : Int) : Json → Except Failure Int
  | .int i => do
    require (minimum ≤ i ∧ i ≤ maximum) (field ++ " must be an exact bounded integer")
    return i
  | _ => refuse (field ++ " must be an exact bounded integer")

/-- `type(value) is bool` -/
def readBool (field : String) : Json → Except Failure Bool
  | .bool b => .ok b
  | _ => refuse (field ++ " must be an exact bool")

/-- An enumeration of texts. -/
class StrEnum (E : Type) where
  value : E → String
  members : List E
  mem_members : ∀ e, e ∈ members
  nodup_values : (members.map value).Nodup

theorem StrEnum.value_injective {E : Type} [StrEnum E] : Function.Injective (StrEnum.value : E → String) :=
  fun e e' h => List.inj_on_of_nodup_map StrEnum.nodup_values (StrEnum.mem_members e) (StrEnum.mem_members e') h

/-- `_exact_enum` -/
def readEnum {E : Type} [StrEnum E] (field : String) : Json → Except Failure E
  | .str s =>
    match (StrEnum.members : List E).find? (fun e => StrEnum.value e == s) with
    | some e => .ok e
    | none => refuse (field ++ " is not a supported value")
  | _ => refuse (field ++ " must be an exact string")

namespace Wire

variable (R : Rules)

/-- `_schema` -/
def schema : Wire SchemaVersion :=
  parsed "schema_version" (R.text "schema_version" 14) SchemaVersion.value parseSchema (· = schemaVersion) (by
    intro s v
    rw [parseSchema_ok]
    constructor
    · rintro ⟨-, rfl, rfl⟩
      exact ⟨rfl, rfl⟩
    · rintro ⟨rfl, rfl⟩
      exact ⟨R.text_schemaVersion, rfl, rfl⟩)
    (fun v w h => by cases v; cases w; cases h; rfl)

/-- `_hash` -/
def hash (field : String) : Wire Hash :=
  .scalar (fun h => .str h.text) (readHash field) (fun _ => True) (fun _ => True) (fun _ => trivial) (by
    intro j h
    cases j with
    | str s => simp only [readHash, parseHash_ok, Json.str.injEq, and_true]
    | _ => simp [readHash, refuse, throwing])
    (fun _ _ => trivial) (fun _ _ _ _ h => Hash.text_injective (Json.str.inj h))

/-- `_integer` -/
def integer (field : String) (minimum maximum : Int) : Wire Int :=
  .scalar .int (readInteger field minimum maximum) (fun i => minimum ≤ i ∧ i ≤ maximum) (fun _ => True)
    (fun _ => trivial) (by
    intro j i
    cases j with
    | int i' =>
      simp only [readInteger, bind_ok, require_ok, exists_const, pure_ok, Json.int.injEq]
      constructor
      · rintro ⟨h, rfl⟩
        exact ⟨rfl, h⟩
      · rintro ⟨rfl, h⟩
        exact ⟨h, rfl⟩
    | _ => simp [readInteger, refuse, throwing])
    (fun _ _ => trivial) (fun _ _ _ _ h => Json.int.inj h)

/-- A value whose type is `bool`. -/
def exactBool (field : String) : Wire Bool :=
  .scalar .bool (readBool field) (fun _ => True) (fun _ => True) (fun _ => trivial) (by
    intro j b
    cases j with
    | bool b' => simp [readBool]
    | _ => simp [readBool, refuse, throwing])
    (fun _ _ => trivial) (fun _ _ _ _ h => Json.bool.inj h)

/-- `_exact_enum` -/
def exactEnum {E : Type} [StrEnum E] (field : String) : Wire E :=
  .scalar (fun e => .str (StrEnum.value e)) (readEnum field) (fun _ => True) (fun _ => True) (fun _ => trivial) (by
    intro j e
    cases j with
    | str s =>
      simp only [readEnum, Json.str.injEq, and_true]
      constructor
      · intro h
        split at h
        · rename_i e' hfind
          cases h
          have hvalue := List.find?_some hfind
          exact (beq_iff_eq.mp hvalue).symm
        · cases h
      · rintro rfl
        obtain ⟨e', hfind⟩ : ∃ e', (StrEnum.members : List E).find? (fun x => StrEnum.value x == StrEnum.value e) =
            some e' := by
          rw [← Option.isSome_iff_exists, List.find?_isSome]
          exact ⟨e, StrEnum.mem_members e, beq_self_eq_true _⟩
        have hvalue := List.find?_some hfind
        obtain rfl := StrEnum.value_injective (beq_iff_eq.mp hvalue)
        rw [hfind]
    | _ => simp [readEnum, refuse, throwing])
    (fun _ _ => trivial) (fun _ _ _ _ h => StrEnum.value_injective (Json.str.inj h))

/-- The decimals that `_decimal` reads. -/
structure GoodDecimal (scale : Nat) (minimum maximum : ℚ) (d : Decimal) : Prop where
  exponent : d.exponent = -scale
  nonNegativeZero : ¬ NegativeZero d
  minimum_le : minimum ≤ d.value
  le_maximum : d.value ≤ maximum

theorem four_places : 0 < 4 := by decide

theorem six_places : 0 < 6 := by decide

/-- `_decimal` -/
def decimal (field : String) (scale : Nat) (minimum maximum : ℚ) (hs : 0 < scale) : Wire Decimal :=
  .scalar (fun d => .str (decimalText scale d)) (Analysis.decimal field scale minimum maximum)
    (GoodDecimal scale minimum maximum) (fun d => d.exponent = -scale) (fun _ => trivial) (by
    intro j d
    rw [decimal_ok hs]
    exact ⟨fun ⟨hj, he, hz, hlo, hhi⟩ => ⟨hj, he, hz, hlo, hhi⟩, fun ⟨hj, he, hz, hlo, hhi⟩ => ⟨hj, he, hz, hlo, hhi⟩⟩)
    (fun _ hd => hd.exponent) (fun _ _ hd he h => decimalText_inj hs hd he (Json.str.inj h))

/-- `_sequence` -/
def sequence {α : Type} [DecidableEq α] (field : String) (c : Wire α) (maximum : Nat) (nonempty unique : Bool) :
    Wire (List α) :=
  c.list ⟨.raised ⟨.valueError, field ++ " must be an exact sequence"⟩,
    .raised ⟨.valueError, field ++ " is outside its item bound"⟩,
    .raised ⟨.valueError, field ++ " must not contain duplicates"⟩⟩ maximum nonempty unique

/-- `_strings` -/
def strings (field : String) : Wire (List String) :=
  sequence field (checkedText (field ++ " item") (R.text (field ++ " item") maxTextBytes)) maxSequenceItems false true

/-- `_refs` -/
def refs (field : String) (maximum : Nat) (nonempty : Bool) : Wire (List String) :=
  sequence field (ref R (field ++ " item")) maximum nonempty true

/-- `_sequence(value, field, _symbol, maximum=maximum)` -/
def symbols (field : String) (maximum : Nat) : Wire (List String) := sequence field (symbol R) maximum false true

end Wire

/-! ### Contracts -/

/-- The values of a contract: the arguments that its `__post_init__` accepts. -/
abbrev Accepted {ρ : Type} (postInit : ρ → Except Failure Unit) : Type := {a : ρ // postInit a = .ok ()}

/-- The constructor of a contract. -/
def construct {ρ : Type} (postInit : ρ → Except Failure Unit) (a : ρ) : Except Failure (Accepted postInit) :=
  match h : postInit a with
  | .ok () => .ok ⟨a, h⟩
  | .error e => .error e

theorem construct_ok {ρ : Type} {postInit : ρ → Except Failure Unit} {a : ρ} {v : Accepted postInit} :
    construct postInit a = .ok v ↔ v.val = a := by
  unfold construct
  constructor
  · intro h
    split at h
    · cases h
      rfl
    · cases h
  · rintro rfl
    split
    · rfl
    · rename_i e he
      rw [v.property] at he
      cases he

/-- `to_wire` and `from_wire` of a contract, by the table of its fields in the order in which they
are read. -/
def Wire.contract {ρ τ : Type} (postInit : ρ → Except Failure Unit) (F : Json.Fields mapping ρ τ) (args : τ → ρ)
    (hn : F.names.Nodup) (hargs : ∀ r, args (F.tuple r) = r) (htuple : ∀ t, F.tuple (args t) = t) :
    Wire (Accepted postInit) :=
  .record F hn (fun t => construct postInit (args t)) Subtype.val (by
    intro t v
    rw [construct_ok]
    constructor
    · intro h
      rw [h, htuple]
    · rintro rfl
      exact (hargs _).symm)

end SevenLens.Analysis
