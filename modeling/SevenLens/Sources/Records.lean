import Mathlib
import SevenLens.MarketData.ProviderTime
import SevenLens.Screening.Contracts
import SevenLens.Securities.Sources

/-! # Normalized records and the strict reading of provider payloads

An adapter decodes the bytes of a provider, checks the decoded value against the schema of its
family and builds records.  `json.loads` is a parameter, and so is SHA-256.  Every departure from
the schema raises; a record is built by `buildNormalizedRecord` only, which runs the checks of
the record's constructor. -/

namespace SevenLens.Sources

open Securities MarketData

/-- `raise SourceSchemaDriftError(message)` -/
def drift {α : Type} (message : String) : Except Failure α := throwing .sourceSchemaDrift message

/-- `if not p: raise SourceSchemaDriftError(message)` -/
def expect (p : Prop) [Decidable p] (message : String) : Except Failure Unit := requireOr .sourceSchemaDrift p message

theorem expect_ok {p : Prop} [Decidable p] {message : String} {u : Unit} : expect p message = .ok u ↔ p := requireOr_ok

theorem exists_of_isOk {ε α : Type} {x : Except ε α} (h : x.isOk = true) : ∃ a, x = .ok a := by
  cases x with
  | error e => cases h
  | ok a => exact ⟨a, rfl⟩

/-! ### Decoding -/

mutual

/-- `_check_bounds` -/
def checkBounds (depth : Nat) : Json → Except Failure Unit
  | .obj fields => do
    expect (depth ≤ 16) "provider payload exceeds depth bound"
    expect (fields.length ≤ 256) "provider payload object exceeds member bound"
    checkMembers (depth + 1) fields
  | .arr items => do
    expect (depth ≤ 16) "provider payload exceeds depth bound"
    expect (items.length ≤ 10000) "provider payload array exceeds item bound"
    checkItems (depth + 1) items
  | _ => expect (depth ≤ 16) "provider payload exceeds depth bound"

def checkMembers (depth : Nat) : List (String × Json) → Except Failure Unit
  | [] => .ok ()
  | (_, value) :: fields => do
    checkBounds depth value
    checkMembers depth fields

def checkItems (depth : Nat) : List Json → Except Failure Unit
  | [] => .ok ()
  | value :: items => do
    checkBounds depth value
    checkItems depth items

end

/-- What the code calls without defining it: `json.loads` with its hooks for repeated keys and for
constants that are not finite, and SHA-256. -/
structure Codec where
  loads : ByteArray → Except Failure Json
  sha256 : ByteArray → Hash

/-- `strict_json_loads` -/
def strictJsonLoads (C : Codec) (payload : ByteArray) : Except Failure Json := do
  expect (payload.size ≠ 0 ∧ payload.size ≤ 4000000) "provider payload is missing or oversized"
  match ← C.loads payload with
  | .obj fields => do
    checkBounds 0 (.obj fields)
    return .obj fields
  | .arr items => do
    checkBounds 0 (.arr items)
    return .arr items
  | _ => drift "provider payload must decode to an object or array"

theorem strictJsonLoads_ok {C : Codec} {payload : ByteArray} {document : Json}
    (hsize : payload.size ≠ 0 ∧ payload.size ≤ 4000000) (hload : C.loads payload = .ok document)
    (hshape : (∃ fields, document = .obj fields) ∨ ∃ items, document = .arr items)
    (hbounds : checkBounds 0 document = .ok ()) : strictJsonLoads C payload = .ok document := by
  rcases hshape with ⟨fields, rfl⟩ | ⟨items, rfl⟩ <;>
    simp only [strictJsonLoads, expect, requireOr, if_pos hsize, hload, hbounds, bind, Except.bind, pure, Except.pure]

/-- The bytes of a document. -/
def documentBytes (document : Json) : ByteArray := document.dumps.toUTF8

/-- A decoder that knows one document. -/
def documentCodec (document : Json) (sha256 : ByteArray → Hash) : Codec where
  loads payload := if payload = documentBytes document then .ok document else drift "provider payload is not valid JSON"
  sha256 := sha256

theorem documentCodec_loads {document : Json} (sha256 : ByteArray → Hash)
    (hsize : document.bytes ≠ 0 ∧ document.bytes ≤ 4000000)
    (hshape : (∃ fields, document = .obj fields) ∨ ∃ items, document = .arr items)
    (hbounds : checkBounds 0 document = .ok ()) :
    strictJsonLoads (documentCodec document sha256) (documentBytes document) = .ok document := by
  refine strictJsonLoads_ok ?_ (if_pos rfl) hshape hbounds
  rwa [← Json.utf8ByteSize_dumps] at hsize

/-- `content_hash_of` -/
def contentHashOf (C : Codec) (payload : ByteArray) : Hash := C.sha256 payload

/-- A list of texts, as `str` prints it when no text holds a quote. -/
def quotedList (names : List String) : String :=
  "[" ++ ", ".intercalate (names.map (fun name => "'" ++ name ++ "'")) ++ "]"

/-- `require_keys` -/
def requireKeys (fields : List (String × Json)) (required allowed : List String) : Except Failure Unit := do
  let missing := required.filter (fun name => decide (name ∉ fields.map Prod.fst))
  let unknown := (fields.map Prod.fst).filter (fun name => decide (name ∉ allowed))
  expect (missing = []) ("provider payload is missing keys: " ++ quotedList (missing.insertionSort (· ≤ ·)))
  expect (unknown = []) ("provider payload carries unknown keys: " ++ quotedList (unknown.insertionSort (· ≤ ·)))

/-- `value[name]`, for a name that is there. -/
def member (fields : List (String × Json)) (name : String) : Json := (fields.lookup name).getD .null

/-- `require_type(value, str, field)` -/
def requireText (field : String) : Json → Except Failure String
  | .str s => .ok s
  | _ => drift (field ++ " has an unexpected type")

/-- `require_type(value, dict, field)` -/
def requireDict (field : String) : Json → Except Failure (List (String × Json))
  | .obj fields => .ok fields
  | _ => drift (field ++ " has an unexpected type")

/-! ### Dates -/

/-- `dddd-dd-dd` -/
def dateLayout : Layout := [(4, ['-']), (2, ['-']), (2, [])]

/-- `provider_utc_date`: midnight of a date. -/
def providerUtcDate (text : String) : Except String UtcTimestamp :=
  match readCompact isDecimal dateLayout text.toList with
  | none => .error "provider date must use YYYY-MM-DD"
  | some stamp =>
    match stamp.groups.map number with
    | [year, month, day] =>
      if h : (1 ≤ year ∧ year ≤ 9999) ∧ (1 ≤ month ∧ month ≤ 12) ∧ (1 ≤ day ∧ day ≤ daysInMonth year month) then
        .ok (TradingDate.start ⟨year, month, day, h.1, h.2.1, h.2.2⟩)
      else .error "provider date is not a valid calendar date"
    | _ => .error "provider date is not a valid calendar date"

/-- `require_date` -/
def requireDate (field : String) : Json → Except Failure UtcTimestamp
  | .str text =>
    match providerUtcDate text with
    | .ok t => .ok t
    | .error _ => drift (field ++ " is not a bounded provider date")
  | _ => drift (field ++ " must be date text")

/-! ### Canonical payloads -/

mutual

/-- The nodes of a value. -/
def nodes : Json → Nat
  | .arr items => 1 + nodesItems items
  | .obj fields => 1 + nodesFields fields
  | _ => 1

def nodesItems : List Json → Nat
  | [] => 0
  | value :: items => nodes value + nodesItems items

def nodesFields : List (String × Json) → Nat
  | [] => 0
  | (_, value) :: fields => nodes value + nodesFields fields

end

/-- No NUL, and no more bytes than the bound. -/
def storableText (bound : Nat) (text : String) : Bool := !hasNul text && decide (text.utf8ByteSize ≤ bound)

mutual

/-- `_normalize_json` passes the value at a depth, its budget of nodes apart. -/
def storable (depth : Nat) : Json → Bool
  | .str s => decide (depth ≤ 32) && storableText 16384 s
  | .arr items => decide (depth ≤ 32) && decide (items.length ≤ 512) && storableItems (depth + 1) items
  | .obj fields => decide (depth ≤ 32) && decide (fields.length ≤ 256) && storableFields (depth + 1) fields
  | _ => decide (depth ≤ 32)

def storableItems (depth : Nat) : List Json → Bool
  | [] => true
  | value :: items => storable depth value && storableItems depth items

def storableFields (depth : Nat) : List (String × Json) → Bool
  | [] => true
  | (name, value) :: fields => storableText 128 name && storable depth value && storableFields depth fields

end

/-- `JsonObject.from_value` accepts a dictionary.  Every reason to refuse it raises the same error
in `canonical_payload`, so their order is not kept. -/
def isCanonicalPayload (payload : List (String × Json)) : Bool :=
  storable 0 (.obj payload) && decide (nodes (.obj payload) ≤ 4096) && decide ((Json.obj payload).bytes ≤ 65536)

theorem isCanonicalPayload_iff {payload : List (String × Json)} :
    isCanonicalPayload payload = true ↔
      storable 0 (.obj payload) = true ∧ nodes (.obj payload) ≤ 4096 ∧ (Json.obj payload).bytes ≤ 65536 := by
  simp only [isCanonicalPayload, Bool.and_eq_true, decide_eq_true_eq, and_assoc]

/-! ### The policy of a family -/

inductive SourceRole where
  | authority | confirmation | discovery | researchSupplement
deriving DecidableEq, Repr

def SourceRole.value : SourceRole → String
  | authority => "AUTHORITY"
  | confirmation => "CONFIRMATION"
  | discovery => "DISCOVERY"
  | researchSupplement => "RESEARCH_SUPPLEMENT"

def roleOf : P4SourceFamily → SourceRole
  | .alpacaCorporateActions | .issuerIr => .confirmation
  | .tavily | .gdelt => .discovery
  | .yfinance => .researchSupplement
  | _ => .authority

/-- The label of the coverage: only one family has a limited one. -/
def coverageOf : P4SourceFamily → String
  | .alpacaIexQuotes => "LIMITED_MARKET_COVERAGE"
  | _ => "FULL"

def rightsOf : P4SourceFamily → String
  | .yfinance => "UNKNOWN"
  | _ => "ALLOWED"

def endpointIds : P4SourceFamily → List String
  | .alpacaAssets => ["assets_list", "asset_detail"]
  | .alpacaHistoricalBars => ["stock_bars"]
  | .alpacaIexQuotes => ["latest_quote"]
  | .alpacaCorporateActions => ["corporate_actions"]
  | .secEdgar => ["submissions", "companyfacts"]
  | .issuerIr => ["issuer_press"]
  | .exchangeOfficial => ["exchange_notice"]
  | .fredAlfred => ["fred_observations", "alfred_observations"]
  | .treasury => ["fiscal_dataset"]
  | .bls => ["bls_series"]
  | .bea => ["bea_data"]
  | .eia => ["eia_route"]
  | .tavily => ["tavily_search"]
  | .gdelt => ["gdelt_doc"]
  | .yfinance => ["yahoo_chart"]

/-! ### Records -/

/-- The values a record is built from; its hash is derived. -/
structure RecordBody where
  recordId : String
  family : P4SourceFamily
  endpointId : String
  contentHash : Hash
  retrievedAt : UtcTimestamp
  payload : List (String × Json)
  materialClaim : Bool
  schemaVersion : SchemaVersion := ⟨"1.0.0"⟩
  observationAt : Option UtcTimestamp := none
  publishedAt : Option UtcTimestamp := none
  availableAt : Option UtcTimestamp := none
  effectiveAt : Option UtcTimestamp := none
  vintage : Option (String × String) := none
  supersedesContentHash : Option Hash := none
  coverageWarning : Option String := none

namespace RecordBody

def instant (t : Option UtcTimestamp) : Json := t.elim .null (fun t => .str t.text)

/-- `wire` -/
def wire (b : RecordBody) : Json :=
  .obj [("record_id", .str b.recordId), ("family", .str b.family.value), ("endpoint_id", .str b.endpointId),
    ("schema_version", .str b.schemaVersion.value), ("content_hash", .str b.contentHash.text),
    ("retrieved_at", .str b.retrievedAt.text), ("role", .str (roleOf b.family).value),
    ("coverage", .str (coverageOf b.family)), ("rights", .str (rightsOf b.family)),
    ("producer_version", .str "p4a.adapters.v1"), ("payload", .obj b.payload),
    ("material_claim", .bool b.materialClaim), ("observation_at", instant b.observationAt),
    ("published_at", instant b.publishedAt), ("available_at", instant b.availableAt),
    ("effective_at", instant b.effectiveAt),
    ("vintage", b.vintage.elim .null (fun v => .arr [.str v.1, .str v.2])),
    ("supersedes_content_hash", Screening.optional (b.supersedesContentHash.map Hash.text)),
    ("coverage_warning", Screening.optional b.coverageWarning)]

def hashDomain : String := "seven-lens.p4.source-record.v1\x00"

/-- `compute_hash` -/
def computeHash (C : Codec) (b : RecordBody) : Hash := C.sha256 (hashDomain ++ b.wire.dumps).toUTF8

/-- The class `[a-z0-9_]`. -/
def endpointIdPattern : Pattern := .between 1 64 (fun c => isLowerOrDigit c || c == '_')

/-- An optional instant of a record against its retrieval. -/
def notAfter (b : RecordBody) (name : String) (t : Option UtcTimestamp) : Except Failure Unit :=
  require (∀ s ∈ t, s ≤ b.retrievedAt) (name ++ " cannot be after retrieval")

def checkVintage (b : RecordBody) : Except Failure Unit :=
  match b.vintage with
  | none => .ok ()
  | some (first, last) =>
    match providerUtcDate first, providerUtcDate last with
    | .ok _, .ok _ => require (first ≤ last) "vintage window is inverted"
    | .error e, _ => refuse e
    | _, .error e => refuse e

/-- The warning goes with limited coverage, and only with it. -/
def checkCoverage (b : RecordBody) : Except Failure Unit :=
  if b.family = .alpacaIexQuotes then
    require (∃ w ∈ b.coverageWarning, w ≠ "") "IEX records require the mandatory coverage warning"
  else require (b.coverageWarning = none) "coverage warning applies only to limited-coverage records"

/-- `__post_init__`, for a payload that is canonical and a hash that was computed. -/
def postInit (b : RecordBody) : Except Failure Unit := do
  require (recordIdPattern.fullmatch b.recordId = true) "record_id is not a canonical record identifier"
  require (endpointIdPattern.fullmatch b.endpointId = true) "endpoint_id is not a sanitized identifier"
  require (b.endpointId ∈ endpointIds b.family) "endpoint_id is not registered for the source family"
  b.notAfter "observation_at" b.observationAt
  b.notAfter "published_at" b.publishedAt
  b.notAfter "available_at" b.availableAt
  b.notAfter "effective_at" b.effectiveAt
  b.checkVintage
  require (b.supersedesContentHash ≠ some b.contentHash) "superseded content hash is invalid"
  require (¬ (roleOf b.family ∈ [SourceRole.discovery, SourceRole.researchSupplement] ∧ b.materialClaim = true))
    "discovery and supplement records can never be material"
  b.checkCoverage

theorem postInit_ok {b : RecordBody} (h : b.postInit = .ok ()) :
    recordIdPattern.fullmatch b.recordId = true ∧ (∀ t ∈ b.availableAt, t ≤ b.retrievedAt) ∧
      b.supersedesContentHash ≠ some b.contentHash := by
  simp only [postInit, notAfter, bind_ok, require_ok, exists_const] at h
  obtain ⟨hid, -, -, -, -, havailable, -, _, -, hsupersedes, -⟩ := h
  exact ⟨hid, havailable, hsupersedes⟩

end RecordBody

/-- `_build_normalized_record`: the hash is computed from the content. -/
def buildNormalizedRecord (C : Codec) (b : RecordBody) : Except Failure NormalizedSourceRecord := do
  expect (isCanonicalPayload b.payload = true) "normalized payload is not canonical JSON"
  match h : b.postInit with
  | .error e => .error e
  | .ok () =>
    return { recordId := b.recordId, family := b.family, contentHash := b.contentHash,
             recordHash := b.computeHash C, retrievedAt := b.retrievedAt, availableAt := b.availableAt,
             supersedesContentHash := b.supersedesContentHash, payload := b.wire.dumps,
             id_ok := (RecordBody.postInit_ok h).1, available_ok := (RecordBody.postInit_ok h).2.1,
             supersedes_ok := (RecordBody.postInit_ok h).2.2 }

theorem buildNormalizedRecord_ok_iff {C : Codec} {b : RecordBody} :
    (∃ record, buildNormalizedRecord C b = .ok record) ↔ isCanonicalPayload b.payload = true ∧ b.postInit = .ok () := by
  unfold buildNormalizedRecord
  constructor
  · rintro ⟨record, h⟩
    obtain ⟨_, hpayload, h⟩ := bind_ok.mp h
    refine ⟨expect_ok.mp hpayload, ?_⟩
    split at h
    · cases h
    · assumption
  · rintro ⟨hpayload, hinit⟩
    rw [expect, requireOr, if_pos hpayload]
    simp only [bind, Except.bind]
    split
    · rename_i herr
      rw [hinit] at herr
      cases herr
    · exact ⟨_, rfl⟩

/-- A record has the text and the hash of the values it was built from. -/
theorem buildNormalizedRecord_fields {C : Codec} {b : RecordBody} {record : NormalizedSourceRecord}
    (h : buildNormalizedRecord C b = .ok record) :
    record.payload = b.wire.dumps ∧ record.recordHash = b.computeHash C ∧ record.retrievedAt = b.retrievedAt ∧
      record.supersedesContentHash = b.supersedesContentHash := by
  obtain ⟨_, -, h⟩ := bind_ok.mp h
  split at h
  · cases h
  · cases h
    exact ⟨rfl, rfl, rfl, rfl⟩

end SevenLens.Sources
