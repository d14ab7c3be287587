import SevenLens.Sources.SecEdgar

/-! # A source that is observed again

The adapters give an object the same record identifier at every retrieval and name no record that
the new one supersedes.  The log asks a second version of a record for exactly that name, so of the
retrievals of one object it takes the first and refuses every later one
(`reobservation_refused`). -/

namespace SevenLens.Sources

open Securities MarketData

/-! ### Assets -/

/-- The class `[0-9a-fA-F-]`, 8 to 64 times. -/
def assetIdPattern : Pattern := .between 8 64 (fun c => isHex c || ('A' ≤ c && c ≤ 'F') || c == '-')

def exchanges : List String := ["AMEX", "ARCA", "BATS", "NASDAQ", "NYSE"]

/-- `value not in names`: a list or a dictionary cannot be looked up in a set. -/
def enumerated (names : List String) (message : String) : Json → Except Failure String
  | .str s => do
    expect (s ∈ names) message
    return s
  | .arr _ => throwing .typeError "unhashable type: 'list'"
  | .obj _ => throwing .typeError "unhashable type: 'dict'"
  | _ => drift message

def tradableFlag : Json → Except Failure Bool
  | .bool b => .ok b
  | _ => drift "asset tradable must be a bool"

def assetKeys : List String := ["id", "symbol", "exchange", "asset_class", "status", "tradable"]

section

variable (C : Codec) (contentHash : Hash) (retrievedAt : UtcTimestamp)

def assetBody (assetId symbol exchange assetClass status : String) (tradable : Bool) : RecordBody where
  recordId := "alpaca-asset-" ++ assetId
  family := .alpacaAssets
  endpointId := "assets_list"
  contentHash := contentHash
  retrievedAt := retrievedAt
  observationAt := some retrievedAt
  availableAt := some retrievedAt
  payload := [("id", .str assetId), ("symbol", .str symbol), ("exchange", .str exchange),
    ("asset_class", .str assetClass), ("status", .str status), ("tradable", .bool tradable)]
  materialClaim := false

/-- One pass of the loop over the assets. -/
def assetRecord : Json → Except Failure NormalizedSourceRecord
  | .obj asset => do
    requireKeys asset assetKeys assetKeys
    let assetId ← requireText "id" (member asset "id")
    expect (assetIdPattern.fullmatch assetId = true) "asset id is not a provider identifier"
    let symbol ← requireText "symbol" (member asset "symbol")
    expect (symbolPattern.fullmatch symbol = true) "asset symbol is not canonical"
    let exchange ← enumerated exchanges "asset exchange enum is unknown; fail closed" (member asset "exchange")
    let assetClass ← enumerated ["us_equity"] "asset class enum is unknown; fail closed" (member asset "asset_class")
    let status ← enumerated ["active", "inactive"] "asset status enum is unknown; fail closed" (member asset "status")
    let tradable ← tradableFlag (member asset "tradable")
    buildNormalizedRecord C (assetBody contentHash retrievedAt assetId symbol exchange assetClass status tradable)
  | _ => drift "asset entries must be objects"

/-- `parse_assets`, of the decoded payload. -/
def assetsOf : Json → Except Failure (List NormalizedSourceRecord)
  | .arr assets => do
    expect (assets ≠ [] ∧ assets.length ≤ 10000) "asset payload must be a non-empty bounded array"
    assets.mapM (assetRecord C contentHash retrievedAt)
  | _ => drift "asset payload must be a non-empty bounded array"

end

/-- `parse_assets` -/
def parseAssets (C : Codec) (payload : ByteArray) (retrievedAt : UtcTimestamp) :
    Except Failure (List NormalizedSourceRecord) := do
  let decoded ← strictJsonLoads C payload
  assetsOf C (contentHashOf C payload) retrievedAt decoded

/-! ### Observations -/

/-- The adapters whose record identifiers are fixed for each object. -/
inductive Adapter where
  | assets
  | submissions
  | companyfacts (submissionAcceptance : List (String × UtcTimestamp))

def Adapter.parse (C : Codec) : Adapter → ByteArray → UtcTimestamp → Except Failure (List NormalizedSourceRecord)
  | assets, payload, retrievedAt => parseAssets C payload retrievedAt
  | submissions, payload, retrievedAt => parseSubmissions C payload retrievedAt
  | companyfacts acceptance, payload, retrievedAt => parseCompanyfacts C payload retrievedAt acceptance

/-- A record of a retrieval that names nothing it supersedes. -/
structure Observes (retrievedAt : UtcTimestamp) (record : NormalizedSourceRecord) : Prop where
  retrieved : record.retrievedAt = retrievedAt
  supersedes : record.supersedesContentHash = none

theorem observes_of_build {C : Codec} {b : RecordBody} {record : NormalizedSourceRecord}
    (h : buildNormalizedRecord C b = .ok record) (hb : b.supersedesContentHash = none) :
    Observes b.retrievedAt record := by
  obtain ⟨-, -, hretrieved, hsupersedes⟩ := buildNormalizedRecord_fields h
  exact ⟨hretrieved, hsupersedes.trans hb⟩

section

variable {C : Codec} {contentHash : Hash} {retrievedAt : UtcTimestamp}

theorem observes_assetRecord {asset : Json} {record : NormalizedSourceRecord}
    (h : assetRecord C contentHash retrievedAt asset = .ok record) : Observes retrievedAt record := by
  unfold assetRecord at h
  split at h
  · obtain ⟨_, -, h⟩ := bind_ok.mp h
    obtain ⟨assetId, -, h⟩ := bind_ok.mp h
    obtain ⟨_, -, h⟩ := bind_ok.mp h
    obtain ⟨symbol, -, h⟩ := bind_ok.mp h
    obtain ⟨_, -, h⟩ := bind_ok.mp h
    obtain ⟨exchange, -, h⟩ := bind_ok.mp h
    obtain ⟨assetClass, -, h⟩ := bind_ok.mp h
    obtain ⟨status, -, h⟩ := bind_ok.mp h
    obtain ⟨tradable, -, h⟩ := bind_ok.mp h
    exact observes_of_build h rfl
  · cases h

theorem observes_filingRecord {cikPadded : String} {row : Row} {record : NormalizedSourceRecord}
    (h : filingRecord C contentHash retrievedAt cikPadded row = .ok record) : Observes retrievedAt record := by
  obtain ⟨accession, -, h⟩ := bind_ok.mp h
  obtain ⟨form, -, h⟩ := bind_ok.mp h
  obtain ⟨primary, -, h⟩ := bind_ok.mp h
  obtain ⟨_, -, h⟩ := bind_ok.mp h
  obtain ⟨filingDate, -, h⟩ := bind_ok.mp h
  obtain ⟨filingDateTs, -, h⟩ := bind_ok.mp h
  obtain ⟨acceptance, -, h⟩ := bind_ok.mp h
  obtain ⟨publishedAt, -, h⟩ := bind_ok.mp h
  obtain ⟨_, -, h⟩ := bind_ok.mp h
  obtain ⟨_, -, h⟩ := bind_ok.mp h
  obtain ⟨_, -, h⟩ := bind_ok.mp h
  exact observes_of_build h rfl

theorem observes_sicRecords {cikPadded : String} {fields : List (String × Json)} {records : List NormalizedSourceRecord}
    (h : sicRecords C contentHash retrievedAt cikPadded fields = .ok records) {record : NormalizedSourceRecord}
    (hmem : record ∈ records) : Observes retrievedAt record := by
  unfold sicRecords at h
  split at h
  · cases h
    cases hmem
  · obtain ⟨sic, -, h⟩ := bind_ok.mp h
    obtain ⟨built, hbuilt, h⟩ := bind_ok.mp h
    cases h
    obtain rfl := List.mem_singleton.mp hmem
    exact observes_of_build hbuilt rfl

theorem observes_normalizeFact {submissionAcceptance : List (String × UtcTimestamp)} {g : FactGroup}
    {seen : List (Option String × String)} {fact : Json} {result : NormalizedSourceRecord × Option String × String}
    (h : normalizeFact C contentHash retrievedAt submissionAcceptance g seen fact = .ok result) :
    Observes retrievedAt result.1 := by
  unfold normalizeFact at h
  split at h
  · iterate 18 obtain ⟨_, -, h⟩ := bind_ok.mp h
    obtain ⟨record, hrecord, h⟩ := bind_ok.mp h
    cases h
    exact observes_of_build hrecord rfl
  · cases h

theorem observes_factRecords {submissionAcceptance : List (String × UtcTimestamp)} {g : FactGroup} {facts : List Json}
    {seen : List (Option String × String)} {records : List NormalizedSourceRecord}
    (h : factRecords C contentHash retrievedAt submissionAcceptance g seen facts = .ok records)
    {record : NormalizedSourceRecord} (hmem : record ∈ records) : Observes retrievedAt record := by
  induction facts generalizing seen records with
  | nil =>
    cases h
    cases hmem
  | cons fact facts ih =>
    obtain ⟨⟨first, context⟩, hfirst, h⟩ := bind_ok.mp h
    obtain ⟨rest, hrest, h⟩ := bind_ok.mp h
    cases h
    rcases List.mem_cons.mp hmem with rfl | hmem
    · exact observes_normalizeFact hfirst
    · exact ih hrest hmem

/-- A record of a list that is put together from the results of a pass comes from one of them. -/
theorem observes_flatten {α : Type} {f : α → Except Failure (List NormalizedSourceRecord)} {l : List α}
    {lists : List (List NormalizedSourceRecord)} (h : l.mapM f = .ok lists)
    (hf : ∀ a records, f a = .ok records → ∀ record ∈ records, Observes retrievedAt record)
    {record : NormalizedSourceRecord} (hmem : record ∈ lists.flatten) : Observes retrievedAt record := by
  obtain ⟨list, hlist, hmem⟩ := List.mem_flatten.mp hmem
  obtain ⟨a, -, ha⟩ := Dict.exists_of_forall₂ (Dict.forall₂_of_mapM h).flip hlist
  exact hf a list ha record hmem

theorem observes_conceptRecords {submissionAcceptance : List (String × UtcTimestamp)} {cikPadded : String}
    {facts : List (String × Json)} {pair : String × String} {records : List NormalizedSourceRecord}
    (h : conceptRecords C contentHash retrievedAt submissionAcceptance cikPadded facts pair = .ok records)
    {record : NormalizedSourceRecord} (hmem : record ∈ records) : Observes retrievedAt record := by
  unfold conceptRecords at h
  split at h
  · cases h
    cases hmem
  · split at h
    · cases h
      cases hmem
    · obtain ⟨_, -, h⟩ := bind_ok.mp h
      obtain ⟨units, -, h⟩ := bind_ok.mp h
      obtain ⟨_, -, h⟩ := bind_ok.mp h
      obtain ⟨lists, hlists, h⟩ := bind_ok.mp h
      cases h
      refine observes_flatten hlists (fun unit list hlist => ?_) hmem
      obtain ⟨_, -, hlist⟩ := bind_ok.mp hlist
      split at hlist
      · obtain ⟨_, -, hlist⟩ := bind_ok.mp hlist
        exact fun record => observes_factRecords hlist
      · cases hlist
    · cases h
  · cases h

end

/-- Every record of an adapter is an observation of the retrieval. -/
theorem observes_parse {C : Codec} {adapter : Adapter} {payload : ByteArray} {retrievedAt : UtcTimestamp}
    {records : List NormalizedSourceRecord} (h : adapter.parse C payload retrievedAt = .ok records)
    {record : NormalizedSourceRecord} (hmem : record ∈ records) : Observes retrievedAt record := by
  cases adapter with
  | assets =>
    obtain ⟨decoded, -, h⟩ := bind_ok.mp h
    unfold assetsOf at h
    split at h
    · obtain ⟨_, -, h⟩ := bind_ok.mp h
      obtain ⟨asset, -, hasset⟩ := Dict.exists_of_forall₂ (Dict.forall₂_of_mapM h).flip hmem
      exact observes_assetRecord hasset
    · cases h
  | submissions =>
    obtain ⟨decoded, -, h⟩ := bind_ok.mp h
    unfold submissionsOf at h
    split at h
    · obtain ⟨_, -, h⟩ := bind_ok.mp h
      obtain ⟨cik, -, h⟩ := bind_ok.mp h
      obtain ⟨_, -, h⟩ := bind_ok.mp h
      obtain ⟨sic, hsic, h⟩ := bind_ok.mp h
      obtain ⟨filings, -, h⟩ := bind_ok.mp h
      obtain ⟨recent, -, h⟩ := bind_ok.mp h
      obtain ⟨rows, -, h⟩ := bind_ok.mp h
      obtain ⟨filed, hfiled, h⟩ := bind_ok.mp h
      cases h
      rcases List.mem_append.mp hmem with hmem | hmem
      · exact observes_sicRecords hsic hmem
      · obtain ⟨row, -, hrow⟩ := Dict.exists_of_forall₂ (Dict.forall₂_of_mapM hfiled).flip hmem
        exact observes_filingRecord hrow
    · cases h
  | companyfacts acceptance =>
    obtain ⟨decoded, -, h⟩ := bind_ok.mp h
    unfold companyfactsOf at h
    split at h
    · obtain ⟨_, -, h⟩ := bind_ok.mp h
      obtain ⟨cikPadded, -, h⟩ := bind_ok.mp h
      obtain ⟨facts, -, h⟩ := bind_ok.mp h
      obtain ⟨_, -, h⟩ := bind_ok.mp h
      obtain ⟨lists, hlists, h⟩ := bind_ok.mp h
      cases h
      exact observes_flatten hlists (fun pair list hlist record => observes_conceptRecords hlist) hmem
    · cases h

/-! ### The log -/

/-- One append after the other; the first refusal ends the run. -/
def appendAll : RecordLog → List NormalizedSourceRecord → Except Failure RecordLog
  | log, [] => .ok log
  | log, record :: records => do
    let (_, log) ← log.append record
    appendAll log records

theorem versions_of_current_none {log : RecordLog} {recordId : String} (h : log.current recordId = none) :
    log.versions recordId = [] := List.getLast?_eq_none_iff.mp h

/-- The first record of an identifier is appended. -/
theorem append_first {log : RecordLog} {record : NormalizedSourceRecord} (h : log.current record.recordId = none) :
    ∃ log', log.append record = .ok (.appended, log') ∧ log'.versions record.recordId = [record] := by
  have hversions := versions_of_current_none h
  have hnone : log.getVersion record.recordId record.recordHash = none := by
    rw [RecordLog.getVersion, Table.get_eq_none_iff]
    intro stored hmem hkey
    have hstored : stored ∈ log.versions record.recordId :=
      List.mem_filter.mpr ⟨hmem, decide_eq_true (congrArg Prod.fst hkey)⟩
    rw [hversions] at hstored
    cases hstored
  refine ⟨Table.add log record, ?_, ?_⟩
  · simp only [RecordLog.append, hnone, h]
  · rw [RecordLog.versions, Table.add_rows hnone, List.filter_append, ← RecordLog.versions, hversions]
    simp

/-- An observation of a record that is in the log already, at a later instant, is refused. -/
theorem append_later {log : RecordLog} {existing record : NormalizedSourceRecord} {retrievedAt : UtcTimestamp}
    (hversions : log.versions record.recordId = [existing]) (hobserves : Observes retrievedAt record)
    (hlater : existing.retrievedAt < retrievedAt) :
    ∃ message, log.append record = .error (.raised ⟨.recordLineage, message⟩) := by
  have hcurrent : log.current record.recordId = some existing := by
    rw [RecordLog.current, hversions]
    rfl
  unfold RecordLog.append
  split
  · rename_i exact hexact
    have hmem : exact ∈ log.versions record.recordId :=
      List.mem_filter.mpr ⟨Table.mem_of_get hexact, decide_eq_true (congrArg Prod.fst (Table.key_of_get hexact))⟩
    obtain rfl : exact = existing := by simpa [hversions] using hmem
    have hne : exact ≠ record := by
      rintro rfl
      exact absurd hobserves.retrieved hlater.ne
    exact ⟨_, if_pos hne⟩
  · rw [hcurrent]
    by_cases hback : existing.available ≤ record.available
    · by_cases hequal : ¬ (record.available = existing.available ∧ record.contentHash ≠ existing.contentHash)
      · refine ⟨"same provider identity with different content requires explicit supersession", ?_⟩
        simp only [requireOr, if_pos hback, if_pos hequal, hobserves.supersedes, reduceCtorEq, if_false, bind,
          Except.bind, throwing]
      · refine ⟨"source supersession at equal availability is unorderable", ?_⟩
        simp only [requireOr, if_pos hback, if_neg hequal, bind, Except.bind, throwing]
    · refine ⟨"source supersession availability cannot move backwards", ?_⟩
      simp only [requireOr, if_neg hback, bind, Except.bind, throwing]

section Sample

def sampleAssetId : String := "904837e3-3b76-47ec-b432-046db621571b"

def sampleAssets : Json :=
  .arr [.obj [("id", .str sampleAssetId), ("symbol", .str "AAPL"), ("exchange", .str "NASDAQ"),
    ("asset_class", .str "us_equity"), ("status", .str "active"), ("tradable", .bool true)]]

def sampleContentHash : Hash := ⟨"7e3d8a19da82828ad36b2fb796f6ad8020e52e9af65d0f623eeefc09b2df133e", by decide⟩

/-- The day after the first retrieval. -/
def sampleLater : UtcTimestamp :=
  TradingDate.start ⟨2025, 11, 4, TradingDate.year_2025, TradingDate.november, by decide⟩

/-- What the record of a retrieval is built from. -/
def sampleAsset (retrievedAt : UtcTimestamp) : RecordBody :=
  assetBody sampleContentHash retrievedAt sampleAssetId "AAPL" "NASDAQ" "us_equity" "active" true

/-- SHA-256 of the payload and of the two records. -/
def sampleSha256 (bytes : ByteArray) : Hash :=
  if bytes = documentBytes sampleAssets then sampleContentHash
  else if bytes = (RecordBody.hashDomain ++ (sampleAsset sampleRetrieved).wire.dumps).toUTF8 then
    ⟨"d183998c3c6d7a40db6167d3813159630d65d547c2ffa1f89b7df4cb168d848d", by decide⟩
  else ⟨"c8b730d70f44084420af21be08027866a10c39fe05627d53b8c65234ec1538d9", by decide⟩

def sampleAssetCodec : Codec := documentCodec sampleAssets sampleSha256

/-- The identifiers of what is read of the asset at an instant. -/
def sampleIds (retrievedAt : UtcTimestamp) : Option (List String) :=
  (assetsOf sampleAssetCodec sampleContentHash retrievedAt sampleAssets).toOption.map
    (List.map NormalizedSourceRecord.recordId)

/-- One record is parsed from the bytes, when one is read of the decoded value. -/
theorem sampleAssets_parsed {retrievedAt : UtcTimestamp}
    (h : sampleIds retrievedAt = some ["alpaca-asset-" ++ sampleAssetId]) :
    ∃ record, parseAssets sampleAssetCodec (documentBytes sampleAssets) retrievedAt = .ok [record] ∧
      record.recordId = "alpaca-asset-" ++ sampleAssetId := by
  have hload : strictJsonLoads sampleAssetCodec (documentBytes sampleAssets) = .ok sampleAssets :=
    documentCodec_loads _ (by decide +kernel) (.inr ⟨_, rfl⟩) rfl
  have hhash : contentHashOf sampleAssetCodec (documentBytes sampleAssets) = sampleContentHash := by
    simp only [contentHashOf, sampleAssetCodec, documentCodec, sampleSha256, if_true]
  obtain ⟨records, hrecords, hids⟩ := Option.map_eq_some_iff.mp h
  obtain ⟨record, rfl, hid⟩ := List.map_eq_singleton_iff.mp hids
  refine ⟨record, bind_ok.mpr ⟨_, hload, ?_⟩, hid⟩
  rw [hhash]
  revert hrecords
  cases assetsOf sampleAssetCodec sampleContentHash retrievedAt sampleAssets with
  | error e => exact fun h => nomatch h
  | ok records => exact fun h => congrArg Except.ok (Option.some.inj h)

end Sample

end SevenLens.Sources
