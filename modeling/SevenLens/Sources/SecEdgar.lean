import SevenLens.Library.Dict
import SevenLens.Securities.Eligibility
import SevenLens.Sources.Records

/-! # The SEC adapter

`parseSubmissions` reads the filing history of an issuer, `parseCompanyfacts` its reported facts.
Both check accession numbers and form types, each with its own grammar.  One row that deviates
refuses a whole payload.  A form with a slash is a form of a fact and no form of a submission
(`submissions_readable_iff`). -/

namespace SevenLens.Sources

open Securities MarketData

/-! ### The grammars -/

def cikPattern : Pattern := .between 1 10 isDigit

def accessionPattern : Pattern :=
  .cat [.between 10 10 isDigit, .lit "-", .between 2 2 isDigit, .lit "-", .between 6 6 isDigit]

def formPattern : Pattern := .cat [.cls isAlnum, .upTo 19 (fun c => isAlnum c || c == '-')]

def formFactPattern : Pattern := .cat [.cls isAlnum, .upTo 19 (fun c => isAlnum c || c == '/' || c == '-')]

def sicPattern : Pattern := .between 1 4 isDigit

def quarterPattern : Pattern := .cat [.lit "Q", .cls (fun c => '1' ≤ c && c ≤ '4')]

def fiscalPeriodPattern : Pattern := .alt quarterPattern (.lit "FY")

def framePattern : Pattern :=
  .cat [.lit "CY", .between 4 4 isDigit, .alt .eps (.alt (.cat [quarterPattern, .upTo 1 (· == 'I')]) (.lit "I"))]

/-- `text.zfill(width)` of a text of digits. -/
def zfill (width : Nat) (text : String) : String := String.ofList (List.replicate (width - text.length) '0') ++ text

/-- A text that matches a grammar, or a departure from the schema. -/
def matching (pattern : Pattern) (message : String) : Json → Except Failure String
  | .str s => do
    expect (pattern.fullmatch s = true) message
    return s
  | _ => drift message

theorem matching_ok {pattern : Pattern} {message : String} {value : Json} {s : String} :
    matching pattern message value = .ok s ↔ value = .str s ∧ pattern.fullmatch s = true := by
  unfold matching
  split
  · rename_i text
    simp only [bind_ok, expect_ok, exists_const, pure, Except.pure, Except.ok.injEq, Json.str.injEq]
    constructor
    · rintro ⟨h, rfl⟩
      exact ⟨rfl, h⟩
    · rintro ⟨rfl, h⟩
      exact ⟨h, rfl⟩
  · rename_i hno
    constructor
    · intro h
      cases h
    · rintro ⟨h, -⟩
      exact (hno s h).elim

/-! ### Submissions -/

/-- One filing of the recent ones: an entry of each of the parallel arrays. -/
structure Row where
  accession : Json
  form : Json
  primary : Json
  filingDate : Json
  acceptance : Json

/-- A value that has to be text. -/
def textOr (message : String) : Json → Except Failure String
  | .str s => .ok s
  | _ => drift message

/-- `parse_provider_timestamp` of the acceptance time. -/
def acceptanceTime (text : String) : Except Failure UtcTimestamp :=
  match parseProviderTimestamp text with
  | .ok t => .ok t
  | .error _ => drift "acceptance time is not canonical"

section Submissions

variable (C : Codec) (contentHash : Hash) (retrievedAt : UtcTimestamp)

/-- The record of a filing. -/
def filingBody (cikPadded accession form primary filingDate : String) (publishedAt : UtcTimestamp) : RecordBody where
  recordId := "sec-filing-" ++ accession
  family := .secEdgar
  endpointId := "submissions"
  contentHash := contentHash
  retrievedAt := retrievedAt
  publishedAt := some publishedAt
  payload := [("cik_padded", .str cikPadded), ("accession_number", .str accession), ("form", .str form),
    ("primary_document", .str primary), ("filing_date", .str filingDate)]
  materialClaim := false

/-- One pass of the loop over the accession numbers. -/
def filingRecord (cikPadded : String) (row : Row) : Except Failure NormalizedSourceRecord := do
  let accession ← matching accessionPattern "accession number is not canonical" row.accession
  let form ← matching formPattern "form type is not canonical" row.form
  let primary ← textOr "primary document must be text" row.primary
  expect (primary ≠ "") "primary document must be text"
  let filingDate ← textOr "filing date must be text" row.filingDate
  let filingDateTs ← requireDate "filing date" row.filingDate
  let acceptance ← textOr "acceptance time must be text" row.acceptance
  let publishedAt ← acceptanceTime acceptance
  expect (filingDateTs ≤ retrievedAt) "filing date is after retrieval"
  expect (filingDateTs ≤ publishedAt) "acceptance time precedes filing date"
  expect (slice 10 accession = cikPadded) "filing accession does not match the submission cik"
  buildNormalizedRecord C (filingBody contentHash retrievedAt cikPadded accession form primary filingDate publishedAt)

/-- One of the parallel arrays. -/
def column (recent : List (String × Json)) (name : String) : Except Failure (List Json) :=
  match member recent name with
  | .arr items => do
    expect (items.length ≤ 1000) "filings.recent arrays exceed the bound"
    return items
  | _ => drift ("filings.recent." ++ name ++ " must be an array")

/-- `str(item)`.  Only texts pass the check that follows, so the text of any other item is not
Python's: it only has to differ where the items do. -/
def itemText : Json → String
  | .str s => s
  | value => value.dumps

def recentColumns : List String := ["accessionNumber", "filingDate", "acceptanceDateTime", "form", "primaryDocument"]

/-- The filings of `filings.recent`. -/
def recentRows (recent : List (String × Json)) : Except Failure (List Row) := do
  requireKeys recent recentColumns recentColumns
  let accessions ← column recent "accessionNumber"
  let filingDates ← column recent "filingDate"
  let acceptances ← column recent "acceptanceDateTime"
  let forms ← column recent "form"
  let primaries ← column recent "primaryDocument"
  expect ((∀ n ∈ [filingDates.length, acceptances.length, forms.length, primaries.length], n = accessions.length) ∧
    accessions ≠ []) "filings.recent parallel arrays must be equally sized"
  expect ((accessions.map itemText).Nodup) "filings.recent accessions must be unique"
  return (accessions.zip (filingDates.zip (acceptances.zip (forms.zip primaries)))).map
    (fun x => ⟨x.1, x.2.2.2.1, x.2.2.2.2, x.2.1, x.2.2.1⟩)

/-- The observation of the industry code, when there is one. -/
def sicBody (cikPadded sic : String) : RecordBody where
  recordId := "sec-sic-" ++ cikPadded
  family := .secEdgar
  endpointId := "submissions"
  contentHash := contentHash
  retrievedAt := retrievedAt
  observationAt := some retrievedAt
  availableAt := some retrievedAt
  payload := [("cik_padded", .str cikPadded), ("sic", .str (zfill 4 sic))]
  materialClaim := false

def sicRecords (cikPadded : String) (fields : List (String × Json)) : Except Failure (List NormalizedSourceRecord) :=
  match fields.lookup "sic" with
  | none => .ok []
  | some value => do
    let sic ← matching sicPattern "top-level sic must be 1-4 digit numeric text" value
    let record ← buildNormalizedRecord C (sicBody contentHash retrievedAt cikPadded sic)
    return [record]

/-- `filings["recent"]` -/
def recentOf (filings : List (String × Json)) : Except Failure (List (String × Json)) :=
  match filings.lookup "recent" with
  | none => drift "filings.recent is missing"
  | some (.obj recent) => .ok recent
  | some _ => drift "filings.recent must be an object"

/-- `parse_submissions`, of the decoded payload. -/
def submissionsOf : Json → Except Failure (List NormalizedSourceRecord)
  | .obj fields => do
    requireKeys fields ["cik", "filings"] ["cik", "entityType", "sic", "name", "filings"]
    let cik ← requireText "cik" (member fields "cik")
    expect (cikPattern.fullmatch cik = true) "cik must be numeric text"
    let sic ← sicRecords C contentHash retrievedAt (zfill 10 cik) fields
    let filings ← requireDict "filings" (member fields "filings")
    let recent ← recentOf filings
    let rows ← recentRows recent
    let records ← rows.mapM (filingRecord C contentHash retrievedAt (zfill 10 cik))
    return sic ++ records
  | _ => drift "submissions payload must be an object"

end Submissions

/-- `parse_submissions` -/
def parseSubmissions (C : Codec) (payload : ByteArray) (retrievedAt : UtcTimestamp) :
    Except Failure (List NormalizedSourceRecord) := do
  let decoded ← strictJsonLoads C payload
  submissionsOf C (contentHashOf C payload) retrievedAt decoded

/-! ### Facts -/

/-- The approved pairs of taxonomy and concept, sorted. -/
def conceptAllowlist : List (String × String) :=
  [("dei", "EntityCommonStockSharesOutstanding"), ("us-gaap", "Assets"),
    ("us-gaap", "NetCashProvidedByUsedInOperatingActivities"), ("us-gaap", "NetIncomeLoss"),
    ("us-gaap", "PaymentsToAcquirePropertyPlantAndEquipment")]

def capexConcept : String := "PaymentsToAcquirePropertyPlantAndEquipment"

def instantConcepts : List String := ["Assets", "EntityCommonStockSharesOutstanding"]

def factIdDomain : String := "seven-lens.p4.sec-companyfact-id.v1\x00"

section Facts

variable (C : Codec) (contentHash : Hash) (retrievedAt : UtcTimestamp) (submissionAcceptance : List (String × UtcTimestamp))

/-- `_fact_record_id` -/
def factRecordId (cikPadded taxonomy concept unit : String) (start : Option String) (end_ accession : String) : String :=
  let identity := Json.obj [("cik", .str cikPadded), ("taxonomy", .str taxonomy), ("concept", .str concept),
    ("unit", .str unit), ("start", Screening.optional start), ("end", .str end_), ("accession", .str accession)]
  "sec-fact-" ++ concept ++ "-" ++ slice 16 (C.sha256 (factIdDomain ++ identity.dumps).toUTF8).text

/-- The group of facts that is read. -/
structure FactGroup where
  cikPadded : String
  taxonomy : String
  concept : String
  unitKey : String

/-- The optional texts of a fact: its unit is that of the group, its frame one of the concept's kind. -/
def checkOptional (g : FactGroup) (fact : List (String × Json)) : Except Failure (Option String) := do
  match fact.lookup "unit" with
  | none => .ok ()
  | some value => do
    let unit ← textOr "fact unit conflicts with its unit group" value
    expect (unit = g.unitKey) "fact unit conflicts with its unit group"
  for name in ["frame", "avg"] do
    match fact.lookup name with
    | none => .ok ()
    | some value => do
      let _ ← textOr (name ++ " must be text") value
  match fact.lookup "frame" with
  | none => return none
  | some value => do
    let frame ← matching framePattern "fact frame is not a canonical SEC calendar frame" value
    expect ((g.concept ∈ instantConcepts) ↔ frame.toList.getLast? = some 'I')
      "fact frame instant/duration semantics conflict with the concept"
    return some frame

/-- The exact value of a fact. -/
def factValue (g : FactGroup) : Json → Except Failure Int
  | .int value => do
    expect (¬ (g.concept = capexConcept ∧ value < 0))
      "CapEx must be a non-negative cash-outflow value; unknown sign fails closed"
    return value
  | _ => drift "fact value must be an exact integer (no bool/float/NaN)"

/-- The start of a period, when there is one. -/
def factStart (fact : List (String × Json)) (endTs : UtcTimestamp) : Except Failure (Option String) :=
  match fact.lookup "start" with
  | none => .ok none
  | some value => do
    let startTs ← requireDate "start" value
    let start ← textOr "start must be date text" value
    expect (startTs < endTs) "fact period start must precede its end"
    return some start

def fiscalYear : Json → Except Failure Int
  | .int year => do
    expect (1000 ≤ year ∧ year ≤ 9999) "fiscal year must be a bounded integer"
    return year
  | _ => drift "fiscal year must be a bounded integer"

/-- The time from which the filing of a fact is available. -/
def factAcceptance (accession : String) : Except Failure UtcTimestamp :=
  match submissionAcceptance.lookup accession with
  | none => drift "fact accession does not close against an accepted submission"
  | some acceptance => do
    expect (acceptance ≤ retrievedAt) "fact acceptance is after retrieval (future availability)"
    return acceptance

/-- `_normalize_fact`: the record, and the context that is seen from now on. -/
def normalizeFact (g : FactGroup) (seenContexts : List (Option String × String)) :
    Json → Except Failure (NormalizedSourceRecord × Option String × String)
  | .obj fact => do
    requireKeys fact ["end", "val", "fy", "fp", "form", "filed", "accn"]
      ["end", "val", "fy", "fp", "form", "filed", "accn", "start", "unit", "frame", "avg"]
    let frame ← checkOptional g fact
    let value ← factValue g (member fact "val")
    let endTs ← requireDate "end" (member fact "end")
    let endText ← textOr "end must be date text" (member fact "end")
    let start ← factStart fact endTs
    expect ((g.concept ∈ instantConcepts) ↔ start = none) "fact period shape conflicts with instant/duration concept"
    let filedTs ← requireDate "filed" (member fact "filed")
    let filed ← textOr "filed must be date text" (member fact "filed")
    let year ← fiscalYear (member fact "fy")
    let period ← matching fiscalPeriodPattern "fiscal period must be Q1..Q4 or FY" (member fact "fp")
    let form ← matching formFactPattern "fact form is not canonical" (member fact "form")
    let accession ← matching accessionPattern "fact accession number is not canonical" (member fact "accn")
    expect (slice 10 accession = g.cikPadded) "fact accession does not match the companyfacts cik"
    expect ((start, endText) ∉ seenContexts) "duplicate fact context within one concept unit"
    let acceptance ← factAcceptance retrievedAt submissionAcceptance accession
    expect (endTs ≤ retrievedAt) "fact period end is after retrieval"
    expect (filedTs ≤ retrievedAt) "fact filed date is after retrieval"
    let record ← buildNormalizedRecord C
      { recordId := factRecordId C g.cikPadded g.taxonomy g.concept g.unitKey start endText accession
        family := .secEdgar
        endpointId := "companyfacts"
        contentHash := contentHash
        retrievedAt := retrievedAt
        observationAt := some endTs
        publishedAt := some filedTs
        availableAt := some acceptance
        payload := [("cik_padded", .str g.cikPadded), ("taxonomy", .str g.taxonomy), ("concept", .str g.concept),
          ("unit", .str g.unitKey), ("value", .str (toString value)), ("start", Screening.optional start),
          ("end", .str endText), ("fiscal_year", .int year), ("fiscal_period", .str period), ("form", .str form),
          ("accession", .str accession), ("filed", .str filed), ("frame", Screening.optional frame),
          ("consolidation_scope", .str "entire_filing_entity")] ++
          (if g.concept = capexConcept then [("sign_convention", .str "positive_cash_outflow_provider_value")] else [])
        materialClaim := false }
    return (record, start, endText)
  | _ => drift "fact entries must be objects"

/-- The facts of one unit, with the contexts already seen. -/
def factRecords (g : FactGroup) : List (Option String × String) → List Json → Except Failure (List NormalizedSourceRecord)
  | _, [] => .ok []
  | seen, fact :: facts => do
    let (record, context) ← normalizeFact C contentHash retrievedAt submissionAcceptance g seen fact
    let records ← factRecords g (context :: seen) facts
    return record :: records

def unitRecords (cikPadded taxonomy concept : String) (unit : String × Json) :
    Except Failure (List NormalizedSourceRecord) := do
  expect (unit.1 ≠ "") "unit key must be non-empty text"
  match unit.2 with
  | .arr facts => do
    expect (facts.length ≤ 1000) "unit facts exceed the per-unit bound"
    factRecords C contentHash retrievedAt submissionAcceptance ⟨cikPadded, taxonomy, concept, unit.1⟩ [] facts
  | _ => drift "unit facts must be an array"

/-- The facts of one concept; a taxonomy or a concept that is absent or null has none. -/
def conceptRecords (cikPadded : String) (facts : List (String × Json)) (pair : String × String) :
    Except Failure (List NormalizedSourceRecord) :=
  match member facts pair.1 with
  | .null => .ok []
  | .obj taxonomyNode =>
    match member taxonomyNode pair.2 with
    | .null => .ok []
    | .obj conceptNode => do
      requireKeys conceptNode ["units"] ["units", "label", "description"]
      let units ← requireDict "units" (member conceptNode "units")
      expect (units ≠ []) "concept units must be a non-empty object"
      let records ← units.mapM (unitRecords C contentHash retrievedAt submissionAcceptance cikPadded pair.1 pair.2)
      return records.flatten
    | _ => drift ("facts." ++ pair.1 ++ "." ++ pair.2 ++ " must be an object")
  | _ => drift ("facts." ++ pair.1 ++ " must be an object")

/-- A taxonomy of the payload carries approved concepts only. -/
def checkTaxonomy (taxonomy : String × Json) : Except Failure Unit := do
  expect (taxonomy.1 ∈ conceptAllowlist.map Prod.fst) "companyfacts carries an unknown taxonomy"
  match taxonomy.2 with
  | .obj node => node.forM (fun concept => expect ((taxonomy.1, concept.1) ∈ conceptAllowlist)
      ("companyfacts carries a non-allowlisted concept: " ++ taxonomy.1 ++ "." ++ concept.1))
  | _ => drift ("facts." ++ taxonomy.1 ++ " must be an object")

def companyCik : Json → Except Failure String
  | .int cik => do
    expect (0 < cik ∧ cik < 10000000000) "companyfacts cik must be a bounded positive integer"
    return zfill 10 (toString cik)
  | _ => drift "companyfacts cik must be a bounded positive integer"

/-- `parse_companyfacts`, of the decoded payload. -/
def companyfactsOf : Json → Except Failure (List NormalizedSourceRecord)
  | .obj fields => do
    requireKeys fields ["cik", "facts"] ["cik", "entityName", "facts"]
    let cikPadded ← companyCik (member fields "cik")
    let facts ← requireDict "facts" (member fields "facts")
    facts.forM checkTaxonomy
    let records ← conceptAllowlist.mapM
      (conceptRecords C contentHash retrievedAt submissionAcceptance cikPadded facts)
    return records.flatten
  | _ => drift "companyfacts payload must be an object"

end Facts

/-- `parse_companyfacts` -/
def parseCompanyfacts (C : Codec) (payload : ByteArray) (retrievedAt : UtcTimestamp)
    (submissionAcceptance : List (String × UtcTimestamp)) : Except Failure (List NormalizedSourceRecord) := do
  let decoded ← strictJsonLoads C payload
  companyfactsOf C (contentHashOf C payload) retrievedAt submissionAcceptance decoded

/-! ### What the two parsers accept -/

/-- A form of a submission, as a first character and what follows it. -/
theorem formPattern_iff {form : String} : formPattern.fullmatch form = true ↔
    ∃ c l, form.toList = c :: l ∧ isAlnum c = true ∧ l.length ≤ 19 ∧ ∀ d ∈ l, (isAlnum d || d == '-') = true :=
  Pattern.fullmatch_cls_upTo

/-- Of the forms of facts, those of submissions are the ones without a slash. -/
theorem formPattern_iff_of_fact {form : String} (h : formFactPattern.fullmatch form = true) :
    formPattern.fullmatch form = true ↔ '/' ∉ form.toList := by
  obtain ⟨c, l, hform, hc, hlen, hl⟩ := Pattern.fullmatch_cls_upTo.mp h
  rw [formPattern_iff, hform]
  constructor
  · rintro ⟨c', l', heq, -, -, hplain⟩ hslash
    obtain ⟨rfl, rfl⟩ := List.cons.inj heq
    rcases List.mem_cons.mp hslash with rfl | hslash
    · exact absurd hc (by decide)
    · exact absurd (hplain '/' hslash) (by decide)
  · intro hslash
    refine ⟨c, l, rfl, hc, hlen, fun d hd => ?_⟩
    have hne : d ≠ '/' := fun he => hslash (he ▸ List.mem_cons_of_mem c hd)
    simpa [hne] using hl d hd

theorem plainChar_of_form {c : Char} (h : (isAlnum c || c == '-') = true) : Json.PlainChar c := by
  have hnat : 65 ≤ c.toNat ∧ c.toNat ≤ 90 ∨ 97 ≤ c.toNat ∧ c.toNat ≤ 122 ∨ 48 ≤ c.toNat ∧ c.toNat ≤ 57 ∨
      c.toNat = 45 := by
    simp only [isAlnum, isUpper, isLowerOrDigit, Bool.or_eq_true, Bool.and_eq_true, decide_eq_true_eq, beq_iff_eq,
      Char.le_def, UInt32.le_iff_toNat_le] at h
    rcases h with (h | h | h) | rfl
    · exact .inl h
    · exact .inr (.inl h)
    · exact .inr (.inr (.inl h))
    · exact .inr (.inr (.inr rfl))
  have hquote : c ≠ Char.ofNat 34 := by
    rintro rfl
    revert hnat
    decide
  have hback : c ≠ Json.backslash := by
    rintro rfl
    revert hnat
    decide
  exact ⟨by omega, by omega, hquote, hback⟩

/-- A form of a submission is written as it is, and no bound of a payload is below its length. -/
theorem form_text {form : String} (h : formPattern.fullmatch form = true) :
    storableText 16384 form = true ∧ (Json.quote form).utf8ByteSize = form.length + 2 := by
  obtain ⟨c, l, hform, hc, hlen, hl⟩ := formPattern_iff.mp h
  have hplain : ∀ d ∈ form.toList, Json.PlainChar d := by
    rw [hform]
    exact List.forall_mem_cons.mpr ⟨plainChar_of_form (by simp [hc]), fun d hd => plainChar_of_form (hl d hd)⟩
  have hlength : form.length ≤ 20 := by
    rw [← String.length_toList, hform, List.length_cons]
    omega
  have hnul : hasNul form = false := by
    rw [hasNul, ← Bool.not_eq_true, List.contains_iff_mem]
    intro hmem
    exact absurd (hplain _ hmem).1 (by decide)
  obtain ⟨hbytes, hsize⟩ := Json.utf8ByteSize_quote_of_plain hplain
  refine ⟨?_, hbytes⟩
  rw [storableText, hnul, hsize]
  simp only [Bool.not_false, Bool.true_and, decide_eq_true_eq]
  omega

/-- Between forms of one length a payload stays canonical. -/
theorem isCanonicalPayload_form {contentHash : Hash} {retrievedAt publishedAt : UtcTimestamp}
    {cikPadded accession form other primary filingDate : String} (hform : formPattern.fullmatch form = true)
    (hother : formPattern.fullmatch other = true) (hlen : other.length = form.length)
    (h : isCanonicalPayload
      (filingBody contentHash retrievedAt cikPadded accession other primary filingDate publishedAt).payload = true) :
    isCanonicalPayload
      (filingBody contentHash retrievedAt cikPadded accession form primary filingDate publishedAt).payload = true := by
  obtain ⟨htext, hbytes⟩ := form_text hform
  obtain ⟨htext', hbytes'⟩ := form_text hother
  rw [isCanonicalPayload_iff] at h ⊢
  obtain ⟨hstorable, hnodes, hsize⟩ := h
  refine ⟨?_, hnodes, ?_⟩
  · simpa [filingBody, storable, storableFields, htext, htext'] using hstorable
  · simpa only [filingBody, Json.bytes, Json.bytesFields, List.length_cons, hbytes, hbytes', hlen] using hsize

/-- A row that is accepted with some form is accepted with every form of the same length. -/
theorem filingRecord_form {C : Codec} {contentHash : Hash} {retrievedAt : UtcTimestamp} {cikPadded form other : String}
    {row : Row} (hform : formPattern.fullmatch form = true) (hlen : other.length = form.length)
    (h : ∃ record, filingRecord C contentHash retrievedAt cikPadded { row with form := .str other } = .ok record) :
    ∃ record, filingRecord C contentHash retrievedAt cikPadded { row with form := .str form } = .ok record := by
  obtain ⟨record, h⟩ := h
  obtain ⟨accession, haccession, h⟩ := bind_ok.mp h
  obtain ⟨other', hother, h⟩ := bind_ok.mp h
  obtain ⟨heq, hother⟩ := matching_ok.mp hother
  obtain rfl : other = other' := by simpa using heq
  obtain ⟨primary, hprimary, h⟩ := bind_ok.mp h
  obtain ⟨_, hnonempty, h⟩ := bind_ok.mp h
  obtain ⟨filingDate, hdate, h⟩ := bind_ok.mp h
  obtain ⟨filingDateTs, hdateTs, h⟩ := bind_ok.mp h
  obtain ⟨acceptance, hacceptance, h⟩ := bind_ok.mp h
  obtain ⟨publishedAt, hpublished, h⟩ := bind_ok.mp h
  obtain ⟨_, hretrieved, h⟩ := bind_ok.mp h
  obtain ⟨_, hprecedes, h⟩ := bind_ok.mp h
  obtain ⟨_, hcik, h⟩ := bind_ok.mp h
  obtain ⟨hpayload, hinit⟩ := buildNormalizedRecord_ok_iff.mp ⟨record, h⟩
  have hmatch : matching formPattern "form type is not canonical" (.str form) = .ok form :=
    matching_ok.mpr ⟨rfl, hform⟩
  obtain ⟨built, hbuilt⟩ : ∃ built, buildNormalizedRecord C
      (filingBody contentHash retrievedAt cikPadded accession form primary filingDate publishedAt) = .ok built :=
    buildNormalizedRecord_ok_iff.mpr ⟨isCanonicalPayload_form hform hother hlen hpayload, hinit⟩
  refine ⟨built, ?_⟩
  simp only [filingRecord, haccession, hmatch, hprimary, hnonempty, hdate, hdateTs, hacceptance, hpublished,
    hretrieved, hprecedes, hcik, hbuilt, bind, Except.bind]

/-! ### Acceptance of a submissions payload -/

theorem column_ok {recent : List (String × Json)} {name : String} {items : List Json} :
    column recent name = .ok items ↔ member recent name = .arr items ∧ items.length ≤ 1000 := by
  unfold column
  split
  · rename_i stored hstored
    simp only [bind_ok, expect_ok, exists_const, pure, Except.pure, Except.ok.injEq, hstored, Json.arr.injEq]
    constructor
    · rintro ⟨h, rfl⟩
      exact ⟨rfl, h⟩
    · rintro ⟨rfl, h⟩
      exact ⟨h, rfl⟩
  · rename_i hno
    constructor
    · intro h
      cases h
    · rintro ⟨h, -⟩
      exact (hno items h).elim

/-- The rows of parallel arrays. -/
def rowsOf (accessions filingDates acceptances forms primaries : List Json) : List Row :=
  (accessions.zip (filingDates.zip (acceptances.zip (forms.zip primaries)))).map
    (fun x => ⟨x.1, x.2.2.2.1, x.2.2.2.2, x.2.1, x.2.2.1⟩)

theorem mem_rowsOf {accessions filingDates acceptances forms primaries : List Json} {row : Row} :
    row ∈ rowsOf accessions filingDates acceptances forms primaries ↔
      ∃ j : Nat, accessions[j]? = some row.accession ∧ filingDates[j]? = some row.filingDate ∧
        acceptances[j]? = some row.acceptance ∧ forms[j]? = some row.form ∧ primaries[j]? = some row.primary := by
  rw [rowsOf, List.mem_map]
  constructor
  · rintro ⟨x, hx, rfl⟩
    obtain ⟨j, hj⟩ := List.mem_iff_getElem?.mp hx
    simp only [List.getElem?_zip_eq_some] at hj
    exact ⟨j, hj⟩
  · rintro ⟨j, hj⟩
    refine ⟨(row.accession, row.filingDate, row.acceptance, row.form, row.primary), List.mem_iff_getElem?.mpr ⟨j, ?_⟩, rfl⟩
    simpa only [List.getElem?_zip_eq_some] using hj

/-- What `filings.recent` has to be, its rows apart. -/
structure Recent (recent : List (String × Json)) (accessions filingDates acceptances forms primaries : List Json) :
    Prop where
  keys : requireKeys recent recentColumns recentColumns = .ok ()
  accessions_ok : column recent "accessionNumber" = .ok accessions
  filingDates_ok : column recent "filingDate" = .ok filingDates
  acceptances_ok : column recent "acceptanceDateTime" = .ok acceptances
  forms_ok : column recent "form" = .ok forms
  primaries_ok : column recent "primaryDocument" = .ok primaries
  sizes : (∀ n ∈ [filingDates.length, acceptances.length, forms.length, primaries.length], n = accessions.length) ∧
    accessions ≠ []
  unique : (accessions.map itemText).Nodup

theorem recentRows_ok {recent : List (String × Json)} {rows : List Row} :
    recentRows recent = .ok rows ↔ ∃ accessions filingDates acceptances forms primaries,
      Recent recent accessions filingDates acceptances forms primaries ∧
        rows = rowsOf accessions filingDates acceptances forms primaries := by
  constructor
  · intro h
    obtain ⟨_, hkeys, h⟩ := bind_ok.mp h
    obtain ⟨accessions, haccessions, h⟩ := bind_ok.mp h
    obtain ⟨filingDates, hdates, h⟩ := bind_ok.mp h
    obtain ⟨acceptances, hacceptances, h⟩ := bind_ok.mp h
    obtain ⟨forms, hforms, h⟩ := bind_ok.mp h
    obtain ⟨primaries, hprimaries, h⟩ := bind_ok.mp h
    obtain ⟨_, hsizes, h⟩ := bind_ok.mp h
    obtain ⟨_, hunique, h⟩ := bind_ok.mp h
    cases h
    exact ⟨accessions, filingDates, acceptances, forms, primaries, ⟨hkeys, haccessions, hdates, hacceptances, hforms,
      hprimaries, expect_ok.mp hsizes, expect_ok.mp hunique⟩, rfl⟩
  · rintro ⟨accessions, filingDates, acceptances, forms, primaries, hrecent, rfl⟩
    simp only [recentRows, hrecent.keys, hrecent.accessions_ok, hrecent.filingDates_ok, hrecent.acceptances_ok, hrecent.forms_ok,
      hrecent.primaries_ok, expect, requireOr, if_pos hrecent.sizes, if_pos hrecent.unique, bind, Except.bind, pure,
      Except.pure, rowsOf]

/-- What a submissions payload has to be, its rows apart. -/
structure Envelope (C : Codec) (contentHash : Hash) (retrievedAt : UtcTimestamp) (fields : List (String × Json))
    (cik : String) (recent : List (String × Json)) : Prop where
  keys : requireKeys fields ["cik", "filings"] ["cik", "entityType", "sic", "name", "filings"] = .ok ()
  cik_text : member fields "cik" = .str cik
  cik_ok : cikPattern.fullmatch cik = true
  sic : ∃ records, sicRecords C contentHash retrievedAt (zfill 10 cik) fields = .ok records
  filings : ∃ filings, member fields "filings" = .obj filings ∧ filings.lookup "recent" = some (.obj recent)

theorem recentOf_ok {filings recent : List (String × Json)} :
    recentOf filings = .ok recent ↔ filings.lookup "recent" = some (.obj recent) := by
  unfold recentOf
  split
  · rename_i hnone
    simp [hnone, drift, throwing]
  · rename_i stored hstored
    simp [hstored]
  · rename_i stored hno hstored
    constructor
    · intro h
      cases h
    · intro h
      rw [hstored, Option.some.injEq] at h
      exact (hno recent h).elim

theorem requireText_ok {field s : String} {value : Json} : requireText field value = .ok s ↔ value = .str s := by
  cases value <;> simp [requireText, drift, throwing]

theorem requireDict_ok {field : String} {value : Json} {fields : List (String × Json)} :
    requireDict field value = .ok fields ↔ value = .obj fields := by
  cases value <;> simp [requireDict, drift, throwing]

/-- A payload is accepted exactly when its envelope and each of its rows is. -/
theorem submissionsOf_accepts_iff {C : Codec} {contentHash : Hash} {retrievedAt : UtcTimestamp}
    {fields : List (String × Json)} :
    (∃ records, submissionsOf C contentHash retrievedAt (.obj fields) = .ok records) ↔
      ∃ cik recent rows, Envelope C contentHash retrievedAt fields cik recent ∧ recentRows recent = .ok rows ∧
        ∀ row ∈ rows, ∃ record, filingRecord C contentHash retrievedAt (zfill 10 cik) row = .ok record := by
  constructor
  · rintro ⟨records, h⟩
    obtain ⟨_, hkeys, h⟩ := bind_ok.mp h
    obtain ⟨cik, hcik, h⟩ := bind_ok.mp h
    obtain ⟨_, hpattern, h⟩ := bind_ok.mp h
    obtain ⟨sic, hsic, h⟩ := bind_ok.mp h
    obtain ⟨filings, hfilings, h⟩ := bind_ok.mp h
    obtain ⟨recent, hrecent, h⟩ := bind_ok.mp h
    obtain ⟨rows, hrows, h⟩ := bind_ok.mp h
    obtain ⟨filed, hfiled, -⟩ := bind_ok.mp h
    refine ⟨cik, recent, rows, ⟨hkeys, requireText_ok.mp hcik, expect_ok.mp hpattern, ⟨sic, hsic⟩, filings,
      requireDict_ok.mp hfilings, recentOf_ok.mp hrecent⟩, hrows, fun row hrow => ?_⟩
    obtain ⟨record, -, hrecord⟩ := Dict.exists_of_forall₂ (Dict.forall₂_of_mapM hfiled) hrow
    exact ⟨record, hrecord⟩
  · rintro ⟨cik, recent, rows, ⟨hkeys, hcik, hpattern, ⟨sic, hsic⟩, filings, hfilings, hrecent⟩, hrows, hall⟩
    obtain ⟨filed, hfiled⟩ := Dict.exists_mapM hall
    have hcik' : requireText "cik" (member fields "cik") = .ok cik := requireText_ok.mpr hcik
    have hfilings' : requireDict "filings" (member fields "filings") = .ok filings := requireDict_ok.mpr hfilings
    have hrecent' : recentOf filings = .ok recent := recentOf_ok.mpr hrecent
    refine ⟨sic ++ filed, ?_⟩
    simp only [submissionsOf, hkeys, hcik', expect, requireOr, if_pos hpattern, hsic, hfilings', hrecent', hrows,
      hfiled, bind, Except.bind, pure, Except.pure]

/-! ### Facts that are accepted -/

/-- The decoded payload of facts carries a fact with the accession number and the form. -/
def FactListed (decoded : Json) (accession form : String) : Prop :=
  ∃ fields facts pair taxonomyNode conceptNode units unitKey items fact,
    decoded = .obj fields ∧ member fields "facts" = .obj facts ∧ pair ∈ conceptAllowlist ∧
      member facts pair.1 = .obj taxonomyNode ∧ member taxonomyNode pair.2 = .obj conceptNode ∧
        member conceptNode "units" = .obj units ∧ (unitKey, Json.arr items) ∈ units ∧ Json.obj fact ∈ items ∧
          member fact "accn" = .str accession ∧ member fact "form" = .str form

/-- `parse_companyfacts` accepts the accession number with the form on a fact of some payload. -/
def FactAccepted (accession form : String) : Prop :=
  ∃ C payload retrievedAt submissionAcceptance decoded records, strictJsonLoads C payload = .ok decoded ∧
    parseCompanyfacts C payload retrievedAt submissionAcceptance = .ok records ∧ FactListed decoded accession form

section Facts

variable {C : Codec} {contentHash : Hash} {retrievedAt : UtcTimestamp}
  {submissionAcceptance : List (String × UtcTimestamp)}

theorem form_of_normalizeFact {g : FactGroup} {seen : List (Option String × String)} {fact : List (String × Json)}
    {result : NormalizedSourceRecord × Option String × String} {form : String}
    (h : normalizeFact C contentHash retrievedAt submissionAcceptance g seen (.obj fact) = .ok result)
    (hform : member fact "form" = .str form) : formFactPattern.fullmatch form = true := by
  obtain ⟨_, -, h⟩ := bind_ok.mp h
  obtain ⟨frame, -, h⟩ := bind_ok.mp h
  obtain ⟨value, -, h⟩ := bind_ok.mp h
  obtain ⟨endTs, -, h⟩ := bind_ok.mp h
  obtain ⟨endText, -, h⟩ := bind_ok.mp h
  obtain ⟨start, -, h⟩ := bind_ok.mp h
  obtain ⟨_, -, h⟩ := bind_ok.mp h
  obtain ⟨filedTs, -, h⟩ := bind_ok.mp h
  obtain ⟨filed, -, h⟩ := bind_ok.mp h
  obtain ⟨year, -, h⟩ := bind_ok.mp h
  obtain ⟨period, -, h⟩ := bind_ok.mp h
  obtain ⟨form', hmatch, h⟩ := bind_ok.mp h
  obtain ⟨heq, hpattern⟩ := matching_ok.mp hmatch
  obtain rfl : form = form' := by simpa [hform] using heq
  exact hpattern

/-- Every fact of a unit is normalized. -/
theorem normalizeFact_of_factRecords {g : FactGroup} {facts : List Json} {seen : List (Option String × String)}
    {records : List NormalizedSourceRecord}
    (h : factRecords C contentHash retrievedAt submissionAcceptance g seen facts = .ok records) {fact : Json}
    (hmem : fact ∈ facts) :
    ∃ seen result, normalizeFact C contentHash retrievedAt submissionAcceptance g seen fact = .ok result := by
  induction facts generalizing seen records with
  | nil => cases hmem
  | cons head facts ih =>
    obtain ⟨⟨record, context⟩, hhead, h⟩ := bind_ok.mp h
    obtain ⟨rest, hrest, -⟩ := bind_ok.mp h
    rcases List.mem_cons.mp hmem with rfl | hmem
    · exact ⟨seen, _, hhead⟩
    · exact ih hrest hmem

theorem factRecords_of_conceptRecords {cikPadded unitKey : String}
    {facts taxonomyNode conceptNode units : List (String × Json)} {pair : String × String} {items : List Json}
    {records : List NormalizedSourceRecord}
    (h : conceptRecords C contentHash retrievedAt submissionAcceptance cikPadded facts pair = .ok records)
    (htaxonomy : member facts pair.1 = .obj taxonomyNode) (hconcept : member taxonomyNode pair.2 = .obj conceptNode)
    (hunits : member conceptNode "units" = .obj units) (hitems : (unitKey, Json.arr items) ∈ units) :
    ∃ records, factRecords C contentHash retrievedAt submissionAcceptance ⟨cikPadded, pair.1, pair.2, unitKey⟩ [] items =
      .ok records := by
  simp only [conceptRecords, htaxonomy, hconcept, hunits, requireDict] at h
  obtain ⟨_, -, h⟩ := bind_ok.mp h
  obtain ⟨units', hunits', h⟩ := bind_ok.mp h
  cases hunits'
  obtain ⟨_, -, h⟩ := bind_ok.mp h
  obtain ⟨lists, hlists, -⟩ := bind_ok.mp h
  obtain ⟨list, -, hlist⟩ := Dict.exists_of_forall₂ (Dict.forall₂_of_mapM hlists) hitems
  obtain ⟨_, -, hlist⟩ := bind_ok.mp hlist
  obtain ⟨_, -, hlist⟩ := bind_ok.mp hlist
  exact ⟨list, hlist⟩

end Facts

theorem formFactPattern_of_factAccepted {accession form : String} (h : FactAccepted accession form) :
    formFactPattern.fullmatch form = true := by
  obtain ⟨C, payload, retrievedAt, submissionAcceptance, decoded, records, hload, hparse, hlisted⟩ := h
  obtain ⟨fields, facts, pair, taxonomyNode, conceptNode, units, unitKey, items, fact, rfl, hfacts, hpair, htaxonomy,
    hconcept, hunits, hitems, hfact, -, hform⟩ := hlisted
  obtain ⟨decoded', hload', hparse⟩ := bind_ok.mp hparse
  obtain rfl : Json.obj fields = decoded' := by simpa [hload] using hload'
  obtain ⟨_, -, h⟩ := bind_ok.mp hparse
  obtain ⟨cikPadded, -, h⟩ := bind_ok.mp h
  obtain ⟨facts', hfacts', h⟩ := bind_ok.mp h
  obtain rfl : facts = facts' := by simpa [hfacts] using requireDict_ok.mp hfacts'
  obtain ⟨_, -, h⟩ := bind_ok.mp h
  obtain ⟨lists, hlists, -⟩ := bind_ok.mp h
  obtain ⟨list, -, hlist⟩ := Dict.exists_of_forall₂ (Dict.forall₂_of_mapM hlists) hpair
  obtain ⟨_, hrecords⟩ := factRecords_of_conceptRecords hlist htaxonomy hconcept hunits hitems
  obtain ⟨seen, result, hnormal⟩ := normalizeFact_of_factRecords hrecords hfact
  exact form_of_normalizeFact hnormal hform

/-! ### A payload with another form -/

def onDict (f : List (String × Json) → List (String × Json)) : Json → Json
  | .obj fields => .obj (f fields)
  | value => value

def onList (f : List Json → List Json) : Json → Json
  | .arr items => .arr (f items)
  | value => value

/-- The columns of recent filings with another form in one row. -/
def recentWithForm (i : Nat) (form : String) (recent : List (String × Json)) : List (String × Json) :=
  Dict.modify recent "form" (onList (fun forms => forms.set i (.str form)))

/-- The decoded payload with another form in one row. -/
def withForm (i : Nat) (form : String) (fields : List (String × Json)) : List (String × Json) :=
  Dict.modify fields "filings" (onDict (fun filings => Dict.modify filings "recent" (onDict (recentWithForm i form))))

/-- The decoded payload lists the accession number with the form, in row `i`. -/
def Lists (fields : List (String × Json)) (i : Nat) (accession form : String) : Prop :=
  ∃ filings recent accessions forms, member fields "filings" = .obj filings ∧
    filings.lookup "recent" = some (.obj recent) ∧ member recent "accessionNumber" = .arr accessions ∧
      member recent "form" = .arr forms ∧ accessions[i]? = some (.str accession) ∧ forms[i]? = some (.str form)

theorem requireKeys_congr {fields fields' : List (String × Json)} (h : fields.map Prod.fst = fields'.map Prod.fst)
    (required allowed : List String) : requireKeys fields required allowed = requireKeys fields' required allowed := by
  unfold requireKeys
  rw [h]

theorem member_modify_of_ne (fields : List (String × Json)) {name name' : String} (h : name' ≠ name) (f : Json → Json) :
    member (Dict.modify fields name f) name' = member fields name' := by
  rw [member, member, Dict.lookup_modify, if_neg h]

theorem member_of_ne_null {fields : List (String × Json)} {name : String} {value : Json} (h : member fields name = value)
    (hne : value ≠ .null) : fields.lookup name = some value := by
  unfold member at h
  cases hl : fields.lookup name with
  | none =>
    rw [hl] at h
    exact (hne h.symm).elim
  | some v =>
    rw [hl] at h
    exact congrArg some h

theorem member_modify_self {fields : List (String × Json)} {name : String} {value : Json}
    (h : member fields name = value) (hne : value ≠ .null) (f : Json → Json) :
    member (Dict.modify fields name f) name = f value := by
  rw [member, Dict.lookup_modify, if_pos rfl, member_of_ne_null h hne]
  rfl

/-- The columns with another form are those of the payload, the forms apart. -/
theorem recent_of_withForm {recent : List (String × Json)} {i : Nat} {other : String}
    {accessions filingDates acceptances forms forms' primaries : List Json}
    (hforms : member recent "form" = .arr forms)
    (h : Recent (recentWithForm i other recent) accessions filingDates acceptances forms' primaries) :
    Recent recent accessions filingDates acceptances forms primaries ∧ forms' = forms.set i (.str other) := by
  have hsame : ∀ name, name ≠ "form" → column (recentWithForm i other recent) name = column recent name := by
    intro name hname
    rw [column, column, recentWithForm, member_modify_of_ne recent hname]
  have hset : forms' = forms.set i (.str other) := by
    have hmember := (column_ok.mp h.forms_ok).1
    rw [recentWithForm, member_modify_self hforms (by simp)] at hmember
    exact (Json.arr.inj hmember).symm
  have hlength : forms'.length = forms.length := by rw [hset, List.length_set]
  refine ⟨⟨?_, ?_, ?_, ?_, ?_, ?_, ?_, h.unique⟩, hset⟩
  · rw [← h.keys]
    exact (requireKeys_congr (Dict.keys_modify recent "form" _) _ _).symm
  · rw [← hsame _ (by decide), h.accessions_ok]
  · rw [← hsame _ (by decide), h.filingDates_ok]
  · rw [← hsame _ (by decide), h.acceptances_ok]
  · refine column_ok.mpr ⟨hforms, ?_⟩
    rw [← hlength]
    exact (column_ok.mp h.forms_ok).2
  · rw [← hsame _ (by decide), h.primaries_ok]
  · rw [← hlength]
    exact h.sizes

theorem envelope_of_withForm {C : Codec} {contentHash : Hash} {retrievedAt : UtcTimestamp}
    {fields filings recent recent' : List (String × Json)} {i : Nat} {other cik : String}
    (hfilings : member fields "filings" = .obj filings) (hrecent : filings.lookup "recent" = some (.obj recent))
    (h : Envelope C contentHash retrievedAt (withForm i other fields) cik recent') :
    Envelope C contentHash retrievedAt fields cik recent ∧ recent' = recentWithForm i other recent := by
  refine ⟨⟨?_, ?_, h.cik_ok, ?_, filings, hfilings, hrecent⟩, ?_⟩
  · rw [← h.keys]
    exact (requireKeys_congr (Dict.keys_modify fields "filings" _) _ _).symm
  · rw [← h.cik_text, withForm, member_modify_of_ne fields (by decide)]
  · have hsic := h.sic
    rwa [sicRecords, withForm, Dict.lookup_modify, if_neg (by decide), ← sicRecords] at hsic
  · obtain ⟨filings', hfilings', hrecent'⟩ := h.filings
    rw [withForm, member_modify_self hfilings (by simp)] at hfilings'
    obtain rfl := Json.obj.inj hfilings'
    rw [Dict.lookup_modify, if_pos rfl, hrecent, Option.map_some, Option.some.injEq] at hrecent'
    exact (Json.obj.inj hrecent').symm

/-- Each form of the column has a row. -/
theorem exists_row {recent : List (String × Json)} {accessions filingDates acceptances forms primaries : List Json}
    (h : Recent recent accessions filingDates acceptances forms primaries) {i : Nat} {form : Json}
    (hform : forms[i]? = some form) :
    ∃ row ∈ rowsOf accessions filingDates acceptances forms primaries, row.form = form := by
  obtain ⟨hi, -⟩ := List.getElem?_eq_some_iff.mp hform
  have hsizes := h.sizes.1
  simp only [List.mem_cons, List.not_mem_nil, or_false, forall_eq_or_imp, forall_eq] at hsizes
  obtain ⟨hdates, hacceptances, hforms, hprimaries⟩ := hsizes
  have h1 : i < accessions.length := by omega
  have h2 : i < primaries.length := by omega
  have h3 : i < filingDates.length := by omega
  have h4 : i < acceptances.length := by omega
  refine ⟨⟨accessions[i], form, primaries[i], filingDates[i], acceptances[i]⟩, mem_rowsOf.mpr ⟨i, ?_⟩, rfl⟩
  simp [hform]

/-- Each row is a row of the payload with another form in row `i`, or has its form in row `i`. -/
theorem mem_rowsOf_set {accessions filingDates acceptances forms primaries : List Json} {row : Row} {i : Nat}
    {form other : Json} (hform : forms[i]? = some form) (h : row ∈ rowsOf accessions filingDates acceptances forms primaries) :
    row ∈ rowsOf accessions filingDates acceptances (forms.set i other) primaries ∨
      row.form = form ∧
        { row with form := other } ∈ rowsOf accessions filingDates acceptances (forms.set i other) primaries := by
  obtain ⟨j, haccession, hdate, hacceptance, hrow, hprimary⟩ := mem_rowsOf.mp h
  obtain ⟨hi, -⟩ := List.getElem?_eq_some_iff.mp hform
  by_cases hij : i = j
  · subst hij
    refine .inr ⟨Option.some.inj (hrow.symm.trans hform), mem_rowsOf.mpr ⟨i, haccession, hdate, hacceptance, ?_, hprimary⟩⟩
    rw [List.getElem?_set_self hi]
  · refine .inl (mem_rowsOf.mpr ⟨j, haccession, hdate, hacceptance, ?_, hprimary⟩)
    rw [List.getElem?_set_ne hij, hrow]

/-- For every accession number and form that are accepted on a fact: a payload that lists them,
and that is accepted when the row has some form of the same length, is accepted exactly when the
form has no slash. -/
theorem submissions_readable_iff (C : Codec) (payload : ByteArray) (retrievedAt : UtcTimestamp)
    (fields : List (String × Json)) (i : Nat) (accession form : String)
    (hload : strictJsonLoads C payload = .ok (.obj fields)) (hfact : FactAccepted accession form)
    (hlists : Lists fields i accession form)
    (hother : ∃ other records, other.length = form.length ∧
      submissionsOf C (contentHashOf C payload) retrievedAt (.obj (withForm i other fields)) = .ok records) :
    (∃ records, parseSubmissions C payload retrievedAt = .ok records) ↔ '/' ∉ form.toList := by
  have hparse : parseSubmissions C payload retrievedAt =
      submissionsOf C (contentHashOf C payload) retrievedAt (.obj fields) := by
    simp only [parseSubmissions, hload, bind, Except.bind]
  obtain ⟨filings, recent, accessions, forms, hfilings, hrecent, haccessions, hforms, haccession, hform⟩ := hlists
  obtain ⟨other, records, hlen, hother⟩ := hother
  obtain ⟨cik, recent', rows', henvelope, hrows', hall⟩ := submissionsOf_accepts_iff.mp ⟨records, hother⟩
  obtain ⟨henvelope', rfl⟩ := envelope_of_withForm hfilings hrecent henvelope
  obtain ⟨accessions', filingDates, acceptances, forms', primaries, hcolumns, rfl⟩ := recentRows_ok.mp hrows'
  obtain ⟨hcolumns', rfl⟩ := recent_of_withForm hforms hcolumns
  have hrows : recentRows recent = .ok (rowsOf accessions' filingDates acceptances forms primaries) :=
    recentRows_ok.mpr ⟨_, _, _, _, _, hcolumns', rfl⟩
  rw [hparse, submissionsOf_accepts_iff, ← formPattern_iff_of_fact (formFactPattern_of_factAccepted hfact)]
  constructor
  · rintro ⟨cik', recent', rows, ⟨-, -, -, -, filings', hfilings', hrecent'⟩, hrows', hall'⟩
    obtain rfl : filings = filings' := Json.obj.inj (hfilings.symm.trans hfilings')
    obtain rfl : recent = recent' := Json.obj.inj (Option.some.inj (hrecent.symm.trans hrecent'))
    obtain rfl := Except.ok.inj (hrows.symm.trans hrows')
    obtain ⟨row, hrow, hrowForm⟩ := exists_row hcolumns' hform
    obtain ⟨record, hrecord⟩ := hall' row hrow
    obtain ⟨_, -, hrecord⟩ := bind_ok.mp hrecord
    obtain ⟨form', hmatch, -⟩ := bind_ok.mp hrecord
    obtain ⟨heq, hpattern⟩ := matching_ok.mp hmatch
    rwa [Json.str.inj (hrowForm.symm.trans heq)]
  · intro hpattern
    refine ⟨cik, recent, _, henvelope', hrows, fun row hrow => ?_⟩
    rcases mem_rowsOf_set hform hrow with hmem | ⟨hrowForm, hmem⟩
    · exact hall row hmem
    · have haccepted := filingRecord_form hpattern hlen (hall _ hmem)
      rwa [← hrowForm] at haccepted

/-! ### An amended filing -/

section Sample

def sampleAccession : String := "0000320193-25-000080"

/-- The columns of one filing. -/
def sampleRecent (form : String) : List (String × Json) :=
  [("accessionNumber", .arr [.str sampleAccession]), ("filingDate", .arr [.str "2025-11-01"]),
    ("acceptanceDateTime", .arr [.str "2025-11-01T10:00:00Z"]), ("form", .arr [.str form]),
    ("primaryDocument", .arr [.str "report.htm"])]

def sampleSubmissions (form : String) : List (String × Json) :=
  [("cik", .str "320193"), ("filings", .obj [("recent", .obj (sampleRecent form))])]

/-- One fact of the same filing. -/
def sampleFact (form : String) : List (String × Json) :=
  [("end", .str "2025-09-27"), ("val", .int 359241000000), ("fy", .int 2025), ("fp", .str "FY"), ("form", .str form),
    ("filed", .str "2025-11-01"), ("accn", .str sampleAccession)]

def sampleFacts (form : String) : List (String × Json) :=
  [("cik", .int 320193), ("facts", .obj [("us-gaap", .obj [("Assets", .obj [("units",
    .obj [("USD", .arr [.obj (sampleFact form)])])])])])]

def sampleRetrieved : UtcTimestamp :=
  TradingDate.start ⟨2025, 11, 3, TradingDate.year_2025, TradingDate.november, third_of_november⟩

def sampleHash : Hash := repeated '0' (Eq.refl true)

def submissionsDocument (form : String) : Json := .obj (sampleSubmissions form)

def factsDocument (form : String) : Json := .obj (sampleFacts form)

theorem submissionsDocument_loads (form : String) (hsize : (submissionsDocument form).bytes ≤ 4000000) :
    strictJsonLoads (documentCodec (submissionsDocument form) (fun _ => sampleHash))
      (documentBytes (submissionsDocument form)) = .ok (submissionsDocument form) := by
  refine documentCodec_loads _ ⟨?_, hsize⟩ (.inl ⟨_, rfl⟩) rfl
  rw [submissionsDocument, Json.bytes]
  omega

/-- The fact of a filing is accepted. -/
theorem sampleFact_accepted {form : String} (hsize : (factsDocument form).bytes ≤ 4000000)
    (h : (companyfactsOf (documentCodec (factsDocument form) (fun _ => sampleHash)) sampleHash sampleRetrieved
      [(sampleAccession, sampleRetrieved)] (factsDocument form)).isOk = true) : FactAccepted sampleAccession form := by
  obtain ⟨records, hrecords⟩ := exists_of_isOk h
  have hload : strictJsonLoads (documentCodec (factsDocument form) (fun _ => sampleHash))
      (documentBytes (factsDocument form)) = .ok (factsDocument form) := by
    refine documentCodec_loads _ ⟨?_, hsize⟩ (.inl ⟨_, rfl⟩) rfl
    rw [factsDocument, Json.bytes]
    omega
  refine ⟨documentCodec (factsDocument form) (fun _ => sampleHash), _, sampleRetrieved,
    [(sampleAccession, sampleRetrieved)], _, records, hload, bind_ok.mpr ⟨_, hload, hrecords⟩, ?_⟩
  exact ⟨_, _, ("us-gaap", "Assets"), _, _, _, "USD", _, sampleFact form, rfl, rfl, by decide, rfl, rfl, rfl,
    List.mem_singleton_self _, List.mem_singleton_self _, rfl, rfl⟩

theorem sampleSubmissions_lists (form : String) : Lists (sampleSubmissions form) 0 sampleAccession form :=
  ⟨_, sampleRecent form, _, _, rfl, rfl, rfl, rfl, rfl, rfl⟩

/-- What `parse_submissions` makes of the sample with one form, under the decoder of another one. -/
def sampleRead (codecForm form : String) : Except Failure (List NormalizedSourceRecord) :=
  submissionsOf (documentCodec (submissionsDocument codecForm) (fun _ => sampleHash)) sampleHash sampleRetrieved
    (submissionsDocument form)

end Sample

/-- The facts of a 10-K/A are readable, its submissions payload is not, and it would be with a
hyphen in place of the slash. -/
theorem amended_filing_unreadable :
    FactAccepted sampleAccession "10-K/A" ∧ Lists (sampleSubmissions "10-K/A") 0 sampleAccession "10-K/A" ∧
      strictJsonLoads (documentCodec (submissionsDocument "10-K/A") (fun _ => sampleHash))
        (documentBytes (submissionsDocument "10-K/A")) = .ok (.obj (sampleSubmissions "10-K/A")) ∧
      (∃ other records, other.length = "10-K/A".length ∧
        submissionsOf (documentCodec (submissionsDocument "10-K/A") (fun _ => sampleHash)) sampleHash sampleRetrieved
          (.obj (withForm 0 other (sampleSubmissions "10-K/A"))) = .ok records) ∧
      ¬ ∃ records, parseSubmissions (documentCodec (submissionsDocument "10-K/A") (fun _ => sampleHash))
        (documentBytes (submissionsDocument "10-K/A")) sampleRetrieved = .ok records := by
  have hload := submissionsDocument_loads "10-K/A" (by decide +kernel)
  refine ⟨sampleFact_accepted (by decide +kernel) (by decide +kernel), sampleSubmissions_lists _, hload, ?_, ?_⟩
  · have hyphen : (sampleRead "10-K/A" "10-K-A").isOk = true := by decide +kernel
    obtain ⟨records, hrecords⟩ := exists_of_isOk hyphen
    exact ⟨"10-K-A", records, by decide, hrecords⟩
  · rintro ⟨records, hrecords⟩
    have hfail : (sampleRead "10-K/A" "10-K/A").isOk = false := by decide +kernel
    obtain ⟨decoded, hdecoded, hrecords⟩ := bind_ok.mp hrecords
    obtain rfl : submissionsDocument "10-K/A" = decoded := Except.ok.inj (hload.symm.trans hdecoded)
    have hread : sampleRead "10-K/A" "10-K/A" = .ok records := hrecords
    rw [hread] at hfail
    cases hfail

theorem annual_filing_readable :
    ∃ records, parseSubmissions (documentCodec (submissionsDocument "10-K") (fun _ => sampleHash))
      (documentBytes (submissionsDocument "10-K")) sampleRetrieved = .ok records := by
  have hother : (sampleRead "10-K" "20-F").isOk = true := by decide +kernel
  obtain ⟨records, hrecords⟩ := exists_of_isOk hother
  exact (submissions_readable_iff _ _ _ _ 0 sampleAccession "10-K" (submissionsDocument_loads "10-K" (by decide +kernel))
    (sampleFact_accepted (by decide +kernel) (by decide +kernel)) (sampleSubmissions_lists "10-K")
    ⟨"20-F", records, by decide, hrecords⟩).mpr (by decide)

end SevenLens.Sources
