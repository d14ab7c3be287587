import SevenLens.Sources.CanonicalJson

/-! # Decisions in the database

`record_quarantine_decision` checks the wire of a decision before it stores it: its keys, the
formats of its values, its hash, and that its event identifiers and references are in the order in
which the database sorts them.  That order is the default collation of the database, and Python's is
the order of the code points.  A decision that the evaluator returned passes every check apart from
the version of a security that was not resolved and the order where the two differ
(`decision_storable_iff`). -/

namespace SevenLens.Securities

/-! ### Collations -/

/-- The order that a database puts on texts. -/
structure Collation where
  le : String → String → Prop
  decidable : DecidableRel le
  total : ∀ s t, le s t ∨ le t s
  trans : ∀ {s t u}, le s t → le t u → le s u
  antisymm : ∀ {s t}, le s t → le t s → s = t

namespace Collation

instance (C : Collation) : DecidableRel C.le := C.decidable

theorem refl (C : Collation) (s : String) : C.le s s := (C.total s s).elim id id

/-- The order of `ORDER BY a, b, c` on rows of three texts. -/
def rowLe (C : Collation) (r s : String × String × String) : Prop :=
  r.1 ≠ s.1 ∧ C.le r.1 s.1 ∨
    r.1 = s.1 ∧ (r.2.1 ≠ s.2.1 ∧ C.le r.2.1 s.2.1 ∨ r.2.1 = s.2.1 ∧ C.le r.2.2 s.2.2)

instance (C : Collation) : DecidableRel C.rowLe := fun _ _ => inferInstanceAs (Decidable (_ ∨ _))

instance (C : Collation) : Std.Total C.le := ⟨C.total⟩

instance (C : Collation) : IsTrans String C.le := ⟨fun _ _ _ => C.trans⟩

instance (C : Collation) : Std.Total C.rowLe where
  total r s := by
    by_cases h1 : r.1 = s.1
    · by_cases h2 : r.2.1 = s.2.1
      · exact (C.total r.2.2 s.2.2).imp (fun h => .inr ⟨h1, .inr ⟨h2, h⟩⟩) (fun h => .inr ⟨h1.symm, .inr ⟨h2.symm, h⟩⟩)
      · exact (C.total r.2.1 s.2.1).imp (fun h => .inr ⟨h1, .inl ⟨h2, h⟩⟩)
          (fun h => .inr ⟨h1.symm, .inl ⟨Ne.symm h2, h⟩⟩)
    · exact (C.total r.1 s.1).imp (fun h => .inl ⟨h1, h⟩) (fun h => .inl ⟨Ne.symm h1, h⟩)

/-- Two steps that go strictly up do not lead back. -/
theorem strict_trans (C : Collation) {s t u : String} (h : s ≠ t ∧ C.le s t) (k : t ≠ u ∧ C.le t u) :
    s ≠ u ∧ C.le s u := by
  refine ⟨?_, C.trans h.2 k.2⟩
  rintro rfl
  exact h.1 (C.antisymm h.2 k.2)

instance (C : Collation) : IsTrans (String × String × String) C.rowLe where
  trans r s t := by
    rintro (h | ⟨h1, h⟩) (k | ⟨k1, k⟩)
    · exact .inl (C.strict_trans h k)
    · exact .inl (k1 ▸ h)
    · exact .inl (h1.symm ▸ k)
    · refine .inr ⟨h1.trans k1, ?_⟩
      rcases h with h | ⟨h2, h⟩ <;> rcases k with k | ⟨k2, k⟩
      · exact .inl (C.strict_trans h k)
      · exact .inl (k2 ▸ h)
      · exact .inl (h2.symm ▸ k)
      · exact .inr ⟨h2.trans k2, C.trans h k⟩

/-- Rows with distinct first texts are compared by these. -/
theorem pairwise_rowLe_iff (C : Collation) {rows : List (String × String × String)} (h : (rows.map Prod.fst).Nodup) :
    rows.Pairwise C.rowLe ↔ (rows.map Prod.fst).Pairwise C.le := by
  rw [List.Nodup, List.pairwise_map] at h
  rw [List.pairwise_map]
  refine ⟨fun hrow => hrow.imp₂ ?_ h, fun hle => hle.imp₂ (fun r s hrs hne => .inl ⟨hne, hrs⟩) h⟩
  rintro r s (hrs | ⟨heq, -⟩) hne
  · exact hrs.2
  · exact absurd heq hne

end Collation

/-! ### JSON values in queries -/

/-- `j->key` -/
def arrow (j : Json) (key : String) : Option Json :=
  match j with
  | .obj fields => fields.lookup key
  | _ => none

/-- `j #>> '{}'` -/
def textOf : Json → Option String
  | .null => none
  | .str s => some s
  | j => some j.canonicalJson

/-- `j->>key` -/
def arrowText (j : Json) (key : String) : Option String := (arrow j key).bind textOf

/-- `jsonb_typeof(j) = 'string'` -/
def isString : Option Json → Bool
  | some (.str _) => true
  | _ => false

/-- The elements, if `jsonb_typeof(j) = 'array'`. -/
def elements : Option Json → Option (List Json)
  | some (.arr items) => some items
  | _ => none

/-- `SELECT count(DISTINCT text)`, which does not count nulls. -/
def countDistinct (texts : List (Option String)) : Nat := (texts.filterMap id).dedup.length

/-! ### The wire of a decision -/

def QuarantineReason.value : QuarantineReason → String
  | unknownSecurity => "UNKNOWN_SECURITY"
  | ambiguousIdentity => "AMBIGUOUS_IDENTITY"
  | symbolAsOfMismatch => "SYMBOL_AS_OF_MISMATCH"
  | identityIntervalConflict => "IDENTITY_INTERVAL_CONFLICT"
  | sourceNotYetAvailable => "SOURCE_NOT_YET_AVAILABLE"
  | staleSecurityMaster => "STALE_SECURITY_MASTER"
  | splitDetected => "SPLIT_DETECTED"
  | formalConfirmationMissing => "FORMAL_CONFIRMATION_MISSING"
  | splitRatioConflict => "SPLIT_RATIO_CONFLICT"
  | splitDateConflict => "SPLIT_DATE_CONFLICT"
  | splitIdentityConflict => "SPLIT_IDENTITY_CONFLICT"
  | sourceWithdrawnOrCorrected => "SOURCE_WITHDRAWN_OR_CORRECTED"
  | unsupportedCorporateAction => "UNSUPPORTED_CORPORATE_ACTION"
  | effectiveOrLateEventReview => "EFFECTIVE_OR_LATE_EVENT_REVIEW"
  | splitTypeConflict => "SPLIT_TYPE_CONFLICT"

def QuarantineOutcome.value : QuarantineOutcome → String
  | eligible => "ELIGIBLE"
  | entryBlocked => "ENTRY_BLOCKED"
  | reviewRequired => "REVIEW_REQUIRED"

def SourceRef.wire (ref : SourceRef) : Json :=
  .obj [("record_id", .str ref.recordId), ("family", .str ref.family.value), ("record_hash", .str ref.recordHash.text)]

namespace QuarantineDecision

def producerVersion : String := "p4b.quarantine.v1"

/-- `wire` -/
def wire (d : QuarantineDecision) : Json :=
  .obj [("security_id", .str d.securityId.value), ("symbol_as_of", .str d.symbolAsOf.value),
    ("master_version", .str d.masterVersion), ("decision_at", .str d.decisionAt.text),
    ("outcome", .str d.outcome.value), ("reasons", .arr (d.reasons.map (fun reason => .str reason.value))),
    ("event_ids", .arr (d.eventIds.map (fun eventId => .str eventId.value))),
    ("source_refs", .arr (d.sourceRefs.map SourceRef.wire)), ("producer_version", .str producerVersion)]

def hashDomain : String := "seven-lens.p4b.quarantine-decision.v1\x00"

/-- `compute_hash` -/
def computeHash (sha256 : ByteArray → Hash) (d : QuarantineDecision) : Hash :=
  sha256 (hashDomain ++ d.wire.dumps).toUTF8

end QuarantineDecision

/-! ### The checks -/

def hashPattern : Pattern := .between 64 64 isHex

def masterVersionPattern : Pattern := .cat [.lit "p4b.securities.v1:", .between 64 64 isHex]

def wireKeys : List String :=
  ["security_id", "symbol_as_of", "master_version", "decision_at", "outcome", "reasons", "event_ids", "source_refs",
    "producer_version"]

def outcomeCodes : List String := ["ELIGIBLE", "ENTRY_BLOCKED", "REVIEW_REQUIRED"]

def reasonCodes : List String :=
  ["UNKNOWN_SECURITY", "AMBIGUOUS_IDENTITY", "SYMBOL_AS_OF_MISMATCH", "IDENTITY_INTERVAL_CONFLICT",
    "SOURCE_NOT_YET_AVAILABLE", "STALE_SECURITY_MASTER", "SPLIT_DETECTED", "FORMAL_CONFIRMATION_MISSING",
    "SPLIT_RATIO_CONFLICT", "SPLIT_DATE_CONFLICT", "SPLIT_IDENTITY_CONFLICT", "SOURCE_WITHDRAWN_OR_CORRECTED",
    "UNSUPPORTED_CORPORATE_ACTION", "EFFECTIVE_OR_LATE_EVENT_REVIEW", "SPLIT_TYPE_CONFLICT"]

def familyCodes : List String :=
  ["ALPACA_ASSETS", "ALPACA_HISTORICAL_BARS", "ALPACA_IEX_QUOTES", "ALPACA_CORPORATE_ACTIONS", "SEC_EDGAR", "ISSUER_IR",
    "EXCHANGE_OFFICIAL", "FRED_ALFRED", "TREASURY", "BLS", "BEA", "EIA", "TAVILY", "GDELT", "YFINANCE"]

/-- `IF NOT p THEN RAISE EXCEPTION message` -/
def demand (p : Prop) [Decidable p] (message : String) : Except Failure Unit := requireOr .database p message

theorem demand_ok {p : Prop} [Decidable p] {message : String} {u : Unit} : demand p message = .ok u ↔ p :=
  requireOr_ok

/-- A condition on a text that a null passes. -/
def NullOr (p : String → Prop) (text : Option String) : Prop := ∀ s ∈ text, p s

instance (p : String → Prop) [DecidablePred p] (text : Option String) : Decidable (NullOr p text) :=
  inferInstanceAs (Decidable (∀ s ∈ text, p s))

/-- A text value that matches. -/
def Matching (pattern : Pattern) (j : Option Json) : Prop :=
  isString j = true ∧ ∃ s ∈ j.bind textOf, pattern.fullmatch s = true

instance (pattern : Pattern) (j : Option Json) : Decidable (Matching pattern j) := inferInstanceAs (Decidable (_ ∧ _))

/-- The keys of an object. -/
def objectKeys : Json → Option (List String)
  | .obj fields => some (fields.map Prod.fst)
  | _ => none

section

variable (C : Collation)

/-- The head of the wire: keys, producer, hash, security, version, time and outcome. -/
def checkHead (sha256 : ByteArray → Hash) (decisionHash : String) (wire : Json) : Except Failure Unit := do
  demand (hashPattern.fullmatch decisionHash = true) "decision hash must be a SHA-256 digest"
  demand ((objectKeys wire).isSome = true) "wire form must be a JSON object"
  demand (∀ keys ∈ objectKeys wire, keys.length = 9 ∧ ∀ key ∈ keys, key ∈ wireKeys)
    "quarantine decision wire keys do not match the P4-B contract"
  demand (arrowText wire "producer_version" = some QuarantineDecision.producerVersion)
    "quarantine decision wire carries an unsupported producer version"
  demand ((sha256 (QuarantineDecision.hashDomain ++ wire.canonicalJson).toUTF8).text = decisionHash)
    "quarantine decision hash does not match the canonical wire"
  demand (Matching securityIdPattern (arrow wire "security_id")) "wire form carries no canonical security id"
  demand (Matching symbolPattern (arrow wire "symbol_as_of")) "wire form carries no canonical symbol"
  demand (Matching masterVersionPattern (arrow wire "master_version")) "wire form carries no canonical master version"
  demand (isString (arrow wire "decision_at") = true) "wire form carries no decision_at"
  demand (NullOr (· ∈ outcomeCodes) (arrowText wire "outcome")) "wire form carries no closed quarantine outcome"

/-- The reasons, by the outcome. -/
def checkReasons (outcome : Option String) (reasons events refs : List Json) : Except Failure Unit := do
  demand (¬ (outcome = some "ELIGIBLE" ∧ (reasons.length ≠ 0 ∨ events.length ≠ 0 ∨ refs.length = 0)))
    "eligible quarantine decisions require source evidence and no findings"
  demand (¬ ((∃ s ∈ outcome, s ≠ "ELIGIBLE") ∧ reasons.length = 0))
    "non-eligible quarantine decisions require a closed reason"
  demand (∀ item ∈ reasons, isString (some item) = true ∧ NullOr (· ∈ reasonCodes) (textOf item))
    "quarantine reasons are not closed canonical codes"
  demand (reasons.length = countDistinct (reasons.map textOf)) "quarantine reasons must be unique"

/-- The event identifiers.  They are texts by then, so that the sorted array is compared by them. -/
def checkEvents (events : List Json) : Except Failure Unit := do
  demand (∀ item ∈ events, Matching recordIdPattern (some item)) "quarantine event ids are not canonical"
  let texts := events.filterMap textOf
  demand (texts.insertionSort C.le = texts) "quarantine event ids must be unique and sorted"

/-- One turn of the loop over the references. -/
def RefCanonical (ref : Json) : Prop :=
  (∃ keys ∈ objectKeys ref, (∀ key ∈ keys, key ∈ ["record_id", "record_hash", "family"]) ∧
      ∀ key ∈ ["record_id", "record_hash", "family"], key ∈ keys) ∧
    NullOr (recordIdPattern.fullmatch · = true) (arrowText ref "record_id") ∧
      NullOr (hashPattern.fullmatch · = true) (arrowText ref "record_hash") ∧
        NullOr (· ∈ familyCodes) (arrowText ref "family")

instance (ref : Json) : Decidable (RefCanonical ref) := inferInstanceAs (Decidable (_ ∧ _ ∧ _ ∧ _))

/-- What the references are sorted by. -/
def rowOf (ref : Json) : String × String × String :=
  ((arrowText ref "record_id").getD "", (arrowText ref "family").getD "", (arrowText ref "record_hash").getD "")

/-- The references.  They have three keys by then, so that the sorted array is compared by its rows. -/
def checkRefs (refs : List Json) : Except Failure Unit := do
  demand (∀ ref ∈ refs, RefCanonical ref) "quarantine source refs are not canonical"
  demand (refs.length = countDistinct (refs.map (arrowText · "record_id")))
    "quarantine source refs must use unique record identifiers"
  let rows := refs.map rowOf
  demand (rows.insertionSort C.rowLe = rows) "quarantine source refs must be unique and sorted"

/-- `record_quarantine_decision`, up to the first look at the tables.  The cast of the decision time
takes every text of an instant. -/
def checkWire (sha256 : ByteArray → Hash) (decisionHash : String) (wire : Json) : Except Failure Unit := do
  checkHead sha256 decisionHash wire
  match elements (arrow wire "reasons"), elements (arrow wire "event_ids"), elements (arrow wire "source_refs") with
  | some reasons, some events, some refs => do
    demand (refs.length ≤ 256) "wire form must carry canonical reason, event, and source arrays"
    checkReasons (arrowText wire "outcome") reasons events refs
    checkEvents C events
    checkRefs C refs
  | _, _, _ => throwing .database "wire form must carry canonical reason, event, and source arrays"

end

/-! ### What the checks ask of a decision -/

section

variable (C : Collation) (sha256 : ByteArray → Hash) (d : QuarantineDecision)

theorem floatsItems_map {α : Type} {f : α → Json} (h : ∀ a, (f a).floats = []) (l : List α) :
    Json.floatsItems (l.map f) = [] := by
  rw [List.eq_nil_iff_forall_not_mem]
  intro x hx
  obtain ⟨j, hj, hx⟩ := Json.mem_floatsItems.mp hx
  obtain ⟨a, -, rfl⟩ := List.mem_map.mp hj
  rw [h a] at hx
  cases hx

/-- There are texts only in the wire, and the two writers agree on it. -/
theorem wire_canonicalJson : d.wire.canonicalJson = d.wire.dumps := by
  rw [Json.canonicalJson_eq_dumps_iff, Json.Shared]
  have hreasons := floatsItems_map (fun reason : QuarantineReason => show (Json.str reason.value).floats = [] from rfl)
  have hevents := floatsItems_map (fun eventId : EventId => show (Json.str eventId.value).floats = [] from rfl)
  have hrefs := floatsItems_map (fun ref : SourceRef => show ref.wire.floats = [] from rfl)
  simp [QuarantineDecision.wire, Json.floats, Json.floatsFields, hreasons, hevents, hrefs]

theorem matching_str {pattern : Pattern} {s : String} : Matching pattern (some (.str s)) ↔ pattern.fullmatch s = true := by
  simp [Matching, isString, textOf]

theorem Hash.matches (hash : Hash) : hashPattern.fullmatch hash.text = true :=
  Pattern.fullmatch_between hash.ok.1 hash.ok.2

theorem checkHead_wire {u : Unit} :
    checkHead sha256 (d.computeHash sha256).text d.wire = .ok u ↔
      masterVersionPattern.fullmatch d.masterVersion = true := by
  have hhash : (sha256 (QuarantineDecision.hashDomain ++ d.wire.canonicalJson).toUTF8).text =
      (d.computeHash sha256).text := by
    rw [wire_canonicalJson]
    rfl
  have hkeys : objectKeys d.wire = some wireKeys := rfl
  have hsecurity : Matching securityIdPattern (arrow d.wire "security_id") := matching_str.mpr d.securityId.ok
  have hsymbol : Matching symbolPattern (arrow d.wire "symbol_as_of") := matching_str.mpr d.symbolAsOf.ok
  have hversion : Matching masterVersionPattern (arrow d.wire "master_version") ↔
      masterVersionPattern.fullmatch d.masterVersion = true := matching_str
  have hinstant : isString (arrow d.wire "decision_at") = true := rfl
  have hproducer : arrowText d.wire "producer_version" = some QuarantineDecision.producerVersion := rfl
  have houtcome : NullOr (· ∈ outcomeCodes) (arrowText d.wire "outcome") := by
    intro s hs
    obtain rfl : d.outcome.value = s := Option.some.inj hs
    cases d.outcome <;> decide
  have hshape : ∀ keys ∈ some wireKeys, keys.length = 9 ∧ ∀ key ∈ keys, key ∈ wireKeys := by decide
  simp only [checkHead, bind_ok, demand_ok, exists_const, Hash.matches, hproducer, hhash, hsecurity, hsymbol,
    hversion, hinstant, houtcome, hkeys, Option.isSome_some, true_and, and_true]
  exact and_iff_right hshape

/-- The reasons are some of all reasons, which have distinct codes. -/
theorem nodup_reasons : (d.reasons.map QuarantineReason.value).Nodup := by
  have hsub : d.reasons.Sublist QuarantineReason.all := by
    rw [← d.reasons_ok]
    exact List.filter_sublist
  exact (hsub.map QuarantineReason.value).nodup (by decide)

/-- Distinct texts are all counted. -/
theorem countDistinct_of_nodup {texts : List String} (h : texts.Nodup) : countDistinct (texts.map some) = texts.length := by
  have hall : (texts.map some).filterMap id = texts := by simp [List.filterMap_map]
  rw [countDistinct, hall, h.dedup]

theorem checkReasons_wire {u : Unit} :
    checkReasons (some d.outcome.value) (d.reasons.map (fun reason => .str reason.value))
        (d.eventIds.map (fun eventId => .str eventId.value)) (d.sourceRefs.map SourceRef.wire) = .ok u ↔
      (d.outcome = .eligible → d.reasons = [] ∧ d.eventIds = [] ∧ d.sourceRefs ≠ []) ∧
        (d.outcome ≠ .eligible → d.reasons ≠ []) := by
  have heligible : d.outcome.value = "ELIGIBLE" ↔ d.outcome = .eligible := by cases d.outcome <;> decide
  have hcodes : ∀ item ∈ d.reasons.map (fun reason => Json.str reason.value),
      isString (some item) = true ∧ NullOr (· ∈ reasonCodes) (textOf item) := by
    intro item hitem
    obtain ⟨reason, -, rfl⟩ := List.mem_map.mp hitem
    refine ⟨rfl, ?_⟩
    intro s hs
    obtain rfl : reason.value = s := Option.some.inj hs
    cases reason <;> decide
  have hunique : (d.reasons.map (fun reason => Json.str reason.value)).length =
      countDistinct ((d.reasons.map (fun reason => Json.str reason.value)).map textOf) := by
    have htexts : (d.reasons.map (fun reason => Json.str reason.value)).map textOf =
        (d.reasons.map QuarantineReason.value).map some := by simp [textOf]
    rw [htexts, countDistinct_of_nodup (nodup_reasons d), List.length_map, List.length_map]
  simp only [checkReasons, bind_ok, demand_ok, exists_const]
  constructor
  · rintro ⟨hyes, hno, -, -⟩
    refine ⟨fun h => ?_, fun h => ?_⟩
    · have hyes' := not_and.mp hyes (congrArg some (heligible.mpr h))
      simpa [not_or] using hyes'
    · have hno' := not_and.mp hno ⟨_, rfl, fun he => h (heligible.mp he)⟩
      simpa using hno'
  · rintro ⟨hyes, hno⟩
    refine ⟨?_, ?_, hcodes, hunique⟩
    · rintro ⟨ho, hbad⟩
      obtain ⟨h1, h2, h3⟩ := hyes (heligible.mp (Option.some.inj ho))
      simp [h1, h2, h3] at hbad
    · rintro ⟨⟨s, hs, hne⟩, hbad⟩
      obtain rfl : d.outcome.value = s := Option.some.inj hs
      exact hno (fun h => hne (heligible.mpr h)) (by simpa using hbad)

theorem checkEvents_wire {u : Unit} :
    checkEvents C (d.eventIds.map (fun eventId => .str eventId.value)) = .ok u ↔
      (d.eventIds.map EventId.value).Pairwise C.le := by
  have hmatching : ∀ item ∈ d.eventIds.map (fun eventId => Json.str eventId.value),
      Matching recordIdPattern (some item) := by
    intro item hitem
    obtain ⟨eventId, -, rfl⟩ := List.mem_map.mp hitem
    exact matching_str.mpr eventId.ok
  have htexts : (d.eventIds.map (fun eventId => Json.str eventId.value)).filterMap textOf =
      d.eventIds.map EventId.value := by
    rw [List.filterMap_map]
    exact congrFun (List.filterMap_eq_map (f := EventId.value)) d.eventIds
  simp only [checkEvents, bind_ok, demand_ok, exists_const, htexts, List.insertionSort_eq_self]
  exact and_iff_right hmatching

theorem SourceRef.canonical (ref : SourceRef) : RefCanonical ref.wire := by
  refine ⟨⟨["record_id", "family", "record_hash"], rfl, by decide, by decide⟩, ?_, ?_, ?_⟩
  · intro s hs
    obtain rfl : ref.recordId = s := Option.some.inj hs
    exact ref.ok
  · intro s hs
    obtain rfl : ref.recordHash.text = s := Option.some.inj hs
    exact ref.recordHash.matches
  · intro s hs
    obtain rfl : ref.family.value = s := Option.some.inj hs
    cases ref.family <;> decide

theorem checkRefs_wire {u : Unit} :
    checkRefs C (d.sourceRefs.map SourceRef.wire) = .ok u ↔ (d.sourceRefs.map SourceRef.recordId).Pairwise C.le := by
  have hcanonical : ∀ ref ∈ d.sourceRefs.map SourceRef.wire, RefCanonical ref := by
    intro ref href
    obtain ⟨ref, -, rfl⟩ := List.mem_map.mp href
    exact ref.canonical
  have hnodup : (d.sourceRefs.map SourceRef.recordId).Nodup := d.refs_ok.2.imp (fun h => h.ne)
  have hids : (d.sourceRefs.map SourceRef.wire).map (arrowText · "record_id") =
      (d.sourceRefs.map SourceRef.recordId).map some := by
    rw [List.map_map, List.map_map]
    rfl
  have hfirst : ((d.sourceRefs.map SourceRef.wire).map rowOf).map Prod.fst = d.sourceRefs.map SourceRef.recordId := by
    rw [List.map_map, List.map_map]
    rfl
  simp only [checkRefs, bind_ok, demand_ok, exists_const, hids, countDistinct_of_nodup hnodup, List.length_map,
    List.insertionSort_eq_self, true_and]
  rw [C.pairwise_rowLe_iff (hfirst ▸ hnodup), hfirst]
  exact and_iff_right hcanonical

/-- What is not settled by the shape of a decision. -/
theorem checkWire_wire :
    checkWire C sha256 (d.computeHash sha256).text d.wire = .ok () ↔
      masterVersionPattern.fullmatch d.masterVersion = true ∧
        ((d.outcome = .eligible → d.reasons = [] ∧ d.eventIds = [] ∧ d.sourceRefs ≠ []) ∧
          (d.outcome ≠ .eligible → d.reasons ≠ [])) ∧
        (d.eventIds.map EventId.value).Pairwise C.le ∧ (d.sourceRefs.map SourceRef.recordId).Pairwise C.le := by
  have hreasons : elements (arrow d.wire "reasons") = some (d.reasons.map (fun reason => .str reason.value)) := rfl
  have hevents : elements (arrow d.wire "event_ids") = some (d.eventIds.map (fun eventId => .str eventId.value)) := rfl
  have hrefs : elements (arrow d.wire "source_refs") = some (d.sourceRefs.map SourceRef.wire) := rfl
  have houtcome : arrowText d.wire "outcome" = some d.outcome.value := rfl
  have hlength : (d.sourceRefs.map SourceRef.wire).length ≤ 256 := by
    rw [List.length_map]
    exact d.refs_ok.1
  simp only [checkWire, hreasons, hevents, hrefs, houtcome, bind_ok, demand_ok, exists_const, checkHead_wire,
    checkReasons_wire, checkEvents_wire, checkRefs_wire, hlength, true_and]

end

/-! ### What the evaluator returns -/

theorem mem_sortedReasons {reasons : List QuarantineReason} {reason : QuarantineReason} :
    reason ∈ sortedReasons reasons ↔ reason ∈ reasons := by
  have hall : reason ∈ QuarantineReason.all := by cases reason <;> decide
  simp [sortedReasons, hall]

/-- The last row of a lineage that is known at the decision time. -/
def EventEvidence.visibleHead (q : QuarantineQuery) (evidence : EventEvidence) : Option CorporateActionRecord :=
  (evidence.lineage.filter (·.knownAt q.decisionAt)).getLast?

section

variable {D : Digests} {q : QuarantineQuery} {records : List SecurityIdentityRecord} {events : List EventEvidence}

/-- A split that was judged is among the reasons. -/
theorem eventQuarantine_reasons {head root : CorporateActionRecord} {resolved : Option SecurityIdentityRecord}
    {observations : List SourceObservation} {t : UtcTimestamp} {outcome : QuarantineOutcome}
    {reasons : List QuarantineReason}
    (h : eventQuarantine D head root resolved observations t = .ok (outcome, reasons)) : .splitDetected ∈ reasons := by
  cases resolved with
  | none =>
    cases h
    exact List.mem_singleton_self _
  | some identity =>
    obtain ⟨evaluation, hevaluation, h⟩ := bind_ok.mp h
    have hreasons : evaluation.outcome ≠ .confirmed → QuarantineReason.splitDetected ∈ evaluation.reasons := by
      obtain ⟨_, -, hevaluation⟩ := bind_ok.mp hevaluation
      obtain ⟨_, -, hevaluation⟩ := bind_ok.mp hevaluation
      dsimp only at hevaluation
      split_ifs at hevaluation
      · cases hevaluation
        exact fun _ => mem_sortedReasons.mpr List.mem_cons_self
      · cases hevaluation
        exact fun hne => absurd rfl hne
      · cases hevaluation
        exact fun _ => List.mem_cons_self
    cases houtcome : evaluation.outcome with
    | reviewRequired =>
      rw [houtcome] at h
      cases h
      exact hreasons (by rw [houtcome]; decide)
    | entryBlocked =>
      rw [houtcome] at h
      dsimp only at h
      split_ifs at h <;> cases h <;> exact hreasons (by rw [houtcome]; decide)
    | confirmed =>
      rw [houtcome] at h
      dsimp only at h
      split at h <;> cases h <;> exact List.mem_cons_self

/-- What a verdict says of the evidence it is about. -/
theorem judge_some {x : Option SecurityIdentityRecord} {evidence : EventEvidence} {v : Verdict}
    (h : judge D q x evidence = .ok (some v)) :
    .splitDetected ∈ v.reasons ∧ evidence.eventId? = some v.eventId ∧
      ∃ head, evidence.visibleHead q = some head ∧
        v.sourceRefs = head.sourceRefs ++ evidence.observations.map SourceObservation.sourceRef := by
  unfold judge at h
  cases hvisible : evidence.lineage.filter (·.knownAt q.decisionAt) with
  | nil =>
    rw [hvisible] at h
    cases h
  | cons root rest =>
    rw [hvisible] at h
    dsimp only at h
    rw [ite_eq_iff] at h
    obtain ⟨-, h⟩ | ⟨-, h⟩ := h
    · cases h
    obtain ⟨⟨outcome, reasons⟩, hquarantine, h⟩ := bind_ok.mp h
    cases h
    have hmem : (root :: rest).getLast (List.cons_ne_nil root rest) ∈ evidence.lineage := by
      have hknown : ∀ row ∈ root :: rest, row ∈ evidence.lineage := by
        rw [← hvisible]
        exact fun row hrow => (List.mem_filter.mp hrow).1
      exact hknown _ (List.getLast_mem (List.cons_ne_nil root rest))
    refine ⟨eventQuarantine_reasons hquarantine, ?_, _, ?_, rfl⟩
    · have hchain := evidence.lineage_ok.chain
      unfold EventEvidence.eventId?
      cases hlineage : evidence.lineage with
      | nil =>
        rw [hlineage] at hmem
        cases hmem
      | cons first more =>
        rw [hlineage] at hchain hmem
        exact congrArg some (sameEvent_of_isChain hchain _ hmem).1.eventId
    · rw [EventEvidence.visibleHead, hvisible, List.getLast?_eq_some_getLast (List.cons_ne_nil root rest)]

/-- A verdict stands for every event that touches the query, and for no other. -/
theorem exists_verdict_iff {x : Option SecurityIdentityRecord} {evidence : EventEvidence} :
    (∃ v, judge D q x evidence = .ok (some v)) ↔ Touches q evidence := by
  have hspec := judge_spec D q x evidence
  split_ifs at hspec with htouches
  · obtain ⟨v, hv, -⟩ := hspec
    exact iff_of_true ⟨v, hv⟩ htouches
  · refine iff_of_false ?_ htouches
    rintro ⟨v, hv⟩
    rw [hspec] at hv
    cases hv

/-! ### Where the evaluator's decisions are stored -/

/-- The event of the identifier is about the security and known at the decision time. -/
def EventNamed (q : QuarantineQuery) (events : List EventEvidence) (text : String) : Prop :=
  ∃ evidence ∈ events, Touches q evidence ∧ ∃ eventId ∈ evidence.eventId?, eventId.value = text

/-- The record is a source of the resolved identity, or of what is read of such an event. -/
def RecordCited (D : Digests) (q : QuarantineQuery) (records : List SecurityIdentityRecord)
    (events : List EventEvidence) (text : String) : Prop :=
  ∃ ref : SourceRef, ref.recordId = text ∧
    ((∃ r, resolveIdentity D.identity records q.identityQuery = .ok (.resolved r) ∧ ref ∈ r.sourceRefs) ∨
      ∃ evidence ∈ events, Touches q evidence ∧
        ((∃ head ∈ evidence.visibleHead q, ref ∈ head.sourceRefs) ∨
          ∃ observation ∈ evidence.observations, observation.sourceRef = ref))

/-- The identity is resolved. -/
def Resolves (D : Digests) (q : QuarantineQuery) (records : List SecurityIdentityRecord) : Prop :=
  ∃ r, resolveIdentity D.identity records q.identityQuery = .ok (.resolved r)

/-- On these texts the collation follows the code points. -/
def Collation.Agrees (C : Collation) (texts : String → Prop) : Prop :=
  ∀ s t, texts s → texts t → s ≤ t → C.le s t

/-- A list in the order of the code points is in the order of the collation when the two agree. -/
theorem Collation.pairwise_iff_agrees (C : Collation) {l : List String} (h : l.Pairwise (· < ·)) :
    l.Pairwise C.le ↔ C.Agrees (· ∈ l) := by
  constructor
  · intro hle s t hs ht
    have hboth : l.Pairwise (fun s t => (s ≤ t → C.le s t) ∧ (t ≤ s → C.le t s)) :=
      h.imp₂ (fun s t hlt hle => ⟨fun _ => hle, fun hge => absurd hlt (not_lt.mpr hge)⟩) hle
    have hsymm : Std.Symm (fun s t => (s ≤ t → C.le s t) ∧ (t ≤ s → C.le t s)) := ⟨fun _ _ hst => hst.symm⟩
    exact (hboth.forall_of_forall (fun s _ => ⟨fun _ => C.refl s, fun _ => C.refl s⟩) hs ht).1
  · intro hagrees
    exact h.imp_of_mem (fun hs ht hlt => hagrees _ _ hs ht hlt.le)

theorem mem_eventIds {d : QuarantineDecision} (h : evaluateQuarantine D q records events = .ok d) (text : String) :
    text ∈ d.eventIds.map EventId.value ↔ EventNamed q events text := by
  obtain ⟨-, -, x, vs, -, hvs, -, hevents, -⟩ := evaluateQuarantine_ok h
  have hmem : ∀ eventId, eventId ∈ d.eventIds ↔ ∃ v ∈ vs.filterMap id, v.eventId = eventId := by
    intro eventId
    rw [hevents, List.mem_sortOn, List.mem_dedup, List.mem_map]
  rw [List.mem_map]
  constructor
  · rintro ⟨eventId, heventId, rfl⟩
    obtain ⟨v, hv, rfl⟩ := (hmem eventId).mp heventId
    obtain ⟨evidence, hevidence, hjudge⟩ := (mem_verdicts hvs v).mp hv
    exact ⟨evidence, hevidence, exists_verdict_iff.mp ⟨v, hjudge⟩, v.eventId, (judge_some hjudge).2.1, rfl⟩
  · rintro ⟨evidence, hevidence, htouches, eventId, heventId, rfl⟩
    obtain ⟨v, hjudge⟩ := exists_verdict_iff.mpr htouches
    have hsame : some v.eventId = some eventId := (judge_some hjudge).2.1.symm.trans heventId
    exact ⟨eventId, (hmem eventId).mpr ⟨v, (mem_verdicts hvs v).mpr ⟨evidence, hevidence, hjudge⟩,
      Option.some.inj hsame⟩, rfl⟩

theorem mem_sourceRefs {d : QuarantineDecision} (h : evaluateQuarantine D q records events = .ok d) (text : String) :
    text ∈ d.sourceRefs.map SourceRef.recordId ↔ RecordCited D q records events text := by
  obtain ⟨-, -, x, vs, hx, hvs, hcollect, -⟩ := evaluateQuarantine_ok h
  have hmem : ∀ ref, ref ∈ d.sourceRefs ↔ (∃ r, x = .resolved r ∧ ref ∈ r.sourceRefs) ∨
      ∃ v ∈ vs.filterMap id, ref ∈ v.sourceRefs := by
    intro ref
    unfold collectSourceRefs at hcollect
    split at hcollect
    · cases hcollect
    · rename_i merged hmerged
      obtain ⟨_, -, hcollect⟩ := bind_ok.mp hcollect
      obtain rfl : merged = d.sourceRefs := Except.ok.inj hcollect
      rw [(mergedRefs_some hmerged).2.2 ref, List.mem_append, List.mem_flatMap]
      cases x <;> simp [IdentityResolution.record?]
  rw [List.mem_map]
  constructor
  · rintro ⟨ref, href, rfl⟩
    refine ⟨ref, rfl, ((hmem ref).mp href).imp ?_ ?_⟩
    · rintro ⟨r, rfl, hr⟩
      exact ⟨r, hx, hr⟩
    · rintro ⟨v, hv, hr⟩
      obtain ⟨evidence, hevidence, hjudge⟩ := (mem_verdicts hvs v).mp hv
      obtain ⟨-, -, head, hhead, hrefs⟩ := judge_some hjudge
      rw [hrefs, List.mem_append, List.mem_map] at hr
      exact ⟨evidence, hevidence, exists_verdict_iff.mp ⟨v, hjudge⟩, hr.imp_left (fun hr => ⟨head, hhead, hr⟩)⟩
  · rintro ⟨ref, rfl, hcited⟩
    refine ⟨ref, (hmem ref).mpr (hcited.imp ?_ ?_), rfl⟩
    · rintro ⟨r, hr, href⟩
      exact ⟨r, Except.ok.inj (hx.symm.trans hr), href⟩
    · rintro ⟨evidence, hevidence, htouches, hread⟩
      obtain ⟨v, hjudge⟩ := exists_verdict_iff.mpr htouches
      obtain ⟨-, -, head, hhead, hrefs⟩ := judge_some hjudge
      refine ⟨v, (mem_verdicts hvs v).mpr ⟨evidence, hevidence, hjudge⟩, ?_⟩
      rw [hrefs, List.mem_append, List.mem_map]
      refine hread.imp_left ?_
      rintro ⟨head', hhead', href⟩
      obtain rfl : head = head' := Option.some.inj (hhead.symm.trans hhead')
      exact href

/-- An eligible decision has sources and no findings, any other one has a reason. -/
theorem evaluated_reasons {d : QuarantineDecision} (h : evaluateQuarantine D q records events = .ok d) :
    (d.outcome = .eligible → d.reasons = [] ∧ d.eventIds = [] ∧ d.sourceRefs ≠ []) ∧
      (d.outcome ≠ .eligible → d.reasons ≠ []) := by
  obtain ⟨-, -, x, vs, hx, hvs, -, hevents, hreasons, -, houtcome⟩ := evaluateQuarantine_ok h
  constructor
  · intro heligible
    obtain ⟨-, hclear⟩ := clear_of_eligible h heligible
    have hfindings : identityFindings D q records x = [] := by
      by_contra hne
      rw [heligible, if_pos hne] at houtcome
      cases houtcome
    have hnone : vs.filterMap id = [] := by
      rw [List.eq_nil_iff_forall_not_mem]
      intro v hv
      obtain ⟨evidence, hevidence, hjudge⟩ := (mem_verdicts hvs v).mp hv
      exact hclear.splits evidence hevidence (exists_verdict_iff.mp ⟨v, hjudge⟩)
    refine ⟨by rw [hreasons, hfindings, hnone]; rfl, by rw [hevents, hnone]; rfl, ?_⟩
    obtain ⟨r, hr, -⟩ := hclear.identity
    obtain ⟨ref, href⟩ := List.exists_mem_of_ne_nil _ r.refs_ok.1
    have hcited := (mem_sourceRefs h ref.recordId).mpr ⟨ref, rfl, .inl ⟨r, hr, href⟩⟩
    intro hnil
    rw [hnil] at hcited
    cases hcited
  · intro hblocked hnil
    have hempty : identityFindings D q records x ++ (vs.filterMap id).flatMap Verdict.reasons = [] := by
      rw [List.eq_nil_iff_forall_not_mem]
      intro reason hreason
      have hmem := mem_sortedReasons.mpr hreason
      rw [← hreasons, hnil] at hmem
      cases hmem
    obtain ⟨hfindings, hverdicts⟩ := List.append_eq_nil_iff.mp hempty
    have hnone : vs.filterMap id = [] := by
      rw [List.eq_nil_iff_forall_not_mem]
      intro v hv
      obtain ⟨evidence, -, hjudge⟩ := (mem_verdicts hvs v).mp hv
      have hmem := List.mem_flatMap.mpr ⟨v, hv, (judge_some hjudge).1⟩
      rw [hverdicts] at hmem
      cases hmem
    rw [hfindings, hnone, if_neg (not_not.mpr rfl)] at houtcome
    exact hblocked houtcome

/-- The version is that of the record, or the one of the query if there is no record. -/
theorem evaluated_version {d : QuarantineDecision} (h : evaluateQuarantine D q records events = .ok d) :
    masterVersionPattern.fullmatch d.masterVersion = true ↔
      Resolves D q records ∨ masterVersionPattern.fullmatch q.masterVersion = true := by
  obtain ⟨-, -, x, vs, hx, -, -, -, -, hversion, -⟩ := evaluateQuarantine_ok h
  rw [hversion]
  have hother : x.record? = none → ¬ Resolves D q records := by
    rintro hnone ⟨r, hr⟩
    rw [Except.ok.inj (hx.symm.trans hr)] at hnone
    cases hnone
  cases x with
  | resolved r =>
    exact iff_of_true (Pattern.fullmatch_lit_between (D.identity r).ok.1 (D.identity r).ok.2) (.inl ⟨r, hx⟩)
  | unknown => exact (or_iff_right (hother rfl)).symm
  | ambiguous => exact (or_iff_right (hother rfl)).symm
  | conflict => exact (or_iff_right (hother rfl)).symm
  | stale => exact (or_iff_right (hother rfl)).symm

end

section Sample

def lowered (s : String) : String := String.ofList (s.toList.map Char.toLower)

/-- Texts are compared without regard to case, and by their code points where that makes no
difference. -/
def caseless : Collation where
  le s t := toLex (lowered s, s) ≤ toLex (lowered t, t)
  decidable _ _ := inferInstance
  total _ _ := le_total _ _
  trans := le_trans
  antisymm h k := congrArg (fun p => (ofLex p).2) (le_antisymm h k)

/-- A filing whose identifier begins with a capital. -/
def sampleFiling : SourceRef := ⟨"Filing-1", .secEdgar, repeated '3' (Eq.refl true), by decide⟩

def sampleFiled : SecurityIdentityRecord := { sampleIdentity with sourceRefs := [sampleRef, sampleFiling], refs_ok := by decide }

theorem sampleFiled_clear : ClearOf sampleDigests sampleQuery [sampleFiled] [] where
  identity := ⟨sampleFiled, by decide +kernel, rfl, rfl⟩
  claims := by
    intro r hr _ _
    rw [List.mem_singleton.mp hr]
    rfl
  splits := fun _ he => nomatch he

end Sample

end SevenLens.Securities
