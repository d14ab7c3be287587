import SevenLens.MarketData.Snapshots
import SevenLens.Securities.Quarantine

/-! # Universe entries and snapshots

The records that a universe is published as.  An entry and a snapshot are what their
constructors let through; the hash of a snapshot is the digest of its canonical wire text,
whose length is bounded. -/

namespace SevenLens.Universe

open Securities Screening

/-! ### Entries -/

inductive WholeShareFeasibility where
  | feasible | notFeasible | notEvaluated
deriving DecidableEq, Repr

def WholeShareFeasibility.value : WholeShareFeasibility → String
  | feasible => "FEASIBLE"
  | notFeasible => "NOT_FEASIBLE"
  | notEvaluated => "NOT_EVALUATED"

def maxMasterVersionBytes : Nat := 128

/-- `_MASTER_VERSION`: the prefix of the security master and a digest. -/
def masterVersionPattern : Pattern := .cat [.lit "p4b.securities.v1:", .between 64 64 isHex]

/-- The bounded version text of the security master. -/
def IsMasterVersion (v : String) : Prop :=
  v.utf8ByteSize ≤ maxMasterVersionBytes ∧ masterVersionPattern.fullmatch v = true

instance (v : String) : Decidable (IsMasterVersion v) := inferInstanceAs (Decidable (_ ∧ _))

/-- One security with its eligibility decision. -/
structure UniverseEntry where
  securityId : SecurityId
  symbol : SecuritySymbol
  eligible : Bool
  reason : Option ClosedReason
  identityHash : Option Hash
  masterVersion : Option String
  marketSnapshotHash : Option Hash
  wholeShareFeasibility : WholeShareFeasibility
  quarantineDecisionHash : Option Hash
  quarantineEventIds : List EventId
deriving DecidableEq

namespace UniverseEntry

/-- What the constructor checks.  A digest or an event id has its form by its type. -/
def postInit (e : UniverseEntry) : Except Failure Unit := do
  require (e.eligible = true → e.reason = none) "eligible entries must have a null reason"
  require (e.eligible = false → e.reason ≠ none) "ineligible entries must have a non-null reason"
  require (e.eligible = true → e.identityHash ≠ none ∧ e.masterVersion ≠ none ∧ e.marketSnapshotHash ≠ none)
    "eligible entries require closed identity and market references"
  require (∀ v ∈ e.masterVersion, IsMasterVersion v) "master_version must be the bounded P4-B version or None"
  require (e.quarantineEventIds = e.quarantineEventIds.dedup.sortOn id)
    "quarantine_event_ids must be sorted and unique"
  require (e.quarantineDecisionHash = none → e.quarantineEventIds = [])
    "quarantine event ids require a decision hash"
  require (e.eligible = true → e.quarantineDecisionHash ≠ none)
    "eligible entries require a quarantine decision reference"
  require (e.wholeShareFeasibility = .notEvaluated)
    "P4-C universe entries cannot evaluate whole-share feasibility"
  require (e.quarantineEventIds.length ≤ maxEventLineages) "quarantine_event_ids exceed the P4-B event bound"

/-- `UniverseEntry(...)` -/
def construct (e : UniverseEntry) : Except Failure UniverseEntry := do
  e.postInit
  return e

def wire (e : UniverseEntry) : Json :=
  .obj [("security_id", .str e.securityId.value),
    ("symbol", .str e.symbol.value),
    ("eligible", .bool e.eligible),
    ("reason", optional (e.reason.map ClosedReason.value)),
    ("identity_hash", optional (e.identityHash.map Hash.text)),
    ("master_version", optional e.masterVersion),
    ("market_snapshot_hash", optional (e.marketSnapshotHash.map Hash.text)),
    ("whole_share_feasibility", .str e.wholeShareFeasibility.value),
    ("quarantine_decision_hash", optional (e.quarantineDecisionHash.map Hash.text)),
    ("quarantine_event_ids", .arr (e.quarantineEventIds.map (fun i => .str i.value)))]

end UniverseEntry

/-! ### Snapshots -/

def maxUniverseSnapshotItems : Nat := 10000

def maxUniverseSnapshotBytes : Nat := 16777216

/-- The content of a universe snapshot. -/
structure UniverseBody where
  asOf : TradingDate
  knownAt : UtcTimestamp
  securityMasterVersion : String
  marketSnapshotRefs : List Hash
  entries : List UniverseEntry
  policyHash : Hash
  schemaVersion : SchemaVersion
deriving DecidableEq

/-- The instant is in the month of the date and not before it. -/
def OnOrAfter (asOf : TradingDate) (knownAt : UtcTimestamp) : Prop :=
  asOf.SameMonth knownAt ∧ asOf.days ≤ knownAt.day

instance (asOf : TradingDate) (knownAt : UtcTimestamp) : Decidable (OnOrAfter asOf knownAt) :=
  inferInstanceAs (Decidable (_ ∧ _))

namespace UniverseBody

def wire (b : UniverseBody) : Json :=
  .obj [("as_of", .str b.asOf.isoformat),
    ("known_at", .str b.knownAt.text),
    ("security_master_version", .str b.securityMasterVersion),
    ("market_snapshot_refs", .arr (b.marketSnapshotRefs.map (fun h => .str h.text))),
    ("entries", .arr (b.entries.map UniverseEntry.wire)),
    ("policy_hash", .str b.policyHash.text),
    ("schema_version", .str b.schemaVersion.value),
    ("producer_version", .str "p4c.universe.v1")]

/-- `compute_hash` -/
def computeHash (sha256 : String → Hash) (b : UniverseBody) : Except Failure Hash := do
  require (b.wire.bytes ≤ maxUniverseSnapshotBytes) "universe snapshot canonical wire exceeds the byte bound"
  return sha256 ("seven-lens.p4c.universe-snapshot.v1\x00" ++ b.wire.dumps)

/-- What the constructor checks, apart from the hash. -/
def postInit (b : UniverseBody) : Except Failure Unit := do
  require (OnOrAfter b.asOf b.knownAt) "universe known_at must be on or after the first open session"
  require (IsMasterVersion b.securityMasterVersion) "security_master_version must be the bounded P4-B version"
  require (b.marketSnapshotRefs.length ≤ maxUniverseSnapshotItems)
    "market_snapshot_refs exceed the universe snapshot item bound"
  require (b.marketSnapshotRefs = b.marketSnapshotRefs.dedup.sortOn id)
    "market_snapshot_refs must be sorted and unique"
  require (b.entries.length ≤ maxUniverseSnapshotItems)
    "entries must be a tuple of at most 10000 UniverseEntry values"
  require (b.entries = b.entries.sortOn UniverseEntry.securityId) "entries must be sorted by canonical security id"
  require (b.entries.map UniverseEntry.securityId).Nodup "entries must not repeat a security"

end UniverseBody

/-- A universe snapshot: its content passes the checks, and the hash is the one of the content. -/
structure UniverseSnapshot (sha256 : String → Hash) extends UniverseBody where
  universeHash : Hash
  valid : toUniverseBody.postInit = .ok ()
  bound : toUniverseBody.computeHash sha256 = .ok universeHash
deriving DecidableEq

/-- `_build_universe_snapshot`: the hash is derived before the content is checked. -/
def buildUniverseSnapshot (sha256 : String → Hash) (b : UniverseBody) :
    Except Failure (UniverseSnapshot sha256) :=
  match hb : b.computeHash sha256 with
  | .error e => .error e
  | .ok h =>
    match hv : b.postInit with
    | .error e => .error e
    | .ok () => .ok ⟨b, h, hv, hb⟩

theorem buildUniverseSnapshot_ok {sha256 : String → Hash} {b : UniverseBody} {s : UniverseSnapshot sha256} :
    buildUniverseSnapshot sha256 b = .ok s ↔ s.toUniverseBody = b := by
  constructor
  · intro h
    unfold buildUniverseSnapshot at h
    split at h
    · cases h
    · split at h
      · cases h
      · cases h
        rfl
  · rintro rfl
    obtain ⟨b, h, hv, hb⟩ := s
    unfold buildUniverseSnapshot
    split
    · rename_i he
      rw [hb] at he
      cases he
    · rename_i h' he
      obtain rfl : h = h' := Except.ok.inj (hb.symm.trans he)
      split
      · rename_i hp
        rw [hv] at hp
        cases hp
      · rfl

end SevenLens.Universe
