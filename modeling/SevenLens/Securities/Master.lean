import Mathlib.Data.List.MinMax
import Mathlib.Data.Prod.Lex
import SevenLens.Library.Linked
import SevenLens.Securities.Quarantine
import SevenLens.Securities.Sources

/-! # The security master

The append-only repository: identity observations, the rows of the split events and the
quarantine decisions, each under its hash and in append order, with the head of every identity
interval and of every event.

An event row is appended by compare-and-swap on the head of its event.  `eventLineage` does not
use the append order but rebuilds the chain from the predecessor of each row. -/

namespace SevenLens.Securities

/-- A row of the event log with the hash of its predecessor. -/
structure EventRow where
  record : CorporateActionRecord
  previous : Option Hash
deriving DecidableEq

/-- The hash of a row. -/
def Digests.row (D : Digests) (row : EventRow) : Hash := D.event row.record

/-- `_identity_key` -/
abbrev IdentityKey : Type := SecurityId × UtcTimestamp × Option UtcTimestamp

/-- `InMemorySecurityMaster` -/
structure Master (D : Digests) where
  identities : Table D.identity
  identityHeads : List (IdentityKey × Hash)
  events : Table D.row
  eventHeads : List (EventId × Hash)
  decisions : Table D.decision

namespace Master

variable {D : Digests}

def empty : Master D := ⟨Table.empty, [], Table.empty, [], Table.empty⟩

/-! ### Identities -/

/-- A head of the same security over another interval that overlaps the record's. -/
def overlapsHead (m : Master D) (record : SecurityIdentityRecord) : Bool :=
  m.identityHeads.any (fun p =>
    match m.identities.get p.2 with
    | none => false
    | some head => decide (head.securityId = record.securityId ∧ intervalKey head ≠ intervalKey record) &&
        head.interval.overlaps record.interval)

/-- `append_identity`: the head of the interval moves to the record only if it is later. -/
def appendIdentity (m : Master D) (record : SecurityIdentityRecord) : Except Failure (AppendOutcome × Master D) :=
  match m.identities.get (D.identity record) with
  | some existing =>
    if existing ≠ record then throwing .inMemorySecurityMaster "identity hash collision carries different content"
    else .ok (.idempotentDuplicate, m)
  | none => do
    requireOr .inMemorySecurityMaster (m.overlapsHead record = false)
      "identity interval overlaps an existing head for the same security"
    let key := intervalKey record
    match (m.identityHeads.lookup key).bind m.identities.get with
    | none =>
      return (.appended, { m with
        identities := m.identities.add record
        identityHeads := Dict.insert m.identityHeads key (D.identity record) })
    | some current => do
      requireOr .inMemorySecurityMaster (record.availableAt ≠ current.availableAt)
        "unorderable identity correction at the same available time"
      return (.appended, { m with
        identities := m.identities.add record
        identityHeads :=
          if current.availableAt < record.availableAt then Dict.insert m.identityHeads key (D.identity record)
          else m.identityHeads })

/-- `identity_records(security_id=...)` -/
def identitiesOf (m : Master D) (securityId : SecurityId) : List SecurityIdentityRecord :=
  m.identities.rows.filter (fun r => decide (r.securityId = securityId))

/-- `identity_records(symbol=...)` -/
def identitiesNamed (m : Master D) (symbol : SecuritySymbol) : List SecurityIdentityRecord :=
  m.identities.rows.filter (fun r => decide (r.symbol = symbol))

/-! ### Events -/

/-- The checks on the head of the event before a new row is stored. -/
def checkHead (m : Master D) (record : CorporateActionRecord) (previous : Option Hash) : Except Failure Unit :=
  if record.state = .detected then do
    requireOr .inMemorySecurityMaster (previous = none) "detected root cannot reference a previous head"
    requireOr .inMemorySecurityMaster (m.eventHeads.lookup record.eventId = none)
      "corporate-action event lineage already started"
  else
    match previous with
    | none => throwing .inMemorySecurityMaster "transition requires the previous head record hash"
    | some previousHash =>
      match m.eventHeads.lookup record.eventId with
      | none => throwing .inMemorySecurityMaster "corporate-action event lineage not found"
      | some current => do
        requireOr .inMemoryConcurrentTransition (current = previousHash) "corporate-action head moved"
        match m.events.get previousHash with
        | none => throwing .inMemorySecurityMaster "previous event head is not in the event log"
        | some head => validateTransition head.record record

/-- The identity version that an event names is stored and is of the same security. -/
def PinsIdentity (m : Master D) (record : CorporateActionRecord) : Prop :=
  ∃ identity, m.identities.get record.securityIdentityHash = some identity ∧ identity.securityId = record.securityId

instance (m : Master D) (record : CorporateActionRecord) : Decidable (m.PinsIdentity record) :=
  match h : m.identities.get record.securityIdentityHash with
  | none => isFalse (by rintro ⟨i, hi, -⟩; rw [h] at hi; cases hi)
  | some i =>
    if hs : i.securityId = record.securityId then isTrue ⟨i, h, hs⟩
    else isFalse (by rintro ⟨j, hj, hs'⟩; rw [h] at hj; cases hj; exact hs hs')

/-- `append_event` -/
def appendEvent (m : Master D) (record : CorporateActionRecord) (previous : Option Hash) :
    Except Failure (AppendOutcome × Master D) := do
  requireOr .inMemorySecurityMaster (m.PinsIdentity record)
    "corporate-action event must reference an existing matching identity version"
  match m.events.get (D.event record) with
  | some existing => do
    requireOr .inMemorySecurityMaster (existing.record = record)
      "corporate-action hash collision carries different content"
    requireOr .inMemorySecurityMaster (existing.previous = previous)
      "corporate-action record hash was reused with a different predecessor"
    return (.idempotentDuplicate, m)
  | none => do
    m.checkHead record previous
    return (.appended, { m with
      events := m.events.add ⟨record, previous⟩
      eventHeads := Dict.insert m.eventHeads record.eventId (D.event record) })

/-- The rows of an event in append order. -/
def rowsOf (m : Master D) (eventId : EventId) : List EventRow :=
  m.events.rows.filter (fun row => decide (row.record.eventId = eventId))

def faultMessage : Linked.Fault → String
  | .roots => "event lineage must carry exactly one root"
  | .cycle => "event lineage carries a hash cycle"
  | .unreachable => "event lineage carries a fork or unreachable row"

/-- `event_lineage` -/
def eventLineage (m : Master D) (eventId : EventId) : Except Failure (List CorporateActionRecord) :=
  match m.rowsOf eventId with
  | [] => .ok []
  | rows =>
    match Linked.rebuild D.row EventRow.previous rows with
    | .error fault => throwing .inMemorySecurityMaster (faultMessage fault)
    | .ok chain => do
      let _ ← validateLineage (chain.map EventRow.record)
      return chain.map EventRow.record

/-- `security_event_ids` -/
def securityEventIds (m : Master D) (securityId : SecurityId) : List EventId :=
  (((m.events.rows.filter (fun row => decide (row.record.securityId = securityId))).map
    (fun row => row.record.eventId)).dedup).sortOn id

/-! ### Decisions -/

/-- `record_decision` -/
def recordDecision (m : Master D) (d : QuarantineDecision) : Except Failure (AppendOutcome × Master D) :=
  match m.decisions.get (D.decision d) with
  | some existing =>
    if existing ≠ d then throwing .inMemorySecurityMaster "quarantine decision hash collision carries different content"
    else .ok (.idempotentDuplicate, m)
  | none => .ok (.appended, { m with decisions := m.decisions.add d })

/-- What the latest decision is the maximum of. -/
def decisionKey (D : Digests) (d : QuarantineDecision) : UtcTimestamp ×ₗ Hash := toLex (d.decisionAt, D.decision d)

/-- `latest_decision` -/
def latestDecision (m : Master D) (securityId : SecurityId) : Option QuarantineDecision :=
  (m.decisions.rows.filter (fun d => decide (d.securityId = securityId))).argmax (decisionKey D)

/-! ### What an append does -/

section

variable {m m' : Master D} {outcome : AppendOutcome}

theorem appendIdentity_ok {record : SecurityIdentityRecord} (h : m.appendIdentity record = .ok (outcome, m')) :
    m' = m ∧ record ∈ m.identities.rows ∨
      m.identities.get (D.identity record) = none ∧ m'.identities = m.identities.add record ∧
        m'.events = m.events ∧ m'.eventHeads = m.eventHeads ∧ m'.decisions = m.decisions := by
  unfold appendIdentity at h
  split at h
  · rename_i existing he
    unfold throwing at h
    split_ifs at h with hne
    cases h
    obtain rfl : existing = record := not_not.mp hne
    exact .inl ⟨rfl, Table.mem_of_get he⟩
  · rename_i hnone
    obtain ⟨_, -, h⟩ := bind_ok.mp h
    dsimp only at h
    split at h
    · cases h
      exact .inr ⟨hnone, rfl, rfl, rfl, rfl⟩
    · obtain ⟨_, -, h⟩ := bind_ok.mp h
      cases h
      exact .inr ⟨hnone, rfl, rfl, rfl, rfl⟩

theorem appendEvent_ok {record : CorporateActionRecord} {previous : Option Hash}
    (h : m.appendEvent record previous = .ok (outcome, m')) :
    m' = m ∧ ⟨record, previous⟩ ∈ m.events.rows ∨
      m.events.get (D.event record) = none ∧ m.checkHead record previous = .ok () ∧
        m' = { m with
          events := m.events.add ⟨record, previous⟩
          eventHeads := Dict.insert m.eventHeads record.eventId (D.event record) } := by
  obtain ⟨_, -, h⟩ := bind_ok.mp h
  split at h
  · rename_i existing he
    obtain ⟨_, h1, h⟩ := bind_ok.mp h
    obtain ⟨_, h2, h⟩ := bind_ok.mp h
    cases h
    have hrow : existing = ⟨record, previous⟩ := by
      cases existing
      cases requireOr_ok.mp h1
      cases requireOr_ok.mp h2
      rfl
    exact .inl ⟨rfl, hrow ▸ Table.mem_of_get he⟩
  · rename_i hnone
    obtain ⟨_, hc, h⟩ := bind_ok.mp h
    cases h
    exact .inr ⟨hnone, hc, rfl⟩

/-- A row that is stored is not stored again. -/
theorem appendEvent_of_mem {record : CorporateActionRecord} {previous : Option Hash}
    (hm : ⟨record, previous⟩ ∈ m.events.rows) (h : m.appendEvent record previous = .ok (outcome, m')) : m' = m := by
  rcases appendEvent_ok h with ⟨h, -⟩ | ⟨hnone, -, -⟩
  · exact h
  · have hsome : m.events.get (D.event record) = some ⟨record, previous⟩ := Table.get_of_mem hm
    rw [hnone] at hsome
    cases hsome

theorem mem_of_appendEvent {record : CorporateActionRecord} {previous : Option Hash}
    (h : m.appendEvent record previous = .ok (outcome, m')) : ⟨record, previous⟩ ∈ m'.events.rows := by
  rcases appendEvent_ok h with ⟨rfl, h⟩ | ⟨hnone, -, rfl⟩
  · exact h
  · exact (Table.mem_add_iff hnone).mpr (.inr rfl)

theorem recordDecision_ok {d : QuarantineDecision} (h : m.recordDecision d = .ok (outcome, m')) :
    m' = m ∧ m.decisions.get (D.decision d) = some d ∨
      m.decisions.get (D.decision d) = none ∧ m' = { m with decisions := m.decisions.add d } := by
  unfold recordDecision at h
  split at h
  · rename_i existing he
    unfold throwing at h
    split_ifs at h with hne
    cases h
    obtain rfl : existing = d := not_not.mp hne
    exact .inl ⟨rfl, he⟩
  · rename_i hnone
    cases h
    exact .inr ⟨hnone, rfl⟩

/-- The rows of a lineage are stored rows. -/
theorem mem_of_eventLineage {eventId : EventId} {lineage : List CorporateActionRecord}
    (h : m.eventLineage eventId = .ok lineage) :
    ∀ record ∈ lineage, ∃ row ∈ m.events.rows, row.record = record := by
  unfold eventLineage at h
  split at h
  · cases h
    simp
  · split at h
    · cases h
    · rename_i rows chain hchain
      obtain ⟨_, -, h⟩ := bind_ok.mp h
      cases h
      intro record hr
      obtain ⟨row, hrow, rfl⟩ := List.mem_map.mp hr
      exact ⟨row, List.mem_of_mem_filter (Linked.rebuild_subset hchain hrow), rfl⟩

end

end Master

end SevenLens.Securities
