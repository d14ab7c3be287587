import SevenLens.Orders

/-! # Control records, reconciliation results and account baselines

The records of the operator's control plane and of reconciliation, with the checks their
constructors make. -/

namespace SevenLens

/-! ### Control -/

inductive ControlCommand where
  | pauseEntries | resumeEntries | cancelOpenOrders | flattenPaper
deriving DecidableEq, Repr

/-- One audited application of an operator command. -/
@[ext] structure ControlCommandRecord where
  commandId : Uuid
  command : ControlCommand
  reason : String
  actor : String
  runId : Option Uuid
  requestedAt : UtcTimestamp
  appliedAt : Option UtcTimestamp
  commandId_ne : commandId.int ≠ 0
  reason_ok : IsIdText 200 reason
  actor_ok : IsIdText 100 actor
  applied_ok : ∀ t ∈ appliedAt, requestedAt ≤ t

instance : DecidableEq ControlCommandRecord := fun _ _ => decidable_of_iff' _ ControlCommandRecord.ext_iff

namespace ControlCommandRecord

def create (commandId : Uuid) (command : ControlCommand) (reason actor : String)
    (runId : Option Uuid) (requestedAt : UtcTimestamp) (appliedAt : Option UtcTimestamp) :
    Except PyError ControlCommandRecord :=
  if hid : commandId.int ≠ 0 then
    if hr : IsIdText 200 reason then
      if ha : IsIdText 100 actor then
        if ht : ∀ t ∈ appliedAt, requestedAt ≤ t then
          .ok ⟨commandId, command, reason, actor, runId, requestedAt, appliedAt, hid, hr, ha, ht⟩
        else .error ⟨.valueError, "applied_at must not precede requested_at"⟩
      else .error ⟨.valueError, "actor must be bounded text"⟩
    else .error ⟨.valueError, "reason must be bounded text"⟩
  else .error ⟨.valueError, "command_id must be a non-nil UUID"⟩

end ControlCommandRecord

/-- The pause singleton.  A pause carries a reason, a resume clears it. -/
structure ControlStateSnapshot where
  entriesPaused : Bool
  pausedReason : Option String
  updatedAt : UtcTimestamp
  flattenGeneration : Nat
  reason_iff : entriesPaused = pausedReason.isSome
  reason_ok : ∀ r ∈ pausedReason, IsBoundedText 200 r
deriving DecidableEq

/-! ### Reconciliation results -/

inductive ReconciliationStatus where
  | clean | mismatch
deriving DecidableEq, Repr

/-- The authority boundary covered by one reconciliation run. -/
inductive ReconciliationScope where
  | partialScope | fullScope
deriving DecidableEq, Repr

inductive MismatchKind where
  | nonPaperAccount | unknownBrokerOrder | missingBrokerOrder | parameterMismatch | statusMismatch
  | intentStatusMismatch | brokerQueryFailure | missingLocalFill | positionQuantityMismatch
  | positionSymbolMismatch | localLedgerInvariant | accountIdMismatch | cashMismatch | navMismatch
  | buyingPowerMismatch | accountReconciliationUnavailable
deriving DecidableEq, Repr

/-- What the detail of a mismatch must satisfy. -/
def IsDetail (s : String) : Prop := s ≠ "" ∧ s.length ≤ 200 ∧ hasNul s = false

instance (s : String) : Decidable (IsDetail s) := inferInstanceAs (Decidable (_ ∧ _))

structure ReconciliationMismatch where
  kind : MismatchKind
  detail : String
  ok : IsDetail detail
deriving DecidableEq

namespace ReconciliationMismatch

def create (kind : MismatchKind) (detail : String) : Except PyError ReconciliationMismatch :=
  if h : IsDetail detail then .ok ⟨kind, detail, h⟩
  else .error ⟨.valueError, "mismatch detail must be bounded text"⟩

end ReconciliationMismatch

def maxMismatches : Nat := 10000

@[ext] structure ReconciliationResult where
  runId : Uuid
  tradingDate : TradingDate
  status : ReconciliationStatus
  mismatches : List ReconciliationMismatch
  checkedOrders : Nat
  checkedFills : Nat
  observedAt : UtcTimestamp
  scope : ReconciliationScope
  runId_ne : runId.int ≠ 0
  bounded : mismatches.length ≤ maxMismatches
  status_iff : status = .clean ↔ mismatches = []

instance : DecidableEq ReconciliationResult := fun _ _ => decidable_of_iff' _ ReconciliationResult.ext_iff

namespace ReconciliationResult

/-- Only a clean run of the full scope may resume entries. -/
def isResumeSafe (r : ReconciliationResult) : Bool := r.status == .clean && r.scope == .fullScope

def create (tradingDate : TradingDate) (mismatches : List ReconciliationMismatch)
    (checkedOrders checkedFills : Nat) (observedAt : UtcTimestamp) (runId : Uuid)
    (scope : ReconciliationScope) : Except PyError ReconciliationResult :=
  if hid : runId.int ≠ 0 then
    if hb : mismatches.length ≤ maxMismatches then
      .ok { runId, tradingDate, status := if mismatches = [] then .clean else .mismatch, mismatches,
            checkedOrders, checkedFills, observedAt, scope, runId_ne := hid, bounded := hb,
            status_iff := by split <;> simp_all }
    else .error ⟨.valueError, "reconciliation produced too many mismatches"⟩
  else .error ⟨.valueError, "run_id must be a non-nil UUID"⟩

theorem create_ok {d : TradingDate} {ms : List ReconciliationMismatch} {n k : Nat} {t : UtcTimestamp}
    {id : Uuid} {scope : ReconciliationScope} {r : ReconciliationResult}
    (h : create d ms n k t id scope = .ok r) :
    r.runId = id ∧ r.mismatches = ms ∧ r.checkedOrders = n ∧ r.checkedFills = k ∧ r.observedAt = t := by
  unfold create at h
  split at h
  · split at h
    · cases h
      exact ⟨rfl, rfl, rfl, rfl, rfl⟩
    · cases h
  · cases h

end ReconciliationResult

/-! ### Account baselines -/

def maxOpeningCashCents : Nat := 100000000000

/-- Authoritative opening cash for one Paper account, in the fields reconciliation reads. -/
structure AccountBaseline where
  accountId : String
  openingCashCents : Nat
  effectiveAt : UtcTimestamp
  createdAt : UtcTimestamp
  cutoffOccurredAt : Option UtcTimestamp
  cutoffExecutionId : Option String
  account_ok : IsBoundedText 100 accountId
  cash_ok : openingCashCents ≤ maxOpeningCashCents
deriving DecidableEq

end SevenLens
