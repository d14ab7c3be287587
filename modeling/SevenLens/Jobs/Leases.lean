import SevenLens.Library.Lease
import SevenLens.Library.Table
import SevenLens.OrderKeys

/-! # Jobs and their leases

A job of a trading day is carried out by whoever holds its lease.  The functions of the database that
acquire, renew and release a lease, and the one that moves the status of a job, read and write the row of
the job under a lock that is kept until the transaction ends, so that transactions on one job follow one
another.  A statement that waits for the lock compares with the instant at which it was issued: the instants
of consecutive statements need not increase. -/

namespace SevenLens.Jobs

/-! ### Jobs -/

inductive JobStatus where
  | planned | running | complete | failed | expired
deriving DecidableEq, Repr

def jobComponentPattern : Pattern := .cat [.cls isLowerOrDigit, .upTo 63 isNameChar]

structure JobSpec where
  tradingDate : TradingDate
  jobType : String
  window : String
  jobType_ok : jobComponentPattern.fullmatch jobType = true
  window_ok : jobComponentPattern.fullmatch window = true
deriving DecidableEq

/-- The identity of a scheduled job. -/
def JobSpec.jobKey (s : JobSpec) : String := s.tradingDate.isoformat ++ "/" ++ s.jobType ++ "/" ++ s.window

def isOwnerStart (c : Char) : Bool := isUpper c || isLowerOrDigit c

/-- The class `[-A-Za-z0-9._:@/]`. -/
def isOwnerChar (c : Char) : Bool :=
  isOwnerStart c || c == '.' || c == '_' || c == ':' || c == '@' || c == '/' || c == '-'

def leaseOwnerPattern : Pattern := .cat [.cls isOwnerStart, .upTo 199 isOwnerChar]

/-- Text that `validate_lease_owner` accepts. -/
structure LeaseOwner where
  value : String
  ok : leaseOwnerPattern.fullmatch value = true
deriving DecidableEq

/-- An instant of the database clock, in microseconds. -/
abbrev Timestamp : Type := Nat

/-- Longer than nothing and at most a day. -/
structure LeaseDuration where
  micros : Nat
  ok : 0 < micros ∧ micros ≤ dayMicros

structure LeaseGrant where
  jobKey : String
  leaseOwner : LeaseOwner
  leasedUntil : Timestamp
  fencingToken : Nat
  attemptCount : Nat
  databaseTime : Timestamp
  jobKey_ne : jobKey ≠ ""
  positive : 1 ≤ fencingToken ∧ 1 ≤ attemptCount
  until_gt : databaseTime < leasedUntil

/-! ### Tables -/

/-- A row of `job_instances`; owner and end of the lease are both null or both not. -/
structure JobInstance where
  spec : JobSpec
  status : JobStatus
  lease : Option (LeaseOwner × Timestamp)
  fencingToken : Nat
  attemptCount : Nat
  createdAt : Timestamp
  updatedAt : Timestamp

def JobInstance.jobKey (j : JobInstance) : String := j.spec.jobKey

/-- A row of `job_leases`. -/
structure LeaseRow where
  jobKey : String
  owner : LeaseOwner
  fencingToken : Nat
  acquiredAt : Timestamp
  lastRenewedAt : Timestamp
  leasedUntil : Timestamp
  released : Option (Timestamp × String)
  token_pos : 1 ≤ fencingToken
  acquired_lt : acquiredAt < leasedUntil

/-- The row of a tenure that is not closed. -/
def LeaseRow.IsOpen (r : LeaseRow) (key : String) (owner : LeaseOwner) (token : Nat) : Prop :=
  r.jobKey = key ∧ r.owner = owner ∧ r.fencingToken = token ∧ r.released = none

instance (r : LeaseRow) (key : String) (owner : LeaseOwner) (token : Nat) : Decidable (r.IsOpen key owner token) :=
  inferInstanceAs (Decidable (_ ∧ _))

structure JobDb where
  jobs : Table JobInstance.jobKey
  leases : List LeaseRow

def JobDb.empty : JobDb := ⟨Table.empty, []⟩

def maxAttemptCount : Nat := 2147483647

def databaseError {α : Type} (message : String) : Except PyError α := .error ⟨.database, message⟩

/-- The trigger of `job_instances`: a status moves under the asserted owner and token of a running lease,
and lease columns change in the lease functions. -/
def guardJobInstanceStatusWrite (now : Timestamp) (asserted : Option (LeaseOwner × Nat)) (authorized : Bool)
    (old new : JobInstance) : Except PyError JobInstance :=
  if new.spec ≠ old.spec then databaseError "job identity fields are immutable"
  else if new.status ≠ old.status ∧
      ¬ (asserted = old.lease.map (fun l => (l.1, old.fencingToken)) ∧ ∃ l ∈ old.lease, now < l.2) then
    databaseError "job status write requires the current unexpired owner and fencing token"
  else if (new.lease ≠ old.lease ∨ new.fencingToken ≠ old.fencingToken ∨ new.attemptCount ≠ old.attemptCount) ∧
      authorized = false then
    databaseError "job lease fields may only be changed by lease functions"
  else .ok { new with updatedAt := now }

/-- `UPDATE job_leases` with the end of a prolonged lease. -/
def extendLeases (now : Timestamp) (key : String) (owner : LeaseOwner) (token : Nat) (leasedUntil : Timestamp)
    (leases : List LeaseRow) : Except PyError (List LeaseRow) :=
  leases.mapM (fun r =>
    if r.IsOpen key owner token then
      if h : r.acquiredAt < leasedUntil then .ok { r with leasedUntil, lastRenewedAt := now, acquired_lt := h }
      else databaseError "new row for relation \"job_leases\" violates check constraint"
    else .ok r)

/-- `UPDATE job_leases` with the end of a tenure. -/
def closeLeases (now : Timestamp) (key : String) (owner : LeaseOwner) (token : Nat) (reason : String)
    (leases : List LeaseRow) : List LeaseRow :=
  leases.map (fun r => if r.IsOpen key owner token then { r with released := some (now, reason) } else r)

/-- `INSERT INTO job_leases` under its two unique indexes. -/
def insertLease (row : LeaseRow) (leases : List LeaseRow) : Except PyError (List LeaseRow) :=
  if ∃ r ∈ leases, r.jobKey = row.jobKey ∧ r.fencingToken = row.fencingToken then
    databaseError "duplicate key value violates unique constraint \"job_leases_job_key_fencing_token_key\""
  else if ∃ r ∈ leases, r.jobKey = row.jobKey ∧ r.released = none then
    databaseError "duplicate key value violates unique constraint \"job_leases_one_open_per_job_idx\""
  else .ok (leases ++ [row])

/-! ### Statements -/

theorem JobSpec.jobKey_ne (s : JobSpec) : s.jobKey ≠ "" := by
  intro h
  have := congrArg String.length h
  simp [JobSpec.jobKey, String.length_append] at this

/-- `add` of the repository. -/
def addJob (now : Timestamp) (spec : JobSpec) (db : JobDb) : Except PyError (JobInstance × JobDb) :=
  match db.jobs.get spec.jobKey with
  | some job =>
    if job.spec ≠ spec then .error ⟨.persistenceInvariant, "job key is bound to a different immutable job specification"⟩
    else .ok (job, db)
  | none =>
    if ∃ j ∈ db.jobs.rows, j.spec.tradingDate = spec.tradingDate ∧ j.spec.jobType = spec.jobType ∧
        j.spec.window = spec.window then
      databaseError "duplicate key value violates unique constraint \"job_instances_trading_date_job_type_window_name_key\""
    else
      let job : JobInstance := ⟨spec, .planned, none, 0, 0, now, now⟩
      .ok (job, { db with jobs := db.jobs.add job })

/-- The tenure that an acquisition takes over from. -/
def closeExpired (now : Timestamp) (candidate : JobInstance) (leases : List LeaseRow) : Except PyError (List LeaseRow) :=
  match candidate.lease with
  | none => .ok leases
  | some l =>
    if leases.countP (·.IsOpen candidate.jobKey l.1 candidate.fencingToken) ≠ 1 then
      databaseError "expired job lease history is missing or inconsistent"
    else .ok (closeLeases now candidate.jobKey l.1 candidate.fencingToken "EXPIRED_TAKEOVER" leases)

/-- `acquire_job_lease` -/
def acquireJobLease (now : Timestamp) (key owner : String) (duration : LeaseDuration) (db : JobDb) :
    Except PyError (Option LeaseGrant × JobDb) :=
  if h : leaseOwnerPattern.fullmatch owner = true then
    if key.toList.all (· == ' ') then databaseError "job key must be non-empty text"
    else match db.jobs.get key with
    | none => .ok (none, db)
    | some candidate =>
      if ∃ l ∈ candidate.lease, now < l.2 then .ok (none, db)
      else do
        if maxAttemptCount ≤ candidate.attemptCount then databaseError "integer out of range" else .ok ()
        let claimed ← guardJobInstanceStatusWrite now none true candidate
          { candidate with
            lease := some (⟨owner, h⟩, now + duration.micros)
            fencingToken := candidate.fencingToken + 1
            attemptCount := candidate.attemptCount + 1 }
        let leases ← closeExpired now candidate db.leases
        let leases ← insertLease
          ⟨candidate.jobKey, ⟨owner, h⟩, candidate.fencingToken + 1, now, now, now + duration.micros, none,
            Nat.le_add_left 1 _, Nat.lt_add_of_pos_right duration.ok.1⟩ leases
        return (some ⟨candidate.jobKey, ⟨owner, h⟩, now + duration.micros, candidate.fencingToken + 1,
            candidate.attemptCount + 1, now, candidate.spec.jobKey_ne, ⟨Nat.le_add_left 1 _, Nat.le_add_left 1 _⟩,
            Nat.lt_add_of_pos_right duration.ok.1⟩, ⟨db.jobs.put claimed, leases⟩)
  else databaseError "lease owner must use the canonical bounded owner format"

/-- The row that the `WHERE` clause of the other lease functions finds. -/
def heldJob (now : Timestamp) (grant : LeaseGrant) (db : JobDb) : Option (JobInstance × Timestamp) := do
  let job ← db.jobs.get grant.jobKey
  let l ← job.lease
  if l.1 = grant.leaseOwner ∧ job.fencingToken = grant.fencingToken ∧ now < l.2 then some (job, l.2) else none

/-- `renew_job_lease` -/
def renewJobLease (now : Timestamp) (grant : LeaseGrant) (duration : LeaseDuration) (db : JobDb) :
    Except PyError (Option LeaseGrant × JobDb) :=
  match heldJob now grant db with
  | none => .ok (none, db)
  | some (job, _) => do
    let renewed ← guardJobInstanceStatusWrite now none true job
      { job with lease := some (grant.leaseOwner, now + duration.micros) }
    let leases ← extendLeases now grant.jobKey grant.leaseOwner grant.fencingToken (now + duration.micros) db.leases
    if db.leases.countP (·.IsOpen grant.jobKey grant.leaseOwner grant.fencingToken) = 0 then
      databaseError "current job lease history is missing"
    else .ok ()
    if h : 1 ≤ job.attemptCount then
      return (some ⟨grant.jobKey, grant.leaseOwner, now + duration.micros, grant.fencingToken, job.attemptCount, now,
        grant.jobKey_ne, ⟨grant.positive.1, h⟩, Nat.lt_add_of_pos_right duration.ok.1⟩, ⟨db.jobs.put renewed, leases⟩)
    else .error ⟨.valueError, "attempt_count must be a positive integer"⟩

/-- `release_job_lease` -/
def releaseJobLease (now : Timestamp) (grant : LeaseGrant) (db : JobDb) : Except PyError (Bool × JobDb) :=
  match heldJob now grant db with
  | none => .ok (false, db)
  | some (job, _) => do
    let released ← guardJobInstanceStatusWrite now none true job { job with lease := none }
    if db.leases.countP (·.IsOpen grant.jobKey grant.leaseOwner grant.fencingToken) = 0 then
      databaseError "current job lease history is missing"
    else .ok ()
    return (true, ⟨db.jobs.put released,
      closeLeases now grant.jobKey grant.leaseOwner grant.fencingToken "released_by_owner" db.leases⟩)

/-- `transition_job_status` -/
def transitionJobStatus (now : Timestamp) (grant : LeaseGrant) (status : JobStatus) (db : JobDb) :
    Except PyError (Option JobInstance × JobDb) :=
  match heldJob now grant db with
  | none => .ok (none, db)
  | some (job, _) => do
    let moved ← guardJobInstanceStatusWrite now (some (grant.leaseOwner, grant.fencingToken)) false job
      { job with status }
    return (some moved, { db with jobs := db.jobs.put moved })

/-! ### Runs -/

/-- A call of the job repository. -/
inductive Statement where
  | add (spec : JobSpec)
  | get (key : String)
  | acquire (key owner : String) (duration : LeaseDuration)
  | renew (grant : LeaseGrant) (duration : LeaseDuration)
  | release (grant : LeaseGrant)
  | setStatus (grant : LeaseGrant) (status : JobStatus)

inductive Reply where
  | job (job : Option JobInstance)
  | grant (grant : Option LeaseGrant)
  | released (released : Bool)

namespace Statement

def exec (now : Timestamp) : Statement → JobDb → Except PyError (Reply × JobDb)
  | add spec, db => (addJob now spec db).map (Prod.map (.job ∘ some) id)
  | get key, db => .ok (.job (db.jobs.get key), db)
  | acquire key owner duration, db => (acquireJobLease now key owner duration db).map (Prod.map .grant id)
  | renew grant duration, db => (renewJobLease now grant duration db).map (Prod.map .grant id)
  | release grant, db => (releaseJobLease now grant db).map (Prod.map .released id)
  | setStatus grant status, db => (transitionJobStatus now grant status db).map (Prod.map .job id)

abbrev Event : Type := Lease.Event LeaseOwner Timestamp JobStatus

/-- What a statement did to the lease of a job, read off the reply. -/
def event (now : Timestamp) : Statement → Reply → Option (String × Event)
  | acquire .., .grant (some g) => some (g.jobKey, ⟨.acquire, g.leaseOwner, g.fencingToken, now, g.leasedUntil⟩)
  | renew .., .grant (some g) => some (g.jobKey, ⟨.renew, g.leaseOwner, g.fencingToken, now, g.leasedUntil⟩)
  | release g, .released true => some (g.jobKey, ⟨.release, g.leaseOwner, g.fencingToken, now, now⟩)
  | setStatus g status, .job (some job) =>
    job.lease.map (fun l => (g.jobKey, ⟨.use status, g.leaseOwner, g.fencingToken, now, l.2⟩))
  | _, _ => none

end Statement

/-- The tables after a run, and what the replies told about the leases. -/
structure Run where
  db : JobDb
  events : List (String × Statement.Event)

namespace Run

def start : Run := ⟨.empty, []⟩

/-- A statement of some client; one that raises is rolled back. -/
def step (r : Run) (call : Timestamp × Statement) : Run :=
  match call.2.exec call.1 r.db with
  | .ok (reply, db) => ⟨db, r.events ++ (call.2.event call.1 reply).toList⟩
  | .error _ => r

/-- The committed statements of all clients, in the order in which they had the lock. -/
def of (calls : List (Timestamp × Statement)) : Run := calls.foldl step start

/-- The events of one job. -/
def history (r : Run) (key : String) : List Statement.Event :=
  r.events.filterMap (fun e => if e.1 = key then some e.2 else none)

end Run

end SevenLens.Jobs
