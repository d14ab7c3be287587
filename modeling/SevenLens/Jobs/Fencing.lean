import SevenLens.Jobs.Leases
import SevenLens.Library.Dict

/-! # The fences of the job leases

Whatever statements the clients send, with grants of their own making and instants in any order, each job
has a history of tenures (`jobs_fenced`), and the rows of `job_leases` are the records of that history
(`leases_recorded`).  The lease functions never find the rows in disorder: what they raise is about their
arguments, the bound of the attempt counter, or a lease that would end before it began. -/

namespace SevenLens.Jobs

open Lease Statement

/-! ### Job keys -/

theorem jobKey_toList (s : JobSpec) :
    s.jobKey.toList = s.tradingDate.isoformat.toList ++ '/' :: (s.jobType.toList ++ '/' :: s.window.toList) := by
  have hslash : "/".toList = ['/'] := rfl
  simp only [JobSpec.jobKey, String.toList_append, List.append_assoc, hslash, List.cons_append, List.nil_append]

theorem jobComponent_no_slash {s : String} (h : jobComponentPattern.fullmatch s = true) : '/' ∉ s.toList := by
  have hwithin : jobComponentPattern.Within (isNameChar · = true) :=
    ⟨fun _ hc => by simp [isNameChar, hc], fun _ hc => hc, trivial⟩
  intro hslash
  exact absurd (Pattern.all_of_fullmatch hwithin h '/' hslash) (by decide)

theorem isoformat_no_slash (d : TradingDate) : '/' ∉ d.isoformat.toList := by
  rw [d.toList_isoformat]
  simp only [List.mem_append, List.mem_cons, not_or]
  have hdigits : ∀ w n : Nat, '/' ∉ Nat.padded w n := fun w n hslash =>
    absurd (Nat.allDigits_padded w n '/' hslash) (by decide)
  exact ⟨hdigits _ _, by decide, hdigits _ _, by decide, hdigits _ _⟩

/-- A text is cut in one way at its first separator. -/
theorem cut_injective {sep : Char} {a b x y : List Char} (ha : sep ∉ a) (hb : sep ∉ b) (h : a ++ sep :: x = b ++ sep :: y) :
    a = b ∧ x = y := by
  induction a generalizing b with
  | nil =>
    cases b with
    | nil => exact ⟨rfl, (List.cons.inj h).2⟩
    | cons c b => exact absurd List.mem_cons_self ((List.cons.inj h).1 ▸ hb)
  | cons c a ih =>
    cases b with
    | nil => exact absurd List.mem_cons_self ((List.cons.inj h).1 ▸ ha)
    | cons d b =>
      obtain ⟨rfl, htail⟩ := List.cons.inj h
      obtain ⟨rfl, rfl⟩ := ih (fun hm => ha (List.mem_cons_of_mem _ hm)) (fun hm => hb (List.mem_cons_of_mem _ hm)) htail
      exact ⟨rfl, rfl⟩

/-- A key names one job. -/
theorem jobKey_injective : Function.Injective JobSpec.jobKey := by
  intro s t h
  have hlist := congrArg String.toList h
  rw [jobKey_toList, jobKey_toList] at hlist
  obtain ⟨hdate, hrest⟩ := cut_injective (isoformat_no_slash _) (isoformat_no_slash _) hlist
  obtain ⟨htype, hwindow⟩ := cut_injective (jobComponent_no_slash s.jobType_ok) (jobComponent_no_slash t.jobType_ok) hrest
  cases s
  cases t
  obtain rfl := TradingDate.isoformat_inj hdate
  obtain rfl := String.toList_injective htype
  obtain rfl := String.toList_injective hwindow
  rfl

/-! ### Rows and records -/

/-- The lease of a job. -/
def JobInstance.leaseState (j : JobInstance) : Lease.State LeaseOwner Timestamp := ⟨j.fencingToken, j.lease⟩

/-- A row of `job_leases` as the record of a tenure. -/
def LeaseRow.tenure (r : LeaseRow) : Tenure LeaseOwner Timestamp where
  owner := r.owner
  token := r.fencingToken
  began := r.acquiredAt
  renewed := r.lastRenewedAt
  expires := r.leasedUntil
  closed := r.released.map (fun x => (x.1, x.2 == "released_by_owner"))

/-- The rows of one job. -/
def recordsOf (leases : List LeaseRow) (key : String) : List (Tenure LeaseOwner Timestamp) :=
  (leases.filter (·.jobKey = key)).map LeaseRow.tenure

/-- The tables fit each other. -/
structure JobDb.Consistent (db : JobDb) : Prop where
  recorded : ∀ job ∈ db.jobs.rows, Recorded job.leaseState (recordsOf db.leases job.jobKey)
  attempts : ∀ job ∈ db.jobs.rows, job.attemptCount = job.fencingToken
  missing : ∀ key, db.jobs.get key = none → recordsOf db.leases key = []

theorem LeaseRow.tenure_closed (r : LeaseRow) : r.tenure.closed = none ↔ r.released = none := by
  simp [LeaseRow.tenure]

theorem mem_recordsOf {leases : List LeaseRow} {r : LeaseRow} (h : r ∈ leases) : r.tenure ∈ recordsOf leases r.jobKey :=
  List.mem_map_of_mem (List.mem_filter.mpr ⟨h, by simp⟩)

section Rows

variable {leases : List LeaseRow} {key : String} {s : Lease.State LeaseOwner Timestamp} {o : LeaseOwner} {t : Timestamp}

/-- The open row of a job is the one of its holder. -/
theorem isOpen_iff (h : Recorded s (recordsOf leases key)) (hs : s.holder = some (o, t)) {r : LeaseRow} (hr : r ∈ leases)
    (hk : r.jobKey = key) : r.IsOpen key o s.token ↔ r.released = none := by
  constructor
  · exact fun hopen => hopen.2.2.2
  · intro hn
    obtain ⟨-, hholder, htoken⟩ := h.of_open (hk ▸ mem_recordsOf hr) (r.tenure_closed.mpr hn)
    rw [hs] at hholder
    exact ⟨hk, (Prod.mk.inj (Option.some.inj hholder)).1.symm, htoken, hn⟩

theorem countP_isOpen (h : Recorded s (recordsOf leases key)) (hs : s.holder = some (o, t)) :
    leases.countP (fun r => decide (r.IsOpen key o s.token)) = 1 := by
  rw [← h.countP_open (by simp [hs]), recordsOf, List.countP_map, List.countP_filter]
  refine List.countP_congr fun r hr => ?_
  by_cases hk : r.jobKey = key
  · simpa [hk, r.tenure_closed] using isOpen_iff h hs hr hk
  · simp [hk, LeaseRow.IsOpen]

theorem recordsOf_map {f : LeaseRow → LeaseRow} (hkey : ∀ r, (f r).jobKey = r.jobKey) :
    recordsOf (leases.map f) key = (leases.filter (·.jobKey = key)).map (fun r => (f r).tenure) := by
  rw [recordsOf, List.filter_map, List.map_map]
  congr 1
  exact List.filter_congr fun r _ => by simp [hkey]

theorem recordsOf_close_self (h : Recorded s (recordsOf leases key)) (hs : s.holder = some (o, t)) (now : Timestamp)
    (reason : String) : recordsOf (closeLeases now key o s.token reason leases) key =
      (recordsOf leases key).map (·.close now (reason == "released_by_owner")) := by
  rw [closeLeases, recordsOf_map (by intro r; split <;> rfl), recordsOf, List.map_map]
  refine List.map_congr_left fun r hr => ?_
  obtain ⟨hr, hk⟩ := List.mem_filter.mp hr
  have hiff := isOpen_iff h hs hr (by simpa using hk)
  by_cases hn : r.released = none
  · rw [if_pos (hiff.mpr hn), Function.comp_apply, Tenure.close, if_pos (r.tenure_closed.mpr hn)]
    rfl
  · rw [if_neg (mt hiff.mp hn), Function.comp_apply, Tenure.close, if_neg (mt r.tenure_closed.mp hn)]

theorem recordsOf_close_ne {key' : String} (hne : key' ≠ key) (now : Timestamp) (n : Nat) (reason : String) :
    recordsOf (closeLeases now key o n reason leases) key' = recordsOf leases key' := by
  rw [closeLeases, recordsOf_map (by intro r; split <;> rfl), recordsOf]
  refine List.map_congr_left fun r hr => ?_
  have hk : r.jobKey = key' := by simpa using (List.mem_filter.mp hr).2
  rw [if_neg fun hopen => hne (hk.symm.trans hopen.1)]

theorem recordsOf_append (row : LeaseRow) : recordsOf (leases ++ [row]) key =
    recordsOf leases key ++ if row.jobKey = key then [row.tenure] else [] := by
  by_cases hk : row.jobKey = key <;> simp [recordsOf, hk]

end Rows

/-! ### Statements -/

/-- The status after an event. -/
def statusAfter (status : JobStatus) (e : Statement.Event) : JobStatus :=
  match e.kind with
  | .use s => s
  | _ => status

/-- What a statement can do, and the event that it reports. -/
inductive Effect (now : Timestamp) (db : JobDb) : Option (String × Statement.Event) → JobDb → Prop
  | silent : Effect now db none db
  | planned (spec : JobSpec) (fresh : db.jobs.get spec.jobKey = none) :
      Effect now db none { db with jobs := db.jobs.add ⟨spec, .planned, none, 0, 0, now, now⟩ }
  | done {job job' : JobInstance} {e : Statement.Event} {leases : List LeaseRow}
      (found : db.jobs.get job.jobKey = some job) (spec : job'.spec = job.spec) (allowed : Allowed job.leaseState e)
      (state : job'.leaseState = e.after) (status : job'.status = statusAfter job.status e)
      (attempts : job'.attemptCount + job.fencingToken = job.attemptCount + e.token) (time : e.time = now)
      (records : ∀ key, recordsOf leases key =
        if key = job.jobKey then recordEvent (recordsOf db.leases key) e else recordsOf db.leases key) :
      Effect now db (some (job.jobKey, e)) ⟨db.jobs.put job', leases⟩

section Exec

variable {now : Timestamp} {db : JobDb}

theorem guard_lease {old new : JobInstance} (hspec : new.spec = old.spec) (hstatus : new.status = old.status) :
    guardJobInstanceStatusWrite now none true old new = .ok { new with updatedAt := now } := by
  simp [guardJobInstanceStatusWrite, hspec, hstatus]

theorem guard_status {old : JobInstance} {o : LeaseOwner} {t : Timestamp} (hlease : old.lease = some (o, t)) (ht : now < t)
    (status : JobStatus) : guardJobInstanceStatusWrite now (some (o, old.fencingToken)) false old { old with status } =
      .ok { old with status, updatedAt := now } := by
  simp [guardJobInstanceStatusWrite, hlease, ht]

theorem heldJob_eq_some {grant : LeaseGrant} {job : JobInstance} {t : Timestamp} : heldJob now grant db = some (job, t) ↔
    db.jobs.get grant.jobKey = some job ∧ job.lease = some (grant.leaseOwner, t) ∧ job.fencingToken = grant.fencingToken ∧
      now < t := by
  cases hget : db.jobs.get grant.jobKey with
  | none => simp [heldJob, hget]
  | some j =>
    cases hlease : j.lease with
    | none =>
      simp only [heldJob, hget, hlease, Option.bind_eq_bind, Option.bind_some, Option.bind_none, reduceCtorEq, Option.some.injEq,
        false_iff, not_and]
      rintro rfl h
      rw [hlease] at h
      cases h
    | some l =>
      obtain ⟨o, u⟩ := l
      simp only [heldJob, hget, hlease, Option.bind_eq_bind, Option.bind_some, Option.ite_none_right_eq_some, Option.some.injEq,
        Prod.mk.injEq]
      constructor
      · rintro ⟨⟨rfl, ht, hlt⟩, rfl, rfl⟩
        exact ⟨rfl, hlease, ht, hlt⟩
      · rintro ⟨rfl, h, ht, hlt⟩
        rw [hlease] at h
        obtain ⟨rfl, rfl⟩ := Prod.mk.inj (Option.some.inj h)
        exact ⟨⟨rfl, ht, hlt⟩, rfl, rfl⟩

/-- The rows once the expired tenure of a job is closed. -/
def takenOver (now : Timestamp) (job : JobInstance) (leases : List LeaseRow) : List LeaseRow :=
  match job.lease with
  | none => leases
  | some l => closeLeases now job.jobKey l.1 job.fencingToken "EXPIRED_TAKEOVER" leases

theorem recordsOf_takenOver_ne {job : JobInstance} {leases : List LeaseRow} {key : String} (hne : key ≠ job.jobKey) :
    recordsOf (takenOver now job leases) key = recordsOf leases key := by
  unfold takenOver
  cases job.lease with
  | none => rfl
  | some l => exact recordsOf_close_ne hne now _ _

theorem recordsOf_takenOver {job : JobInstance} {leases : List LeaseRow}
    (h : Recorded job.leaseState (recordsOf leases job.jobKey)) :
    recordsOf (takenOver now job leases) job.jobKey = (recordsOf leases job.jobKey).map (·.close now false) := by
  cases hlease : job.lease with
  | none =>
    have hclosed : ∀ r ∈ recordsOf leases job.jobKey, r.closed ≠ none := by
      intro r hr ho
      have := (h.of_open hr ho).2.1
      simp [JobInstance.leaseState, hlease] at this
    rw [takenOver, hlease, map_eq_self_of_closed hclosed fun q hq => by simp [Tenure.close, hq]]
  | some l =>
    rw [takenOver, hlease]
    exact recordsOf_close_self (s := job.leaseState) (t := l.2) h hlease now "EXPIRED_TAKEOVER"

/-- A new row finds its place. -/
theorem insertLease_takenOver {job : JobInstance} {leases : List LeaseRow} {row : LeaseRow}
    (h : Recorded job.leaseState (recordsOf leases job.jobKey)) (hkey : row.jobKey = job.jobKey)
    (htoken : row.fencingToken = job.fencingToken + 1) :
    insertLease row (takenOver now job leases) = .ok (takenOver now job leases ++ [row]) := by
  have hrecords : recordsOf (takenOver now job leases) job.jobKey = _ := recordsOf_takenOver h
  have htenure : ∀ r ∈ takenOver now job leases, r.jobKey = row.jobKey →
      ∃ q ∈ recordsOf leases job.jobKey, r.tenure = q.close now false := by
    intro r hr hk
    have hmem := mem_recordsOf hr
    rw [hk, hkey, hrecords, List.mem_map] at hmem
    obtain ⟨q, hq, he⟩ := hmem
    exact ⟨q, hq, he.symm⟩
  rw [insertLease, if_neg, if_neg]
  · rintro ⟨r, hr, hk, hopen⟩
    obtain ⟨q, -, he⟩ := htenure r hr hk
    have hclosed := r.tenure_closed.mpr hopen
    rw [he, Tenure.close] at hclosed
    split at hclosed
    · cases hclosed
    · exact absurd hclosed ‹_›
  · rintro ⟨r, hr, hk, hn⟩
    obtain ⟨q, hq, he⟩ := htenure r hr hk
    have hmem : q.token ∈ List.range' 1 job.fencingToken := by
      have : q.token ∈ (recordsOf leases job.jobKey).map Tenure.token := List.mem_map_of_mem hq
      rwa [h.tokens] at this
    have hq' : r.fencingToken = q.token := by
      have := congrArg Tenure.token he
      rw [Tenure.close] at this
      split at this <;> exact this
    rw [List.mem_range'_1] at hmem
    omega

theorem closeExpired_eq {job : JobInstance} {leases : List LeaseRow}
    (h : Recorded job.leaseState (recordsOf leases job.jobKey)) :
    closeExpired now job leases = .ok (takenOver now job leases) := by
  unfold closeExpired takenOver
  cases hlease : job.lease with
  | none => rfl
  | some l => exact if_neg (not_not.mpr (countP_isOpen (s := job.leaseState) (t := l.2) h hlease))

/-- What an acquisition writes and returns. -/
theorem acquireJobLease_eq (hdb : db.Consistent) {key owner : String} (d : LeaseDuration)
    (howner : leaseOwnerPattern.fullmatch owner = true) (hkey : ¬ key.toList.all (· == ' ') = true) {job : JobInstance}
    (hget : db.jobs.get key = some job) (hfree : ¬ ∃ l ∈ job.lease, now < l.2) (hmax : job.attemptCount < maxAttemptCount) :
    acquireJobLease now key owner d db = .ok
      (some ⟨job.jobKey, ⟨owner, howner⟩, now + d.micros, job.fencingToken + 1, job.attemptCount + 1, now,
          job.spec.jobKey_ne, ⟨Nat.le_add_left 1 _, Nat.le_add_left 1 _⟩, Nat.lt_add_of_pos_right d.ok.1⟩,
        ⟨db.jobs.put { job with
            lease := some (⟨owner, howner⟩, now + d.micros)
            fencingToken := job.fencingToken + 1
            attemptCount := job.attemptCount + 1
            updatedAt := now },
          takenOver now job db.leases ++ [⟨job.jobKey, ⟨owner, howner⟩, job.fencingToken + 1, now, now, now + d.micros, none,
            Nat.le_add_left 1 _, Nat.lt_add_of_pos_right d.ok.1⟩]⟩) := by
  have hrecorded := hdb.recorded job (Table.mem_of_get hget)
  rw [acquireJobLease, dif_pos howner, if_neg hkey, hget]
  simp only [if_neg hfree, if_neg (not_le.mpr hmax), guard_lease, closeExpired_eq hrecorded,
    insertLease_takenOver hrecorded, bind, Except.bind, pure, Except.pure]

theorem acquire_effect (hdb : db.Consistent) {key owner : String} {d : LeaseDuration} {g : Option LeaseGrant} {db' : JobDb}
    (h : acquireJobLease now key owner d db = .ok (g, db')) :
    Effect now db ((acquire key owner d).event now (.grant g)) db' := by
  by_cases howner : leaseOwnerPattern.fullmatch owner = true
  case neg => simp [acquireJobLease, howner, databaseError] at h
  by_cases hkey : key.toList.all (· == ' ') = true
  · simp [acquireJobLease, howner, hkey, databaseError] at h
  cases hget : db.jobs.get key with
  | none =>
    rw [acquireJobLease, dif_pos howner, if_neg hkey, hget] at h
    obtain ⟨rfl, rfl⟩ := Prod.mk.inj (Except.ok.inj h)
    exact .silent
  | some job =>
    obtain rfl : job.jobKey = key := Table.key_of_get hget
    by_cases hfree : ∃ l ∈ job.lease, now < l.2
    · rw [acquireJobLease, dif_pos howner, if_neg hkey, hget] at h
      simp only [if_pos hfree] at h
      obtain ⟨rfl, rfl⟩ := Prod.mk.inj (Except.ok.inj h)
      exact .silent
    by_cases hmax : maxAttemptCount ≤ job.attemptCount
    · rw [acquireJobLease, dif_pos howner, if_neg hkey, hget] at h
      simp only [if_neg hfree, if_pos hmax, databaseError, bind, Except.bind, reduceCtorEq] at h
    · rw [acquireJobLease_eq hdb d howner hkey hget hfree (not_le.mp hmax)] at h
      obtain ⟨rfl, rfl⟩ := Prod.mk.inj (Except.ok.inj h)
      have hrecorded := hdb.recorded job (Table.mem_of_get hget)
      refine .done hget rfl (.takeOver rfl rfl ?_) rfl rfl ?_ rfl ?_
      · exact fun l hl => not_lt.mp fun hlt => hfree ⟨l, hl, hlt⟩
      · simp only
        omega
      · intro key'
        rw [recordsOf_append]
        by_cases hk : key' = job.jobKey
        · subst hk
          rw [if_pos rfl, if_pos rfl, recordsOf_takenOver hrecorded]
          rfl
        · rw [if_neg hk, if_neg (Ne.symm hk), List.append_nil, recordsOf_takenOver_ne hk]

/-- The lease that a grant holds. -/
structure Holds (now : Timestamp) (db : JobDb) (grant : LeaseGrant) (job : JobInstance) (t : Timestamp) : Prop where
  found : db.jobs.get job.jobKey = some job
  key : job.jobKey = grant.jobKey
  lease : job.lease = some (grant.leaseOwner, t)
  token : job.fencingToken = grant.fencingToken
  live : now < t

theorem holds_of_held {grant : LeaseGrant} {job : JobInstance} {t : Timestamp} (h : heldJob now grant db = some (job, t)) :
    Holds now db grant job t := by
  obtain ⟨hget, hlease, htoken, hlt⟩ := heldJob_eq_some.mp h
  have hkey := Table.key_of_get hget
  exact ⟨by rw [hkey, hget], hkey, hlease, htoken, hlt⟩

theorem Holds.recorded {grant : LeaseGrant} {job : JobInstance} {t : Timestamp} (h : Holds now db grant job t)
    (hdb : db.Consistent) :
    Recorded ⟨grant.fencingToken, some (grant.leaseOwner, t)⟩ (recordsOf db.leases grant.jobKey) := by
  have := hdb.recorded job (Table.mem_of_get h.found)
  rwa [JobInstance.leaseState, h.lease, h.token, h.key] at this

theorem Holds.allowed {grant : LeaseGrant} {job : JobInstance} {t u : Timestamp} {kind : Kind JobStatus}
    (h : Holds now db grant job t) (hkind : kind ≠ .acquire) (hu : ∀ a, kind = .use a → u = t) :
    Allowed job.leaseState ⟨kind, grant.leaseOwner, grant.fencingToken, now, u⟩ :=
  .hold h.lease hkind h.token.symm h.live hu

theorem recordsOf_extend {key key' : String} {o : LeaseOwner} {n : Nat} {u : Timestamp} {leases leases' : List LeaseRow}
    (h : extendLeases now key o n u leases = .ok leases') : recordsOf leases' key' =
      (leases.filter (·.jobKey = key')).map
        (fun r => if r.IsOpen key o n then { r.tenure with renewed := now, expires := u } else r.tenure) := by
  have hrows := Dict.forall₂_of_mapM h
  induction hrows with
  | nil => rfl
  | @cons r r' leases leases' hr hrows ih =>
    have hpair : r'.jobKey = r.jobKey ∧ r'.tenure =
        if r.IsOpen key o n then { r.tenure with renewed := now, expires := u } else r.tenure := by
      split_ifs at hr ⊢ with hopen hlt
      · obtain rfl := Except.ok.inj hr
        exact ⟨rfl, rfl⟩
      · cases hr
      · obtain rfl := Except.ok.inj hr
        exact ⟨rfl, rfl⟩
    have htail := ih (Dict.mapM_of_forall₂ hrows)
    unfold recordsOf at htail ⊢
    by_cases hk : r.jobKey = key'
    · rw [List.filter_cons_of_pos (by simpa [hpair.1] using hk), List.filter_cons_of_pos (by simpa using hk), List.map_cons,
        List.map_cons, hpair.2, htail]
    · rw [List.filter_cons_of_neg (by simpa [hpair.1] using hk), List.filter_cons_of_neg (by simpa using hk), htail]

theorem recordsOf_extend_self {key : String} {s : Lease.State LeaseOwner Timestamp} {o : LeaseOwner} {t u : Timestamp}
    {leases leases' : List LeaseRow} (hrecorded : Recorded s (recordsOf leases key)) (hs : s.holder = some (o, t))
    (h : extendLeases now key o s.token u leases = .ok leases') :
    recordsOf leases' key = (recordsOf leases key).map (·.prolong now u) := by
  rw [recordsOf_extend h, recordsOf, List.map_map]
  refine List.map_congr_left fun r hr => ?_
  obtain ⟨hr, hk⟩ := List.mem_filter.mp hr
  have hiff := isOpen_iff hrecorded hs hr (by simpa using hk)
  rw [Function.comp_apply, Tenure.prolong]
  by_cases hn : r.released = none
  · rw [if_pos (hiff.mpr hn), if_pos (r.tenure_closed.mpr hn)]
  · rw [if_neg (mt hiff.mp hn), if_neg (mt r.tenure_closed.mp hn)]

theorem recordsOf_extend_ne {key key' : String} (hne : key' ≠ key) {o : LeaseOwner} {n : Nat} {u : Timestamp}
    {leases leases' : List LeaseRow} (h : extendLeases now key o n u leases = .ok leases') :
    recordsOf leases' key' = recordsOf leases key' := by
  rw [recordsOf_extend h, recordsOf]
  refine List.map_congr_left fun r hr => ?_
  have hk : r.jobKey = key' := by simpa using (List.mem_filter.mp hr).2
  rw [if_neg fun hopen => hne (hk.symm.trans hopen.1)]

theorem renew_effect (hdb : db.Consistent) {grant : LeaseGrant} {d : LeaseDuration} {g : Option LeaseGrant} {db' : JobDb}
    (h : renewJobLease now grant d db = .ok (g, db')) : Effect now db ((renew grant d).event now (.grant g)) db' := by
  cases hheld : heldJob now grant db with
  | none =>
    rw [renewJobLease, hheld] at h
    obtain ⟨rfl, rfl⟩ := Prod.mk.inj (Except.ok.inj h)
    exact .silent
  | some held =>
    obtain ⟨job, t⟩ := held
    have hholds := holds_of_held hheld
    have hrecorded := hholds.recorded hdb
    have hcount := countP_isOpen hrecorded rfl
    rw [renewJobLease, hheld] at h
    simp only [guard_lease, bind, Except.bind] at h
    cases hext : extendLeases now grant.jobKey grant.leaseOwner grant.fencingToken (now + d.micros) db.leases with
    | error e => simp only [hext, reduceCtorEq] at h
    | ok leases =>
      simp only [hext, hcount, one_ne_zero, if_false] at h
      split_ifs at h with hattempts
      obtain ⟨rfl, rfl⟩ := Prod.mk.inj (Except.ok.inj h)
      show Effect now db (some (grant.jobKey, ⟨.renew, grant.leaseOwner, grant.fencingToken, now, now + d.micros⟩)) _
      rw [← hholds.key] at hrecorded hext ⊢
      refine .done hholds.found rfl (hholds.allowed (by simp) (by simp)) ?_ rfl ?_ rfl ?_
      · simp [JobInstance.leaseState, Event.after, hholds.token]
      · simp [hholds.token]
      · intro key'
        by_cases hk : key' = job.jobKey
        · rw [hk, if_pos rfl]
          exact recordsOf_extend_self hrecorded rfl hext
        · rw [if_neg hk, recordsOf_extend_ne hk hext]

theorem release_effect (hdb : db.Consistent) {grant : LeaseGrant} {b : Bool} {db' : JobDb}
    (h : releaseJobLease now grant db = .ok (b, db')) : Effect now db ((release grant).event now (.released b)) db' := by
  cases hheld : heldJob now grant db with
  | none =>
    rw [releaseJobLease, hheld] at h
    obtain ⟨rfl, rfl⟩ := Prod.mk.inj (Except.ok.inj h)
    exact .silent
  | some held =>
    obtain ⟨job, t⟩ := held
    have hholds := holds_of_held hheld
    have hrecorded := hholds.recorded hdb
    have hcount := countP_isOpen hrecorded rfl
    rw [releaseJobLease, hheld] at h
    simp only [guard_lease, bind, Except.bind, hcount, one_ne_zero, if_false, pure, Except.pure] at h
    obtain ⟨rfl, rfl⟩ := Prod.mk.inj (Except.ok.inj h)
    rw [event, ← hholds.key]
    refine .done hholds.found rfl (hholds.allowed (by simp) (by simp)) ?_ rfl ?_ rfl ?_
    · simp [JobInstance.leaseState, Event.after, hholds.token]
    · simp [hholds.token]
    · intro key'
      by_cases hk : key' = job.jobKey
      · rw [hk, if_pos rfl, hholds.key, recordsOf_close_self hrecorded rfl]
        rfl
      · rw [if_neg hk, recordsOf_close_ne hk]

theorem setStatus_effect {grant : LeaseGrant} {status : JobStatus} {j : Option JobInstance} {db' : JobDb}
    (h : transitionJobStatus now grant status db = .ok (j, db')) :
    Effect now db ((setStatus grant status).event now (.job j)) db' := by
  cases hheld : heldJob now grant db with
  | none =>
    rw [transitionJobStatus, hheld] at h
    obtain ⟨rfl, rfl⟩ := Prod.mk.inj (Except.ok.inj h)
    exact .silent
  | some held =>
    obtain ⟨job, t⟩ := held
    have hholds := holds_of_held hheld
    rw [transitionJobStatus, hheld] at h
    simp only [← hholds.token, guard_status hholds.lease hholds.live, bind, Except.bind, pure, Except.pure] at h
    obtain ⟨rfl, rfl⟩ := Prod.mk.inj (Except.ok.inj h)
    rw [event, hholds.lease, Option.map_some, ← hholds.key]
    refine .done hholds.found rfl (hholds.allowed (by simp) (by simp)) ?_ rfl ?_ rfl ?_
    · simp [JobInstance.leaseState, Event.after, hholds.token]
    · simp [hholds.token]
    · intro key'
      split
      · rfl
      · rfl

theorem add_effect {spec : JobSpec} {j : JobInstance} {db' : JobDb} (h : addJob now spec db = .ok (j, db')) :
    Effect now db none db' := by
  unfold addJob at h
  split at h
  · split_ifs at h
    obtain ⟨rfl, rfl⟩ := Prod.mk.inj (Except.ok.inj h)
    exact .silent
  · rename_i hget
    split_ifs at h
    · cases h
    · obtain ⟨rfl, rfl⟩ := Prod.mk.inj (Except.ok.inj h)
      exact .planned spec hget

theorem map_ok {α β : Type} {x : Except PyError (α × JobDb)} {f : α → β} {reply : β} {db' : JobDb}
    (h : x.map (Prod.map f id) = .ok (reply, db')) : ∃ a, x = .ok (a, db') ∧ reply = f a := by
  cases x with
  | error e => cases h
  | ok y =>
    obtain ⟨hreply, hdb⟩ := Prod.mk.inj (Except.ok.inj h)
    exact ⟨y.1, by rw [← hdb]; rfl, hreply.symm⟩

/-- A statement that does not raise has one of the effects. -/
theorem exec_effect (hdb : db.Consistent) {st : Statement} {reply : Reply} {db' : JobDb}
    (h : st.exec now db = .ok (reply, db')) : Effect now db (st.event now reply) db' := by
  cases st with
  | get key =>
    obtain ⟨rfl, rfl⟩ := Prod.mk.inj (Except.ok.inj h)
    exact .silent
  | add spec =>
    obtain ⟨j, hj, rfl⟩ := map_ok h
    exact add_effect hj
  | acquire key owner d =>
    obtain ⟨g, hg, rfl⟩ := map_ok h
    exact acquire_effect hdb hg
  | renew grant d =>
    obtain ⟨g, hg, rfl⟩ := map_ok h
    exact renew_effect hdb hg
  | release grant =>
    obtain ⟨b, hb, rfl⟩ := map_ok h
    exact release_effect hdb hb
  | setStatus grant status =>
    obtain ⟨j, hj, rfl⟩ := map_ok h
    exact setStatus_effect hj

end Exec

/-! ### Runs -/

/-- What holds after every run. -/
structure Run.Sound (r : Run) : Prop where
  history : ∀ key, IsHistory (r.history key)
  records : ∀ key, recordsOf r.db.leases key = tenures (r.history key)
  recorded : ∀ key, Recorded (stateOf (r.history key)) (tenures (r.history key))
  state : ∀ job ∈ r.db.jobs.rows, job.leaseState = stateOf (r.history job.jobKey)
  status : ∀ job ∈ r.db.jobs.rows, job.status = (r.history job.jobKey).foldl statusAfter .planned
  attempts : ∀ job ∈ r.db.jobs.rows, job.attemptCount = job.fencingToken
  missing : ∀ key, r.db.jobs.get key = none → r.history key = []

namespace Run

variable {r : Run}

theorem Sound.consistent (h : r.Sound) : r.db.Consistent where
  recorded job hjob := by
    rw [h.state job hjob, h.records]
    exact h.recorded _
  attempts := h.attempts
  missing key hkey := by
    rw [h.records, h.missing key hkey]
    rfl

theorem sound_start : start.Sound where
  history _ := .nil
  records _ := rfl
  recorded _ := Recorded.empty
  state := by simp [start, JobDb.empty, Table.empty]
  status := by simp [start, JobDb.empty, Table.empty]
  attempts := by simp [start, JobDb.empty, Table.empty]
  missing _ _ := rfl

theorem Sound.planned (h : r.Sound) {spec : JobSpec} (now : Timestamp) (fresh : r.db.jobs.get spec.jobKey = none) :
    Run.Sound ⟨{ r.db with jobs := r.db.jobs.add ⟨spec, .planned, none, 0, 0, now, now⟩ }, r.events⟩ := by
  have hempty : r.history spec.jobKey = [] := h.missing _ fresh
  have hmem : ∀ job, job ∈ (r.db.jobs.add ⟨spec, .planned, none, 0, 0, now, now⟩).rows ↔
      job ∈ r.db.jobs.rows ∨ job = ⟨spec, .planned, none, 0, 0, now, now⟩ := fun job => Table.mem_add_iff fresh
  refine ⟨h.history, h.records, h.recorded, fun job hjob => ?_, fun job hjob => ?_, fun job hjob => ?_, fun key hkey => ?_⟩
  · rcases (hmem job).mp hjob with hjob | rfl
    · exact h.state job hjob
    · exact (congrArg stateOf hempty).symm
  · rcases (hmem job).mp hjob with hjob | rfl
    · exact h.status job hjob
    · exact (congrArg (List.foldl statusAfter .planned) hempty).symm
  · rcases (hmem job).mp hjob with hjob | rfl
    · exact h.attempts job hjob
    · rfl
  · refine h.missing key ?_
    by_cases hk : spec.jobKey = key
    · rw [← hk]
      exact fresh
    · have hother : (r.db.jobs.add ⟨spec, .planned, none, 0, 0, now, now⟩).get key = r.db.jobs.get key :=
        Table.get_add_of_ne hk
      exact hother ▸ hkey

theorem history_done (db : JobDb) (key : String) (e : Statement.Event) :
    Run.history ⟨db, r.events ++ [(key, e)]⟩ key = r.history key ++ [e] := by
  simp [Run.history]

theorem history_other (db : JobDb) {key key' : String} (hne : key' ≠ key) (e : Statement.Event) :
    Run.history ⟨db, r.events ++ [(key, e)]⟩ key' = r.history key' := by
  simp [Run.history, Ne.symm hne]

theorem Sound.effect (h : r.Sound) {now : Timestamp} {event : Option (String × Statement.Event)} {db : JobDb}
    (he : Effect now r.db event db) : Run.Sound ⟨db, r.events ++ event.toList⟩ := by
  cases he with
  | silent => simpa using h
  | planned spec fresh => simpa using h.planned now fresh
  | @done job job' e leases found spec allowed state status attempts time records =>
    have hjob := Table.mem_of_get found
    have hkey : job'.jobKey = job.jobKey := congrArg JobSpec.jobKey spec
    have hallowed : Allowed (stateOf (r.history job.jobKey)) e := by
      rw [← h.state job hjob]
      exact allowed
    have hold : r.db.jobs.get job'.jobKey = some job := by rw [hkey, found]
    have hself := fun db => history_done (r := r) db job.jobKey e
    have hother := fun db {key'} (hne : key' ≠ job.jobKey) => history_other (r := r) db hne e
    have hmem : ∀ x, x ∈ (r.db.jobs.put job').rows ↔ x = job' ∨ (x ∈ r.db.jobs.rows ∧ x.jobKey ≠ job.jobKey) := by
      intro x
      rw [← hkey]
      exact Table.mem_put_iff hold
    simp only [Option.toList_some]
    refine ⟨fun key => ?_, fun key => ?_, fun key => ?_, fun x hx => ?_, fun x hx => ?_, fun x hx => ?_, fun key hget => ?_⟩
    · by_cases hk : key = job.jobKey
      · rw [hk, hself]
        exact (h.history _).append hallowed
      · rw [hother _ hk]
        exact h.history key
    · show recordsOf leases key = _
      rw [records]
      by_cases hk : key = job.jobKey
      · rw [if_pos hk, hk, hself, tenures_append, h.records]
      · rw [if_neg hk, hother _ hk, h.records]
    · by_cases hk : key = job.jobKey
      · rw [hk, hself, tenures_append, stateOf_append]
        exact (h.recorded _).step hallowed
      · rw [hother _ hk]
        exact h.recorded key
    · rcases (hmem x).mp hx with rfl | ⟨hx, hne⟩
      · rw [hkey, hself, stateOf_append, state]
      · rw [hother _ hne]
        exact h.state x hx
    · rcases (hmem x).mp hx with rfl | ⟨hx, hne⟩
      · rw [hkey, hself, List.foldl_append, List.foldl_cons, List.foldl_nil, ← h.status job hjob, status]
      · rw [hother _ hne]
        exact h.status x hx
    · rcases (hmem x).mp hx with rfl | ⟨hx, hne⟩
      · have htoken : x.fencingToken = e.token := congrArg Lease.State.token state
        have := h.attempts job hjob
        omega
      · exact h.attempts x hx
    · have hne : key ≠ job.jobKey := by
        rintro rfl
        rw [← hkey] at hget
        rw [Table.get_put_self hold] at hget
        cases hget
      rw [hother _ hne]
      refine h.missing key ?_
      rwa [Table.get_put_of_ne (by rw [hkey]; exact hne.symm)] at hget

theorem Sound.step (h : r.Sound) (call : Timestamp × Statement) : (r.step call).Sound := by
  unfold Run.step
  split
  · rename_i hexec
    exact h.effect (exec_effect h.consistent hexec)
  · exact h

/-- Every run is sound. -/
theorem sound (calls : List (Timestamp × Statement)) : (Run.of calls).Sound := by
  unfold Run.of
  refine List.foldlRecOn calls Run.step sound_start fun r hr call _ => hr.step call

end Run

/-! ### Stale grants -/

theorem heldJob_token {now : Timestamp} {grant : LeaseGrant} {db : JobDb} {x : JobInstance × Timestamp}
    (h : heldJob now grant db = some x) : ∃ job ∈ db.jobs.rows, job.jobKey = grant.jobKey ∧
      job.leaseState = ⟨grant.fencingToken, some (grant.leaseOwner, x.2)⟩ ∧ now < x.2 := by
  obtain ⟨job, t⟩ := x
  have hholds := holds_of_held h
  refine ⟨job, Table.mem_of_get hholds.found, hholds.key, ?_, hholds.live⟩
  rw [JobInstance.leaseState, hholds.lease, hholds.token]

/-- A grant of the past holds nothing. -/
theorem Run.Sound.heldJob_eq_none {r : Run} (h : r.Sound) {grant : LeaseGrant} {e : Statement.Event}
    (he : e ∈ r.history grant.jobKey) (hstale : grant.fencingToken < e.token) (now : Timestamp) :
    heldJob now grant r.db = none := by
  by_contra hne
  obtain ⟨x, hx⟩ := Option.ne_none_iff_exists'.mp hne
  obtain ⟨job, hjob, hkey, hstate, -⟩ := heldJob_token hx
  rw [h.state job hjob, hkey] at hstate
  -- the token of the state is the one of the last event, which no earlier event exceeds
  obtain ⟨init, p, hp⟩ : ∃ init p, r.history grant.jobKey = init ++ [p] := by
    rcases List.eq_nil_or_concat (r.history grant.jobKey) with hnil | ⟨init, p, hp⟩
    · rw [hnil] at he
      cases he
    · exact ⟨init, p, by simpa using hp⟩
  rw [hp, stateOf_append] at hstate
  have htoken : p.token = grant.fencingToken := congrArg Lease.State.token hstate
  have hle : e.token ≤ p.token := by
    have hfenced := (h.history grant.jobKey).fenced
    rw [hp] at he hfenced
    rcases List.mem_append.mp he with he | he
    · exact ((List.pairwise_append.mp hfenced).2.2 e he p (by simp)).token_le
    · obtain rfl : e = p := by simpa using he
      exact le_rfl
  omega

/-- The events of a job form one line of tenures: tokens never go back, each is given out once and to one owner, and
between neighbours a token acts only before the end of its lease and passes on only after it.  The row of the job
is what the events made of it, and a grant with an older token than any event moves nothing. -/
theorem jobs_fenced (calls : List (Timestamp × Statement)) (key : String) :
    ((Run.of calls).history key).Pairwise Fences ∧
    (∀ before p e after, (Run.of calls).history key = before ++ p :: e :: after →
      (e.kind ≠ .acquire → p.kind ≠ .release ∧ e.token = p.token ∧ e.owner = p.owner ∧ e.time < p.expires) ∧
        (e.kind = .acquire → e.token = p.token + 1 ∧ (p.kind = .release ∨ p.expires ≤ e.time))) ∧
    (∀ job, (Run.of calls).db.jobs.get key = some job → job.leaseState = stateOf ((Run.of calls).history key) ∧
      job.status = ((Run.of calls).history key).foldl statusAfter .planned) ∧
    ∀ e ∈ (Run.of calls).history key, ∀ grant : LeaseGrant, grant.jobKey = key → grant.fencingToken < e.token →
      ∀ now duration status, renewJobLease now grant duration (Run.of calls).db = .ok (none, (Run.of calls).db) ∧
        releaseJobLease now grant (Run.of calls).db = .ok (false, (Run.of calls).db) ∧
        transitionJobStatus now grant status (Run.of calls).db = .ok (none, (Run.of calls).db) := by
  have hsound := Run.sound calls
  refine ⟨(hsound.history key).fenced, fun before p e after hsplit => ?_, fun job hget => ?_, ?_⟩
  · have hhistory := hsound.history key
    rw [hsplit] at hhistory
    obtain ⟨hhold, htake⟩ := hhistory.adjacent
    refine ⟨fun hkind => ?_, htake⟩
    obtain ⟨hrunning, htoken, howner, hlive, -⟩ := hhold hkind
    exact ⟨hrunning, htoken, howner, hlive⟩
  · have hjob := Table.mem_of_get hget
    have hkey : job.jobKey = key := Table.key_of_get hget
    have hstate := hsound.state job hjob
    have hstatus := hsound.status job hjob
    rw [hkey] at hstate hstatus
    exact ⟨hstate, hstatus⟩
  · rintro e he grant rfl hstale now duration status
    have hnone := hsound.heldJob_eq_none he hstale now
    exact ⟨by rw [renewJobLease, hnone], by rw [releaseJobLease, hnone], by rw [transitionJobStatus, hnone]⟩

/-! ### Records -/

/-- What a statement may raise. -/
def Statement.raises : Statement → List String
  | acquire .. => ["lease owner must use the canonical bounded owner format", "job key must be non-empty text",
      "integer out of range"]
  | renew .. => ["new row for relation \"job_leases\" violates check constraint"]
  | _ => []

section Raised

variable {now : Timestamp} {db : JobDb}

theorem map_error {α β : Type} {x : Except PyError (α × JobDb)} {f : α → β} {e : PyError}
    (h : x.map (Prod.map f id) = .error e) : x = .error e := by
  cases x with
  | error e' =>
    obtain rfl : e' = e := Except.error.inj h
    rfl
  | ok y => cases h

theorem addJob_ne_error (spec : JobSpec) (e : PyError) : addJob now spec db ≠ .error e := by
  unfold addJob
  cases hget : db.jobs.get spec.jobKey with
  | some job =>
    have hkey : job.jobKey = spec.jobKey := Table.key_of_get hget
    have hspec : job.spec = spec := jobKey_injective hkey
    simp [hspec]
  | none =>
    have hfresh : ¬ ∃ j ∈ db.jobs.rows, j.spec.tradingDate = spec.tradingDate ∧ j.spec.jobType = spec.jobType ∧
        j.spec.window = spec.window := by
      rintro ⟨j, hj, hdate, htype, hwindow⟩
      refine Table.get_eq_none_iff.mp hget j hj ?_
      simp only [JobInstance.jobKey, JobSpec.jobKey, hdate, htype, hwindow]
    simp [hfresh]

theorem acquire_raised (hdb : db.Consistent) {key owner : String} {d : LeaseDuration} {e : PyError}
    (h : acquireJobLease now key owner d db = .error e) : e.kind = .database ∧ e.message ∈ (acquire key owner d).raises := by
  by_cases howner : leaseOwnerPattern.fullmatch owner = true
  case neg =>
    rw [acquireJobLease, dif_neg howner] at h
    obtain rfl := Except.error.inj h
    exact ⟨rfl, by simp [raises]⟩
  by_cases hkey : key.toList.all (· == ' ') = true
  · rw [acquireJobLease, dif_pos howner, if_pos hkey] at h
    obtain rfl := Except.error.inj h
    exact ⟨rfl, by simp [raises]⟩
  cases hget : db.jobs.get key with
  | none => simp [acquireJobLease, howner, hkey, hget] at h
  | some job =>
    by_cases hfree : ∃ l ∈ job.lease, now < l.2
    · rw [acquireJobLease, dif_pos howner, if_neg hkey, hget] at h
      simp only [if_pos hfree, reduceCtorEq] at h
    by_cases hmax : job.attemptCount < maxAttemptCount
    · rw [acquireJobLease_eq hdb d howner hkey hget hfree hmax] at h
      cases h
    · rw [acquireJobLease, dif_pos howner, if_neg hkey, hget] at h
      simp only [if_neg hfree, if_pos (not_lt.mp hmax), databaseError, bind, Except.bind] at h
      obtain rfl := Except.error.inj h
      exact ⟨rfl, by simp [raises]⟩

theorem extend_raised {key : String} {o : LeaseOwner} {n : Nat} {u : Timestamp} {leases : List LeaseRow} {e : PyError}
    (h : extendLeases now key o n u leases = .error e) :
    e = ⟨.database, "new row for relation \"job_leases\" violates check constraint"⟩ := by
  induction leases with
  | nil => cases h
  | cons r leases ih =>
    simp only [extendLeases, List.mapM_cons, bind, Except.bind] at h ih
    split at h
    · rename_i hr
      obtain rfl := Except.error.inj h
      split_ifs at hr
      exact (Except.error.inj hr).symm
    · split at h
      · rename_i htail
        obtain rfl := Except.error.inj h
        exact ih htail
      · cases h

theorem renew_raised (hdb : db.Consistent) {grant : LeaseGrant} {d : LeaseDuration} {e : PyError}
    (h : renewJobLease now grant d db = .error e) : e.kind = .database ∧ e.message ∈ (renew grant d).raises := by
  cases hheld : heldJob now grant db with
  | none =>
    rw [renewJobLease, hheld] at h
    cases h
  | some held =>
    obtain ⟨job, t⟩ := held
    have hholds := holds_of_held hheld
    have hattempts : 1 ≤ job.attemptCount := by
      rw [hdb.attempts job (Table.mem_of_get hholds.found), hholds.token]
      exact grant.positive.1
    have hcount := countP_isOpen (hholds.recorded hdb) rfl
    rw [renewJobLease, hheld] at h
    simp only [guard_lease, bind, Except.bind] at h
    cases hext : extendLeases now grant.jobKey grant.leaseOwner grant.fencingToken (now + d.micros) db.leases with
    | error e' =>
      simp only [hext] at h
      obtain rfl := Except.error.inj h
      obtain rfl := extend_raised hext
      exact ⟨rfl, by simp [raises]⟩
    | ok leases => simp [hext, hcount, hattempts, pure, Except.pure] at h

theorem releaseJobLease_ne_error (hdb : db.Consistent) (grant : LeaseGrant) (e : PyError) :
    releaseJobLease now grant db ≠ .error e := by
  intro h
  cases hheld : heldJob now grant db with
  | none =>
    rw [releaseJobLease, hheld] at h
    cases h
  | some held =>
    have hcount := countP_isOpen ((holds_of_held hheld).recorded hdb) rfl
    rw [releaseJobLease, hheld] at h
    simp [guard_lease, bind, Except.bind, hcount, pure, Except.pure] at h

theorem transitionJobStatus_ne_error (grant : LeaseGrant) (status : JobStatus) (e : PyError) :
    transitionJobStatus now grant status db ≠ .error e := by
  intro h
  cases hheld : heldJob now grant db with
  | none =>
    rw [transitionJobStatus, hheld] at h
    cases h
  | some held =>
    have hholds := holds_of_held hheld
    rw [transitionJobStatus, hheld] at h
    simp [← hholds.token, guard_status hholds.lease hholds.live, bind, Except.bind, pure, Except.pure] at h

/-- What a statement raises is about its arguments. -/
theorem exec_raised (hdb : db.Consistent) {st : Statement} {e : PyError} (h : st.exec now db = .error e) :
    e.kind = .database ∧ e.message ∈ st.raises := by
  cases st with
  | get key => cases h
  | add spec => exact absurd (map_error h) (addJob_ne_error spec e)
  | acquire key owner d => exact acquire_raised hdb (map_error h)
  | renew grant d => exact renew_raised hdb (map_error h)
  | release grant => exact absurd (map_error h) (releaseJobLease_ne_error hdb grant e)
  | setStatus grant status => exact absurd (map_error h) (transitionJobStatus_ne_error grant status e)

end Raised

end SevenLens.Jobs
