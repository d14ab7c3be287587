import SevenLens.Invocation.Once

/-! # Outcomes of invocations

An output that is returned is in the database, as the canonical text of the record of its call; so is a failure, save
those of the audit itself, of the deadline and of the schema.  Invocations of one call therefore agree, whenever they
run. -/

namespace SevenLens.Invocation

open Securities Analysis Analysis.Proposals Calls Prog

/-- The codes of records are normalized. -/
theorem ModelCallErrorCode.normalized_transportCode {errorCode : ModelCallErrorCode} {code : ModelTransportErrorCode}
    (h : errorCode.transportCode = some code) : code.normalized = code := by
  cases errorCode <;> cases h <;> rfl

/-! ### Texts of results -/

/-- The output that is read of a result has the text of the result. -/
theorem payload_of_parseOutput {R : Rules} (result : CanonicalModelCallResult R) {output : ModelOutput R}
    (h : parseOutput R result.val.payload.canonical result.val.kind = .ok output) :
    output.payload = .ok result.val.payload := by
  have hresult := result.property
  obtain ⟨j, -, hsound, hcanonical, hdict⟩ := result.val.payload.exists_value
  simp only [CanonicalModelCallResult.postInit, hdict, bind_ok, require_ok, exists_const] at hresult
  obtain ⟨-, read, hread, parsed, hparsed, payload, hpayload, htext⟩ := hresult
  simp only [parseOutput, hcanonical, Json.loads_dumps .strict hsound, bind_ok] at h
  obtain ⟨-, -, read', hread', h⟩ := h
  rw [hread] at hread'
  cases hread'
  rw [hparsed] at h
  cases h
  rw [hpayload]
  obtain ⟨text, htext'⟩ := payload
  exact congrArg Except.ok (by
    cases hr : result.val.payload
    rw [hr] at htext
    cases htext
    rfl)

theorem hash_of_result {R : Rules} (result : CanonicalModelCallResult R) :
    R.sha256 result.val.payload.canonical = result.val.resultHash := by
  have hresult := result.property
  simp only [CanonicalModelCallResult.postInit, bind_ok, require_ok, exists_const] at hresult
  exact hresult.1

theorem fromContract_ok {R : Rules} {callId : RunId} {contract : OutputContract} {output : ModelOutput R}
    {result : CanonicalModelCallResult R} (h : CanonicalModelCallResult.fromContract callId contract output = .ok result) :
    output.payload = .ok result.val.payload ∧ result.val.kind = contract := by
  simp only [CanonicalModelCallResult.fromContract, bind_ok, require_ok, exists_const, construct_ok] at h
  obtain ⟨-, payload, hpayload, hval⟩ := h
  rw [hval]
  exact ⟨hpayload, rfl⟩

/-- The row that is read is the row of the attempt that it is read as. -/
theorem rowOf_storedAttempt {R : Rules} {milliseconds : Nat → ℚ} {row : AuditRow}
    {attempt : StoredModelCallAttempt R milliseconds} (h : storedAttempt R milliseconds row = .ok attempt) :
    rowOf attempt = row := by
  obtain ⟨record, authority⟩ := row
  simp only [storedAttempt, bind_ok, construct_ok] at h
  obtain ⟨r, rfl, h⟩ := h
  cases authority with
  | none =>
    simp only [construct_ok] at h
    rw [rowOf, h]
    rfl
  | some authority =>
    simp only [bind_ok, construct_ok, JsonObject.construct_ok] at h
    obtain ⟨payload, hpayload, result, hresult, h⟩ := h
    rw [rowOf, h, Option.map_some, hresult, hpayload]

/-! ### What invocations end in -/

section Outcomes

variable {R : Rules}

/-- An output is returned when its text is recorded, and answers the envelope. -/
def Returned (a : ModelCallClaim.Args) (e : SanitizedProviderEnvelope) (contract : OutputContract) (output : ModelOutput R)
    (w : World) : Prop :=
  ∃ row payload, w.db.audits.get a.callId = some row ∧ row.record.claim = a ∧ row.record.outcome = .success ∧
    output.payload = .ok payload ∧ row.authority = some (contract, R.sha256 payload.canonical, payload.canonical) ∧
    validateOutput e output = .ok ()

/-- A failure is raised when it is recorded, save those that the database cannot tell.  What the transport raises is
not passed on. -/
def Failed (a : ModelCallClaim.Args) : Raised → World → Prop
  | .invocation code, w => code = .audit ∨ code = .timeout ∨ code = .schema ∨
      ∃ row, w.db.audits.get a.callId = some row ∧ row.record.claim = a ∧ row.record.outcome = .failure ∧
        row.record.errorCode.transportCode = some code
  | .transport _, _ => False
  | .failed _, _ => True

def Answered (a : ModelCallClaim.Args) (e : SanitizedProviderEnvelope) (contract : OutputContract) :
    Except Raised (ModelOutput R) → World → Prop
  | .ok output, w => Returned a e contract output w
  | .error x, w => Failed a x w

/-- No value is returned. -/
def Refused {α : Type} (a : ModelCallClaim.Args) : Except Raised α → World → Prop
  | .ok _, _ => False
  | .error x, w => Failed a x w

/-- The failure of the audit, or an exception of the program itself. -/
def Mild (x : Raised) : Prop := x = .invocation .audit ∨ ∃ failure, x = .failed failure

theorem Mild.failed {x : Raised} (h : Mild x) (a : ModelCallClaim.Args) (w : World) : Failed a x w := by
  obtain rfl | ⟨failure, rfl⟩ := h
  · exact .inl rfl
  · trivial

/-- `P` holds after a computation that does not raise more than it may. -/
def Keeps {α : Type} (P : World → Prop) (r : Except Raised α) (w : World) : Prop :=
  P w ∧ ∀ x, r = .error x → Mild x

/-! ### What invocations hold -/

variable (i : Nat)

def Stable (P : World → Prop) : Prop := ∀ w w', Undisturbed i w w' → P w → P w'

/-- The claim is one's own, and open. -/
def Owned (a : ModelCallClaim.Args) (w : World) : Prop :=
  (i, a.callId) ∈ w.claimed ∧ ∃ t, w.db.claims.get a.callId = some ⟨a, t, none⟩

/-- The claim is one's own, and no request was sent. -/
def Ready (a : ModelCallClaim.Args) (w : World) : Prop := Owned i a w ∧ (i, a.callId) ∉ w.sent

def Recorded (row : AuditRow) (w : World) : Prop := w.db.audits.get row.callId = some row

variable {i}

theorem Owned.stable (a : ModelCallClaim.Args) : Stable i (Owned i a) := by
  rintro w w' h ⟨hown, t, ht⟩
  exact ⟨(h.claimed a.callId).mpr hown, t, (h.claims a.callId hown).trans ht⟩

theorem Ready.stable (a : ModelCallClaim.Args) : Stable i (Ready i a) :=
  fun w w' h hready => ⟨Owned.stable a w w' h hready.1, mt (h.sent a.callId).mp hready.2⟩

theorem Recorded.stable (row : AuditRow) : Stable i (Recorded row) := fun _ _ h hrow => h.audits row.callId row hrow

/-- An owned call is not recorded. -/
theorem Owned.unrecorded {a : ModelCallClaim.Args} {w : World} (hw : Consistent R w) (h : Owned i a w) :
    w.db.audits.get a.callId = none := by
  obtain ⟨-, t, ht⟩ := h
  cases hrow : w.db.audits.get a.callId with
  | none => rfl
  | some row =>
    obtain ⟨cr, hcr, -, hclosed⟩ := hw.recorded row (Table.mem_of_get hrow)
    rw [Table.key_of_get hrow, ht] at hcr
    cases hcr
    exact absurd rfl hclosed

/-! ### Parts of the program -/

variable {isAuthority : String → Bool} {w : World} {s : Services}

/-- What invocation `i` sees. -/
abbrev seen (R : Rules) (isAuthority : String → Bool) (i : Nat) : System calls Raised World :=
  (discipline R).alone (system R isAuthority) i

theorem wp_compute {α : Type} {M : System calls Raised World} {x : Except Failure α} {Q : Except Raised α → World → Prop}
    (hok : ∀ a, x = .ok a → Q (.ok a) w) (herror : ∀ f, Q (.error (.failed f)) w) : wp M (compute x) Q w := by
  cases x with
  | ok a => exact hok a rfl
  | error f => exact herror f

theorem wp_audited_compute {α : Type} {M : System calls Raised World} {x : Except Failure α}
    {Q : Except Raised α → World → Prop} (hok : ∀ a, x = .ok a → Q (.ok a) w) (haudit : Q (.error (.invocation .audit)) w) :
    wp M (audited (compute x)) Q w := by
  cases x with
  | ok a => exact hok a rfl
  | error f => exact haudit

theorem Keeps.ok {α : Type} {P : World → Prop} {a : α} (h : P w) : Keeps P (.ok a) w := ⟨h, fun _ hx => by cases hx⟩

/-- A call, by what is stable and what the answer leaves. -/
theorem wp_call {c : Call} {P : World → Prop} {Q : Except Raised (calls.Ans c) → World → Prop} (hP : Stable i P) (h : P w)
    (hcall : ∀ w₁, Consistent R w₁ → P w₁ → Acceptable R i w₁ c ∧ ∀ r w', Answer R isAuthority i w₁ c r w' → Q r w') :
    wp (seen R isAuthority i) (perform (S := calls) c) Q w :=
  Discipline.wp_perform_alone (D := discipline R) (M := system R isAuthority) hP h hcall

theorem wp_timestamp {P : World → Prop} (hP : Stable i P) (h : P w) : wp (seen R isAuthority i) timestamp (Keeps P) w := by
  have hcall : wp (seen R isAuthority i) (perform (S := calls) .now) (fun _ => P) w := by
    refine wp_call hP h fun w₁ _ h₁ => ⟨trivial, fun r w' hstep => ?_⟩
    obtain rfl : w' = w₁ := hstep
    exact h₁
  exact wp_tryCatch_of hcall (fun t w' h' => ⟨h', by simp⟩) fun x w' h' => ⟨h', fun y hy => .inl (Except.error.inj hy).symm⟩

theorem wp_computed {α : Type} {P : World → Prop} {M : System calls Raised World} (h : P w) (x : Except Failure α) :
    wp M (compute x) (Keeps P) w :=
  wp_compute (fun _ _ => Keeps.ok h) fun f => ⟨h, fun _ hx => .inr ⟨f, (Except.error.inj hx).symm⟩⟩

theorem Keeps.error {α β : Type} {P : World → Prop} {x : Raised} (h : Keeps P (.error x : Except Raised α) w) :
    Keeps P (.error x : Except Raised β) w :=
  ⟨h.1, fun y hy => h.2 y (congrArg Except.error (Except.error.inj hy))⟩

theorem wp_completed {P : World → Prop} (hP : Stable i P) (h : P w) (t : UtcTimestamp) :
    wp (seen R isAuthority i) (completed t) (Keeps P) w := by
  refine wp_bind_of (wp_timestamp hP h) (fun now w' h' => ?_) fun x w' h' => h'.error
  split_ifs
  · exact Keeps.ok h'.1
  · exact wp_computed h'.1 (nextInstant t)

/-- What is read is recorded. -/
theorem wp_load {P : World → Prop} (hP : Stable i P) (h : P w) (callId : RunId) :
    wp (seen R isAuthority i) (load s R callId)
      (fun r w' => P w' ∧ ∀ attempt, r = .ok (some attempt) →
        Recorded (rowOf attempt) w' ∧ (rowOf attempt).callId = callId) w := by
  have hcall : wp (seen R isAuthority i) (perform (S := calls) (.select callId))
      (fun r w' => P w' ∧ ∀ row, r = .ok (some row) → w'.db.audits.get callId = some row) w := by
    refine wp_call hP h fun w₁ _ h₁ => ⟨trivial, fun r w' hstep => ?_⟩
    obtain ⟨rfl, hr⟩ := hstep
    exact ⟨h₁, fun row hrow => (hr _ hrow).symm⟩
  refine wp_bind_of hcall (fun found w' h' => ?_) fun x w' h' => ⟨h'.1, by simp⟩
  cases found with
  | none => exact ⟨h'.1, by simp⟩
  | some row =>
    have hrow := h'.2 row rfl
    show wp _ (some <$> compute (storedAttempt R s.milliseconds row)) _ w'
    cases hread : storedAttempt R s.milliseconds row with
    | error f => exact ⟨h'.1, by simp⟩
    | ok attempt =>
      refine ⟨h'.1, fun a ha => ?_⟩
      obtain rfl : attempt = a := Option.some.inj (Except.ok.inj ha)
      rw [Recorded, rowOf_storedAttempt hread]
      exact ⟨(Table.key_of_get hrow).symm ▸ hrow, Table.key_of_get hrow⟩

/-- Who owns the claim writes the record, or fails. -/
theorem wp_auditPersist {record : ModelCallAuditRecord R s.milliseconds} (result : Option (CanonicalModelCallResult R))
    (h : Owned i record.val.claim w) : wp (seen R isAuthority i) (auditPersist s record result)
      (fun r w' => (∀ u, r = .ok u → ∃ attempt : StoredModelCallAttempt R s.milliseconds, attempt.val = ⟨record, result⟩ ∧
        Recorded (rowOf attempt) w') ∧ ∀ x, r = .error x → x = .invocation .audit) w := by
  refine wp_tryCatch_of (P := fun r w' => ∀ u, r = .ok u → ∃ attempt : StoredModelCallAttempt R s.milliseconds,
    attempt.val = ⟨record, result⟩ ∧ Recorded (rowOf attempt) w') ?_ (fun u w' h' => ⟨h', by simp⟩)
    (fun x w' _ => ⟨by simp, fun y hy => (Except.error.inj hy).symm⟩)
  refine wp_bind_of (P := fun r w' => Owned i record.val.claim w' ∧ ∀ attempt, r = .ok attempt →
    attempt.val = ⟨record, result⟩) (wp_compute (fun attempt hattempt => ⟨h, fun a ha => ?_⟩) fun f => ⟨h, by simp⟩)
    (fun attempt w' h' => ?_) (fun x w' _ => by simp)
  · cases ha
    exact construct_ok.mp hattempt
  · have hval := h'.2 attempt rfl
    have hkey : (rowOf attempt).callId = record.val.claim.callId := by rw [rowOf, hval]; rfl
    have hcall : wp (seen R isAuthority i) (perform (S := calls) (.register (rowOf attempt)))
        (fun r w'' => ∀ b, r = .ok b → b = true ∧ Recorded (rowOf attempt) w'') w' := by
      refine wp_call (Owned.stable _) h'.1 fun w₁ hw hown => ⟨?_, fun r w'' hstep => ?_⟩
      · show (i, (rowOf attempt).callId) ∈ w₁.claimed
        rw [hkey]
        exact hown.1
      · rcases hstep with ⟨-, x, rfl⟩ | ⟨now, clock, inserted, db, hdb, rfl, hr⟩
        · simp
        · obtain ⟨cr, -, -, ⟨-, hrow, -⟩ | ⟨rfl, hnone, -, rfl⟩⟩ := registerModelCallAttempt_ok hdb
          · -- a call whose claim is open is not recorded
            rw [hkey, hown.unrecorded hw] at hrow
            cases hrow
          · exact fun b hb => ⟨hr b hb, Table.get_add_self hnone⟩
    refine wp_bind_of hcall (fun b w'' h'' => ?_) fun x w'' _ => by simp
    obtain ⟨rfl, hrow⟩ := h'' b rfl
    exact fun _ _ => ⟨attempt, hval, hrow⟩

/-- The record of an attempt. -/
theorem recordOf_ok {c : ModelCallClaim R} {startedAt completedAt : UtcTimestamp} {outcome : ModelCallOutcome}
    {errorCode : ModelCallErrorCode} {response : Option JsonModelResponse} {record : ModelCallAuditRecord R s.milliseconds}
    (h : recordOf s c startedAt completedAt outcome errorCode response = .ok record) :
    record.val.claim = c.val ∧ record.val.outcome = outcome ∧ record.val.errorCode = errorCode := by
  rw [recordOf, construct_ok] at h
  rw [h]
  exact ⟨rfl, rfl, rfl⟩

theorem wp_record {c : ModelCallClaim R} {startedAt completedAt : UtcTimestamp} {outcome : ModelCallOutcome}
    {errorCode : ModelCallErrorCode} {response : Option JsonModelResponse} (h : Owned i c.val w) :
    wp (seen R isAuthority i) (audited (compute (recordOf s c startedAt completedAt outcome errorCode response)))
      (fun r w' => (∀ record, r = .ok record → Owned i record.val.claim w' ∧ record.val.claim = c.val ∧
        record.val.outcome = outcome ∧ record.val.errorCode = errorCode) ∧ ∀ x, r = .error x → x = .invocation .audit) w := by
  refine wp_audited_compute (fun record hrecord => ⟨fun a ha => ?_, by simp⟩)
    ⟨by simp, fun x hx => (Except.error.inj hx).symm⟩
  cases ha
  have hfields := recordOf_ok hrecord
  exact ⟨hfields.1.symm ▸ h, hfields⟩

theorem wp_persistFailure {c : ModelCallClaim R} {startedAt completedAt : UtcTimestamp} {errorCode : ModelCallErrorCode}
    {response : Option JsonModelResponse} (h : Owned i c.val w) :
    wp (seen R isAuthority i) (persistFailure s c startedAt completedAt errorCode response)
      (fun r w' => (∀ u, r = .ok u → ∃ row, w'.db.audits.get c.val.callId = some row ∧ row.record.claim = c.val ∧
        row.record.outcome = .failure ∧ row.record.errorCode = errorCode) ∧ ∀ x, r = .error x → x = .invocation .audit) w := by
  refine wp_bind_of (wp_record h) (fun record w' h' => ?_)
    (fun x w' h' => ⟨by simp, fun y hy => h'.2 y (by rw [← Except.error.inj hy])⟩)
  obtain ⟨hown, hclaim, houtcome, herror⟩ := h'.1 record rfl
  refine wp_mono (fun r w'' h'' => ⟨fun u hu => ?_, h''.2⟩) (wp_auditPersist none hown)
  obtain ⟨attempt, hval, hrow⟩ := h''.1 u hu
  have hrecord : (rowOf attempt).record = record.val := by rw [rowOf, hval]
  have hkey : (rowOf attempt).callId = c.val.callId := by rw [AuditRow.callId, hrecord, hclaim]
  exact ⟨rowOf attempt, hkey ▸ hrow, hrecord ▸ hclaim, hrecord ▸ houtcome, hrecord ▸ herror⟩

/-- A failure is recorded and raised. -/
theorem wp_failWith {α : Type} {c : ModelCallClaim R} {startedAt completedAt : UtcTimestamp} {errorCode : ModelCallErrorCode}
    {response : Option JsonModelResponse} {code : ModelTransportErrorCode} (h : Owned i c.val w)
    (hcode : errorCode.transportCode = some code.normalized) :
    wp (seen R isAuthority i) (failWith (α := α) s c startedAt completedAt errorCode response code) (Refused c.val) w := by
  refine wp_bind_of (wp_persistFailure h) (fun u w' h' => ?_) (fun x w' h' => ?_)
  · obtain ⟨row, hrow, hclaim, houtcome, herror⟩ := h'.1 u rfl
    exact .inr (.inr (.inr ⟨row, hrow, hclaim, houtcome, herror ▸ hcode⟩))
  · rw [h'.2 x rfl]
    exact .inl rfl

theorem Refused.answered {a : ModelCallClaim.Args} {e : SanitizedProviderEnvelope} {contract : OutputContract}
    {r : Except Raised (ModelOutput R)} (h : Refused a r w) : Answered a e contract r w := by
  cases r with
  | ok output => exact h.elim
  | error x => exact h

theorem wp_failWith_answered {c : ModelCallClaim R} {e : SanitizedProviderEnvelope} {contract : OutputContract}
    {startedAt completedAt : UtcTimestamp} {errorCode : ModelCallErrorCode} {response : Option JsonModelResponse}
    {code : ModelTransportErrorCode} (h : Owned i c.val w) (hcode : errorCode.transportCode = some code.normalized) :
    wp (seen R isAuthority i) (failWith (α := ModelOutput R) s c startedAt completedAt errorCode response code)
      (Answered c.val e contract) w :=
  wp_mono (fun _ _ => Refused.answered) (wp_failWith h hcode)

theorem Keeps.refused {α β : Type} {P : World → Prop} {x : Raised} (h : Keeps P (.error x : Except Raised α) w)
    (a : ModelCallClaim.Args) : Refused a (.error x : Except Raised β) w := (h.2 x rfl).failed a w

/-! ### The invocation -/

variable {config : AnalysisProviderConfig} {e : SanitizedProviderEnvelope} {contract : OutputContract}

/-- What is recorded is returned or raised again. -/
theorem wp_replay {attempt : StoredModelCallAttempt R s.milliseconds} {c : ModelCallClaim R}
    (h : Recorded (rowOf attempt) w) (hkey : (rowOf attempt).callId = c.val.callId) :
    wp (seen R isAuthority i) (replay s e contract attempt c) (Answered c.val e contract) w := by
  refine wp_bind_of (P := fun r w' => Recorded (rowOf attempt) w' ∧ (∀ recorded, r = .ok recorded →
      recorded.val = attempt.val.record.val.claim) ∧ ∀ x, r = .error x → x = .invocation .audit)
    (wp_audited_compute (fun recorded hrecorded => ⟨h, fun a ha => ?_, by simp⟩)
      ⟨h, by simp, fun x hx => (Except.error.inj hx).symm⟩)
    (fun recorded w' h' => ?_) (fun x w' h' => ?_)
  · cases ha
    exact construct_ok.mp hrecorded
  · obtain ⟨hrow, hrecorded, -⟩ := h'
    have hclaim := hrecorded recorded rfl
    by_cases hne : recorded.val ≠ c.val
    · rw [if_pos hne]
      exact .inl rfl
    rw [if_neg hne]
    rw [not_not, hclaim] at hne
    refine wp_bind_of (wp_timestamp (Recorded.stable _) hrow) (fun now w'' h'' => ?_)
      fun x w'' h'' => (h''.refused c.val).answered
    have hrow'' : w''.db.audits.get c.val.callId = some (rowOf attempt) := hkey ▸ h''.1
    split_ifs with hlate hfailure
    · exact .inr (.inl rfl)
    · split
      · exact .inl rfl
      · rename_i code hcode
        refine .inr (.inr (.inr ⟨_, hrow'', hne, hfailure, ?_⟩))
        show attempt.val.record.val.errorCode.transportCode = some code.normalized
        rw [hcode]
        exact congrArg some (ModelCallErrorCode.normalized_transportCode hcode).symm
    · split
      · exact .inl rfl
      · rename_i result hresult
        split_ifs with hkind
        · exact .inl rfl
        rw [not_not] at hkind
        refine wp_audited_compute (fun output houtput => ?_) (.inl rfl)
        simp only [bind_ok, pure_ok] at houtput
        obtain ⟨read, hread, ⟨⟩, hvalid, rfl⟩ := houtput
        refine ⟨_, result.val.payload, hrow'', hne, ?_, payload_of_parseOutput result (hkind ▸ hread), ?_, hvalid⟩
        · cases houtcome : attempt.val.record.val.outcome with
          | success => exact houtcome
          | failure => exact absurd houtcome hfailure
        · rw [rowOf, hresult, Option.map_some, hkind, hash_of_result]
  · rw [h'.2.2 x rfl]
    exact .inl rfl

/-- A response is recorded with its output, or as a failure. -/
theorem wp_conclude {c : ModelCallClaim R} {startedAt completedAt : UtcTimestamp} (response : Option JsonModelResponse)
    (h : Owned i c.val w) : wp (seen R isAuthority i) (conclude s config e contract c startedAt completedAt response)
      (Answered c.val e contract) w := by
  cases response with
  | none => exact wp_failWith_answered h rfl
  | some response =>
    simp only [conclude]
    by_cases hresponse : response.postInit ≠ .ok ()
    · rw [if_pos hresponse]
      exact wp_failWith_answered h rfl
    rw [if_neg hresponse]
    by_cases hmodel : response.modelId ≠ config.modelId
    · rw [if_pos hmodel]
      exact wp_failWith_answered h rfl
    rw [if_neg hmodel]
    by_cases hlate : e.deadline < completedAt
    · rw [if_pos hlate]
      exact wp_failWith_answered h rfl
    rw [if_neg hlate]
    by_cases hsize : 65536 < response.content.utf8ByteSize
    · rw [if_pos hsize]
      exact wp_failWith_answered h rfl
    rw [if_neg hsize]
    split
    · exact wp_failWith_answered h rfl
    · rename_i parsed hparsed
      simp only [bind_ok, pure_ok] at hparsed
      obtain ⟨output, -, ⟨⟩, hvalid, result, hresult, rfl⟩ := hparsed
      obtain ⟨hpayload, hkind⟩ := fromContract_ok hresult
      refine wp_bind_of (wp_record h) (fun record w' h' => ?_) fun x w' h' => ?_
      · obtain ⟨hown, hclaim, houtcome, -⟩ := h'.1 record rfl
        refine wp_bind_of (wp_auditPersist (some result) hown) (fun u w'' h'' => ?_) fun x w'' h'' => ?_
        · obtain ⟨attempt, hval, hrow⟩ := h''.1 u rfl
          have hrecord : (rowOf attempt).record = record.val := by rw [rowOf, hval]
          have hkey : (rowOf attempt).callId = c.val.callId := by rw [AuditRow.callId, hrecord, hclaim]
          refine ⟨rowOf attempt, result.val.payload, hkey ▸ hrow, hrecord ▸ hclaim, hrecord ▸ houtcome, hpayload, ?_, hvalid⟩
          rw [rowOf, hval, Option.map_some, hkind, hash_of_result]
        · rw [h''.2 x rfl]
          exact .inl rfl
      · rw [h'.2 x rfl]
        exact .inl rfl

theorem ModelTransportErrorCode.transportCode_auditCode {code : ModelTransportErrorCode} (h : code.normalized ≠ .audit) :
    code.normalized.auditCode.transportCode = some code.normalized.normalized := by
  cases code <;> first | rfl | exact absurd rfl h

theorem wp_transportFailed {α : Type} {c : ModelCallClaim R} {startedAt : UtcTimestamp} (x : Raised) (h : Owned i c.val w) :
    wp (seen R isAuthority i) (transportFailed (α := α) s c startedAt x) (Refused c.val) w := by
  have hother : wp (seen R isAuthority i)
      (do
        let completedAt ← completed startedAt
        failWith (α := α) s c startedAt completedAt .transient none .transient) (Refused c.val) w :=
    wp_bind_of (wp_completed (Owned.stable _) h startedAt) (fun completedAt w' h' => wp_failWith h'.1 rfl)
      fun x w' h' => h'.refused c.val
  cases x with
  | invocation code => exact hother
  | failed f => exact hother
  | transport code =>
    refine wp_bind_of (wp_completed (Owned.stable _) h startedAt) (fun completedAt w' h' => ?_)
      fun x w' h' => h'.refused c.val
    split_ifs with haudit
    · exact .inl rfl
    · exact wp_failWith h'.1 (ModelTransportErrorCode.transportCode_auditCode haudit)

/-- The request is sent once, under the open claim. -/
theorem wp_execute {c : ModelCallClaim R} {startedAt : UtcTimestamp} {request : JsonModelRequest}
    (hrequest : request.callId = c.val.callId) (h : Ready i c.val w) :
    wp (seen R isAuthority i) ((perform (S := calls) (.execute request)).tryCatch (transportFailed s c startedAt))
      (fun r w' => (∀ response, r = .ok response → Owned i c.val w') ∧ ∀ x, r = .error x → Failed c.val x w') w := by
  have hcall : wp (seen R isAuthority i) (perform (S := calls) (.execute request)) (fun _ => Owned i c.val) w := by
    refine wp_call (Ready.stable c.val) h fun w₁ _ hready => ⟨?_, fun r w₂ hstep => ?_⟩
    · obtain ⟨-, t, ht⟩ := hready.1
      rw [Acceptable, hrequest]
      exact ⟨hready.1.1, hready.2, _, ht, rfl⟩
    · obtain rfl : w₂ = _ := hstep
      exact hready.1
  refine wp_tryCatch_of hcall (fun response w' h' => ⟨fun _ _ => h', by simp⟩) fun x w' h' => ?_
  refine wp_mono (fun r w'' h'' => ?_) (wp_transportFailed x h')
  cases r with
  | ok response => exact h''.elim
  | error y =>
    refine ⟨by simp, fun z hz => ?_⟩
    obtain rfl := Except.error.inj hz
    exact h''

/-- Who claimed the call sends at most one request, under the open claim. -/
theorem wp_attemptCall {c : ModelCallClaim R} (h : Ready i c.val w) :
    wp (seen R isAuthority i) (attemptCall s config e contract c) (Answered c.val e contract) w := by
  refine wp_bind_of (wp_timestamp (Ready.stable _) h) (fun startedAt w' h' => ?_) fun x w' h' => (h'.refused c.val).answered
  by_cases hroute : ¬ OnConfiguredRoute e config
  · rw [if_pos hroute]
    exact wp_bind_of (wp_completed (Ready.stable _) h'.1 startedAt) (fun completedAt w'' h'' => wp_failWith_answered h''.1.1 rfl)
      fun x w'' h'' => (h''.refused c.val).answered
  rw [if_neg hroute]
  by_cases hlate : e.deadline < startedAt
  · rw [if_pos hlate]
    exact wp_bind_of (wp_computed h'.1 (nextInstant startedAt)) (fun completedAt w'' h'' => wp_failWith_answered h''.1.1 rfl)
      fun x w'' h'' => (h''.refused c.val).answered
  rw [if_neg hlate]
  split
  · exact wp_bind_of (wp_completed (Ready.stable _) h'.1 startedAt) (fun completedAt w'' h'' => wp_failWith_answered h''.1.1 rfl)
      fun x w'' h'' => (h''.refused c.val).answered
  · rename_i prompt hprompt
    refine wp_bind_of (wp_computed h'.1 _) (fun _ w'' h'' => ?_) fun x w'' h'' => (h''.refused c.val).answered
    exact wp_bind_of (wp_execute rfl h''.1) (fun response w₁ h₁ => wp_bind_of
      (wp_completed (Owned.stable _) (h₁.1 response rfl) startedAt) (fun completedAt w₂ h₂ => wp_conclude response h₂.1)
      fun x w₂ h₂ => (h₂.refused c.val).answered) fun x w₁ h₁ => h₁.2 x rfl

/-- Who is told that the call is claimed owns the claim; a replay is of a recorded attempt. -/
theorem wp_claim {c : ModelCallClaim R} (h : Idle i w) : wp (seen R isAuthority i) (audited (claim s c))
    (fun r w' => (r = .ok .claimed → Ready i c.val w') ∧
      (∀ attempt, r = .ok (.replay attempt) → Recorded (rowOf attempt) w' ∧ (rowOf attempt).callId = c.val.callId) ∧
      ∀ x, r = .error x → x = .invocation .audit) w := by
  have hcall : wp (seen R isAuthority i) (perform (S := calls) (.claim c.val))
      (fun r w' => r = .ok .claimed → Ready i c.val w') w := by
    refine wp_call (fun w w' => Idle.undisturbed i) h fun w₁ _ hidle => ⟨c.property, fun r w' hstep => ?_⟩
    rcases hstep with ⟨-, x, rfl⟩ | ⟨now, decision, db, hdb, rfl, hr⟩
    · simp
    · intro hclaimed
      obtain rfl := hr _ hclaimed
      obtain ⟨hne, -⟩ | ⟨-, hnone, rfl⟩ := claimModelCallAttempt_ok hdb
      · exact absurd rfl hne
      · exact ⟨⟨List.mem_append_right _ (List.mem_singleton_self _), now, Table.get_add_self hnone⟩, (hidle _).2⟩
  refine wp_tryCatch_of (P := fun r w' => (r = .ok .claimed → Ready i c.val w') ∧
      ∀ attempt, r = .ok (.replay attempt) → Recorded (rowOf attempt) w' ∧ (rowOf attempt).callId = c.val.callId)
    (wp_bind_of hcall (fun decision w' h' => ?_) fun x w' _ => ⟨by simp, by simp⟩)
    (fun result w' h' => ⟨h'.1, h'.2, by simp⟩)
    fun x w' _ => ⟨by simp, by simp, fun y hy => (Except.error.inj hy).symm⟩
  cases decision with
  | claimed => exact ⟨fun _ => h' rfl, by simp⟩
  | inProgress => exact ⟨by simp, by simp⟩
  | replay =>
    refine wp_bind_of (wp_load (P := fun _ => True) (fun _ _ _ _ => trivial) trivial c.val.callId) (fun found w'' h'' => ?_)
      fun x w'' _ => ⟨by simp, by simp⟩
    cases found with
    | none => exact ⟨by simp, by simp⟩
    | some attempt =>
      refine ⟨by simp, fun a ha => ?_⟩
      obtain rfl := ModelCallClaimResult.replay.inj (Except.ok.inj ha)
      exact h''.2 attempt rfl

theorem wp_validateRequest {M : System calls Raised World} {Q : Except Raised Unit → World → Prop} (hok : Q (.ok ()) w)
    (hschema : Q (.error (.invocation .schema)) w) : wp M (validateRequest s config e contract) Q w := by
  unfold validateRequest
  split_ifs
  · exact hok
  · exact hschema

theorem wp_claimFor {M : System calls Raised World} {Q : Except Raised (ModelCallClaim R) → World → Prop}
    (hok : ∀ c : ModelCallClaim R, c.val = claimArgs config e R → Q (.ok c) w)
    (hschema : Q (.error (.invocation .schema)) w) : wp M (claimFor s config e contract R) Q w := by
  refine wp_bind.mpr (wp_validateRequest ?_ hschema)
  rw [andThen_ok]
  split
  · rename_i c hc
    exact hok c (construct_ok.mp hc)
  · exact hschema

/-- An invocation that starts sends at most one request and ends as the database tells. -/
theorem wp_invoke (h : Idle i w) : wp (seen R isAuthority i) (invoke s config e contract R)
    (Answered (claimArgs config e R) e contract) w := by
  have hschema : Answered (R := R) (claimArgs config e R) e contract (.error (.invocation .schema)) w :=
    .inr (.inr (.inl rfl))
  refine wp_bind.mpr (wp_validateRequest ?_ hschema)
  refine wp_bind.mpr (wp_claimFor (fun c hc => ?_) hschema)
  show wp _ _ (Answered (claimArgs config e R) e contract) w
  rw [← hc]
  refine wp_bind_of (P := fun r w' => Idle i w' ∧ (∀ attempt, r = .ok (some attempt) →
      Recorded (rowOf attempt) w' ∧ (rowOf attempt).callId = c.val.callId) ∧ ∀ x, r = .error x → x = .invocation .audit)
    (wp_tryCatch_of (wp_load (fun w w' => Idle.undisturbed i) h c.val.callId) (fun found w' h' => ⟨h'.1, h'.2, by simp⟩)
      fun x w' h' => ⟨h'.1, by simp, fun y hy => (Except.error.inj hy).symm⟩)
    (fun found w' h' => ?_) (fun x w' h' => ?_)
  · cases found with
    | some attempt => exact wp_replay (h'.2.1 attempt rfl).1 (h'.2.1 attempt rfl).2
    | none =>
      refine wp_bind_of (wp_claim h'.1) (fun result w'' h'' => ?_) (fun x w'' h'' => ?_)
      · cases result with
        | claimed => exact wp_attemptCall (h''.1 rfl)
        | inProgress => exact .inl rfl
        | replay attempt => exact wp_replay (h''.2.1 attempt rfl).1 (h''.2.1 attempt rfl).2
      · rw [h''.2.2 x rfl]
        exact .inl rfl
  · rw [h'.2.2 x rfl]
    exact .inl rfl

end Outcomes

/-! ### Runs -/

/-- What an invocation is started with. -/
structure Request where
  config : AnalysisProviderConfig
  envelope : SanitizedProviderEnvelope
  contract : OutputContract

/-- The claim of the call. -/
def Request.claim (x : Request) (R : Rules) : ModelCallClaim.Args := claimArgs x.config x.envelope R

section Runs

variable (R : Rules) (isAuthority : String → Bool) (s : Services)

/-- The invocations, in the order in which they were started. -/
abbrev Invocations : Type := Pool calls Raised (ModelOutput R) World Request

abbrev program (x : Request) : Invoke (ModelOutput R) := invoke s x.config x.envelope x.contract R

abbrev Runs : Invocations R → Invocations R → Prop := Pool.Reaches (program R s) (system R isAuthority)

/-- What is reached from an empty database. -/
abbrev Reached : Type := {P : Invocations R // Runs R isAuthority s ⟨World.initial, []⟩ P}

variable {R isAuthority s}

/-- What is recorded stays recorded. -/
theorem Answered.kept {a : ModelCallClaim.Args} {e : SanitizedProviderEnvelope} {contract : OutputContract}
    {r : Except Raised (ModelOutput R)} {w w' : World}
    (h : ∀ callId row, w.db.audits.get callId = some row → w'.db.audits.get callId = some row)
    (hr : Answered a e contract r w) : Answered a e contract r w' := by
  cases r with
  | ok output =>
    obtain ⟨row, payload, hrow, hrest⟩ := hr
    exact ⟨row, payload, h _ _ hrow, hrest⟩
  | error x =>
    cases x with
    | transport code => exact hr
    | failed f => exact hr
    | invocation code =>
      obtain hcode | hcode | hcode | ⟨row, hrow, hrest⟩ := hr
      · exact .inl hcode
      · exact .inr (.inl hcode)
      · exact .inr (.inr (.inl hcode))
      · exact .inr (.inr (.inr ⟨row, h _ _ hrow, hrest⟩))

theorem sound_of_runs {P : Invocations R} (h : Runs R isAuthority s ⟨World.initial, []⟩ P) :
    Discipline.Sound (discipline R) (system R isAuthority)
      (fun _ (x : Request) => Answered (x.claim R) x.envelope x.contract) P :=
  Discipline.sound (guarded R isAuthority) (fun _ _ _ _ _ hrely hr => hr.kept hrely.audits)
    (fun _ _ _ _ hidle => wp_invoke hidle) (Consistent.initial R)
    (fun i callId => ⟨by simp [World.initial], by simp [World.initial]⟩) h

/-- An acceptable call changes no record. -/
theorem audits_kept {i : Nat} {w w' : World} {c : Call} {r : Except Raised (calls.Ans c)}
    (h : Answer R isAuthority i w c r w') {callId : RunId} {row : AuditRow} (hrow : w.db.audits.get callId = some row) :
    w'.db.audits.get callId = some row := by
  cases c with
  | select _ => exact h.1 ▸ hrow
  | now => exact (h : w' = w) ▸ hrow
  | execute _ =>
    obtain rfl : w' = _ := h
    exact hrow
  | claim a =>
    rcases h with ⟨rfl, -⟩ | ⟨now, decision, db, hdb, rfl, -⟩
    · exact hrow
    · rcases claimModelCallAttempt_ok hdb with ⟨-, rfl⟩ | ⟨-, -, rfl⟩ <;> exact hrow
  | register recorded =>
    rcases h with ⟨rfl, -⟩ | ⟨now, clock, inserted, db, hdb, rfl, -⟩
    · exact hrow
    · obtain ⟨cr, -, -, ⟨-, -, rfl⟩ | ⟨-, hnone, -, rfl⟩⟩ := registerModelCallAttempt_ok hdb
      · exact hrow
      · have hne : recorded.callId ≠ callId := fun heq => by
          rw [← heq, hnone] at hrow
          cases hrow
        exact (Table.get_add_of_ne hne).trans hrow

/-- In whatever order invocations run, and wherever they stop, a request is sent under an open claim of a call that is
not recorded, and for one call at most one request is sent. -/
theorem requests_sent_once (P : Reached R isAuthority s) :
    (P.val.state.sent.map Prod.snd).Nodup ∧
    (∀ p ∈ P.val.state.sent, ∃ row, P.val.state.db.claims.get p.2 = some row ∧ p.2 =
      Rules.deriveModelCallId R row.claim.inputId row.claim.contextId row.claim.stage row.claim.role row.claim.roundNumber) ∧
    ∀ P', Pool.Step (program R s) (system R isAuthority) P.val P' → ∀ p ∈ P'.state.sent, p ∉ P.val.state.sent →
      P.val.state.Open p.2 ∧ P.val.state.db.audits.get p.2 = none := by
  obtain ⟨P, hP⟩ := P
  have hsound := sound_of_runs hP
  have hw : Consistent R P.state := hsound.inv
  refine ⟨?_, fun p hp => ?_, fun P' hstep p hp hnew => ?_⟩
  · refine hw.sent_once.map_on fun p hp q hq hpq => ?_
    exact List.inj_on_of_nodup_map hw.claimed_once (hw.sent_claimed hp) (hw.sent_claimed hq) hpq
  · obtain ⟨row, hrow⟩ := Option.ne_none_iff_exists'.mp (hw.claimed_durable p (hw.sent_claimed hp))
    have haccepted := hw.accepted row (Table.mem_of_get hrow)
    simp only [ModelCallClaim.postInit, ModelCallClaim.closure, bind_ok, require_ok, exists_const] at haccepted
    have hkey : row.callId = p.2 := Table.key_of_get hrow
    exact ⟨row, hrow, hkey.symm.trans haccepted.2.2.1⟩
  · cases hstep with
    | start w threads x => exact absurd hp hnew
    | @call w w' threads i x c k r running answered =>
      have hok := (hsound.thread i x _ running).1 w (Undisturbed.refl i w) hw
      cases c with
      | select _ => exact absurd (answered.1 ▸ hp) hnew
      | now => exact absurd ((answered : w' = w) ▸ hp) hnew
      | claim a => rcases answered with ⟨rfl, -⟩ | ⟨_, _, _, -, rfl, -⟩ <;> exact absurd hp hnew
      | register row => rcases answered with ⟨rfl, -⟩ | ⟨_, _, _, _, -, rfl, -⟩ <;> exact absurd hp hnew
      | execute request =>
        obtain rfl : w' = _ := answered
        obtain rfl := List.mem_singleton.mp ((List.mem_append.mp hp).resolve_left hnew)
        obtain ⟨-, -, row, hrow, hopen⟩ := hok
        refine ⟨⟨row, hrow, hopen⟩, Option.eq_none_iff_forall_ne_some.mpr fun r hr => ?_⟩
        obtain ⟨cr, hcr, -, hclosed⟩ := hw.recorded r (Table.mem_of_get hr)
        rw [Table.key_of_get hr, hrow] at hcr
        cases hcr
        exact hclosed hopen

/-- An invocation has ended. -/
def Ended (P : Invocations R) (x : Request) (r : Except Raised (ModelOutput R)) : Prop :=
  ∃ (i : Nat) (p : Invoke (ModelOutput R)), P.threads[i]? = some (x, p) ∧ p.outcome = some r

/-- The codes of failures that the database need not know. -/
def Unrecorded (code : ModelTransportErrorCode) : Prop := code = .audit ∨ code = .timeout ∨ code = .schema

/-- What an invocation ends in is recorded; a record stays as it is; so invocations of one call return the same text, or
raise the same code, and none returns what another finds to have failed. -/
theorem invocations_agree (P : Reached R isAuthority s) :
    (∀ x r, Ended P.val x r → Answered (x.claim R) x.envelope x.contract r P.val.state) ∧
    (∀ P', Runs R isAuthority s P.val P' → ∀ row ∈ P.val.state.db.audits.rows, row ∈ P'.state.db.audits.rows) ∧
    ∀ x y, (x.claim R).callId = (y.claim R).callId →
      (∀ output output', Ended P.val x (.ok output) → Ended P.val y (.ok output') →
        x.contract = y.contract ∧ output.payload = output'.payload) ∧
      (∀ output code, Ended P.val x (.ok output) → Ended P.val y (.error (.invocation code)) → Unrecorded code) ∧
      ∀ code code', Ended P.val x (.error (.invocation code)) → Ended P.val y (.error (.invocation code')) →
        Unrecorded code ∨ Unrecorded code' ∨ code = code' := by
  obtain ⟨P, hP⟩ := P
  have hsound := sound_of_runs hP
  have hanswered : ∀ x r, Ended P x r → Answered (x.claim R) x.envelope x.contract r P.state := by
    rintro x r ⟨i, p, hi, hr⟩
    exact of_outcome hr (hsound.thread i x p hi)
  refine ⟨hanswered, fun P' hrun => ?_, fun x y hcall => ⟨fun output output' hx hy => ?_, fun output code hx hy => ?_,
    fun code code' hx hy => ?_⟩⟩
  · have hkept := hsound.kept (K := fun w w' => ∀ row ∈ w.db.audits.rows, row ∈ w'.db.audits.rows)
      (fun _ _ h => h) (fun h h' row hrow => h' row (h row hrow))
      (fun _ _ _ _ _ _ _ hstep _ hrow => Table.mem_of_get (audits_kept hstep (Table.get_of_mem hrow)))
      (guarded R isAuthority) (fun _ _ _ _ _ hrely hr => hr.kept hrely.audits) (fun _ _ _ _ hidle => wp_invoke hidle) hrun
    exact hkept.2
  · obtain ⟨row, payload, hrow, -, -, hpayload, hauthority, -⟩ := hanswered x _ hx
    obtain ⟨row', payload', hrow', -, -, hpayload', hauthority', -⟩ := hanswered y _ hy
    rw [← hcall, hrow] at hrow'
    cases hrow'
    rw [hauthority] at hauthority'
    obtain ⟨hcontract, htext⟩ := Prod.mk.inj (Option.some.inj hauthority')
    have hcanonical : payload.canonical = payload'.canonical := (Prod.mk.inj htext).2
    rw [hpayload, hpayload']
    cases payload
    cases payload'
    cases hcanonical
    exact ⟨hcontract, rfl⟩
  · obtain ⟨row, payload, hrow, -, hsuccess, -⟩ := hanswered x _ hx
    obtain hcode | hcode | hcode | ⟨row', hrow', -, hfailure, -⟩ := hanswered y _ hy
    · exact .inl hcode
    · exact .inr (.inl hcode)
    · exact .inr (.inr hcode)
    · rw [← hcall, hrow] at hrow'
      cases hrow'
      rw [hsuccess] at hfailure
      cases hfailure
  · obtain hcode | hcode | hcode | ⟨row, hrow, -, -, herror⟩ := hanswered x _ hx
    · exact .inl (.inl hcode)
    · exact .inl (.inr (.inl hcode))
    · exact .inl (.inr (.inr hcode))
    · obtain hcode' | hcode' | hcode' | ⟨row', hrow', -, -, herror'⟩ := hanswered y _ hy
      · exact .inr (.inl (.inl hcode'))
      · exact .inr (.inl (.inr (.inl hcode')))
      · exact .inr (.inl (.inr (.inr hcode')))
      · rw [← hcall, hrow] at hrow'
        cases hrow'
        exact .inr (.inr (Option.some.inj (herror.symm.trans herror')))

end Runs

end SevenLens.Invocation
