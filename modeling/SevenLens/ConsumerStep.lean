import SevenLens.TradeUpdates
import SevenLens.UnitOfWork

/-! # What one consumed update does

`applyUpdate_consumed` says once what `TradeUpdateConsumer.apply` can do to the committed
tables when the unit of work holds no uncommitted rows: it is one of the cases of
`Consumed`.  Every invariant of the trade-update stream is a case analysis on it. -/

namespace SevenLens

open Calls Prog

variable {env : Env} {uuid5 : NameUuid} {w : World}

/-- The unit of work holds no uncommitted rows. -/
def World.Idle (w : World) : Prop := w.session.pending .uow = []

namespace World.Idle

theorem view_eq (hw : w.Idle) : w.view .uow = w.db := by
  rw [World.view, hw]
  rfl

theorem next (hw : w.Idle) : w.next.Idle := hw

theorem reject (hw : w.Idle) (c : Call) : (w.reject c).Idle := hw

theorem commit (w : World) : (w.commit .uow).Idle := World.commit_pending w .uow

theorem rollback (w : World) : (w.rollback .uow).Idle := World.rollback_pending w .uow

end World.Idle

/-! ### The conflict path -/

/-- A service about to use a fresh unit of work on the committed tables `db`. -/
def World.start (db : Db) : World := ⟨db, .idle, 0, []⟩

theorem World.start_idle (db : Db) : (World.start db).Idle := rfl

@[simp] theorem World.start_view (db : Db) : (World.start db).view .uow = db := rfl

/-- Unresolved broker truth: the statuses that block new entries. -/
def OrderStatus.isUnresolved : OrderStatus → Bool
  | .unknown | .reviewRequired => true
  | _ => false

/-- The intents after the marker of a conflict on `c`: the intent moves to review unless it
is unresolved already or its lifecycle has not reached the broker. -/
def Db.markedIntents (db : Db) (c : ClientOrderId) : Table OrderIntent.clientOrderId :=
  match db.intents.get c with
  | none => db.intents
  | some i =>
      if i.status.isUnresolved = true then db.intents
      else if orderTransitionAllowed i.status .reviewRequired = true then
        db.intents.put (i.withStatus .reviewRequired)
      else db.intents

/-- The intent has not reached the broker. -/
def OrderStatus.isPreBroker : OrderStatus → Bool
  | .created | .riskApproved | .outboxPending => true
  | _ => false

/-- Every intent that reached the broker and is not in review can be moved to review. -/
theorem review_allowed_iff (s : OrderStatus) :
    orderTransitionAllowed s .reviewRequired = (!s.isPreBroker && !(s == .reviewRequired)) := by
  cases s <;> rfl

/-- The calls the conflict path may have rejected: the marker of an intent that has not
reached the broker, and an audit command whose id is taken. -/
def Db.ConflictRejection (db : Db) (c : ClientOrderId) (call : Call) : Prop :=
  (call = .store .uow (.transitionStatus c .reviewRequired) ∧
    ∃ i, db.intents.get c = some i ∧ i.status.isPreBroker = true) ∨
  ∃ r, call = .store .uow (.addCommand r)

/-- A conflict on `c` has been made durable: the marker is written where it can be, entries
are paused, and mirrors and fills are as they were. -/
structure Gated (db : Db) (c : ClientOrderId) (db' : Db) : Prop where
  mirrors : db'.mirrors = db.mirrors
  fills : db'.fills = db.fills
  intents : db'.intents = db.markedIntents c
  paused : db'.control.entriesPaused = true

/-- Setting the pause always succeeds and is committed. -/
theorem persistPause_run (hw : w.Idle) {conflict : String}
    (hr : IsPauseReason ("reconciliation required; " ++ conflict)) {r : Except PyError Unit} {w' : World}
    (h : run (handler env) (persistPause conflict) w = (r, w')) :
    r = .ok () ∧ w'.Idle ∧ (∃ cs, cs.entriesPaused = true ∧ w'.db = w.db.apply (.putControl cs)) ∧
      w'.rejected = w.rejected := by
  obtain ⟨cs, hcs, hexec⟩ := (w.view .uow).setEntriesPaused_eq_ok (env.clock w.tick) hr
  have hset : run (handler env)
      (setEntriesPaused .uow true (some ("reconciliation required; " ++ conflict))) w =
      (.ok cs, w.next.write .uow [.putControl cs]) := run_statement w hexec
  simp only [persistPause, bind_eq, run_tryCatch, run_bind, hset, run_commit] at h
  cases h
  exact ⟨rfl, World.Idle.commit _, ⟨cs, hcs, by simp [hw.view_eq]⟩, rfl⟩

/-- The audit command is appended, or its failure is rolled back; the pause stays. -/
theorem persistPauseAudit_run (hw : w.Idle) {c : ClientOrderId} {conflict : String}
    {r : Except PyError Unit} {w' : World}
    (h : run (handler env) (persistPauseAudit uuid5 c conflict) w = (r, w')) :
    w'.Idle ∧ (w'.db = w.db ∨ ∃ rec, w'.db = w.db.apply (.addCommand rec)) ∧
      (∀ e, r = .error e → e.kind = .tradeUpdate) ∧
      (∀ call ∈ w'.rejected, call ∈ w.rejected ∨ ∃ rec, call = .store .uow (.addCommand rec)) := by
  simp only [persistPauseAudit, addPauseAudit, bind_eq, run_bind, run_tryCatch, run_controlState,
    run_ofExcept] at h
  cases hcreate : ControlCommandRecord.create (conflictPauseCommandId uuid5 c conflict) .pauseEntries
      ("automatic pause on " ++ conflict) "trade_update_consumer" none (w.view .uow).control.updatedAt
      (some (w.view .uow).control.updatedAt) with
  | error e =>
      simp only [hcreate, run_suppress, run_rollback, run_fail] at h
      cases h
      exact ⟨World.Idle.rollback _, Or.inl rfl, by rintro e ⟨⟩; rfl, fun call hc => Or.inl hc⟩
  | ok rec =>
      simp only [hcreate] at h
      cases hadd : (w.next.view .uow).exec (env.clock w.next.tick) (.addCommand rec) with
      | error e =>
          have hrun : run (handler env) (addCommand .uow rec) w.next = _ :=
            run_statement_error w.next hadd
          rw [hrun] at h
          simp only [run_suppress, run_rollback, run_fail] at h
          cases h
          refine ⟨World.Idle.rollback _, Or.inl rfl, by rintro e ⟨⟩; rfl, fun call hc => ?_⟩
          have hcall : call ∈ w.rejected ∨ call = .store .uow (.addCommand rec) := by simpa using hc
          exact hcall.imp_right (fun e => ⟨rec, e⟩)
      | ok p =>
          obtain ⟨a, ws⟩ := p
          have hrun : run (handler env) (addCommand .uow rec) w.next = _ := run_statement w.next hadd
          rw [hrun] at h
          simp only [pure_eq_ret, run_ret, run_commit] at h
          cases h
          refine ⟨World.Idle.commit _, ?_, by rintro e ⟨⟩, fun call hc => Or.inl hc⟩
          rcases Db.addCommand_writes hadd with rfl | rfl
          · exact Or.inl (by simp [hw.view_eq])
          · exact Or.inr ⟨rec, by simp [hw.view_eq]⟩

/-- The marker returns with the intents marked, or raises with the tables as they were. -/
theorem persistConflictMarker_run (hw : w.Idle) {c : ClientOrderId} {conflict : String}
    {r : Except PyError Unit} {w' : World}
    (h : run (handler env) (persistConflictMarker c conflict) w = (r, w')) :
    w'.Idle ∧ w'.db.mirrors = w.db.mirrors ∧ w'.db.fills = w.db.fills ∧ w'.db.control = w.db.control ∧
      w'.db.intents = w.db.markedIntents c ∧ (∀ e, r = .error e → e.kind = .tradeUpdate) ∧
      (∀ call ∈ w'.rejected, call ∈ w.rejected ∨ w.db.ConflictRejection c call) := by
  simp only [persistConflictMarker, bind_eq, run_bind, run_getIntent, hw.view_eq, Db.getIntent] at h
  cases hi : w.db.intents.get c with
  | none =>
      simp only [hi, run_fail] at h
      cases h
      exact ⟨hw, rfl, rfl, rfl, by simp [Db.markedIntents, hi], by rintro e ⟨⟩; rfl,
        fun call hc => Or.inl hc⟩
  | some i =>
      by_cases hu : i.status = .unknown ∨ i.status = .reviewRequired
      · simp only [hi, if_pos hu, pure_eq_ret, run_ret] at h
        cases h
        have hu' : i.status.isUnresolved = true := by
          rcases hu with e | e <;> rw [e] <;> rfl
        exact ⟨hw, rfl, rfl, rfl, by simp [Db.markedIntents, hi, hu'], by rintro e ⟨⟩,
          fun call hc => Or.inl hc⟩
      · have hu' : i.status.isUnresolved = false := by
          revert hu
          cases i.status <;> simp [OrderStatus.isUnresolved]
        have hview : (w.next.view .uow).intents.get c = some i := by
          rw [World.next_view, hw.view_eq, hi]
        simp only [hi, if_neg hu, run_tryCatch, run_bind] at h
        cases ha : orderTransitionAllowed i.status .reviewRequired with
        | true =>
            have hrun : run (handler env) (transitionStatus c .reviewRequired) w.next = _ :=
              run_statement w.next (Db.transitionStatus_eq_ok hview (Or.inr ha))
            simp only [hrun, run_commit] at h
            cases h
            refine ⟨World.Idle.commit _, ?_, ?_, ?_, ?_, by rintro e ⟨⟩, fun call hc => Or.inl hc⟩
            all_goals simp [hw.view_eq, Db.markedIntents, hi, hu', ha]
        | false =>
            have hne : OrderStatus.reviewRequired ≠ i.status := by
              rintro e
              exact hu (Or.inr e.symm)
            have hrun : run (handler env) (transitionStatus c .reviewRequired) w.next = _ :=
              run_statement_error w.next (Db.transitionStatus_eq_error hview hne ha)
            simp only [hrun, run_suppress, run_rollback, run_fail] at h
            cases h
            refine ⟨World.Idle.rollback _, rfl, rfl, rfl, ?_, by rintro e ⟨⟩; rfl, fun call hc => ?_⟩
            · simp [Db.markedIntents, hi, hu', ha]
            · have hcall : call ∈ w.rejected ∨
                  call = .store .uow (.transitionStatus c .reviewRequired) := by simpa using hc
              have hpre : i.status.isPreBroker = true := by
                rw [review_allowed_iff] at ha
                simpa [hne.symm] using ha
              exact hcall.imp_right (fun e => Or.inl ⟨e, i, hi, hpre⟩)

/-- The fresh connection of `persist_safety_pause` commits the pause. -/
theorem run_persistSafetyPause (env : Env) (w : World) {reason : String} (hr : IsPauseReason reason) :
    ∃ cs : ControlStateSnapshot, cs.entriesPaused = true ∧
      run (handler env) (persistSafetyPause reason) w =
        (.ok (), { w.next with db := w.db.apply (.putControl cs) }) := by
  obtain ⟨cs, hcs, hexec⟩ := w.db.setEntriesPaused_eq_ok (env.clock w.tick) hr
  refine ⟨cs, hcs, (run_ask w (.persistSafetyPause reason)).trans ?_⟩
  show w.next.safetyPause (env.clock w.tick) reason = _
  simp only [World.safetyPause, World.next_db, hexec]
  rfl

/-- A conflict is always made durable. -/
theorem persistConflictPause_run (hw : w.Idle) {c : ClientOrderId} {conflict : String}
    (hr : IsPauseReason ("reconciliation required; " ++ conflict))
    {r : Except PyError Unit} {w' : World}
    (h : run (handler env) (persistConflictPause uuid5 c conflict) w = (r, w')) :
    w'.Idle ∧ Gated w.db c w'.db ∧ (∀ e, r = .error e → e.kind = .tradeUpdate) ∧
      (∀ call ∈ w'.rejected, call ∈ w.rejected ∨ w.db.ConflictRejection c call) := by
  simp only [persistConflictPause, bind_eq, run_bind, run_tryCatch] at h
  rcases hm : run (handler env) (persistConflictMarker c conflict) w with ⟨rm, wm⟩
  obtain ⟨him, hmm, hfm, -, hintents, hkm, hrm⟩ := persistConflictMarker_run hw hm
  cases rm with
  | ok u =>
      rcases hp : run (handler env) (persistPause conflict) wm with ⟨rp, wp⟩
      obtain ⟨rfl, hip, ⟨cs, hcs, hdbp⟩, hrp⟩ := persistPause_run him hr hp
      simp only [hm, hp] at h
      obtain ⟨hi, hdb, hk, hrej⟩ := persistPauseAudit_run hip h
      refine ⟨hi, ?_, hk, fun call hc => ?_⟩
      · rcases hdb with e | ⟨rec, e⟩ <;> constructor <;> simp [e, hdbp, hmm, hfm, hintents, hcs]
      · rcases hrej call hc with hc | ⟨rec, rfl⟩
        · exact hrm call (hrp ▸ hc)
        · exact Or.inr (Or.inr ⟨rec, rfl⟩)
  | error e =>
      obtain ⟨cs, hcs, hsafe⟩ := run_persistSafetyPause env wm hr
      simp only [hm, markerFallback, if_pos (hkm e rfl), bind_eq, run_bind, run_tryCatch, hsafe,
        run_fail] at h
      cases h
      refine ⟨him, ⟨?_, ?_, ?_, ?_⟩, by rintro e ⟨⟩; rfl, hrm⟩ <;> simp [hmm, hfm, hintents, hcs]

/-- Surfacing a conflict raises a `TradeUpdateError` once the conflict is durable. -/
theorem surfaceConflict_run {c : ClientOrderId} {conflict : String} {e : PyError}
    (hr : IsPauseReason ("reconciliation required; " ++ conflict))
    {r : Except PyError TradeUpdateOutcome} {w' : World}
    (h : run (handler env) (surfaceConflict uuid5 c conflict e) w = (r, w')) :
    w'.Idle ∧ Gated w.db c w'.db ∧ (∃ x, r = .error x ∧ x.kind = .tradeUpdate) ∧
      (∀ call ∈ w'.rejected, call ∈ w.rejected ∨ w.db.ConflictRejection c call) := by
  simp only [surfaceConflict, bind_eq, run_bind, run_suppress, run_rollback] at h
  rcases hp : run (handler env) (persistConflictPause uuid5 c conflict) (w.next.rollback .uow) with
    ⟨rp, wp⟩
  obtain ⟨hi, hg, hk, hrej⟩ := persistConflictPause_run (World.Idle.rollback _) hr hp
  cases rp with
  | ok u =>
      simp only [hp, run_ite, run_raise, run_fail] at h
      by_cases he : e.kind = .tradeUpdate
      · rw [if_pos he] at h
        cases h
        exact ⟨hi, hg, ⟨e, rfl, he⟩, hrej⟩
      · rw [if_neg he] at h
        cases h
        exact ⟨hi, hg, ⟨_, rfl, rfl⟩, hrej⟩
  | error x =>
      simp only [hp] at h
      cases h
      exact ⟨hi, hg, ⟨x, rfl, hk x rfl⟩, hrej⟩

/-! ### Deriving from a fill -/

/-- The intents with the intent of `c`, if there is one, moved by `t`. -/
def Db.movedIntents (db : Db) (c : ClientOrderId) (t : OrderStatus → OrderStatus) :
    Table OrderIntent.clientOrderId :=
  match db.intents.get c with
  | none => db.intents
  | some i => db.intents.put (i.withStatus (t i.status))

theorem Db.movedIntents_of_get {db : Db} {c : ClientOrderId} {i : OrderIntent} (t : OrderStatus → OrderStatus)
    (h : db.intents.get c = some i) : db.movedIntents c t = db.intents.put (i.withStatus (t i.status)) := by
  rw [Db.movedIntents, h]

/-- `db'` is `db` with the mirror row `r` in place and the intent of its order moved by `t`. -/
structure Derived (db : Db) (r : MirrorRow) (t : OrderStatus → OrderStatus) (db' : Db) : Prop where
  mirrors : db'.mirrors = db.mirrors.put r
  fills : db'.fills = db.fills
  control : db'.control = db.control
  intents : db'.intents = db.movedIntents r.clientOrderId t

theorem fillCandidate_cases (m : BrokerOrder) (n : Nat) :
    (fillCandidate m n = .filled ∧ n = m.quantity.value) ∨ fillCandidate m n = .partiallyFilled ∨
      fillCandidate m n = m.status := by
  unfold fillCandidate
  split
  · exact Or.inl ⟨rfl, ‹_›⟩
  · split
    · exact Or.inr (Or.inl rfl)
    · exact Or.inr (Or.inr rfl)

/-- A fill leaves the broker status alone or moves it to the candidate. -/
theorem fillBrokerTarget_cases {m : BrokerOrder} {n : Nat} {t : BrokerOrderStatus}
    (h : fillBrokerTarget m n = .ok t) :
    t = m.status ∨ (t = fillCandidate m n ∧ brokerOrderTransitionAllowed m.status t = true) := by
  unfold fillBrokerTarget at h
  split at h
  · cases h
    exact Or.inl rfl
  · split at h
    · rename_i hp
      cases h
      exact Or.inl hp.symm
    · split at h
      · cases h
        exact Or.inl rfl
      · split at h
        · rename_i ha
          cases h
          exact Or.inr ⟨rfl, ha⟩
        · cases h

theorem fillBrokerTarget_legal {m : BrokerOrder} {n : Nat} {t : BrokerOrderStatus}
    (h : fillBrokerTarget m n = .ok t) :
    (t = m.status ∨ brokerOrderTransitionAllowed m.status t = true) ∧
      (t.isTerminal = true → t = m.status ∨ (t = .filled ∧ n = m.quantity.value)) := by
  rcases fillBrokerTarget_cases h with rfl | ⟨rfl, ha⟩
  · exact ⟨Or.inl rfl, fun _ => Or.inl rfl⟩
  · refine ⟨Or.inr ha, fun ht => ?_⟩
    rcases fillCandidate_cases m n with hc | hc | hc
    · exact Or.inr hc
    · rw [hc] at ht
      cases ht
    · exact Or.inl hc

theorem fillBrokerTarget_error {m : BrokerOrder} {n : Nat} {e : PyError}
    (h : fillBrokerTarget m n = .error e) : e.kind = .tradeUpdate := by
  unfold fillBrokerTarget at h
  split at h
  · cases h
  · split at h
    · cases h
    · split at h
      · cases h
      · split at h
        · cases h
        · cases h
          rfl

/-- Why a recorded fill cannot be derived: the fills exceed the order, the broker status or
the intent status has no legal transition. -/
def FillRefused (m : BrokerOrder) (n : Nat) (intent : Option OrderIntent) : Prop :=
  m.quantity.value < n ∨ (∃ e, fillBrokerTarget m n = .error e) ∨
    ∃ t i, fillBrokerTarget m n = .ok t ∧ intent = some i ∧
      fillIntentTarget t i.status ≠ i.status ∧
      orderTransitionAllowed i.status (fillIntentTarget t i.status) = false

/-- The watermark a fill brings, if it is later than the mirror's. -/
def fillObserved (m : BrokerOrder) (f : Fill) : Option UtcTimestamp :=
  if m.updatedAt < f.occurredAt then some f.occurredAt else none

theorem newFilled_eq (m total : Nat) : (if total < m then m else total) = max m total := by
  split <;> omega

/-- The intent of `c` follows a fill, or the lifecycle refuses. -/
theorem transitionAfterFill_run {c : ClientOrderId} {t : BrokerOrderStatus}
    {r : Except PyError Unit} {w' : World}
    (h : run (handler env) (transitionAfterFill c t) w = (r, w')) :
    (r = .ok () ∧ w'.rejected = w.rejected ∧ w'.db = w.db ∧
      (w'.view .uow).mirrors = (w.view .uow).mirrors ∧ (w'.view .uow).fills = (w.view .uow).fills ∧
      (w'.view .uow).control = (w.view .uow).control ∧
      (w'.view .uow).intents = (w.view .uow).movedIntents c (fillIntentTarget t) ∧
      ∀ i, (w.view .uow).intents.get c = some i → fillIntentTarget t i.status = i.status ∨
        orderTransitionAllowed i.status (fillIntentTarget t i.status) = true) ∨
    (∃ e, r = .error e ∧ e.kind = .tradeUpdate ∧ w'.rejected = w.rejected ∧ w'.db = w.db ∧
      ∃ i, (w.view .uow).intents.get c = some i ∧ fillIntentTarget t i.status ≠ i.status ∧
        orderTransitionAllowed i.status (fillIntentTarget t i.status) = false) := by
  simp only [transitionAfterFill, bind_eq, run_bind, run_getIntent, Db.getIntent] at h
  cases hi : (w.view .uow).intents.get c with
  | none =>
      simp only [hi, pure_eq_ret, run_ret] at h
      cases h
      exact Or.inl ⟨rfl, rfl, rfl, rfl, rfl, rfl, by simp [Db.movedIntents, hi], by simp⟩
  | some i =>
      have hkey : i.clientOrderId = c := Table.key_of_get hi
      by_cases hne : fillIntentTarget t i.status ≠ i.status
      · simp only [hi, if_pos hne] at h
        cases ha : orderTransitionAllowed i.status (fillIntentTarget t i.status) with
        | true =>
            have hrun : run (handler env) (transitionStatus c (fillIntentTarget t i.status)) w.next = _ :=
              run_statement w.next (Db.transitionStatus_eq_ok (by simpa using hi) (Or.inr ha))
            simp only [ha, if_true, run_bind, hrun, pure_eq_ret, run_ret] at h
            cases h
            refine Or.inl ⟨rfl, rfl, rfl, ?_, ?_, ?_, ?_, ?_⟩ <;> simp [Db.movedIntents, hi, ha]
        | false =>
            simp only [ha, Bool.false_eq_true, if_false, run_fail] at h
            cases h
            exact Or.inr ⟨_, rfl, rfl, rfl, rfl, i, rfl, hne, ha⟩
      · simp only [hi, if_neg hne, pure_eq_ret, run_ret] at h
        cases h
        rw [not_not] at hne
        refine Or.inl ⟨rfl, rfl, rfl, rfl, rfl, rfl, ?_, by simp [hne]⟩
        simp only [Db.movedIntents, hi, hne, OrderIntent.withStatus_self, World.next_view]
        exact (Table.put_self (hkey.symm ▸ hi)).symm

/-- A guarded refresh of the mirror row `row` is written, uncommitted. -/
theorem run_updateBrokerOrderStatus {b : String} {row : MirrorRow} {t : BrokerOrderStatus} {n : Nat}
    {o : Option UtcTimestamp} (hrow : (w.view .uow).mirrors.get b = some row)
    (hw : ∀ x ∈ o, row.order.updatedAt ≤ x)
    (ht : t = row.order.status ∨ brokerOrderTransitionAllowed row.order.status t = true)
    (hn : row.order.filledQuantity ≤ n) (hf : t = .filled → n = row.order.quantity.value)
    (hq : n ≤ row.order.quantity.value) :
    run (handler env) (updateBrokerOrderStatus b t n o) w =
      (.ok (row.refreshed t n o hq hf).order,
        w.next.write .uow [.putMirror (row.refreshed t n o hq hf)]) := by
  apply run_statement
  simp only [Db.exec, Db.refreshMirror, hrow, MirrorRow.refresh_eq_ok hw ht hn hf hq, Except.map]
  rfl

/-- The tables a connection sees after writing a refreshed mirror row. -/
theorem view_putMirror {b : String} {row : MirrorRow} (row' : MirrorRow)
    (hrow : (w.view .uow).mirrors.get b = some row)
    (hb : row'.brokerOrderId = row.brokerOrderId) (hc : row'.clientOrderId = row.clientOrderId) :
    ((w.next.write .uow [.putMirror row']).view .uow).mirrors = (w.view .uow).mirrors.put row' := by
  have hkey : row.brokerOrderId = b := Table.key_of_get hrow
  rw [World.write_view, World.next_view, Db.applyAll_cons, Db.applyAll_nil]
  exact Db.apply_putMirror_mirrors (r := row) (by rw [hb, hkey, hrow]) hc.symm

/-- The filled quantity a mirror takes from the recorded fills; it never moves backwards. -/
def Db.fillLevel (db : Db) (row : MirrorRow) : Nat :=
  max row.order.filledQuantity (fillTotal (db.fillsOf row.brokerOrderId))

theorem Db.le_fillLevel (db : Db) (row : MirrorRow) : row.order.filledQuantity ≤ db.fillLevel row :=
  le_max_left _ _

/-- The effect of deriving from the recorded fill `f`: nothing when the mirror already says
what the fills say, else the mirror follows the fills and the intent follows the mirror. -/
inductive FillDerived (db : Db) (row : MirrorRow) (f : Fill) : Db → Prop
  | same (hl : db.fillLevel row = row.order.filledQuantity)
      (ht : fillBrokerTarget row.order (db.fillLevel row) = .ok row.order.status)
      (ho : fillObserved row.order f = none) : FillDerived db row f db
  | moved {t : BrokerOrderStatus} {db' : Db} (hq : db.fillLevel row ≤ row.order.quantity.value)
      (hf : t = .filled → db.fillLevel row = row.order.quantity.value)
      (ht : fillBrokerTarget row.order (db.fillLevel row) = .ok t)
      (hi : ∀ i, db.intents.get row.clientOrderId = some i → fillIntentTarget t i.status = i.status ∨
        orderTransitionAllowed i.status (fillIntentTarget t i.status) = true)
      (hd : Derived db (row.refreshed t (db.fillLevel row) (fillObserved row.order f) hq hf)
        (fillIntentTarget t) db') : FillDerived db row f db'

/-- Deriving from a recorded fill takes effect, or raises and leaves the tables alone. -/
theorem deriveFromFill_run (hw : w.Idle) {row : MirrorRow} {f : Fill}
    (hrow : w.db.mirrors.get row.brokerOrderId = some row)
    {r : Except PyError TradeUpdateOutcome} {w' : World}
    (h : run (handler env) (deriveFromFill row.order f) w = (r, w')) :
    w'.rejected = w.rejected ∧
    ((r = .ok .applied ∧ w'.Idle ∧ FillDerived w.db row f w'.db) ∨
      (∃ e, r = .error e ∧ e.kind = .tradeUpdate ∧ w'.db = w.db ∧
        FillRefused row.order (w.db.fillLevel row) (w.db.intents.get row.clientOrderId))) := by
  have hlevel : (if fillTotal (w.db.fillsOf row.order.brokerOrderId) < row.order.filledQuantity
      then row.order.filledQuantity else fillTotal (w.db.fillsOf row.order.brokerOrderId)) =
      w.db.fillLevel row := newFilled_eq _ _
  simp only [deriveFromFill, bind_eq, run_bind, run_listFills, hw.view_eq, hlevel] at h
  by_cases hq : row.order.quantity.value < w.db.fillLevel row
  · simp only [if_pos hq, run_fail] at h
    cases h
    exact ⟨rfl, Or.inr ⟨_, rfl, rfl, rfl, Or.inl hq⟩⟩
  · simp only [if_neg hq, run_bind, run_ofExcept] at h
    rw [not_lt] at hq
    cases ht : fillBrokerTarget row.order (w.db.fillLevel row) with
    | error e =>
        simp only [ht] at h
        cases h
        exact ⟨rfl, Or.inr ⟨e, rfl, fillBrokerTarget_error ht, rfl, Or.inr (Or.inl ⟨e, ht⟩)⟩⟩
    | ok t =>
        simp only [ht] at h
        change run (handler env) (if t = row.order.status ∧
          w.db.fillLevel row = row.order.filledQuantity ∧ fillObserved row.order f = none then _ else _)
          w.next = _ at h
        by_cases hs : t = row.order.status ∧ w.db.fillLevel row = row.order.filledQuantity ∧
            fillObserved row.order f = none
        · rw [if_pos hs] at h
          cases h
          exact ⟨rfl, Or.inl ⟨rfl, hw, .same hs.2.1 (hs.1 ▸ ht) hs.2.2⟩⟩
        · rw [if_neg hs] at h
          have hlegal := fillBrokerTarget_legal ht
          have hfull : t = .filled → w.db.fillLevel row = row.order.quantity.value := by
            rintro rfl
            rcases hlegal.2 rfl with hst | ⟨-, hn⟩
            · have := row.exact hst.symm
              unfold Db.fillLevel at hq ⊢
              omega
            · exact hn
          have hview : (w.next.view .uow).mirrors.get row.order.brokerOrderId = some row := by
            rw [World.next_view, hw.view_eq]
            exact hrow
          have hobs : ∀ x ∈ fillObserved row.order f, row.order.updatedAt ≤ x := by
            intro x hx
            unfold fillObserved at hx
            split at hx
            · cases hx
              exact le_of_lt ‹_›
            · cases hx
          have hrun : run (handler env) (updateBrokerOrderStatus row.order.brokerOrderId t
              (w.db.fillLevel row) (fillObserved row.order f)) w.next = _ :=
            run_updateBrokerOrderStatus hview hobs hlegal.1 (w.db.le_fillLevel row) hfull hq
          have hput := view_putMirror (row.refreshed t (w.db.fillLevel row)
            (fillObserved row.order f) hq hfull) hview rfl rfl
          change run (handler env) ((updateBrokerOrderStatus row.order.brokerOrderId t
            (w.db.fillLevel row) (fillObserved row.order f)).bind _) w.next = _ at h
          rw [run_bind, hrun] at h
          simp only [run_bind] at h
          generalize hw₁ : w.next.next.write .uow [.putMirror (row.refreshed t (w.db.fillLevel row)
            (fillObserved row.order f) hq hfull)] = w₁ at h hput
          have hintents : (w₁.view .uow).intents = w.db.intents := by simp [← hw₁, hw.view_eq]
          have hfills : (w₁.view .uow).fills = w.db.fills := by simp [← hw₁, hw.view_eq]
          have hcontrol : (w₁.view .uow).control = w.db.control := by simp [← hw₁, hw.view_eq]
          have hdb : w₁.db = w.db := by simp [← hw₁]
          have hrej : w₁.rejected = w.rejected := by simp [← hw₁]
          rcases htr : run (handler env) (transitionAfterFill row.order.clientOrderId t) w₁ with ⟨r₂, w₂⟩
          rw [htr] at h
          rcases transitionAfterFill_run htr with
            ⟨rfl, hrej₂, hdb₂, hm₂, hf₂, hc₂, hi₂, hl₂⟩ | ⟨e, rfl, he, hrej₂, hdb₂, i, hi, hne, ha⟩
          · simp only [run_commit, pure_eq_ret, run_ret] at h
            cases h
            rw [hintents] at hl₂
            refine ⟨by simp [hrej₂, hrej], Or.inl ⟨rfl, World.Idle.commit _, .moved hq hfull ht hl₂ ?_⟩⟩
            · refine ⟨?_, ?_, ?_, ?_⟩
              · simp [hm₂, hput, hw.view_eq]
              · simp [hf₂, hfills]
              · simp [hc₂, hcontrol]
              · simp only [World.commit_db, World.next_view, hi₂, Db.movedIntents, hintents]
                rfl
          · cases h
            rw [hintents] at hi
            exact ⟨hrej₂.trans hrej, Or.inr ⟨e, rfl, he, hdb₂.trans hdb,
              Or.inr (Or.inr ⟨t, i, ht, hi, hne, ha⟩)⟩⟩

/-! ### Deriving from a status observation -/

theorem checkStatus_ok {m : BrokerOrder} {u : OrderStatusUpdate} (h : checkStatus m u = .ok ()) :
    u.observedAt ≠ m.updatedAt ∧ m.filledQuantity ≤ u.filledQuantity ∧
      u.filledQuantity ≤ m.quantity.value ∧ (u.status = .filled → u.filledQuantity = m.quantity.value) ∧
      (u.status = m.status ∨ brokerOrderTransitionAllowed m.status u.status = true) := by
  unfold checkStatus at h
  split at h
  · cases h
  · rename_i h₁
    split at h
    · cases h
    · rename_i h₂
      split at h
      · cases h
      · rename_i h₃
        split at h
        · cases h
        · rename_i h₄
          refine ⟨h₁, not_lt.mp h₂, not_lt.mp h₃, fun e => by_contra fun hn => h₄ ⟨e, hn⟩, ?_⟩
          split at h
          · unfold assertBrokerOrderTransition at h
            split at h
            · exact Or.inr ‹_›
            · cases h
          · exact Or.inl (not_not.mp ‹_›)

/-- The intent may take the status an observation leads to: directly, or through a pending
cancel when the broker canceled the order on its own. -/
def observable (current target : OrderStatus) : Prop :=
  target = current ∨ orderTransitionAllowed current target = true ∨
    (target = .canceled ∧ orderTransitionAllowed current .cancelPending = true)

instance (current target : OrderStatus) : Decidable (observable current target) :=
  inferInstanceAs (Decidable (_ ∨ _ ∨ _))

/-- The intent follows an observation, or the lifecycle refuses. -/
theorem transitionAfterStatus_run {c : ClientOrderId} {i : OrderIntent} {t : OrderStatus}
    (hi : (w.view .uow).intents.get c = some i) {r : Except PyError Unit} {w' : World}
    (h : run (handler env) (transitionAfterStatus c i.status t) w = (r, w')) :
    w'.rejected = w.rejected ∧ w'.db = w.db ∧
    ((r = .ok () ∧ observable i.status t ∧
      (w'.view .uow).mirrors = (w.view .uow).mirrors ∧ (w'.view .uow).fills = (w.view .uow).fills ∧
      (w'.view .uow).control = (w.view .uow).control ∧
      (w'.view .uow).intents = (w.view .uow).intents.put (i.withStatus t)) ∨
    (∃ e, r = .error e ∧ ¬ observable i.status t)) := by
  have hkey : i.clientOrderId = c := Table.key_of_get hi
  by_cases hne : t = i.status
  · simp only [transitionAfterStatus, hne, ne_eq, not_true, if_false, pure_eq_ret, run_ret] at h
    cases h
    refine ⟨rfl, rfl, Or.inl ⟨rfl, Or.inl hne, rfl, rfl, rfl, ?_⟩⟩
    rw [hne, OrderIntent.withStatus_self]
    exact (Table.put_self (hkey.symm ▸ hi)).symm
  · simp only [transitionAfterStatus, ne_eq, hne, not_false_eq_true, if_true, transitionIntent] at h
    cases ha : orderTransitionAllowed i.status t with
    | true =>
        have hrun : run (handler env) (transitionStatus c t) w = _ :=
          run_statement w (Db.transitionStatus_eq_ok hi (Or.inr ha))
        simp only [ha, Bool.true_eq_false, if_false, bind_eq, run_bind, hrun, pure_eq_ret, run_ret] at h
        cases h
        refine ⟨rfl, rfl, Or.inl ⟨rfl, Or.inr (Or.inl ha), ?_, ?_, ?_, ?_⟩⟩ <;> simp
    | false =>
        by_cases hroute : t = .canceled ∧ orderTransitionAllowed i.status .cancelPending = true
        · obtain ⟨rfl, hp⟩ := hroute
          have hrun : run (handler env) (transitionStatus c .cancelPending) w = _ :=
            run_statement w (Db.transitionStatus_eq_ok hi (Or.inr hp))
          generalize hw₁ : w.next.write .uow [.putIntent (i.withStatus .cancelPending)] = w₁ at hrun
          have hview : w₁.view .uow = (w.view .uow).apply (.putIntent (i.withStatus .cancelPending)) := by
            simp [← hw₁]
          have hget : (w₁.view .uow).intents.get c = some (i.withStatus .cancelPending) := by
            rw [hview]
            subst hkey
            exact Table.get_put_self hi
          have hrun₂ : run (handler env) (transitionStatus c .canceled) w₁ = _ :=
            run_statement w₁ (Db.transitionStatus_eq_ok hget (Or.inr rfl))
          simp only [ha, hp, and_self, if_true, bind_eq, run_bind, hrun, hrun₂, pure_eq_ret, run_ret] at h
          cases h
          refine ⟨by simp [← hw₁], by simp [← hw₁],
            Or.inl ⟨rfl, Or.inr (Or.inr ⟨rfl, hp⟩), ?_, ?_, ?_, ?_⟩⟩
          · simp [hview]
          · simp [hview]
          · simp [hview]
          · simp only [World.write_view, World.next_view, hview, Db.applyAll_cons, Db.applyAll_nil,
              Db.apply_putIntent_intents, OrderIntent.withStatus_withStatus]
            exact Table.put_put _ rfl
        · simp only [ha, if_true, if_neg hroute, run_fail] at h
          cases h
          refine ⟨rfl, rfl, Or.inr ⟨_, rfl, ?_⟩⟩
          rintro (e | e | e)
          · exact hne e
          · rw [ha] at e
            cases e
          · exact hroute e

/-- The effect of a status observation `u` on the mirror row and the intent. -/
inductive StatusDerived (db : Db) (row : MirrorRow) (i : OrderIntent) (u : OrderStatusUpdate) : Db → Prop
  | moved {db' : Db} (hcheck : checkStatus row.order u = .ok ())
      (hi : observable i.status (statusIntentTarget u.status i.status))
      (hq : u.filledQuantity ≤ row.order.quantity.value)
      (hf : u.status = .filled → u.filledQuantity = row.order.quantity.value)
      (hd : Derived db (row.refreshed u.status u.filledQuantity (some u.observedAt) hq hf)
        (statusIntentTarget u.status) db') : StatusDerived db row i u db'

/-- Writing an observation takes effect, or raises and leaves the tables alone. -/
theorem deriveFromStatus_run (hw : w.Idle) {row : MirrorRow} {i : OrderIntent} {u : OrderStatusUpdate}
    (hrow : w.db.mirrors.get row.brokerOrderId = some row) (hc : row.clientOrderId = u.clientOrderId)
    (hi : w.db.intents.get u.clientOrderId = some i) (hobs : row.order.updatedAt ≤ u.observedAt)
    {r : Except PyError TradeUpdateOutcome} {w' : World}
    (h : run (handler env) (deriveFromStatus i row.order u) w = (r, w')) :
    w'.rejected = w.rejected ∧
    ((r = .ok .applied ∧ w'.Idle ∧ StatusDerived w.db row i u w'.db) ∨
      (∃ e, r = .error e ∧ w'.db = w.db ∧ ((∃ x, checkStatus row.order u = .error x) ∨
        ¬ observable i.status (statusIntentTarget u.status i.status)))) := by
  simp only [deriveFromStatus, bind_eq, run_bind, run_ofExcept] at h
  cases hcheck : checkStatus row.order u with
  | error e =>
      simp only [hcheck] at h
      cases h
      exact ⟨rfl, Or.inr ⟨e, rfl, rfl, Or.inl ⟨e, rfl⟩⟩⟩
  | ok x =>
      obtain ⟨-, hn, hq, hf, hs⟩ := checkStatus_ok hcheck
      have hview : (w.view .uow).mirrors.get row.order.brokerOrderId = some row := by
        rw [hw.view_eq]
        exact hrow
      have hrun : run (handler env) (updateBrokerOrderStatus row.order.brokerOrderId u.status
          u.filledQuantity (some u.observedAt)) w = _ :=
        run_updateBrokerOrderStatus hview (by simpa using hobs) hs hn hf hq
      have hput := view_putMirror (row.refreshed u.status u.filledQuantity
        (some u.observedAt) hq hf) hview rfl rfl
      simp only [hcheck, hrun] at h
      generalize hw₁ : w.next.write .uow [.putMirror (row.refreshed u.status u.filledQuantity
        (some u.observedAt) hq hf)] = w₁ at h hput
      have hintents : (w₁.view .uow).intents = w.db.intents := by simp [← hw₁, hw.view_eq]
      have hfills : (w₁.view .uow).fills = w.db.fills := by simp [← hw₁, hw.view_eq]
      have hcontrol : (w₁.view .uow).control = w.db.control := by simp [← hw₁, hw.view_eq]
      have hdb : w₁.db = w.db := by simp [← hw₁]
      have hrej : w₁.rejected = w.rejected := by simp [← hw₁]
      rcases htr : run (handler env) (transitionAfterStatus u.clientOrderId i.status
        (statusIntentTarget u.status i.status)) w₁ with ⟨r₂, w₂⟩
      rw [htr] at h
      obtain ⟨hrej₂, hdb₂, ⟨rfl, hob, hm₂, hf₂, hc₂, hi₂⟩ | ⟨e, rfl, hob⟩⟩ :=
        transitionAfterStatus_run (hintents ▸ hi) htr
      · simp only [run_commit, pure_eq_ret, run_ret] at h
        cases h
        refine ⟨by simp [hrej₂, hrej], Or.inl ⟨rfl, World.Idle.commit _, .moved hcheck hob hq hf ?_⟩⟩
        refine ⟨?_, ?_, ?_, ?_⟩
        · simp [hm₂, hput, hw.view_eq]
        · simp [hf₂, hfills]
        · simp [hc₂, hcontrol]
        · have hrc : (row.refreshed u.status u.filledQuantity (some u.observedAt) hq hf).clientOrderId =
            u.clientOrderId := hc
          simp only [World.commit_db, World.next_view, hi₂, Db.movedIntents, hintents, hrc, hi]
      · cases h
        exact ⟨hrej₂.trans hrej, Or.inr ⟨e, rfl, hdb₂.trans hdb, Or.inr hob⟩⟩

/-! ### One update -/

/-- What `TradeUpdateConsumer.apply` can do with update `u` in the committed tables `db`:
the result it returns or raises and the committed tables it leaves. -/
inductive Consumed (db : Db) : TradeUpdate → Except PyError TradeUpdateOutcome → Db → Prop
  | unknownFill {f : Fill} (hm : db.mirrors.get f.brokerOrderId = none) :
      Consumed db (.fill f) (.ok .unknownOrder) db
  | unstorable {f : Fill} {e : PyError} (hq : bigintMax < f.quantity.value) (he : e.kind = .database) :
      Consumed db (.fill f) (.error e) db
  | repeated {f : Fill} (hf : db.fills.get f.executionId = some f) :
      Consumed db (.fill f) (.ok .duplicate) db
  | clashing {f g : Fill} {row : MirrorRow} {e : PyError} {db' : Db}
      (hm : db.mirrors.get f.brokerOrderId = some row) (hg : db.fills.get f.executionId = some g)
      (hne : g ≠ f) (he : e.kind = .tradeUpdate) (hgate : Gated db row.clientOrderId db') :
      Consumed db (.fill f) (.error e) db'
  | filled {f : Fill} {row : MirrorRow} {db' : Db} (hm : db.mirrors.get f.brokerOrderId = some row)
      (hnew : db.fills.get f.executionId = none)
      (hd : FillDerived (db.apply (.addFill f)) row f db') :
      Consumed db (.fill f) (.ok .applied) db'
  | refusedFill {f : Fill} {row : MirrorRow} {e : PyError} {db' : Db}
      (hm : db.mirrors.get f.brokerOrderId = some row) (hnew : db.fills.get f.executionId = none)
      (hr : FillRefused row.order ((db.apply (.addFill f)).fillLevel row)
        (db.intents.get row.clientOrderId))
      (he : e.kind = .tradeUpdate) (hgate : Gated (db.apply (.addFill f)) row.clientOrderId db') :
      Consumed db (.fill f) (.error e) db'
  | unknownStatus {u : OrderStatusUpdate} (h : db.intents.get u.clientOrderId = none ∨
      ∀ row, db.mirrorOf u.clientOrderId = some row → row.brokerOrderId ≠ u.brokerOrderId) :
      Consumed db (.status u) (.ok .unknownOrder) db
  | stale {u : OrderStatusUpdate} {row : MirrorRow} (hm : db.mirrorOf u.clientOrderId = some row)
      (hlt : u.observedAt < row.order.updatedAt) : Consumed db (.status u) (.ok .stale) db
  | repeatedStatus {u : OrderStatusUpdate} {row : MirrorRow}
      (hm : db.mirrorOf u.clientOrderId = some row) (hb : row.brokerOrderId = u.brokerOrderId)
      (hle : row.order.updatedAt ≤ u.observedAt)
      (hs : u.status = row.order.status ∧ u.filledQuantity = row.order.filledQuantity) :
      Consumed db (.status u) (.ok .duplicate) db
  | observed {u : OrderStatusUpdate} {row : MirrorRow} {i : OrderIntent} {db' : Db}
      (hi : db.intents.get u.clientOrderId = some i) (hm : db.mirrorOf u.clientOrderId = some row)
      (hb : row.brokerOrderId = u.brokerOrderId) (hle : row.order.updatedAt ≤ u.observedAt)
      (hd : StatusDerived db row i u db') : Consumed db (.status u) (.ok .applied) db'
  | refusedStatus {u : OrderStatusUpdate} {row : MirrorRow} {i : OrderIntent} {e : PyError} {db' : Db}
      (hi : db.intents.get u.clientOrderId = some i) (hm : db.mirrorOf u.clientOrderId = some row)
      (hle : row.order.updatedAt ≤ u.observedAt)
      (hr : (∃ x, checkStatus row.order u = .error x) ∨
        ¬ observable i.status (statusIntentTarget u.status i.status))
      (he : e.kind = .tradeUpdate) (hgate : Gated db u.clientOrderId db') :
      Consumed db (.status u) (.error e) db'

/-- The calls an update may have rejected by the store. -/
def Db.Rejection (db : Db) (u : TradeUpdate) (call : Call) : Prop :=
  (∃ c, db.ConflictRejection c call) ∨
    ∃ f, u = .fill f ∧ bigintMax < f.quantity.value ∧ call = .store .uow (.addFill f)

theorem isPauseReason_fill : IsPauseReason ("reconciliation required; " ++ "conflicting fill") := by
  decide

theorem isPauseReason_status : IsPauseReason ("reconciliation required; " ++ "conflicting status") := by
  decide

theorem applyFill_run (hw : w.Idle) {f : Fill} {r : Except PyError TradeUpdateOutcome} {w' : World}
    (h : run (handler env) (applyFill uuid5 f) w = (r, w')) :
    w'.Idle ∧ Consumed w.db (.fill f) r w'.db ∧
      (∀ call ∈ w'.rejected, call ∈ w.rejected ∨ w.db.Rejection (.fill f) call) := by
  simp only [applyFill, bind_eq, run_bind, run_getBrokerOrderById, hw.view_eq, Db.getBrokerOrderById] at h
  cases hm : w.db.mirrors.get f.brokerOrderId with
  | none =>
      simp only [hm, Option.map_none, pure_eq_ret, run_ret] at h
      cases h
      exact ⟨hw, .unknownFill hm, fun call hc => Or.inl hc⟩
  | some row =>
      have hkey : row.brokerOrderId = f.brokerOrderId := Table.key_of_get hm
      have hview : w.next.view .uow = w.db := hw.view_eq
      simp only [hm, Option.map_some] at h
      by_cases hq : bigintMax < f.quantity.value
      · have hadd : (w.next.view .uow).addFill f = .error ⟨.database, "bigint out of range"⟩ := by
          simp only [Db.addFill, if_pos hq]
        have hrun : run (handler env) (addFill f) w.next = _ := run_statement_error w.next hadd
        simp only [run_bind, hrun] at h
        cases h
        refine ⟨hw, .unstorable hq rfl, fun call hc => ?_⟩
        have hcall : call ∈ w.rejected ∨ call = .store .uow (.addFill f) := by simpa using hc
        exact hcall.imp_right (fun e => Or.inr ⟨f, rfl, hq, e⟩)
      · cases hf : w.db.fills.get f.executionId with
        | some g =>
            have hadd : (w.next.view .uow).addFill f = .ok (false, []) := by
              simp only [Db.addFill, if_neg hq, hview, hf, Option.isSome_some, if_true]
            have hrun : run (handler env) (addFill f) w.next = _ := run_read w.next hadd
            simp only [run_bind, hrun, if_true, run_getFillByExecutionId, World.next_view, hw.view_eq,
              hf, ne_eq, Option.some.injEq] at h
            by_cases hg : g = f
            · subst hg
              simp only [not_true, if_false, run_bind, run_commit, pure_eq_ret, run_ret] at h
              cases h
              refine ⟨World.Idle.commit _, ?_, fun call hc => Or.inl hc⟩
              simpa [hw.view_eq] using Consumed.repeated hf
            · simp only [hg, not_false_eq_true, if_true, run_bind, run_suppress, run_rollback] at h
              rcases hp : run (handler env) (persistConflictPause uuid5 row.order.clientOrderId
                "conflicting fill") (w.next.next.next.next.rollback .uow) with ⟨rp, wp⟩
              obtain ⟨hi, hgate, hk, hrej⟩ :=
                persistConflictPause_run (World.Idle.rollback _) isPauseReason_fill hp
              rw [hp] at h
              have hr' : ∀ call ∈ wp.rejected, call ∈ w.rejected ∨ w.db.Rejection (.fill f) call :=
                fun call hc => (hrej call hc).imp_right (fun e => Or.inl ⟨_, e⟩)
              cases rp with
              | ok u =>
                  simp only [run_fail] at h
                  cases h
                  exact ⟨hi, .clashing hm hf hg rfl hgate, hr'⟩
              | error x =>
                  simp only at h
                  cases h
                  exact ⟨hi, .clashing hm hf hg (hk x rfl) hgate, hr'⟩
        | none =>
            have hadd : (w.next.view .uow).addFill f = .ok (true, [.addFill f]) := by
              simp only [Db.addFill, if_neg hq, hview, hf, hm, Option.isSome_none, Option.isNone_some,
                Bool.false_eq_true, if_false]
            have hrun : run (handler env) (addFill f) w.next = _ := run_statement w.next hadd
            simp only [run_bind, hrun, Bool.true_eq_false, if_false, run_commit, run_tryCatch] at h
            generalize hw₁ : (w.next.next.write .uow [.addFill f]).next.commit .uow = w₁ at h
            have hdb : w₁.db = w.db.apply (.addFill f) := by simp [← hw₁, hw.view_eq]
            have hidle : w₁.Idle := by
              rw [← hw₁]
              exact World.Idle.commit _
            have hrej₁ : w₁.rejected = w.rejected := by simp [← hw₁]
            have hrow : w₁.db.mirrors.get row.brokerOrderId = some row := by
              rw [hdb, Db.apply_addFill_mirrors, hkey, hm]
            rcases hd : run (handler env) (deriveFromFill row.order f) w₁ with ⟨rd, wd⟩
            rw [hd] at h
            obtain ⟨hrej, ⟨rfl, hi, hfd⟩ | ⟨e, rfl, he, hdbd, href⟩⟩ := deriveFromFill_run hidle hrow hd
            · cases h
              rw [hdb] at hfd
              exact ⟨hi, .filled hm hf hfd, fun call hc => Or.inl (hrej₁ ▸ hrej ▸ hc)⟩
            · simp only at h
              obtain ⟨hi, hgate, ⟨x, rfl, hx⟩, hrejs⟩ := surfaceConflict_run isPauseReason_fill h
              rw [hdbd, hdb] at hgate hrejs
              rw [hdb] at href
              refine ⟨hi, .refusedFill hm hf href hx hgate, fun call hc => ?_⟩
              exact (hrejs call hc).imp (fun hc => hrej₁ ▸ hrej ▸ hc) (fun e => Or.inl ⟨_, e⟩)

theorem applyStatus_run (hw : w.Idle) {u : OrderStatusUpdate} {r : Except PyError TradeUpdateOutcome}
    {w' : World} (h : run (handler env) (applyStatus uuid5 u) w = (r, w')) :
    w'.Idle ∧ Consumed w.db (.status u) r w'.db ∧
      (∀ call ∈ w'.rejected, call ∈ w.rejected ∨ w.db.Rejection (.status u) call) := by
  simp only [applyStatus, bind_eq, run_bind, run_getIntent, hw.view_eq, Db.getIntent] at h
  cases hi : w.db.intents.get u.clientOrderId with
  | none =>
      simp only [hi, pure_eq_ret, run_ret] at h
      cases h
      exact ⟨hw, .unknownStatus (Or.inl hi), fun call hc => Or.inl hc⟩
  | some i =>
      simp only [hi, run_bind, run_getBrokerOrder, World.next_view, hw.view_eq, Db.getBrokerOrder] at h
      cases hm : w.db.mirrorOf u.clientOrderId with
      | none =>
          simp only [hm, Option.map_none, pure_eq_ret, run_ret] at h
          cases h
          exact ⟨hw, .unknownStatus (Or.inr (by simp [hm])), fun call hc => Or.inl hc⟩
      | some row =>
          obtain ⟨hrow, hc⟩ := Db.get_of_mirrorOf hm
          simp only [hm, Option.map_some] at h
          by_cases hb : row.order.brokerOrderId ≠ u.brokerOrderId
          · simp only [if_pos hb, pure_eq_ret, run_ret] at h
            cases h
            refine ⟨hw, .unknownStatus (Or.inr ?_), fun call hc => Or.inl hc⟩
            rintro q hq
            rw [hm] at hq
            cases hq
            exact hb
          · simp only [if_neg hb] at h
            rw [not_not] at hb
            by_cases hlt : u.observedAt < row.order.updatedAt
            · simp only [if_pos hlt, pure_eq_ret, run_ret] at h
              cases h
              exact ⟨hw, .stale hm hlt, fun call hc => Or.inl hc⟩
            · simp only [if_neg hlt] at h
              rw [not_lt] at hlt
              by_cases hs : u.status = row.order.status ∧ u.filledQuantity = row.order.filledQuantity
              · simp only [if_pos hs, pure_eq_ret, run_ret] at h
                cases h
                exact ⟨hw, .repeatedStatus hm hb hlt hs, fun call hc => Or.inl hc⟩
              · simp only [if_neg hs, run_tryCatch] at h
                rcases hd : run (handler env) (deriveFromStatus i row.order u) w.next.next with ⟨rd, wd⟩
                rw [hd] at h
                obtain ⟨hrej, ⟨rfl, hid, hsd⟩ | ⟨e, rfl, hdb, href⟩⟩ :=
                  deriveFromStatus_run hw.next.next hrow hc hi hlt hd
                · cases h
                  exact ⟨hid, .observed hi hm hb hlt hsd, fun call hc => Or.inl (hrej ▸ hc)⟩
                · simp only at h
                  obtain ⟨hi', hgate, ⟨x, rfl, hx⟩, hrejs⟩ := surfaceConflict_run isPauseReason_status h
                  rw [hdb] at hgate hrejs
                  refine ⟨hi', .refusedStatus hi hm hlt href hx hgate, fun call hc => ?_⟩
                  exact (hrejs call hc).imp (fun hc => hrej ▸ hc) (fun e => Or.inl ⟨_, e⟩)

/-- One run of the consumer from an idle unit of work leaves the unit of work idle, does one
of the things `Consumed` lists, and has nothing rejected by the store beyond `Rejection`. -/
theorem applyUpdate_consumed (hw : w.Idle) {u : TradeUpdate} {r : Except PyError TradeUpdateOutcome}
    {w' : World} (h : run (handler env) (applyUpdate uuid5 u) w = (r, w')) :
    w'.Idle ∧ Consumed w.db u r w'.db ∧
      (∀ call ∈ w'.rejected, call ∈ w.rejected ∨ w.db.Rejection u call) := by
  cases u with
  | fill f => exact applyFill_run hw h
  | status u => exact applyStatus_run hw h

end SevenLens
