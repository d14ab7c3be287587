import SevenLens.ConsumerStream

/-! # The durable gate of a conflict under store failures

A conflict is made durable by a marker on the intent, a pause of new entries and a fallback
pause on a fresh connection.  Here every one of these store operations may fail, in every
combination (`faulty`).  The gate holds unless the marker reads a review status that was
never committed: the commit of a review observation is lost, the rollback is lost too, and
the pause fails afterwards (`Unguarded`). -/

namespace SevenLens

open Calls Prog

/-- How a store operation fails: before it takes effect, or after. -/
inductive Fault where
  | lost | late
deriving DecidableEq

/-- The store operations that may fail. -/
def Call.isFallible : Call → Bool
  | .store _ (.transitionStatus _ _) | .store _ (.setEntriesPaused _ _) | .store _ (.addCommand _) => true
  | .commit _ | .rollback _ | .persistSafetyPause _ => true
  | _ => false

/-- The world after a failed operation.  A failed statement writes nothing; a failed commit,
rollback or safety pause may have taken effect. -/
def World.failed (w : World) (now : UtcTimestamp) : Fault → Call → World
  | .late, .commit h => w.commit h
  | .late, .rollback h => w.rollback h
  | .late, .persistSafetyPause reason => (w.safetyPause now reason).2
  | _, _ => w

/-- The exception of a failed operation. -/
def storeFailure : PyError := ⟨.database, "store operation failed"⟩

/-- The handler in which the `n`-th call fails as `φ n` says, if it is a fallible one. -/
def faulty (φ : Nat → Option Fault) (env : Env) : Prog.Handler ports PyError World := fun c w =>
  match φ w.tick with
  | none => handler env c w
  | some fault =>
      if Call.isFallible c then
        (.error storeFailure, (w.next.failed (env.clock w.tick) fault c).reject c)
      else handler env c w

theorem faulty_none (env : Env) : faulty (fun _ => none) env = handler env := rfl

section Run

variable {φ : Nat → Option Fault} {env : Env} {w : World}

theorem run_sound {c : Call} (hc : c.isFallible = false) :
    run (faulty φ env) (ask c) w = handler env c w := by
  refine (run_perform (S := ports) (faulty φ env) c w).trans ?_
  unfold faulty
  split
  · rfl
  · rw [if_neg (by simp [hc])]

theorem run_unharmed {c : Call} (hφ : φ w.tick = none) :
    run (faulty φ env) (ask c) w = handler env c w := by
  refine (run_perform (S := ports) (faulty φ env) c w).trans ?_
  simp only [faulty, hφ]

theorem run_failed {c : Call} {fault : Fault} (hφ : φ w.tick = some fault) (hc : c.isFallible = true) :
    run (faulty φ env) (ask c) w =
      (.error storeFailure, (w.next.failed (env.clock w.tick) fault c).reject c) := by
  refine (run_perform (S := ports) (faulty φ env) c w).trans ?_
  simp only [faulty, hφ]
  exact if_pos hc

/-- A read is answered from the view. -/
theorem run_sound_read {h : Handle} {c : StoreCall} {a : c.Ans}
    (hc : (Call.store h c).isFallible = false)
    (ha : (w.view h).exec (env.clock w.tick) c = .ok (a, [])) :
    run (faulty φ env) (ask (.store h c)) w = (.ok a, w.next) := by
  rw [run_sound hc, ← run_ask w, run_read w ha]

/-- A fallible statement raises and writes nothing, or is executed. -/
theorem run_statement_cases (φ : Nat → Option Fault) (env : Env) (w : World) (h : Handle) (c : StoreCall) :
    (∃ e, run (faulty φ env) (ask (.store h c)) w = (.error e, w.next.reject (.store h c))) ∨
    ∃ a ws, (w.view h).exec (env.clock w.tick) c = .ok (a, ws) ∧
      run (faulty φ env) (ask (.store h c)) w = (.ok a, w.next.write h ws) := by
  have hsound : run (faulty φ env) (ask (.store h c)) w = handler env (.store h c) w →
      (∃ e, run (faulty φ env) (ask (.store h c)) w = (.error e, w.next.reject (.store h c))) ∨
      ∃ a ws, (w.view h).exec (env.clock w.tick) c = .ok (a, ws) ∧
        run (faulty φ env) (ask (.store h c)) w = (.ok a, w.next.write h ws) := by
    intro hrun
    rw [hrun, ← run_ask w]
    cases hc : (w.view h).exec (env.clock w.tick) c with
    | error e => exact Or.inl ⟨e, run_statement_error w hc⟩
    | ok p => exact Or.inr ⟨p.1, p.2, rfl, run_statement w hc⟩
  cases hφ : φ w.tick with
  | none => exact hsound (run_unharmed hφ)
  | some fault =>
      cases hc : (Call.store h c).isFallible with
      | false => exact hsound (run_sound hc)
      | true =>
          refine Or.inl ⟨storeFailure, ?_⟩
          rw [run_failed hφ hc]
          cases fault <;> rfl

/-- A commit takes effect and returns, or raises before or after it takes effect. -/
theorem run_commit_cases (φ : Nat → Option Fault) (env : Env) (w : World) :
    run (faulty φ env) commit w = (.ok (), w.next.commit .uow) ∨
    (φ w.tick = some .lost ∧
      run (faulty φ env) commit w = (.error storeFailure, w.next.reject (.commit .uow))) ∨
    run (faulty φ env) commit w = (.error storeFailure, (w.next.commit .uow).reject (.commit .uow)) := by
  cases hφ : φ w.tick with
  | none => exact Or.inl (run_unharmed hφ)
  | some fault =>
      have hrun : run (faulty φ env) commit w = _ := run_failed hφ rfl
      cases fault with
      | lost => exact Or.inr (Or.inl ⟨rfl, hrun⟩)
      | late => exact Or.inr (Or.inr hrun)

/-- A suppressed rollback discards the rows, unless it is lost. -/
theorem run_rollback_cases (φ : Nat → Option Fault) (env : Env) (w : World) :
    (∃ w', run (faulty φ env) (suppress rollback) w = (.ok (), w') ∧ w'.Idle ∧ w'.db = w.db ∧
      ∀ call ∈ w.rejected, call ∈ w'.rejected) ∨
    (φ w.tick = some .lost ∧
      run (faulty φ env) (suppress rollback) w = (.ok (), w.next.reject (.rollback .uow))) := by
  rw [run_suppress]
  cases hφ : φ w.tick with
  | none =>
      have hrun : run (faulty φ env) rollback w = (.ok (), w.next.rollback .uow) := run_unharmed hφ
      rw [hrun]
      exact Or.inl ⟨w.next.rollback .uow, rfl, World.Idle.rollback _, rfl, fun call hc => hc⟩
  | some fault =>
      have hrun : run (faulty φ env) rollback w = _ := run_failed hφ rfl
      rw [hrun]
      cases fault with
      | lost => exact Or.inr ⟨rfl, rfl⟩
      | late =>
          exact Or.inl ⟨(w.next.rollback .uow).reject (.rollback .uow), rfl,
            (World.Idle.rollback w.next).reject _, rfl, fun call hc => List.mem_append_left _ hc⟩

end Run

/-! ### The gate -/

/-- The intent of `c` is unresolved. -/
def Db.Unresolved (db : Db) (c : ClientOrderId) : Prop :=
  ∃ i, db.intents.get c = some i ∧ i.status.isUnresolved = true

/-- New entries are blocked because of `c` or by the pause. -/
def Db.HasGate (db : Db) (c : ClientOrderId) : Prop :=
  db.Unresolved c ∨ db.control.entriesPaused = true

/-- Among the failed calls are a write of the marker and the fallback pause. -/
def SafetyLost (c : ClientOrderId) (calls : List Call) : Prop :=
  (.store .uow (.transitionStatus c .reviewRequired) ∈ calls ∨ .commit .uow ∈ calls) ∧
    ∃ reason, .persistSafetyPause reason ∈ calls

section Gate

variable {φ : Nat → Option Fault} {env : Env} {uuid5 : NameUuid} {w w' : World} {c : ClientOrderId}
  {conflict : String}

theorem handler_rejected (env : Env) (call : Call) (w : World) :
    ∀ x ∈ w.rejected, x ∈ (handler env call w).2.rejected := by
  intro x hx
  cases call with
  | store h c =>
      show x ∈ (w.next.statement (env.clock w.tick) h c).2.rejected
      unfold World.statement
      split
      · exact hx
      · exact List.mem_append_left _ hx
  | persistSafetyPause reason =>
      show x ∈ (w.next.safetyPause (env.clock w.tick) reason).2.rejected
      unfold World.safetyPause
      split
      · exact hx
      · exact List.mem_append_left _ hx
  | beginReconciliationSnapshot =>
      have hout : (handler env .beginReconciliationSnapshot w).2 = w.next := by
        unfold handler
        cases w.session.uow <;> rfl
      rw [hout]
      exact hx
  | _ => exact hx

theorem failed_rejected (w : World) (now : UtcTimestamp) (fault : Fault) (call : Call) :
    ∀ x ∈ w.rejected, x ∈ (w.failed now fault call).rejected := by
  intro x hx
  unfold World.failed
  split
  · exact hx
  · exact hx
  · unfold World.safetyPause
    split
    · exact hx
    · exact List.mem_append_left _ hx
  · exact hx

/-- The list of failed calls only grows. -/
theorem run_rejected {α : Type} (p : Proc α) (w : World) :
    ∀ x ∈ w.rejected, x ∈ (run (faulty φ env) p w).2.rejected := by
  induction p generalizing w with
  | ret a => exact fun x hx => hx
  | raise e => exact fun x hx => hx
  | call call k ih =>
      intro x hx
      refine ih _ _ x ?_
      unfold faulty
      split
      · exact handler_rejected env call w x hx
      · split
        · exact List.mem_append_left _ (failed_rejected w.next _ _ _ x hx)
        · exact handler_rejected env call w x hx

theorem run_rejected_of_eq {α : Type} {p : Proc α} {r : Except PyError α}
    (h : run (faulty φ env) p w = (r, w')) : ∀ x ∈ w.rejected, x ∈ w'.rejected := by
  have hw : w' = (run (faulty φ env) p w).2 := by rw [h]
  rw [hw]
  exact run_rejected p w

theorem run_rollback_db {r : Except PyError Unit} (h : run (faulty φ env) (suppress rollback) w = (r, w')) :
    r = .ok () ∧ w'.db = w.db := by
  rcases run_rollback_cases φ env w with ⟨w₁, hrun, -, hdb, -⟩ | ⟨-, hrun⟩
  · rw [hrun] at h
    cases h
    exact ⟨rfl, hdb⟩
  · rw [hrun] at h
    cases h
    exact ⟨rfl, rfl⟩

/-- The common shape of the conflict path: an attempt whose failure is rolled back and raised
as a `TradeUpdateError`. -/
theorem run_attempt {α : Type} {p : Proc α} {message : String} {r : Except PyError α}
    (h : run (faulty φ env)
      (p.tryCatch fun _ => (suppress rollback).bind fun _ => fail .tradeUpdate message) w = (r, w')) :
    (∃ a, r = .ok a ∧ run (faulty φ env) p w = (.ok a, w')) ∨
    ∃ e w₁, run (faulty φ env) p w = (.error e, w₁) ∧ (∃ x, r = .error x ∧ x.kind = .tradeUpdate) ∧
      w'.db = w₁.db ∧ ∀ x ∈ w₁.rejected, x ∈ w'.rejected := by
  rw [run_tryCatch] at h
  rcases hp : run (faulty φ env) p w with ⟨r₁, w₁⟩
  rw [hp] at h
  cases r₁ with
  | ok a =>
      cases h
      exact Or.inl ⟨a, rfl, rfl⟩
  | error e =>
      have hrej := run_rejected_of_eq h
      simp only [run_bind] at h
      rcases hr : run (faulty φ env) (suppress rollback) w₁ with ⟨r₂, w₂⟩
      obtain ⟨rfl, hdb⟩ := run_rollback_db hr
      rw [hr] at h
      cases h
      exact Or.inr ⟨e, w₁, rfl, ⟨_, rfl, rfl⟩, hdb, hrej⟩

/-- Appending the audit command commits nothing and leaves intents and control as they are. -/
theorem addPauseAudit_faulty (hw : w.Idle) {r : Except PyError Unit}
    (h : run (faulty φ env) (addPauseAudit uuid5 c conflict) w = (r, w')) :
    w'.db = w.db ∧ (w'.view .uow).intents = w.db.intents ∧ (w'.view .uow).control = w.db.control := by
  have hread : run (faulty φ env) (controlState .uow) w = (.ok (w.view .uow).control, w.next) :=
    run_sound_read (c := .controlState) rfl rfl
  simp only [addPauseAudit, bind_eq, run_bind, hread, run_ofExcept] at h
  cases hcreate : ControlCommandRecord.create (conflictPauseCommandId uuid5 c conflict) .pauseEntries
      ("automatic pause on " ++ conflict) "trade_update_consumer" none (w.view .uow).control.updatedAt
      (some (w.view .uow).control.updatedAt) with
  | error e =>
      simp only [hcreate] at h
      cases h
      simp [hw.view_eq]
  | ok rec =>
      simp only [hcreate] at h
      rcases run_statement_cases φ env w.next .uow (.addCommand rec) with
        ⟨e, hrun⟩ | ⟨a, ws, hexec, hrun⟩
      · have hrun' : run (faulty φ env) (addCommand .uow rec) w.next = _ := hrun
        simp only [hrun'] at h
        cases h
        simp [hw.view_eq]
      · have hrun' : run (faulty φ env) (addCommand .uow rec) w.next = _ := hrun
        simp only [hrun', pure_eq_ret, run_ret] at h
        cases h
        rcases Db.addCommand_writes hexec with rfl | rfl <;> simp [hw.view_eq]

/-- The audit of a pause leaves intents and control as they are. -/
theorem persistPauseAudit_faulty (hw : w.Idle) {r : Except PyError Unit}
    (h : run (faulty φ env) (persistPauseAudit uuid5 c conflict) w = (r, w')) :
    w'.db.intents = w.db.intents ∧ w'.db.control = w.db.control := by
  simp only [persistPauseAudit, bind_eq] at h
  rw [run_bind] at h
  rcases ha : run (faulty φ env) (Prog.tryCatch (addPauseAudit uuid5 c conflict) _) w with ⟨ra, wa⟩
  rw [ha] at h
  rcases run_attempt ha with ⟨u, rfl, hok⟩ | ⟨e, w₁, herr, ⟨x, rfl, -⟩, hdb, -⟩
  · obtain ⟨hdb, hi, hc⟩ := addPauseAudit_faulty hw hok
    rcases run_attempt h with ⟨u, rfl, hok⟩ | ⟨e, w₁, herr, -, hdb₁, -⟩
    · rcases run_commit_cases φ env wa with hrun | ⟨-, hrun⟩ | hrun
      all_goals
        rw [hrun] at hok
        cases hok
      exact ⟨hi, hc⟩
    · rw [hdb₁]
      rcases run_commit_cases φ env wa with hrun | ⟨-, hrun⟩ | hrun
      all_goals
        rw [hrun] at herr
        cases herr
      · exact ⟨congrArg Db.intents hdb, congrArg Db.control hdb⟩
      · exact ⟨hi, hc⟩
  · obtain ⟨hdb₁, -⟩ := addPauseAudit_faulty hw herr
    cases h
    rw [hdb, hdb₁]
    exact ⟨rfl, rfl⟩

/-- One written statement and its commit: both take effect and return; or one of them raises,
and the rows are durable all the same unless the statement failed or the commit was lost. -/
theorem run_write_commit {st : StoreCall} {a : st.Ans} {ws : List Write}
    (hst : (Call.store .uow st).isFallible = true)
    (hexec : (w.view .uow).exec (env.clock w.tick) st = .ok (a, ws)) {r : Except PyError Unit}
    (h : run (faulty φ env) ((ask (.store .uow st)).bind fun _ => commit) w = (r, w')) :
    (r = .ok () ∧ w'.Idle ∧ w'.db = (w.view .uow).applyAll ws) ∨
    (∃ e, r = .error e) ∧ (Call.store .uow st ∈ w'.rejected ∨ Call.commit .uow ∈ w'.rejected) ∧
      ((w'.db = w.db ∧ ((φ w.tick).isSome = true ∨ φ (w.tick + 1) = some .lost)) ∨
        w'.db = (w.view .uow).applyAll ws) := by
  rw [run_bind] at h
  cases hφ : φ w.tick with
  | some fault =>
      have hrun : run (faulty φ env) (ask (.store .uow st)) w =
          (.error storeFailure, w.next.reject (.store .uow st)) := by
        rw [run_failed hφ hst]
        cases fault <;> rfl
      rw [hrun] at h
      cases h
      exact Or.inr ⟨⟨_, rfl⟩, Or.inl (by simp), Or.inl ⟨rfl, Or.inl rfl⟩⟩
  | none =>
      have hrun : run (faulty φ env) (ask (.store .uow st)) w = (.ok a, w.next.write .uow ws) := by
        rw [run_unharmed hφ, ← run_ask w, run_statement w hexec]
      rw [hrun] at h
      rcases run_commit_cases φ env (w.next.write .uow ws) with hc | ⟨hlost, hc⟩ | hc
      all_goals
        simp only [hc] at h
        cases h
      · exact Or.inl ⟨rfl, World.Idle.commit _, by simp⟩
      · exact Or.inr ⟨⟨_, rfl⟩, Or.inr (by simp), Or.inl ⟨rfl, Or.inr hlost⟩⟩
      · exact Or.inr ⟨⟨_, rfl⟩, Or.inr (by simp), Or.inr (by simp)⟩

/-- The pause is durable, or it raised: with the pause durable, or nothing changed because the
statement failed or its commit was lost. -/
theorem persistPause_faulty (hr : IsPauseReason ("reconciliation required; " ++ conflict))
    {r : Except PyError Unit} (h : run (faulty φ env) (persistPause conflict) w = (r, w')) :
    (r = .ok () ∧ w'.Idle ∧ w'.db.control.entriesPaused = true) ∨
    (∃ e, r = .error e ∧ e.kind = .tradeUpdate) ∧ (w'.db.control.entriesPaused = true ∨
      (w'.db = w.db ∧ ((φ w.tick).isSome = true ∨ φ (w.tick + 1) = some .lost))) := by
  obtain ⟨cs, hcs, hset⟩ := (w.view .uow).setEntriesPaused_eq_ok (env.clock w.tick) hr
  have hexec : (w.view .uow).exec (env.clock w.tick)
    (.setEntriesPaused true (some ("reconciliation required; " ++ conflict))) = .ok (cs, [.putControl cs]) := hset
  have hpaused : ((w.view .uow).applyAll [.putControl cs]).control.entriesPaused = true := hcs
  rcases run_attempt h with ⟨u, rfl, hok⟩ | ⟨e, w₁, herr, hx, hdb, -⟩
  · rcases run_write_commit rfl hexec hok with ⟨-, hidle, hdb⟩ | ⟨⟨e, he⟩, -⟩
    · exact Or.inl ⟨rfl, hidle, by rw [hdb]; exact hpaused⟩
    · cases he
  · refine Or.inr ⟨hx, ?_⟩
    rcases run_write_commit rfl hexec herr with ⟨he, -⟩ | ⟨-, -, ⟨hsame, hφ⟩ | hdb₁⟩
    · cases he
    · exact Or.inr ⟨hdb.trans hsame, hφ⟩
    · rw [hdb, hdb₁]
      exact Or.inl hpaused

/-- The marker returns early on an unresolved view, or makes the review status durable, or
raises because one of its writes failed. -/
theorem persistConflictMarker_faulty {j : OrderIntent} (hj : (w.view .uow).intents.get c = some j)
    {r : Except PyError Unit} (h : run (faulty φ env) (persistConflictMarker c conflict) w = (r, w')) :
    (j.status.isUnresolved = true ∧ r = .ok () ∧ w' = w.next) ∨
    (j.status.isUnresolved = false ∧ ((r = .ok () ∧ w'.Idle ∧ w'.db.Unresolved c) ∨
      ∃ e, r = .error e ∧ e.kind = .tradeUpdate ∧
        (.store .uow (.transitionStatus c .reviewRequired) ∈ w'.rejected ∨ .commit .uow ∈ w'.rejected))) := by
  have hkey : j.clientOrderId = c := Table.key_of_get hj
  have hread : run (faulty φ env) (getIntent c) w = (.ok (some j), w.next) :=
    run_sound_read (c := .getIntent c) rfl (by simp [Db.exec, Db.getIntent, hj])
  simp only [persistConflictMarker, bind_eq] at h
  rw [run_bind, hread] at h
  simp only at h
  by_cases hu : j.status = .unknown ∨ j.status = .reviewRequired
  · rw [if_pos hu] at h
    cases h
    refine Or.inl ⟨?_, rfl, rfl⟩
    rcases hu with e | e <;> rw [e] <;> rfl
  · have hu' : j.status.isUnresolved = false := by
      revert hu
      cases j.status <;> simp [OrderStatus.isUnresolved]
    refine Or.inr ⟨hu', ?_⟩
    rw [if_neg hu] at h
    have hview : (w.next.view .uow).intents.get c = some j := hj
    cases ha : orderTransitionAllowed j.status .reviewRequired with
    | true =>
        have hexec : (w.next.view .uow).exec (env.clock w.next.tick) (.transitionStatus c .reviewRequired) =
            .ok (_, _) := Db.transitionStatus_eq_ok hview (Or.inr ha)
        rcases run_attempt h with ⟨u, rfl, hok⟩ | ⟨e, w₁, herr, ⟨x, rfl, hx⟩, hdb, hrej⟩
        · rcases run_write_commit rfl hexec hok with ⟨-, hidle, hdb⟩ | ⟨⟨e, he⟩, -⟩
          · refine Or.inl ⟨rfl, hidle, j.withStatus .reviewRequired, ?_, rfl⟩
            rw [hdb]
            show ((w.view .uow).intents.put (j.withStatus .reviewRequired)).get c = _
            rw [← hkey]
            exact Table.get_put_self (hkey.symm ▸ hj)
          · cases he
        · refine Or.inr ⟨x, rfl, hx, ?_⟩
          rcases run_write_commit rfl hexec herr with ⟨he, -⟩ | ⟨-, hcall, -⟩
          · cases he
          · exact hcall.imp (hrej _) (hrej _)
    | false =>
        have hne : OrderStatus.reviewRequired ≠ j.status := fun e => hu (Or.inr e.symm)
        have hbad : (w.next.view .uow).exec (env.clock w.next.tick) (.transitionStatus c .reviewRequired) =
            .error _ := Db.transitionStatus_eq_error hview hne ha
        have hraise : ∃ e, run (faulty φ env) (transitionStatus c .reviewRequired) w.next =
            (.error e, w.next.next.reject (.store .uow (.transitionStatus c .reviewRequired))) := by
          rcases run_statement_cases φ env w.next .uow (.transitionStatus c .reviewRequired) with
            hrun | ⟨a, ws, hexec, -⟩
          · exact hrun
          · rw [hbad] at hexec
            cases hexec
        obtain ⟨e, hraise⟩ := hraise
        rcases run_attempt h with ⟨u, rfl, hok⟩ | ⟨e, w₁, herr, ⟨x, rfl, hx⟩, hdb, hrej⟩
        · rw [run_bind_error _ hraise] at hok
          cases hok
        · rw [run_bind_error _ hraise] at herr
          cases herr
          exact Or.inr ⟨x, rfl, hx, Or.inl (hrej _ (by simp))⟩

/-- The fallback leaves the pause durable, or has itself failed. -/
theorem markerFallback_faulty (hr : IsPauseReason ("reconciliation required; " ++ conflict)) {e : PyError}
    (he : e.kind = .tradeUpdate) {r : Except PyError Unit}
    (h : run (faulty φ env) (markerFallback conflict e) w = (r, w')) :
    (∃ x, r = .error x ∧ x.kind = .tradeUpdate) ∧
      (w'.db.control.entriesPaused = true ∨ ∃ reason, .persistSafetyPause reason ∈ w'.rejected) := by
  obtain ⟨cs, hcs, hsafe⟩ := run_persistSafetyPause env w hr
  simp only [markerFallback, if_pos he, bind_eq, run_bind, run_tryCatch] at h
  cases hφ : φ w.tick with
  | none =>
      have hrun : run (faulty φ env) (persistSafetyPause ("reconciliation required; " ++ conflict)) w = _ :=
        (run_unharmed hφ).trans ((run_ask w _).symm.trans hsafe)
      simp only [hrun] at h
      cases h
      exact ⟨⟨_, rfl, rfl⟩, Or.inl hcs⟩
  | some fault =>
      have hrun : run (faulty φ env) (persistSafetyPause ("reconciliation required; " ++ conflict)) w = _ :=
        run_failed hφ rfl
      simp only [hrun] at h
      cases h
      exact ⟨⟨_, rfl, rfl⟩, Or.inr ⟨"reconciliation required; " ++ conflict, by simp⟩⟩

/-- The pause failed: its statement raised, or its commit was lost. -/
def PauseLost (φ : Nat → Option Fault) (n : Nat) : Prop := (φ n).isSome = true ∨ φ (n + 1) = some .lost

theorem pauseAndAudit_faulty (hr : IsPauseReason ("reconciliation required; " ++ conflict))
    {r : Except PyError Unit}
    (h : run (faulty φ env) ((persistPause conflict).bind fun _ => persistPauseAudit uuid5 c conflict) w =
      (r, w')) :
    w'.db.control.entriesPaused = true ∨ (w'.db = w.db ∧ PauseLost φ w.tick) := by
  rw [run_bind] at h
  rcases hp : run (faulty φ env) (persistPause conflict) w with ⟨rp, wp⟩
  rw [hp] at h
  rcases persistPause_faulty hr hp with ⟨rfl, hidle, hpaused⟩ | ⟨⟨e, rfl, -⟩, hout⟩
  · exact Or.inl (by rw [(persistPauseAudit_faulty hidle h).2]; exact hpaused)
  · cases h
    exact hout

/-- Making a conflict durable leaves a gate, or has lost both the marker and the fallback, or
trusted an unresolved view and lost the pause. -/
theorem persistConflictPause_faulty (hr : IsPauseReason ("reconciliation required; " ++ conflict))
    {j : OrderIntent} (hj : (w.view .uow).intents.get c = some j) {r : Except PyError Unit}
    (h : run (faulty φ env) (persistConflictPause uuid5 c conflict) w = (r, w')) :
    w'.db.HasGate c ∨ SafetyLost c w'.rejected ∨
      (j.status.isUnresolved = true ∧ w'.db = w.db ∧ PauseLost φ (w.tick + 1)) := by
  simp only [persistConflictPause, bind_eq] at h
  rw [run_bind, run_tryCatch] at h
  rcases hm : run (faulty φ env) (persistConflictMarker c conflict) w with ⟨rm, wm⟩
  rw [hm] at h
  rcases persistConflictMarker_faulty hj hm with
    ⟨hu, rfl, rfl⟩ | ⟨-, ⟨rfl, -, hmark⟩ | ⟨e, rfl, he, hcall⟩⟩
  · rcases pauseAndAudit_faulty hr h with hpaused | hlost
    · exact Or.inl (Or.inr hpaused)
    · exact Or.inr (Or.inr ⟨hu, hlost⟩)
  · rcases pauseAndAudit_faulty hr h with hpaused | ⟨hdb, -⟩
    · exact Or.inl (Or.inr hpaused)
    · exact Or.inl (Or.inl (hdb ▸ hmark))
  · simp only at h
    rcases hf : run (faulty φ env) (markerFallback conflict e) wm with ⟨rf, wf⟩
    obtain ⟨⟨x, rfl, -⟩, hout⟩ := markerFallback_faulty hr he hf
    have hrej := run_rejected_of_eq hf
    rw [hf] at h
    cases h
    rcases hout with hpaused | hsafe
    · exact Or.inl (Or.inr hpaused)
    · exact Or.inr (Or.inl ⟨hcall.imp (hrej _) (hrej _), hsafe⟩)

/-- Rolling back and making the conflict durable, from any uncommitted rows. -/
theorem rollbackAndPause_faulty (hr : IsPauseReason ("reconciliation required; " ++ conflict))
    {i j : OrderIntent} (hi : w.db.intents.get c = some i) (hj : (w.view .uow).intents.get c = some j)
    {r : Except PyError Unit}
    (h : run (faulty φ env) ((suppress rollback).bind fun _ => persistConflictPause uuid5 c conflict) w =
      (r, w')) :
    w'.db.HasGate c ∨ SafetyLost c w'.rejected ∨
      (w'.db = w.db ∧ φ w.tick = some .lost ∧ j.status.isUnresolved = true ∧
        i.status.isUnresolved = false ∧ PauseLost φ (w.tick + 2)) := by
  rw [run_bind] at h
  rcases run_rollback_cases φ env w with ⟨w₁, hrun, hidle, hdb, -⟩ | ⟨hφ, hrun⟩
  · rw [hrun] at h
    have hi₁ : (w₁.view .uow).intents.get c = some i := by rw [hidle.view_eq, hdb, hi]
    rcases persistConflictPause_faulty hr hi₁ h with hgate | hlost | ⟨hu, hdb', -⟩
    · exact Or.inl hgate
    · exact Or.inr (Or.inl hlost)
    · exact Or.inl (Or.inl ⟨i, by rw [hdb', hdb, hi], hu⟩)
  · rw [hrun] at h
    have hj₁ : ((w.next.reject (.rollback .uow)).view .uow).intents.get c = some j := hj
    rcases persistConflictPause_faulty hr hj₁ h with hgate | hlost | ⟨hu, hdb', hp⟩
    · exact Or.inl hgate
    · exact Or.inr (Or.inl hlost)
    · cases hui : i.status.isUnresolved with
      | true => exact Or.inl (Or.inl ⟨i, by rw [hdb']; exact hi, hui⟩)
      | false => exact Or.inr (Or.inr ⟨hdb', hφ, hu, rfl, hp⟩)

/-- Surfacing a conflict, from any uncommitted rows. -/
theorem surfaceConflict_faulty (hr : IsPauseReason ("reconciliation required; " ++ conflict))
    {i j : OrderIntent} (hi : w.db.intents.get c = some i) (hj : (w.view .uow).intents.get c = some j)
    {e : PyError} {r : Except PyError TradeUpdateOutcome}
    (h : run (faulty φ env) (surfaceConflict uuid5 c conflict e) w = (r, w')) :
    w'.db.HasGate c ∨ SafetyLost c w'.rejected ∨
      (w'.db = w.db ∧ φ w.tick = some .lost ∧ j.status.isUnresolved = true ∧
        i.status.isUnresolved = false ∧ PauseLost φ (w.tick + 2)) := by
  simp only [surfaceConflict, bind_eq] at h
  rw [← bind_assoc, run_bind] at h
  rcases hp : run (faulty φ env)
    ((suppress rollback).bind fun _ => persistConflictPause uuid5 c conflict) w with ⟨rp, wp⟩
  rw [hp] at h
  have hout := rollbackAndPause_faulty hr hi hj hp
  cases rp with
  | error x =>
      cases h
      exact hout
  | ok u =>
      simp only at h
      split at h <;> cases h <;> exact hout

/-! ### Deriving under failures -/

/-- Refreshing a mirror commits nothing and leaves the view of the intents. -/
theorem updateBrokerOrderStatus_faulty {b : String} {s : BrokerOrderStatus} {n : Nat}
    {o : Option UtcTimestamp} {r : Except PyError BrokerOrder}
    (h : run (faulty φ env) (updateBrokerOrderStatus b s n o) w = (r, w')) :
    w'.db = w.db ∧ w'.tick = w.tick + 1 ∧ (w'.view .uow).intents = (w.view .uow).intents := by
  rcases run_statement_cases φ env w .uow (.updateBrokerOrderStatus b s n o) with
    ⟨e, hrun⟩ | ⟨a, ws, hexec, hrun⟩
  · cases hrun.symm.trans h
    exact ⟨rfl, rfl, rfl⟩
  · cases hrun.symm.trans h
    obtain ⟨r, rfl⟩ := Db.refreshMirror_writes hexec
    exact ⟨rfl, rfl, by simp⟩

/-- A transition commits nothing; the view has the target status, or it raised and the view is
as before. -/
theorem transitionStatus_faulty {i : OrderIntent} {t : OrderStatus}
    (hi : (w.view .uow).intents.get c = some i) {r : Except PyError OrderIntent}
    (h : run (faulty φ env) (transitionStatus c t) w = (r, w')) :
    w'.db = w.db ∧ (((∃ e, r = .error e) ∧ (w'.view .uow).intents.get c = some i) ∨
      ((∃ a, r = .ok a) ∧ φ w.tick = none ∧ w'.tick = w.tick + 1 ∧
        (w'.view .uow).intents.get c = some (i.withStatus t))) := by
  have hkey : i.clientOrderId = c := Table.key_of_get hi
  cases hφ : φ w.tick with
  | some fault =>
      have hrun : run (faulty φ env) (transitionStatus c t) w = _ := run_failed hφ rfl
      rw [hrun] at h
      cases h
      cases fault <;> exact ⟨rfl, Or.inl ⟨⟨_, rfl⟩, hi⟩⟩
  | none =>
      rcases run_statement_cases φ env w .uow (.transitionStatus c t) with ⟨e, hrun⟩ | ⟨a, ws, hexec, hrun⟩
      · cases hrun.symm.trans h
        exact ⟨rfl, Or.inl ⟨⟨e, rfl⟩, hi⟩⟩
      · cases hrun.symm.trans h
        obtain rfl := Db.transitionStatus_writes hi hexec
        refine ⟨rfl, Or.inr ⟨⟨a, rfl⟩, rfl, rfl, ?_⟩⟩
        rw [World.write_view, World.next_view]
        show ((w.view .uow).intents.put (i.withStatus t)).get c = _
        rw [← hkey]
        exact Table.get_put_self (hkey.symm ▸ hi)

/-- After a fill the view of the intent is as before or resolved. -/
theorem transitionAfterFill_faulty {i : OrderIntent} {t : BrokerOrderStatus}
    (hi : (w.view .uow).intents.get c = some i) {r : Except PyError Unit}
    (h : run (faulty φ env) (transitionAfterFill c t) w = (r, w')) :
    w'.db = w.db ∧ ∃ j, (w'.view .uow).intents.get c = some j ∧ (j = i ∨ j.status.isUnresolved = false) := by
  have hread : run (faulty φ env) (getIntent c) w = (.ok (some i), w.next) :=
    run_sound_read (c := .getIntent c) rfl (by simp [Db.exec, Db.getIntent, hi])
  simp only [transitionAfterFill, bind_eq, run_bind, hread] at h
  by_cases hne : fillIntentTarget t i.status ≠ i.status
  · have hresolved : (fillIntentTarget t i.status).isUnresolved = false := by
      revert hne
      cases t <;> simp [fillIntentTarget, OrderStatus.isUnresolved]
    rw [if_pos hne] at h
    split at h
    · rw [run_bind] at h
      rcases ht : run (faulty φ env) (transitionStatus c (fillIntentTarget t i.status)) w.next with ⟨rt, wt⟩
      have hi' : (w.next.view .uow).intents.get c = some i := hi
      obtain ⟨hdb, ⟨⟨e, rfl⟩, hj⟩ | ⟨⟨a, rfl⟩, -, -, hj⟩⟩ := transitionStatus_faulty hi' ht
      · rw [ht] at h
        cases h
        exact ⟨hdb, i, hj, Or.inl rfl⟩
      · rw [ht] at h
        cases h
        exact ⟨hdb, _, hj, Or.inr hresolved⟩
    · cases h
      exact ⟨rfl, i, hi, Or.inl rfl⟩
  · rw [if_neg hne] at h
    cases h
    exact ⟨rfl, i, hi, Or.inl rfl⟩

/-- Deriving from a fill never leaves an unresolved view of a resolved intent. -/
theorem deriveFromFill_faulty (hw : w.Idle) {m : BrokerOrder} {i : OrderIntent} {f : Fill}
    (hi : w.db.intents.get m.clientOrderId = some i)
    {e : PyError} (h : run (faulty φ env) (deriveFromFill m f) w = (.error e, w')) :
    ∃ i' j, w'.db.intents.get m.clientOrderId = some i' ∧
      (w'.view .uow).intents.get m.clientOrderId = some j ∧
      (j.status.isUnresolved = true → i'.status.isUnresolved = true) := by
  have hview : (w.view .uow).intents.get m.clientOrderId = some i := by rw [hw.view_eq, hi]
  have hread : run (faulty φ env) (listFills m.brokerOrderId) w =
      (.ok ((w.view .uow).fillsOf m.brokerOrderId), w.next) :=
    run_sound_read (c := .listFills m.brokerOrderId) rfl rfl
  simp only [deriveFromFill, bind_eq] at h
  rw [run_bind, hread] at h
  simp only at h
  have hstart : ∃ i' j, w.next.db.intents.get m.clientOrderId = some i' ∧
      (w.next.view .uow).intents.get m.clientOrderId = some j ∧
      (j.status.isUnresolved = true → i'.status.isUnresolved = true) := ⟨i, i, hi, hview, id⟩
  rw [newFilled_eq] at h
  generalize (if m.updatedAt < f.occurredAt then some f.occurredAt else none) = observed at h
  split at h
  · cases h
    exact hstart
  · rw [run_bind, run_ofExcept] at h
    split at h
    · rename_i t w₁ ht
      obtain ⟨-, rfl⟩ := Prod.mk.inj ht
      split at h
      · cases h
      · rw [run_bind] at h
        rcases hu : run (faulty φ env) (updateBrokerOrderStatus m.brokerOrderId t _ _) w.next with ⟨ru, wu⟩
        obtain ⟨hdbu, -, hviewu⟩ := updateBrokerOrderStatus_faulty hu
        have hiu : (wu.view .uow).intents.get m.clientOrderId = some i := by rw [hviewu]; exact hview
        rw [hu] at h
        cases ru with
        | error x =>
            cases h
            exact ⟨i, i, by rw [hdbu]; exact hi, hiu, id⟩
        | ok o =>
            simp only [run_bind] at h
            rcases ha : run (faulty φ env) (transitionAfterFill m.clientOrderId t) wu with ⟨ra, wa⟩
            obtain ⟨hdba, j, hj, hres⟩ := transitionAfterFill_faulty hiu ha
            have hia : wa.db.intents.get m.clientOrderId = some i := by rw [hdba, hdbu]; exact hi
            have hij : j.status.isUnresolved = true → i.status.isUnresolved = true := by
              rcases hres with rfl | hres
              · exact id
              · rw [hres]
                exact fun hx => absurd hx Bool.false_ne_true
            rw [ha] at h
            cases ra with
            | error x =>
                cases h
                exact ⟨i, j, hia, hj, hij⟩
            | ok u =>
                rcases run_commit_cases φ env wa with hc | ⟨-, hc⟩ | hc
                all_goals
                  simp only [hc] at h
                  cases h
                · exact ⟨i, j, hia, hj, hij⟩
                · exact ⟨j, j, hj, by simpa using hj, id⟩
    · rename_i x w₁ hx
      obtain ⟨-, rfl⟩ := Prod.mk.inj hx
      cases h
      exact hstart

/-- After an observation the view of the intent is as before, or resolved, or it was moved to
an unresolved status by one transition that did not fail. -/
theorem transitionAfterStatus_faulty {i : OrderIntent} {t : OrderStatus}
    (hi : (w.view .uow).intents.get c = some i) {r : Except PyError Unit}
    (h : run (faulty φ env) (transitionAfterStatus c i.status t) w = (r, w')) :
    w'.db = w.db ∧ ∃ j, (w'.view .uow).intents.get c = some j ∧ (j = i ∨ j.status.isUnresolved = false ∨
      (r = .ok () ∧ t.isUnresolved = true ∧ t ≠ i.status ∧ orderTransitionAllowed i.status t = true ∧
        φ w.tick = none ∧ w'.tick = w.tick + 1)) := by
  unfold transitionAfterStatus at h
  split at h
  · rename_i hne
    simp only [transitionIntent, bind_eq] at h
    split at h
    · split at h
      · rename_i hroute
        obtain ⟨rfl, -⟩ := hroute
        rw [run_bind] at h
        rcases h₁ : run (faulty φ env) (transitionStatus c .cancelPending) w with ⟨r₁, w₁⟩
        obtain ⟨hdb₁, ⟨⟨e, rfl⟩, hj₁⟩ | ⟨⟨a, rfl⟩, -, -, hj₁⟩⟩ := transitionStatus_faulty hi h₁
        · rw [h₁] at h
          cases h
          exact ⟨hdb₁, i, hj₁, Or.inl rfl⟩
        · rw [h₁] at h
          simp only [run_bind] at h
          rcases h₂ : run (faulty φ env) (transitionStatus c .canceled) w₁ with ⟨r₂, w₂⟩
          obtain ⟨hdb₂, ⟨⟨e, rfl⟩, hj₂⟩ | ⟨⟨a, rfl⟩, -, -, hj₂⟩⟩ := transitionStatus_faulty hj₁ h₂
          all_goals
            rw [h₂] at h
            cases h
            exact ⟨hdb₂.trans hdb₁, _, hj₂, Or.inr (Or.inl rfl)⟩
      · cases h
        exact ⟨rfl, i, hi, Or.inl rfl⟩
    · rename_i ha
      rw [Bool.not_eq_false] at ha
      rw [run_bind] at h
      rcases h₁ : run (faulty φ env) (transitionStatus c t) w with ⟨r₁, w₁⟩
      obtain ⟨hdb₁, ⟨⟨e, rfl⟩, hj₁⟩ | ⟨⟨a, rfl⟩, hφ, htick, hj₁⟩⟩ := transitionStatus_faulty hi h₁
      · rw [h₁] at h
        cases h
        exact ⟨hdb₁, i, hj₁, Or.inl rfl⟩
      · rw [h₁] at h
        cases h
        refine ⟨hdb₁, _, hj₁, Or.inr ?_⟩
        cases hu : t.isUnresolved with
        | false => exact Or.inl hu
        | true => exact Or.inr ⟨rfl, rfl, hne, ha, hφ, htick⟩
  · cases h
    exact ⟨rfl, i, hi, Or.inl rfl⟩

/-- An observation moves an intent to an unresolved status only if it is a review observation. -/
theorem statusIntentTarget_unresolved {s : BrokerOrderStatus} {t : OrderStatus}
    (hu : (statusIntentTarget s t).isUnresolved = true) (hne : statusIntentTarget s t ≠ t) :
    s.isReview = true ∧ statusIntentTarget s t = .reviewRequired := by
  revert hu hne
  cases s <;> cases t <;> decide

/-- Deriving from an observation leaves an unresolved view of a resolved intent only when the
observation moves the intent to review and its commit is lost. -/
theorem deriveFromStatus_faulty (hw : w.Idle) {m : BrokerOrder} {i : OrderIntent} {u : OrderStatusUpdate}
    (hi : w.db.intents.get u.clientOrderId = some i) {e : PyError}
    (h : run (faulty φ env) (deriveFromStatus i m u) w = (.error e, w')) :
    ∃ i' j, w'.db.intents.get u.clientOrderId = some i' ∧
      (w'.view .uow).intents.get u.clientOrderId = some j ∧
      (j.status.isUnresolved = true → i'.status.isUnresolved = true ∨
        (i' = i ∧ w'.db = w.db ∧ w'.tick = w.tick + 3 ∧ checkStatus m u = .ok () ∧
          u.status.isReview = true ∧ orderTransitionAllowed i.status .reviewRequired = true ∧
          φ (w.tick + 1) = none ∧ φ (w.tick + 2) = some .lost)) := by
  have hview : (w.view .uow).intents.get u.clientOrderId = some i := by rw [hw.view_eq, hi]
  simp only [deriveFromStatus, bind_eq, run_bind, run_ofExcept] at h
  cases hcheck : checkStatus m u with
  | error x =>
      rw [hcheck] at h
      cases h
      exact ⟨i, i, hi, hview, Or.inl⟩
  | ok x =>
      rw [hcheck] at h
      simp only at h
      rcases hu : run (faulty φ env) (updateBrokerOrderStatus m.brokerOrderId u.status u.filledQuantity
        (some u.observedAt)) w with ⟨ru, wu⟩
      obtain ⟨hdbu, hticku, hviewu⟩ := updateBrokerOrderStatus_faulty hu
      have hiu : (wu.view .uow).intents.get u.clientOrderId = some i := by rw [hviewu, hview]
      rw [hu] at h
      cases ru with
      | error x =>
          cases h
          exact ⟨i, i, by rw [hdbu, hi], hiu, Or.inl⟩
      | ok o =>
          simp only at h
          rcases ha : run (faulty φ env) (transitionAfterStatus u.clientOrderId i.status
            (statusIntentTarget u.status i.status)) wu with ⟨ra, wa⟩
          obtain ⟨hdba, j, hj, hres⟩ := transitionAfterStatus_faulty hiu ha
          have hia : wa.db.intents.get u.clientOrderId = some i := by rw [hdba, hdbu, hi]
          rw [ha] at h
          cases ra with
          | error x =>
              cases h
              refine ⟨i, j, hia, hj, fun hju => Or.inl ?_⟩
              rcases hres with rfl | hres | ⟨hr, -⟩
              · exact hju
              · rw [hres] at hju
                cases hju
              · cases hr
          | ok v =>
              rcases run_commit_cases φ env wa with hc | ⟨hlost, hc⟩ | hc
              all_goals
                simp only [hc] at h
                cases h
              · refine ⟨i, j, hia, hj, fun hju => ?_⟩
                rcases hres with rfl | hres | ⟨-, htu, hne, hallowed, hφ, htick⟩
                · exact Or.inl hju
                · rw [hres] at hju
                  cases hju
                · obtain ⟨hreview, htarget⟩ := statusIntentTarget_unresolved htu hne
                  rw [htarget] at hallowed
                  rw [hticku] at hφ htick
                  rw [htick] at hlost
                  exact Or.inr ⟨rfl, hdba.trans hdbu, congrArg (· + 1) htick, rfl, hreview, hallowed, hφ, hlost⟩
              · exact ⟨j, j, hj, by simpa using hj, Or.inl⟩

/-! ### One update under failures -/

/-- A raised `TradeUpdateError` leaves a durable gate, unless both the marker and the fallback
failed. -/
def Guarded (c : ClientOrderId) (out : Except PyError TradeUpdateOutcome × World) : Prop :=
  ∀ e, out.1 = .error e → e.kind = .tradeUpdate → out.2.db.HasGate c ∨ SafetyLost c out.2.rejected

theorem Guarded.of_ok {o : TradeUpdateOutcome} : Guarded c (.ok o, w) := by
  rintro e ⟨⟩

theorem Guarded.of_database {e : PyError} (he : e.kind = .database) : Guarded c (.error e, w) := by
  rintro x ⟨⟩ hx
  rw [he] at hx
  cases hx

theorem applyFill_guarded (hw : w.Idle) {f : Fill} {row : MirrorRow} {i : OrderIntent}
    (hrow : w.db.mirrors.get f.brokerOrderId = some row) (hi : w.db.intents.get row.clientOrderId = some i) :
    Guarded row.clientOrderId (run (faulty φ env) (applyFill uuid5 f) w) := by
  have hread : run (faulty φ env) (getBrokerOrderById f.brokerOrderId) w = (.ok (some row.order), w.next) :=
    run_sound_read (c := .getBrokerOrderById f.brokerOrderId) rfl
      (by simp [Db.exec, Db.getBrokerOrderById, hw.view_eq, hrow])
  simp only [applyFill, bind_eq, run_bind, hread]
  have hadd : run (faulty φ env) (addFill f) w.next = run (handler env) (addFill f) w.next :=
    (run_sound rfl).trans (run_ask w.next _).symm
  rcases (w.next.view .uow).addFill_cases f with ⟨e, he, hk⟩ | hdup | hnew
  · have hrun : run (handler env) (addFill f) w.next = _ := run_statement_error w.next he
    rw [hadd, hrun]
    exact Guarded.of_database hk
  · have hrun : run (handler env) (addFill f) w.next = (.ok false, w.next.next) := run_read w.next hdup
    have hget : run (faulty φ env) (getFillByExecutionId f.executionId) w.next.next =
        (.ok ((w.view .uow).fills.get f.executionId), w.next.next.next) :=
      run_sound_read (c := .getFillByExecutionId f.executionId) rfl rfl
    rw [hadd, hrun]
    simp only [if_true, run_bind, hget]
    have hidle : w.next.next.next.Idle := hw
    have hdb : w.next.next.next.db.intents.get row.clientOrderId = some i := hi
    have hview : (w.next.next.next.view .uow).intents.get row.clientOrderId = some i := by
      rw [hidle.view_eq, hdb]
    split
    · -- The payloads clash; the unit of work holds no rows.
      rw [← bind_assoc, run_bind]
      rcases hp : run (faulty φ env) ((suppress rollback).bind fun _ =>
        persistConflictPause uuid5 row.order.clientOrderId "conflicting fill") w.next.next.next with ⟨rp, wp⟩
      have hout : wp.db.HasGate row.clientOrderId ∨ SafetyLost row.clientOrderId wp.rejected := by
        rcases rollbackAndPause_faulty isPauseReason_fill hdb hview hp with hg | hl | ⟨-, -, hu, hn, -⟩
        · exact Or.inl hg
        · exact Or.inr hl
        · rw [hu] at hn
          cases hn
      cases rp with
      | ok u => exact fun e _ _ => hout
      | error x => exact fun e _ _ => hout
    · rcases run_commit_cases φ env w.next.next.next with hc | ⟨-, hc⟩ | hc
      all_goals simp only [run_bind, hc]
      · exact Guarded.of_ok
      · exact Guarded.of_database rfl
      · exact Guarded.of_database rfl
  · have hrun : run (handler env) (addFill f) w.next = (.ok true, w.next.next.write .uow [.addFill f]) :=
      run_statement w.next hnew
    rw [hadd, hrun]
    simp only [Bool.true_eq_false, if_false, run_bind]
    rcases run_commit_cases φ env (w.next.next.write .uow [.addFill f]) with hc | ⟨-, hc⟩ | hc
    · simp only [hc]
      generalize hw₁ : (w.next.next.write .uow [.addFill f]).next.commit .uow = w₁
      have hidle : w₁.Idle := hw₁ ▸ World.Idle.commit _
      have hdb : w₁.db.intents.get row.order.clientOrderId = some i := by
        rw [← hw₁]
        simp [hw.view_eq]
        exact hi
      rw [run_tryCatch]
      rcases hd : run (faulty φ env) (deriveFromFill row.order f) w₁ with ⟨rd, wd⟩
      cases rd with
      | ok o => exact Guarded.of_ok
      | error x =>
          obtain ⟨i', j, hi', hj, hij⟩ := deriveFromFill_faulty hidle hdb hd
          simp only
          rcases hs : run (faulty φ env) (surfaceConflict uuid5 row.order.clientOrderId
            "conflicting fill" x) wd with ⟨rs, ws⟩
          intro e _ _
          rcases surfaceConflict_faulty isPauseReason_fill hi' hj hs with hg | hl | ⟨-, -, hu, hn, -⟩
          · exact Or.inl hg
          · exact Or.inr hl
          · rw [hij hu] at hn
            cases hn
    · simp only [hc]
      exact Guarded.of_database rfl
    · simp only [hc]
      exact Guarded.of_database rfl

/-- The fault patterns that leave a conflict without a gate.  An observation moves the intent
to review; its commit and the rollback are lost, so the marker sees the review status in the
open transaction and returns without a commit; then the pause is lost as well. -/
def Unguarded (φ : Nat → Option Fault) (db : Db) (row : MirrorRow) (i : OrderIntent) : TradeUpdate → Prop
  | .fill _ => False
  | .status u =>
      (row.brokerOrderId = u.brokerOrderId ∧ row.order.updatedAt ≤ u.observedAt ∧
        ¬ (u.status = row.order.status ∧ u.filledQuantity = row.order.filledQuantity) ∧
        checkStatus row.order u = .ok ()) ∧
      (u.status.isReview = true ∧ orderTransitionAllowed i.status .reviewRequired = true ∧
        i.status.isUnresolved = false ∧ db.control.entriesPaused = false) ∧
      φ 3 = none ∧ φ 4 = some .lost ∧ φ 5 = some .lost ∧ PauseLost φ 7

theorem applyStatus_guarded (hw : w.Idle) (htick : w.tick = 0) {u : OrderStatusUpdate} {row : MirrorRow}
    {i : OrderIntent} (hrow : w.db.mirrorOf u.clientOrderId = some row)
    (hi : w.db.intents.get u.clientOrderId = some i) (hn : ¬ Unguarded φ w.db row i (.status u)) :
    Guarded u.clientOrderId (run (faulty φ env) (applyStatus uuid5 u) w) := by
  have hread : run (faulty φ env) (getIntent u.clientOrderId) w = (.ok (some i), w.next) :=
    run_sound_read (c := .getIntent u.clientOrderId) rfl (by simp [Db.exec, Db.getIntent, hw.view_eq, hi])
  have hmirror : run (faulty φ env) (getBrokerOrder u.clientOrderId) w.next =
      (.ok (some row.order), w.next.next) :=
    run_sound_read (c := .getBrokerOrder u.clientOrderId) rfl
      (by simp [Db.exec, Db.getBrokerOrder, hw.view_eq, hrow])
  simp only [applyStatus, bind_eq, run_bind, hread, hmirror]
  by_cases hb : row.order.brokerOrderId ≠ u.brokerOrderId
  · rw [if_pos hb]
    exact Guarded.of_ok
  rw [if_neg hb]
  by_cases hlt : u.observedAt < row.order.updatedAt
  · rw [if_pos hlt]
    exact Guarded.of_ok
  rw [if_neg hlt]
  by_cases hs : u.status = row.order.status ∧ u.filledQuantity = row.order.filledQuantity
  · rw [if_pos hs]
    exact Guarded.of_ok
  rw [if_neg hs, run_tryCatch]
  have hidle : w.next.next.Idle := hw
  rcases hd : run (faulty φ env) (deriveFromStatus i row.order u) w.next.next with ⟨rd, wd⟩
  cases rd with
  | ok o => exact Guarded.of_ok
  | error x =>
      obtain ⟨i', j, hi', hj, hij⟩ := deriveFromStatus_faulty hidle hi hd
      simp only
      rcases hsurf : run (faulty φ env) (surfaceConflict uuid5 u.clientOrderId "conflicting status" x)
        wd with ⟨rs, ws⟩
      intro e _ _
      rcases surfaceConflict_faulty isPauseReason_status hi' hj hsurf with
        hg | hl | ⟨hdb', hlost, hu, hres, hpause⟩
      · exact Or.inl hg
      · exact Or.inr hl
      · rcases hij hu with hu' | ⟨rfl, hdb, ht, hcheck, hreview, ha, hφ, hφ'⟩
        · rw [hu'] at hres
          cases hres
        · rw [ht] at hlost hpause
          rw [World.next_tick, World.next_tick, htick] at hφ hφ' hlost hpause
          cases hp : w.db.control.entriesPaused with
          | true =>
              refine Or.inl (Or.inr ?_)
              rw [hdb', hdb]
              exact hp
          | false =>
              exact absurd ⟨⟨not_not.mp hb, not_lt.mp hlt, hs, hcheck⟩, ⟨hreview, ha, hres, hp⟩, hφ, hφ',
                hlost, hpause⟩ hn

/-- A failed attempt whose rollback discards or keeps the rows ends in a `TradeUpdateError`. -/
theorem run_attempt_error {α : Type} {p : Proc α} {message : String} {e : PyError} {w₁ : World}
    (hp : run (faulty φ env) p w = (.error e, w₁)) :
    ∃ x w', run (faulty φ env)
      (p.tryCatch fun _ => (suppress rollback).bind fun _ => fail .tradeUpdate message) w = (.error x, w') ∧
      x.kind = .tradeUpdate ∧ w'.db = w₁.db ∧
      ∀ y ∈ w'.rejected, y ∈ w₁.rejected ∨ y = .rollback .uow := by
  rw [run_tryCatch, hp]
  simp only [run_bind, run_suppress]
  refine ⟨_, _, rfl, rfl, ?_⟩
  have hrun : run (faulty φ env) rollback w₁ = faulty φ env (.rollback .uow) w₁ :=
    run_perform (S := ports) (faulty φ env) _ w₁
  rw [hrun]
  cases hφ : φ w₁.tick with
  | none =>
      simp only [faulty, hφ]
      exact ⟨rfl, fun y hy => Or.inl hy⟩
  | some fault =>
      have hcall : faulty φ env (.rollback .uow) w₁ = _ := hrun.symm.trans (run_failed hφ rfl)
      rw [hcall]
      cases fault <;> exact ⟨rfl, fun y hy => by simpa [World.failed] using hy⟩

/-- Setting the pause in a world where the statement fails or its commit is lost. -/
theorem persistPause_lost (env : Env) (hr : IsPauseReason ("reconciliation required; " ++ conflict))
    (hlost : PauseLost φ w.tick) :
    ∃ x w', run (faulty φ env) (persistPause conflict) w = (.error x, w') ∧ x.kind = .tradeUpdate ∧
      w'.db = w.db ∧ ∀ y ∈ w'.rejected, y ∈ w.rejected ∨ ∀ reason, y ≠ .persistSafetyPause reason := by
  have hbody : ∃ w₁, run (faulty φ env)
      ((setEntriesPaused .uow true (some ("reconciliation required; " ++ conflict))).bind fun _ => commit) w =
        (.error storeFailure, w₁) ∧ w₁.db = w.db ∧
      ∀ y ∈ w₁.rejected, y ∈ w.rejected ∨ ∀ reason, y ≠ .persistSafetyPause reason := by
    cases hφ : φ w.tick with
    | some fault =>
        have hset : run (faulty φ env)
            (setEntriesPaused .uow true (some ("reconciliation required; " ++ conflict))) w = _ :=
          run_failed hφ rfl
        refine ⟨_, run_bind_error _ hset, by cases fault <;> rfl, fun y hy => ?_⟩
        have hy' : y ∈ w.rejected ++
            [.store .uow (.setEntriesPaused true (some ("reconciliation required; " ++ conflict)))] := by
          cases fault <;> exact hy
        rcases List.mem_append.mp hy' with hy | hy
        · exact Or.inl hy
        · rw [List.mem_singleton] at hy
          exact Or.inr fun reason e => by rw [hy] at e; cases e
    | none =>
        obtain ⟨cs, -, hexec⟩ := (w.view .uow).setEntriesPaused_eq_ok (env.clock w.tick) hr
        have hset : run (faulty φ env)
            (setEntriesPaused .uow true (some ("reconciliation required; " ++ conflict))) w =
              (.ok cs, w.next.write .uow [.putControl cs]) :=
          (run_unharmed hφ).trans ((run_ask w _).symm.trans (run_statement w hexec))
        have hφ' : φ (w.next.write .uow [.putControl cs]).tick = some .lost :=
          hlost.resolve_left (by simp [hφ])
        have hcommit : run (faulty φ env) commit (w.next.write .uow [.putControl cs]) = _ :=
          run_failed hφ' rfl
        refine ⟨_, (run_bind_ok _ hset).trans hcommit, rfl, fun y hy => ?_⟩
        have hy' : y ∈ w.rejected ++ [.commit .uow] := hy
        rcases List.mem_append.mp hy' with hy | hy
        · exact Or.inl hy
        · rw [List.mem_singleton] at hy
          exact Or.inr fun reason e => by rw [hy] at e; cases e
  obtain ⟨w₁, hrun, hdb, hrej⟩ := hbody
  obtain ⟨x, w', hx, hk, hdb', hrej'⟩ : ∃ x w', run (faulty φ env) (persistPause conflict) w = (.error x, w') ∧
      x.kind = .tradeUpdate ∧ w'.db = w₁.db ∧ ∀ y ∈ w'.rejected, y ∈ w₁.rejected ∨ y = .rollback .uow :=
    run_attempt_error hrun
  refine ⟨x, w', hx, hk, hdb'.trans hdb, fun y hy => ?_⟩
  rcases hrej' y hy with hy | rfl
  · exact hrej y hy
  · exact Or.inr fun reason e => by cases e

/-- A review observation whose commit is lost leaves the review status in the open transaction. -/
theorem deriveFromStatus_lost (env : Env) (hw : w.Idle) {u : OrderStatusUpdate} {row : MirrorRow} {i : OrderIntent}
    (hrow : w.db.mirrorOf u.clientOrderId = some row) (hi : w.db.intents.get u.clientOrderId = some i)
    (hle : row.order.updatedAt ≤ u.observedAt) (hcheck : checkStatus row.order u = .ok ())
    (hreview : u.status.isReview = true) (ha : orderTransitionAllowed i.status .reviewRequired = true)
    (hφ : φ (w.tick + 1) = none) (hlost : φ (w.tick + 2) = some .lost) :
    ∃ w', run (faulty φ env) (deriveFromStatus i row.order u) w = (.error storeFailure, w') ∧
      w'.db = w.db ∧ w'.tick = w.tick + 3 ∧ w'.rejected = w.rejected ++ [.commit .uow] ∧
      (w'.view .uow).intents.get u.clientOrderId = some (i.withStatus .reviewRequired) := by
  have hget := (Db.get_of_mirrorOf hrow).1
  have hkey : i.clientOrderId = u.clientOrderId := Table.key_of_get hi
  obtain ⟨-, hn, hq, hf, hst⟩ := checkStatus_ok hcheck
  have htarget : statusIntentTarget u.status i.status = .reviewRequired := by
    revert hreview
    cases u.status <;> simp [BrokerOrderStatus.isReview, statusIntentTarget, intentStatusByBrokerStatus]
  have hne : OrderStatus.reviewRequired ≠ i.status := by
    intro e
    rw [← e] at ha
    cases ha
  have hview : (w.view .uow).intents.get u.clientOrderId = some i := by rw [hw.view_eq, hi]
  have hupdate : run (faulty φ env) (updateBrokerOrderStatus row.order.brokerOrderId u.status
      u.filledQuantity (some u.observedAt)) w = _ :=
    (run_sound rfl).trans ((run_ask w _).symm.trans
      (run_updateBrokerOrderStatus (by rw [hw.view_eq]; exact hget) (by simpa using hle) hst hn hf hq))
  generalize hw₁ : w.next.write .uow [.putMirror (row.refreshed u.status u.filledQuantity
    (some u.observedAt) hq hf)] = w₁ at hupdate
  have hview₁ : (w₁.view .uow).intents.get u.clientOrderId = some i := by simpa [← hw₁] using hview
  have htick₁ : w₁.tick = w.tick + 1 := by rw [← hw₁]; rfl
  have hmove : run (faulty φ env) (transitionStatus u.clientOrderId .reviewRequired) w₁ = _ :=
    (run_unharmed (htick₁ ▸ hφ)).trans ((run_ask w₁ _).symm.trans
      (run_statement w₁ (Db.transitionStatus_eq_ok hview₁ (Or.inr ha))))
  generalize hw₂ : w₁.next.write .uow [.putIntent (i.withStatus .reviewRequired)] = w₂ at hmove
  have htick₂ : w₂.tick = w.tick + 2 := by rw [← hw₂, ← hw₁]; rfl
  have hcommit : run (faulty φ env) commit w₂ = (.error storeFailure, w₂.next.reject (.commit .uow)) :=
    run_failed (htick₂ ▸ hlost) rfl
  refine ⟨w₂.next.reject (.commit .uow), ?_, by simp [← hw₂, ← hw₁], congrArg (· + 1) htick₂,
    by simp [← hw₂, ← hw₁], ?_⟩
  · simp only [deriveFromStatus, bind_eq, run_bind, run_ofExcept, hcheck, hupdate, htarget,
      transitionAfterStatus, ne_eq, hne, not_false_eq_true, if_true, transitionIntent, ha,
      Bool.true_eq_false, if_false, hmove, pure_eq_ret, run_ret, hcommit]
  · have hput : ((w₂.next.reject (.commit .uow)).view .uow).intents =
        (w₁.view .uow).intents.put (i.withStatus .reviewRequired) := by simp [← hw₂]
    rw [hput, ← hkey]
    exact Table.get_put_self (hkey.symm ▸ hview₁)

/-- With the rollback and the pause lost, an unresolved view leaves the tables as they are. -/
theorem surfaceConflict_lost (env : Env) (uuid5 : NameUuid)
    (hr : IsPauseReason ("reconciliation required; " ++ conflict))
    {j : OrderIntent} (hj : (w.view .uow).intents.get c = some j) (hu : j.status.isUnresolved = true)
    (hφ : φ w.tick = some .lost) (hpause : PauseLost φ (w.tick + 2)) (e : PyError) :
    ∃ x w', run (faulty φ env) (surfaceConflict uuid5 c conflict e) w = (.error x, w') ∧
      x.kind = .tradeUpdate ∧ w'.db = w.db ∧
      ∀ y ∈ w'.rejected, y ∈ w.rejected ∨ ∀ reason, y ≠ .persistSafetyPause reason := by
  have hroll : run (faulty φ env) rollback w = (.error storeFailure, w.next.reject (.rollback .uow)) :=
    run_failed hφ rfl
  have hread : run (faulty φ env) (getIntent c) (w.next.reject (.rollback .uow)) =
      (.ok (some j), (w.next.reject (.rollback .uow)).next) :=
    run_sound_read (c := .getIntent c) rfl (by simp [Db.exec, Db.getIntent, hj])
  have hearly : j.status = .unknown ∨ j.status = .reviewRequired := by
    revert hu
    cases j.status <;> simp [OrderStatus.isUnresolved]
  have hlost : PauseLost φ (w.next.reject (.rollback .uow)).next.tick := hpause
  obtain ⟨x, w', hp, hx, hdb, hrej⟩ := persistPause_lost env hr hlost
  refine ⟨x, w', ?_, hx, hdb, fun y hy => ?_⟩
  · simp only [surfaceConflict, persistConflictPause, persistConflictMarker, bind_eq, run_bind,
      run_suppress, hroll, run_tryCatch, hread, if_pos hearly, pure_eq_ret, run_ret, hp]
  · rcases hrej y hy with hy | hy
    · have hy' : y ∈ w.rejected ++ [.rollback .uow] := hy
      rcases List.mem_append.mp hy' with hy | hy
      · exact Or.inl hy
      · rw [List.mem_singleton] at hy
        exact Or.inr fun reason e => by rw [hy] at e; cases e
    · exact Or.inr hy

/-- On the patterns of `Unguarded` the update raises and leaves no gate. -/
theorem applyStatus_unguarded {db : Db} {u : OrderStatusUpdate} {row : MirrorRow} {i : OrderIntent}
    (hrow : db.mirrorOf u.clientOrderId = some row) (hi : db.intents.get u.clientOrderId = some i)
    (h : Unguarded φ db row i (.status u)) :
    ¬ Guarded u.clientOrderId (run (faulty φ env) (applyStatus uuid5 u) (.start db)) := by
  obtain ⟨⟨hb, hle, hs, hcheck⟩, ⟨hreview, ha, hu, hp⟩, hφ₃, hφ₄, hφ₅, hpause⟩ := h
  have hidle : (World.start db).next.next.Idle := World.start_idle db
  have hread : run (faulty φ env) (getIntent u.clientOrderId) (.start db) = (.ok (some i), (World.start db).next) :=
    run_sound_read (c := .getIntent u.clientOrderId) rfl
      (by simp [Db.exec, Db.getIntent, hi])
  have hmirror : run (faulty φ env) (getBrokerOrder u.clientOrderId) (World.start db).next =
      (.ok (some row.order), (World.start db).next.next) :=
    run_sound_read (c := .getBrokerOrder u.clientOrderId) rfl
      (by simp [Db.exec, Db.getBrokerOrder, hrow])
  obtain ⟨w₁, hd, hdb₁, htick, hrej₁, hj⟩ :=
    deriveFromStatus_lost env hidle hrow hi hle hcheck hreview ha hφ₃ hφ₄
  have htick : w₁.tick = 5 := htick
  obtain ⟨x, w', hsurf, hx, hdb, hrej⟩ := surfaceConflict_lost env uuid5
    isPauseReason_status hj rfl (htick ▸ hφ₅) (htick ▸ hpause) storeFailure
  have hrun : run (faulty φ env) (applyStatus uuid5 u) (.start db) = (.error x, w') := by
    have hb' : ¬ row.order.brokerOrderId ≠ u.brokerOrderId := not_not.mpr hb
    simp only [applyStatus, bind_eq, run_bind, hread, hmirror, if_neg hb', if_neg (not_lt.mpr hle), if_neg hs,
      run_tryCatch, hd, hsurf]
  intro hg
  rw [hrun] at hg
  rcases hg x rfl hx with hgate | ⟨-, reason, hmem⟩
  · rw [Db.HasGate, hdb, hdb₁] at hgate
    rcases hgate with ⟨k, hk, hku⟩ | hpaused
    · obtain rfl : i = k := Option.some.inj (hi.symm.trans hk)
      rw [hu] at hku
      cases hku
    · have hpaused : db.control.entriesPaused = true := hpaused
      rw [hp] at hpaused
      cases hpaused
  · rcases hrej _ hmem with hmem | hne
    · rw [hrej₁] at hmem
      simp [World.start] at hmem
    · exact hne reason rfl

end Gate

/-! ### The durable gate -/

/-- The update is about the order of `row`. -/
def TradeUpdate.Concerns (row : MirrorRow) : TradeUpdate → Prop
  | .fill f => f.brokerOrderId = row.brokerOrderId
  | .status u => u.clientOrderId = row.clientOrderId

/-- What a raised `TradeUpdateError` leaves behind when no operation failed by itself: the
pause; the marker, unless the store rejects its transition; the mirrors and all other intents
as they were; and every fill, a new one included. -/
def DurablyGated (db : Db) (c : ClientOrderId) (u : TradeUpdate)
    (out : Except PyError TradeUpdateOutcome × World) : Prop :=
  ∀ e, out.1 = .error e → e.kind = .tradeUpdate →
    out.2.db.control.entriesPaused = true ∧
    (out.2.db.Unresolved c ∨ ∃ x, db.transitionStatus c .reviewRequired = .error x) ∧
    out.2.db.mirrors = db.mirrors ∧ out.2.db.intents = db.markedIntents c ∧
    (∀ g ∈ db.fills.rows, g ∈ out.2.db.fills.rows) ∧
    ∀ f, u = .fill f → db.fills.get f.executionId = none → f ∈ out.2.db.fills.rows

/-- The marker of a conflict is durable unless the store rejects its transition. -/
theorem markedIntents_unresolved {db db' : Db} {c : ClientOrderId} {i : OrderIntent}
    (hi : db.intents.get c = some i) (hm : db'.intents = db.markedIntents c) :
    db'.Unresolved c ∨ ∃ x, db.transitionStatus c .reviewRequired = .error x := by
  have hkey : i.clientOrderId = c := Table.key_of_get hi
  simp only [Db.markedIntents, hi] at hm
  cases hu : i.status.isUnresolved with
  | true =>
      rw [hu, if_pos rfl] at hm
      exact Or.inl ⟨i, by rw [hm, hi], hu⟩
  | false =>
      rw [hu, if_neg Bool.false_ne_true] at hm
      cases ha : orderTransitionAllowed i.status .reviewRequired with
      | true =>
          rw [ha, if_pos rfl] at hm
          refine Or.inl ⟨i.withStatus .reviewRequired, ?_, rfl⟩
          rw [hm, ← hkey]
          exact Table.get_put_self (hkey.symm ▸ hi)
      | false =>
          have hne : OrderStatus.reviewRequired ≠ i.status := by
            intro e
            rw [← e] at hu
            cases hu
          exact Or.inr ⟨_, Db.transitionStatus_eq_error hi hne ha⟩

theorem consumed_durablyGated {db db' : Db} {u : TradeUpdate} {row : MirrorRow} {i : OrderIntent}
    {r : Except PyError TradeUpdateOutcome} {w : World} (hw : w.db = db')
    (hrow : db.mirrors.get row.brokerOrderId = some row) (hi : db.intents.get row.clientOrderId = some i)
    (hu : u.Concerns row) (h : Consumed db u r db') : DurablyGated db row.clientOrderId u (r, w) := by
  intro e hr hk
  rw [hw]
  cases h with
  | unknownFill => cases hr
  | repeated => cases hr
  | filled => cases hr
  | unknownStatus => cases hr
  | stale => cases hr
  | repeatedStatus => cases hr
  | observed => cases hr
  | unstorable hq he =>
      cases hr
      rw [he] at hk
      cases hk
  | @clashing f g row₂ e _ hm hg hne he hgate =>
      obtain rfl : row = row₂ := by
        have hb : f.brokerOrderId = row.brokerOrderId := hu
        rw [hb, hrow] at hm
        exact Option.some.inj hm
      refine ⟨hgate.paused, markedIntents_unresolved hi hgate.intents, hgate.mirrors, hgate.intents,
        fun k hk => hgate.fills ▸ hk, ?_⟩
      rintro f' ⟨⟩ hnone
      rw [hg] at hnone
      cases hnone
  | @refusedFill f row₂ e _ hm hnew href he hgate =>
      obtain rfl : row = row₂ := by
        have hb : f.brokerOrderId = row.brokerOrderId := hu
        rw [hb, hrow] at hm
        exact Option.some.inj hm
      have hfills : ∀ k, k ∈ db'.fills.rows ↔ k ∈ db.fills.rows ∨ k = f := by
        intro k
        rw [hgate.fills, Db.apply_addFill_fills, Table.mem_add_iff hnew]
      refine ⟨hgate.paused, markedIntents_unresolved hi hgate.intents, hgate.mirrors, hgate.intents,
        fun k hk => (hfills k).mpr (Or.inl hk), ?_⟩
      rintro f' ⟨⟩ -
      exact (hfills f).mpr (Or.inr rfl)
  | @refusedStatus v row₂ j e _ hj hm hle hr' he hgate =>
      have hc : v.clientOrderId = row.clientOrderId := hu
      rw [hc] at hgate
      refine ⟨hgate.paused, markedIntents_unresolved hi hgate.intents, hgate.mirrors, hgate.intents,
        fun k hk => hgate.fills ▸ hk, ?_⟩
      rintro f' ⟨⟩

/-- **The durable gate of a conflict.**  With the store failing as `φ` says, a raised
`TradeUpdateError` leaves a durable gate unless the marker and the fallback both failed, and
with nothing failing it leaves marker, pause, mirrors, intents and fills as it should; exactly
when the fault pattern is not one of `Unguarded`. -/
theorem conflict_gated_iff (env : Env) (uuid5 : NameUuid) (φ : Nat → Option Fault) (db : Db)
    (u : TradeUpdate) (row : MirrorRow) (i : OrderIntent)
    (hrow : db.mirrors.get row.brokerOrderId = some row) (hi : db.intents.get row.clientOrderId = some i)
    (hu : u.Concerns row) :
    (Guarded row.clientOrderId (run (faulty φ env) (applyUpdate uuid5 u) (.start db)) ∧
      ((∀ n, φ n = none) →
        DurablyGated db row.clientOrderId u (run (faulty φ env) (applyUpdate uuid5 u) (.start db)))) ↔
    ¬ Unguarded φ db row i u := by
  have hdurable : (∀ n, φ n = none) →
      DurablyGated db row.clientOrderId u (run (faulty φ env) (applyUpdate uuid5 u) (.start db)) := by
    intro hφ
    obtain rfl : φ = fun _ => none := funext hφ
    rw [faulty_none]
    obtain ⟨r, w, hrun⟩ : ∃ r w, run (handler env) (applyUpdate uuid5 u) (.start db) = (r, w) := ⟨_, _, rfl⟩
    obtain ⟨-, hcons, -⟩ := applyUpdate_consumed (World.start_idle db) hrun
    rw [hrun]
    exact consumed_durablyGated rfl hrow hi hu hcons
  have hguard : Guarded row.clientOrderId (run (faulty φ env) (applyUpdate uuid5 u) (.start db)) ↔
      ¬ Unguarded φ db row i u := by
    cases u with
    | fill f =>
        have hb : f.brokerOrderId = row.brokerOrderId := hu
        refine ⟨fun _ h => h, fun _ => ?_⟩
        exact applyFill_guarded (World.start_idle db) (hb ▸ hrow) hi
    | status u =>
        have hc : u.clientOrderId = row.clientOrderId := hu
        have hm : db.mirrorOf u.clientOrderId = some row := hc ▸ Db.mirrorOf_of_get hrow
        have hi' : db.intents.get u.clientOrderId = some i := hc ▸ hi
        rw [← hc]
        constructor
        · intro hg hn
          exact applyStatus_unguarded hm hi' hn hg
        · exact fun hn => applyStatus_guarded (World.start_idle db) rfl hm hi' hn
  rw [← hguard]
  exact and_iff_left hdurable

/-- Without faults a conflicting fill is gated: the sample order has ten shares and eleven are
reported. -/
theorem conflict_gated_sample :
    Guarded sampleId (run (faulty (fun _ => none) sampleEnv)
      (applyUpdate sampleUuid5 (.fill (sampleFill "e-1" ⟨11, by decide⟩ 2 (by decide))))
      (.start (sampleDb .acknowledged sampleRow))) :=
  ((conflict_gated_iff sampleEnv sampleUuid5 (fun _ => none) (sampleDb .acknowledged sampleRow)
    (.fill (sampleFill "e-1" ⟨11, by decide⟩ 2 (by decide))) sampleRow (sampleIntent .acknowledged)
    (by decide +kernel) (by decide +kernel) rfl).mpr id).1

/-- The commit of a review observation and its rollback are lost, then the pause statement. -/
def lostReview : Nat → Option Fault
  | 4 | 5 | 7 => some .lost
  | _ => none

/-- A suspended order under `lostReview`: the update raises a `TradeUpdateError`, the intent is
still acknowledged, entries are not paused, and the fallback was never tried. -/
theorem lostReview_unguarded :
    let out := run (faulty lostReview sampleEnv)
      (applyUpdate sampleUuid5 (.status (sampleStatus .suspended 0 5)))
      (.start (sampleDb .acknowledged sampleRow))
    out.1 = .error ⟨.tradeUpdate, "failed to persist entries_paused after conflicting status"⟩ ∧
      (out.2.db.getIntent sampleId).map OrderIntent.status = some .acknowledged ∧
      out.2.db.control.entriesPaused = false ∧
      out.2.rejected = [.commit .uow, .rollback .uow, .store .uow (.setEntriesPaused true
        (some "reconciliation required; conflicting status"))] := by
  decide +kernel

end SevenLens
