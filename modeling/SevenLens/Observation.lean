import SevenLens.ConsumerStep
import SevenLens.Reconciliation

/-! # Reconciliation as an observation

The passes of a reconciliation write nothing.  Against a broker whose answers do not change
while the run lasts, a pass therefore computes a value from the tables and the broker's view
alone: `observe` is what each call answers, and `run_collectFindings` says that running the
passes gives their value under `observe` and leaves tables and connections as they were. -/

namespace SevenLens

open Calls Prog

/-- Everything the broker and the price provider would answer during one run.  A query may
fail in transport, and a mark price may be unavailable. -/
structure BrokerView where
  answer : (c : BrokerCall) → Except PyError c.Ans
  price : Symbol → Except PyError Price
  transport : ∀ c e, answer c = .error e → e.kind = .brokerTransport
  unavailable : ∀ s e, price s = .error e → e.kind = .markPriceUnavailable

/-- The environment of a run in which the broker shows this view throughout. -/
def BrokerView.env (v : BrokerView) (clock : Nat → UtcTimestamp) (uuid : Nat → Uuid) : Env where
  clock
  broker _ := v.answer
  price _ := v.price
  uuid

/-- Statements that write nothing. -/
def StoreCall.isRead : StoreCall → Bool
  | getIntent _ | listByStatus _ | getBrokerOrder _ | getBrokerOrderById _ | getFillByExecutionId _
  | listFills _ | listOpenBrokerOrders | listAllBrokerOrders | listAllFills | controlState | latestRun
  | getBaseline _ => true
  | _ => false

/-- The answer to a statement, whenever it is issued. -/
def Db.read (db : Db) (c : StoreCall) : Except PyError c.Ans :=
  (db.exec ⟨0, UtcTimestamp.zero_lt⟩ c).map Prod.fst

theorem Db.exec_read (db : Db) (now : UtcTimestamp) {c : StoreCall} (hc : c.isRead = true) :
    db.exec now c = (db.read c).map (fun a => (a, [])) := by
  cases c with
  | getBaseline a =>
      simp only [read, exec]
      cases db.getBaseline a <;> rfl
  | getIntent _ | listByStatus _ | getBrokerOrder _ | getBrokerOrderById _ | getFillByExecutionId _
  | listFills _ | listOpenBrokerOrders | listAllBrokerOrders | listAllFills | controlState | latestRun => rfl
  | addIntent _ | transitionStatus _ _ | recordBrokerOrder _ | updateBrokerOrderStatus _ _ _ _
  | addFill _ | setEntriesPaused _ _ | bumpFlattenGeneration | addCommand _ | addRun _ => cases hc

/-- The calls of the passes. -/
def IsObservation : Call → Prop
  | .store h c => h = .uow ∧ c.isRead = true
  | .broker (.submitOrder _) => False
  | .broker _ | .currentPrice _ | .beginReconciliationSnapshot => True
  | _ => False

/-- What the calls of the passes answer. -/
def observe (v : BrokerView) (db : Db) : (c : ports.Call) → Except PyError (ports.Ans c)
  | .store _ c => db.read c
  | .broker c => v.answer c
  | .currentPrice s => v.price s
  | .beginReconciliationSnapshot => .ok ()
  | .lockControl _ => .ok db.control
  | .commit _ => .ok ()
  | .rollback _ => .ok ()
  | .persistSafetyPause _ => .ok ()
  | .clock => .ok (⟨0, UtcTimestamp.zero_lt⟩ : UtcTimestamp)
  | .uuid4 => .ok (⟨0, by decide⟩ : Uuid)

/-- The tables are `db` and nothing is pending. -/
def World.Shows (db : Db) (w : World) : Prop := w.db = db ∧ w.session = .idle

theorem World.start_shows (db : Db) : (World.start db).Shows db := ⟨rfl, rfl⟩

theorem World.Shows.view_eq {db : Db} {w : World} (h : w.Shows db) (k : Handle) : w.view k = db := by
  rw [World.view, h.1, h.2, Session.pending_idle, Db.applyAll_nil]

/-- What an observing call may answer. -/
def Answered (db : Db) (env : Env) : (c : ports.Call) → Except PyError (ports.Ans c) → Prop
  | .store _ c, r => r = db.read c
  | .broker c, r => ∃ n, r = env.broker n c
  | .currentPrice s, r => ∃ n, r = env.price n s
  | .beginReconciliationSnapshot, r => r = .ok ()
  | _, _ => False

/-- An observing call leaves the tables alone. -/
theorem handler_answered {db : Db} {env : Env} {w : World} {c : Call} (hw : w.Shows db)
    (hc : IsObservation c) :
    Answered db env c (handler env c w).1 ∧ (handler env c w).2.Shows db := by
  cases c with
  | store h c =>
      obtain ⟨rfl, hc⟩ := hc
      simp only [handler, World.statement, World.next_view, hw.view_eq, Db.exec_read db _ hc]
      cases hr : db.read c with
      | error e => exact ⟨hr.symm, hw⟩
      | ok a =>
          refine ⟨hr.symm, ?_⟩
          show (w.next.write .uow []).Shows db
          rw [World.write_nil]
          exact hw
  | broker c => exact ⟨⟨w.tick, rfl⟩, hw⟩
  | currentPrice s => exact ⟨⟨w.tick, rfl⟩, hw⟩
  | beginReconciliationSnapshot =>
      simp only [handler, hw.2, Session.idle]
      exact ⟨rfl, hw⟩
  | lockControl h => exact hc.elim
  | commit h => exact hc.elim
  | rollback h => exact hc.elim
  | persistSafetyPause r => exact hc.elim
  | clock => exact hc.elim
  | uuid4 => exact hc.elim

/-- Against a steady view an observing call answers `observe`. -/
theorem handler_observe {v : BrokerView} {clock : Nat → UtcTimestamp} {uuid : Nat → Uuid} {db : Db}
    {w : World} {c : Call} (hw : w.Shows db) (hc : IsObservation c) :
    (handler (v.env clock uuid) c w).1 = observe v db c ∧ (handler (v.env clock uuid) c w).2.Shows db := by
  have hanswer : Answered db (v.env clock uuid) c _ ∧ _ := handler_answered hw hc
  obtain ⟨ha, hs⟩ := hanswer
  refine ⟨?_, hs⟩
  cases c with
  | store h c => exact ha
  | broker c => exact ha.choose_spec
  | currentPrice s => exact ha.choose_spec
  | beginReconciliationSnapshot => exact ha
  | lockControl h => exact hc.elim
  | commit h => exact hc.elim
  | rollback h => exact hc.elim
  | persistSafetyPause r => exact hc.elim
  | clock => exact hc.elim
  | uuid4 => exact hc.elim

/-! ### The passes only observe -/

section Within

/-- A program that only observes. -/
def OnlyObserves {α : Type} (p : Proc α) : Prop := Within IsObservation (fun _ => True) p

theorem observes_ask {c : Call} (h : IsObservation c) : OnlyObserves (ask c) := within_perform (S := ports) h

theorem observes_bind {α β : Type} {p : Proc α} {f : α → Proc β} (hp : OnlyObserves p)
    (hf : ∀ a, OnlyObserves (f a)) : OnlyObserves (p.bind f) := within_bind hp hf

theorem observes_ofExcept {α : Type} (r : Except PyError α) : OnlyObserves (Prog.ofExcept r : Proc α) :=
  within_ofExcept fun _ _ => trivial

theorem observes_report (f : Findings) (k : MismatchKind) (d : String) : OnlyObserves (f.report k d) :=
  observes_ofExcept _

theorem observes_reportIf (f : Findings) (c : Prop) [Decidable c] (k : MismatchKind) (d : String) :
    OnlyObserves (f.reportIf c k d) :=
  within_ite (fun _ => observes_report f k d) fun _ => trivial

theorem observes_checkBrokerFills (l m : List Fill) (f : Findings) : OnlyObserves (checkBrokerFills l m f) :=
  within_foldlM fun _ _ => observes_reportIf _ _ _ _

theorem observes_checkUnresolved (f : Findings) (s : OrderStatus) : OnlyObserves (checkUnresolved f s) :=
  observes_bind (observes_ask ⟨rfl, rfl⟩) fun _ => within_foldlM fun _ _ => observes_report _ _ _

theorem observes_checkOpenMirror (f : Findings) (m : BrokerOrder) : OnlyObserves (checkOpenMirror f m) := by
  refine observes_bind (observes_ask trivial) fun (o : Option BrokerOrder) => ?_
  cases o with
  | none => exact observes_report _ _ _
  | some o =>
      refine observes_bind (observes_ask ⟨rfl, rfl⟩) fun _ => observes_bind (observes_reportIf _ _ _ _) fun _ =>
        observes_bind (observes_reportIf _ _ _ _) fun _ => observes_bind (observes_reportIf _ _ _ _) fun _ => ?_
      exact observes_bind (observes_ask ⟨rfl, rfl⟩) fun _ => observes_bind (observes_ask trivial) fun _ =>
        observes_checkBrokerFills _ _ _

theorem observes_checkClosedMirror (ids : List String) (f : Findings) (m : BrokerOrder) :
    OnlyObserves (checkClosedMirror ids f m) := by
  refine within_ite (fun _ => trivial) fun _ => observes_bind (observes_ask trivial)
    fun (o : Option BrokerOrder) => ?_
  cases o with
  | none => trivial
  | some o => exact within_ite (fun _ => observes_report _ _ _) fun _ => trivial

theorem observes_orderPasses (f : Findings) : OnlyObserves (orderPasses f) := by
  refine observes_bind (observes_checkUnresolved _ _) fun _ => observes_bind (observes_checkUnresolved _ _)
    fun _ => observes_bind (observes_ask ⟨rfl, rfl⟩) fun _ => ?_
  refine observes_bind (within_foldlM fun _ _ => observes_checkOpenMirror _ _) fun _ =>
    observes_bind (observes_ask ⟨rfl, rfl⟩) fun _ => ?_
  refine observes_bind (within_foldlM fun _ _ => observes_checkClosedMirror _ _ _) fun _ =>
    observes_bind (observes_ask ⟨rfl, rfl⟩) fun _ => observes_bind (observes_ask trivial) fun _ => ?_
  exact within_foldlM fun _ _ => observes_bind (observes_reportIf _ _ _ _) fun _ => trivial

theorem observes_checkHistory (acc : Findings × List BrokerOrder) (o : BrokerOrder) :
    OnlyObserves (checkHistory acc o) := by
  refine within_ite (fun _ => trivial) fun _ => within_ite (fun _ => trivial) fun _ =>
    observes_bind (observes_ask ⟨rfl, rfl⟩) fun (m : Option BrokerOrder) => ?_
  cases m with
  | none => exact observes_bind (observes_report _ _ _) fun _ => trivial
  | some m =>
      refine observes_bind (observes_reportIf _ _ _ _) fun _ => observes_bind (observes_ask ⟨rfl, rfl⟩) fun _ =>
        observes_bind (observes_ask trivial) fun _ => ?_
      exact observes_bind (observes_checkBrokerFills _ _ _) fun _ => trivial

theorem observes_historyPass (d : TradingDate) (acc : Findings × List BrokerOrder) :
    OnlyObserves (historyPass d acc) := by
  refine observes_bind (observes_ask ⟨rfl, rfl⟩) fun _ => observes_bind (observes_ofExcept _) fun _ =>
    observes_bind (observes_ask trivial) fun _ => ?_
  exact observes_bind (within_foldlM fun _ _ => observes_checkHistory _ _) fun _ => trivial

theorem observes_positionPass (f : Findings) : OnlyObserves (positionPass f) := by
  refine observes_bind (observes_ask ⟨rfl, rfl⟩) fun _ => observes_bind (observes_ask ⟨rfl, rfl⟩) fun _ =>
    observes_bind (observes_ofExcept _) fun _ => observes_bind (observes_ask trivial) fun _ => ?_
  refine observes_bind (within_foldlM fun _ _ => within_ite (fun _ => observes_report _ _ _) fun _ =>
    observes_reportIf _ _ _ _) fun _ => trivial

theorem observes_navPass (cfg : ReconcilerConfig) (policy : AccountReconciliationPolicy) (a : PaperAccount)
    (p : LedgerProjection) (cash : Int) (f : Findings) : OnlyObserves (navPass cfg policy a p cash f) := by
  refine within_tryCatch (within_ite (fun _ => ?_) fun _ => ?_) fun _ _ =>
    within_ite (fun _ => observes_report _ _ _) fun _ => trivial
  · exact within_ite (fun _ => observes_report _ _ _) fun _ => observes_reportIf _ _ _ _
  · refine observes_bind (within_foldlM fun _ _ => observes_bind (observes_ask trivial) fun _ => trivial)
      fun _ => ?_
    exact observes_bind (observes_ofExcept _) fun _ => observes_reportIf _ _ _ _

theorem observes_accountPass (cfg : ReconcilerConfig) (a : PaperAccount) (p : LedgerProjection)
    (f : Findings) : OnlyObserves (accountPass cfg a p f) := by
  unfold accountPass
  split
  · trivial
  · rename_i policy _
    refine observes_bind (observes_reportIf _ _ _ _) fun f => ?_
    have hsome : ∀ b : AccountBaseline, OnlyObserves (baselinePass cfg policy a p b f) := by
      intro b
      refine observes_bind (observes_ask ⟨rfl, rfl⟩) fun _ => observes_bind (observes_ask ⟨rfl, rfl⟩)
        fun _ => observes_bind (observes_ofExcept _) fun _ => ?_
      exact observes_bind (observes_reportIf _ _ _ _) fun _ => observes_navPass _ _ _ _ _ _
    refine within_ite (fun _ => observes_bind (observes_ask ⟨rfl, rfl⟩) fun b => ?_) fun _ => ?_
    · cases b with
      | none => exact observes_report _ _ _
      | some b => exact hsome b
    · exact observes_report f .accountReconciliationUnavailable "missing opening cash baseline"

theorem observes_collectFindings (cfg : ReconcilerConfig) (d : TradingDate) :
    OnlyObserves (collectFindings cfg d) := by
  refine observes_bind (observes_ask trivial) fun _ => observes_bind (observes_ask trivial) fun _ =>
    observes_bind (observes_reportIf _ _ _ _) fun _ => observes_bind (observes_orderPasses _) fun _ => ?_
  refine observes_bind (observes_historyPass _ _) fun _ => observes_bind (observes_positionPass _) fun _ => ?_
  exact observes_accountPass _ _ _ _

end Within

/-- Running the passes computes their value from tables and view, and changes neither. -/
theorem run_collectFindings (v : BrokerView) (clock : Nat → UtcTimestamp) (uuid : Nat → Uuid)
    (cfg : ReconcilerConfig) (d : TradingDate) {db : Db} {w : World} (hw : w.Shows db) :
    (run (handler (v.env clock uuid)) (collectFindings cfg d) w).1 =
        eval (observe v db) (collectFindings cfg d) ∧
      (run (handler (v.env clock uuid)) (collectFindings cfg d) w).2.Shows db :=
  run_eq_eval (fun _ _ hs hc => handler_observe hs hc) (observes_collectFindings cfg d) hw

theorem run_createResult (env : Env) (d : TradingDate) (f : Findings) (scope : ReconciliationScope) (w : World) :
    run (handler env) (createResult d f scope) w =
      (ReconciliationResult.create d f.mismatches f.checkedOrders f.checkedFills (env.clock w.tick)
        (env.uuid (w.tick + 1)) scope, w.next.next) := by
  have hclock : run (handler env) clock w = (.ok (env.clock w.tick), w.next) := rfl
  have huuid : run (handler env) uuid4 w.next = (.ok (env.uuid (w.tick + 1)), w.next.next) := rfl
  simp only [createResult, bind_eq, run_bind, hclock, huuid, run_ofExcept]

/-- The calls before a result is recorded. -/
def IsPassive (c : Call) : Prop := IsObservation c ∨ c = .clock ∨ c = .uuid4

theorem passive_createResult (d : TradingDate) (f : Findings) (scope : ReconciliationScope) :
    Within IsPassive (fun _ => True) (createResult d f scope) :=
  within_bind (within_perform (S := ports) (Or.inr (Or.inl rfl))) fun _ =>
    within_bind (within_perform (S := ports) (Or.inr (Or.inr rfl))) fun _ => within_ofExcept fun _ _ => trivial

theorem passive_failedResult (d : TradingDate) (k : MismatchKind) (m : String) :
    Within IsPassive (fun _ => True) (failedResult d k m) :=
  within_bind (within_ofExcept fun _ _ => trivial) fun f => passive_createResult d f _

/-- Collecting a result, or its failure, leaves tables and connections alone. -/
theorem run_collectOrFail_shows (env : Env) (cfg : ReconcilerConfig) (d : TradingDate) {db : Db} {w : World}
    (hw : w.Shows db) : (run (handler env) (collectOrFail cfg d) w).2.Shows db := by
  refine run_invariant (C := IsPassive) (fun s c hs hc => ?_) ?_ hw
  · rcases hc with hc | rfl | rfl
    · exact (handler_answered hs hc).2
    · exact hs
    · exact hs
  · unfold collectOrFail collect
    have hcollect : Within IsPassive (fun _ => True) (collectFindings cfg d) :=
      Within.mono (fun _ h => Or.inl h) (observes_collectFindings cfg d)
    refine within_tryCatch (within_bind hcollect fun f => passive_createResult d f _) fun e _ => ?_
    refine within_ite (fun _ => ?_) fun _ => within_ite (fun _ => ?_) fun _ => trivial
    · exact passive_failedResult d .brokerQueryFailure _
    · generalize ledgerDetail e.message = detail
      exact passive_failedResult d .localLedgerInvariant detail

/-! ### Recording a result -/

section Record

variable {env : Env} {db : Db}

/-- The pause of a mismatch, in the transaction that records it: it fails only on the record of
the audit command, and writes the pause otherwise. -/
theorem run_pauseOnMismatch (env : Env) (w : World) :
    (∃ w', run (handler env) pauseOnMismatch w = (.ok (), w') ∧ w'.db = w.db ∧
      (w'.view .uow).runs = (w.view .uow).runs ∧ (w'.view .uow).control.entriesPaused = true) ∨
    (∃ e w', run (handler env) pauseOnMismatch w = (.error e, w') ∧ w'.db = w.db ∧
      ((env.uuid (w.tick + 2)).int = 0 ∨ ((w.view .uow).commands.get (env.uuid (w.tick + 2))).isSome)) := by
  obtain ⟨cs, hcs, hpause⟩ := Db.setEntriesPaused_eq_ok (w.view .uow) (env.clock w.tick)
    (show IsPauseReason "reconciliation mismatch" by decide)
  have hset : run (handler env) (setEntriesPaused .uow true (some "reconciliation mismatch")) w =
      (.ok cs, w.next.write .uow [.putControl cs]) := run_statement w hpause
  generalize hw₁ : w.next.write .uow [.putControl cs] = w₁ at hset
  have htick : w₁.tick = w.tick + 1 := by rw [← hw₁]; rfl
  have hdb₁ : w₁.db = w.db := by rw [← hw₁]; rfl
  have hview₁ : w₁.view .uow = (w.view .uow).apply (.putControl cs) := by simp [← hw₁]
  have hclock : run (handler env) clock w₁ = (.ok (env.clock (w.tick + 1)), w₁.next) := by
    rw [← htick]
    rfl
  have huuid : run (handler env) uuid4 w₁.next = (.ok (env.uuid (w.tick + 2)), w₁.next.next) := by
    have hnext : w₁.next.tick = w.tick + 2 := by rw [World.next_tick, htick]
    rw [← hnext]
    rfl
  simp only [pauseOnMismatch, bind_eq, run_bind, hset, hclock, huuid, run_ofExcept]
  cases hrec : ControlCommandRecord.create (env.uuid (w.tick + 2)) .pauseEntries
      "automatic pause on reconciliation mismatch" "reconciler" none (env.clock (w.tick + 1))
      (some (env.clock (w.tick + 1))) with
  | error e =>
      refine Or.inr ⟨e, w₁.next.next, rfl, hdb₁, Or.inl ?_⟩
      by_contra hne
      unfold ControlCommandRecord.create at hrec
      rw [dif_pos hne, dif_pos (by decide), dif_pos (by decide),
        dif_pos (by rintro _ ⟨⟩; exact le_refl _)] at hrec
      cases hrec
  | ok record =>
      have hid : record.commandId = env.uuid (w.tick + 2) := by
        unfold ControlCommandRecord.create at hrec
        repeat' split at hrec
        all_goals cases hrec
        rfl
      cases hadd : (w₁.next.next.view .uow).addCommand record with
      | error e =>
          have hrun : run (handler env) (addCommand .uow record) w₁.next.next =
              (.error e, w₁.next.next.next.reject _) := run_statement_error w₁.next.next hadd
          refine Or.inr ⟨e, w₁.next.next.next.reject (.store .uow (.addCommand record)),
            by simp only [hrun], hdb₁, Or.inr ?_⟩
          rw [World.next_view, World.next_view, hview₁] at hadd
          cases hget : (w.view .uow).commands.get (env.uuid (w.tick + 2)) with
          | some c => rfl
          | none =>
              have hget' : ((w.view .uow).apply (.putControl cs)).commands.get record.commandId = none := by
                rw [hid]
                exact hget
              simp only [Db.addCommand, hget'] at hadd
              cases hadd
      | ok p =>
          obtain ⟨a, ws⟩ := p
          have hrun : run (handler env) (addCommand .uow record) w₁.next.next =
              (.ok a, w₁.next.next.next.write .uow ws) := run_statement w₁.next.next hadd
          refine Or.inl ⟨w₁.next.next.next.write .uow ws, by simp only [hrun, pure_eq_ret, run_ret],
            hdb₁, ?_⟩
          rw [World.write_view, World.next_view, World.next_view, World.next_view, hview₁]
          rcases Db.addCommand_writes hadd with rfl | rfl
          · exact ⟨rfl, hcs⟩
          · exact ⟨rfl, hcs⟩

/-- A result is recorded, with the pause when it is a mismatch, or nothing is committed. -/
theorem run_recordResult (env : Env) {w : World} (hw : w.Shows db) (result : ReconciliationResult) :
    (∃ w', run (handler env) (recordResult result) w = (.ok result, w') ∧
      w'.db.runs = db.runs ++ [result] ∧
      (result.status = .mismatch → w'.db.control.entriesPaused = true)) ∨
    (∃ e w', run (handler env) (recordResult result) w = (.error e, w') ∧ w'.db = db ∧
      ((∃ x, db.addRun (env.clock w.tick) result = .error x) ∨
        (env.uuid (w.tick + 3)).int = 0 ∨ (db.commands.get (env.uuid (w.tick + 3))).isSome)) := by
  have hview : w.view .uow = db := hw.view_eq .uow
  cases hadd : db.addRun (env.clock w.tick) result with
  | error x =>
      have hrun : run (handler env) (addRun result) w = (.error x, w.next.reject _) :=
        run_statement_error w (by rw [hview]; exact hadd)
      refine Or.inr ⟨x, w.next.reject (.store .uow (.addRun result)), ?_, hw.1, Or.inl ⟨x, rfl⟩⟩
      simp only [recordResult, bind_eq, run_bind, hrun]
  | ok p =>
      obtain ⟨now, ws⟩ := p
      obtain rfl : ws = [.addRun result] := by
        unfold Db.addRun at hadd
        repeat' split at hadd
        all_goals cases hadd
        rfl
      have hrun : run (handler env) (addRun result) w = (.ok now, w.next.write .uow [.addRun result]) :=
        run_statement w (by rw [hview]; exact hadd)
      generalize hw₁ : w.next.write .uow [.addRun result] = w₁ at hrun
      have hdb₁ : w₁.db = db := by rw [← hw₁]; exact hw.1
      have htick₁ : w₁.tick = w.tick + 1 := by rw [← hw₁]; rfl
      have hview₁ : w₁.view .uow = db.apply (.addRun result) := by simp [← hw₁, hview]
      cases hst : result.status with
      | clean =>
          refine Or.inl ⟨w₁.next.commit .uow, ?_, ?_, by rintro ⟨⟩⟩
          · simp only [recordResult, bind_eq, run_bind, hrun, hst, reduceCtorEq, if_false, pure_eq_ret,
              run_ret, run_commit]
          · show (w₁.view .uow).runs = _
            rw [hview₁]
            rfl
      | mismatch =>
          rcases run_pauseOnMismatch env w₁ with
            ⟨w₂, hpause, hdb₂, hruns, hpaused⟩ | ⟨e, w₂, hpause, hdb₂, hid⟩
          · refine Or.inl ⟨w₂.next.commit .uow, ?_, ?_, fun _ => hpaused⟩
            · simp only [recordResult, bind_eq, run_bind, hrun, hst, if_true, hpause, pure_eq_ret,
                run_ret, run_commit]
            · show (w₂.view .uow).runs = _
              rw [hruns, hview₁]
              rfl
          · refine Or.inr ⟨e, w₂, ?_, hdb₂.trans hdb₁, Or.inr ?_⟩
            · simp only [recordResult, bind_eq, run_bind, hrun, hst, if_true, hpause]
            · rw [htick₁, hview₁] at hid
              exact hid

/-- A run that returns has recorded its result. -/
theorem reconcile_records {cfg : ReconcilerConfig} {d : TradingDate} {w w' : World}
    {result : ReconciliationResult} (hw : w.Shows db)
    (h : run (handler env) (reconcile cfg d) w = (.ok result, w')) : w'.db.runs = db.runs ++ [result] := by
  have hshows := run_collectOrFail_shows env cfg d hw
  simp only [reconcile, bind_eq, run_bind] at h
  rcases hc : run (handler env) (collectOrFail cfg d) w with ⟨r, w₁⟩
  rw [hc] at h hshows
  have hshows : w₁.Shows db := hshows
  cases r with
  | error e => cases h
  | ok r =>
      simp only [] at h
      rcases run_recordResult env hshows r with ⟨w₂, hrun, hruns, -⟩ | ⟨e, w₂, hrun, -⟩
      · rw [hrun] at h
        cases h
        exact hruns
      · rw [hrun] at h
        cases h

end Record

end SevenLens
