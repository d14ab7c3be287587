import SevenLens.EngineRuns

/-! # Runs of the other services

The trade-update consumer, the reconciler and the control plane under the law of `Serial`.
None of them records a mirror outside the engine, so most of their calls are lawful in any
state in which no mirror is half absorbed (`Free`); what remains are the moves of intents the
consumer makes along with its mirrors and the operations of the engine that a flatten runs. -/

namespace SevenLens

namespace Serial

open Calls Prog

section Services

variable {op : Operation} {adm : Tx → (b : BrokerCall) → Except PyError b.Ans → Prop}

/-! ### Calls that move no intent -/

/-- Calls that neither add nor move an intent, record no mirror and submit nothing. -/
def Unmoving (op : Operation) : Call → Prop
  | .store .uow (.addIntent _) | .store .uow (.transitionStatus _ _) | .store .uow (.recordBrokerOrder _)
  | .store .uow (.setEntriesPaused false _) => False
  | .store .uow (.updateBrokerOrderStatus _ _ _ _) | .store .uow (.addFill _) => ∃ u, op = .consume u
  | .store .uow .bumpFlattenGeneration => op.isFlatten = true
  | .store .ctl c => c.isQuiet = true
  | .broker (.submitOrder _) => False
  | _ => True

theorem stated_free {s : Tx} (hs : s.absorbed = none) {h : Handle} {c : StoreCall} (hc : Unmoving op (.store h c))
    (r : Except PyError c.Ans) (w : World) : (s.stated h c r w).absorbed = none := by
  cases r with
  | error e => exact hs
  | ok a => cases h <;> cases c <;> first | exact hs | exact hc.elim

/-- They keep the transaction free of mirrors. -/
theorem free_step {s s' : Tx} {c : Call} {r : Except PyError c.Ans} (hs : Free s) (hc : Unmoving op c)
    (h : (serial op adm).Step s c r s') : Free s' := by
  obtain ⟨env, -, -, rfl, rfl⟩ := h
  have hpass : Free s.pass := hs.like (Like.pass s)
  cases c with
  | store h c =>
      simp only [transact]
      split
      · exact hpass
      · simp only [handler, World.statement]
        split
        · rename_i a ws hx
          refine ⟨stated_free hs.free hc _ _, ?_⟩
          rw [stated_eq]
          refine quietRows_set hs.ctl fun e => ?_
          subst e
          exact hs.ctl.append (Db.exec_quiet hc hx)
        · exact ⟨hs.free, hs.ctl⟩
  | commit h =>
      cases h with
      | uow =>
          refine Free.of_still (calm_ended hs.ctl ?_).toStill
          split <;> rfl
      | ctl =>
          refine ⟨hs.free, ?_⟩
          simp only [transact, Tx.ended]
          split <;> exact quietRows_set hs.ctl fun _ => QuietRows.nil
  | rollback h =>
      cases h with
      | uow => exact Free.of_still (calm_ended hs.ctl rfl).toStill
      | ctl => exact ⟨hs.free, quietRows_set hs.ctl fun _ => QuietRows.nil⟩
  | persistSafetyPause reason =>
      simp only [transact, handler, World.safetyPause]
      split <;> exact ⟨hs.free, hs.ctl⟩
  | beginReconciliationSnapshot =>
      simp only [transact]
      split
      · exact ⟨rfl, hs.ctl⟩
      · exact hpass
  | lockControl h =>
      simp only [transact]
      split <;> exact hpass
  | broker b =>
      obtain ⟨hw, -, hb⟩ := told_like s b (env.broker s.world.tick b)
      refine ⟨hb.trans hs.free, ?_⟩
      simp only [transact, hw]
      exact hs.ctl
  | clock => exact hpass
  | currentPrice x => exact hpass
  | uuid4 => exact hpass

theorem lawful_unmoving {s : Tx} {c : Call} (hs : Free s) (hc : Unmoving op c) : Lawful op s c := by
  cases c with
  | store h c =>
      cases h with
      | ctl => exact hc
      | uow =>
          refine Or.inr ?_
          cases c with
          | setEntriesPaused p reason =>
              cases p with
              | false => exact hc.elim
              | true => trivial
          | addIntent _ | transitionStatus _ _ | recordBrokerOrder _ => exact hc.elim
          | updateBrokerOrderStatus _ _ _ _ => exact hc
          | bumpFlattenGeneration => exact hc
          | addFill _ => exact Or.inl hc
          | _ => trivial
  | commit h =>
      cases h with
      | uow => exact hs.steady.safe
      | ctl => trivial
  | broker b =>
      cases b with
      | submitOrder i => exact hc.elim
      | _ => trivial
  | _ => trivial

/-- A program of such calls, whatever it raises. -/
def Plain (op : Operation) {α : Type} (p : Proc α) : Prop := Within (Unmoving op) (fun _ => True) p

theorem wp_plain {α : Type} {p : Proc α} (hp : Plain op p) {s : Tx} (hs : Free s) :
    wp (serial op adm) p (fun _ s' => Free s') s :=
  wp_mono (fun _ _ h => h.1) (wp_within (fun _ _ _ _ hs hc h => ⟨free_step hs hc h, fun _ _ => trivial⟩)
    (fun _ _ hs hc => lawful_unmoving hs hc) hp hs)

theorem plain_ask {c : Call} (h : Unmoving op c) : Plain op (ask c) := within_perform h

theorem plain_fail {α : Type} (k : ErrorKind) (m : String) : Plain op (fail k m : Proc α) := trivial

theorem plain_ret {α : Type} (a : α) : Plain op (ret a : Proc α) := trivial

theorem plain_raise {α : Type} (e : PyError) : Plain op (raise e : Proc α) := trivial

theorem plain_ofExcept {α : Type} (r : Except PyError α) : Plain op (Prog.ofExcept r : Proc α) :=
  within_ofExcept fun _ _ => trivial

theorem plain_bind {α β : Type} {p : Proc α} {f : α → Proc β} (hp : Plain op p) (hf : ∀ a, Plain op (f a)) :
    Plain op (p.bind f) := within_bind hp hf

theorem plain_commit {α : Type} (a : α) : Plain op (commit.bind fun _ => ret a) :=
  plain_bind (plain_ask (c := .commit .uow) trivial) fun _ => trivial

theorem plain_record (command : ControlCommand) (reason actor : String) (applied : Bool) :
    Plain op (record command reason actor applied) := by
  unfold record
  refine plain_bind (plain_ask (c := .clock) trivial) fun now => ?_
  refine plain_bind (plain_ask (c := .uuid4) trivial) fun id => ?_
  refine plain_bind (plain_ofExcept _) fun r => ?_
  exact plain_bind (plain_ask (c := .store .uow (.addCommand r)) trivial) fun _ => trivial

/-! ### The reconciler -/

theorem unmoving_of_passive {c : Call} (h : IsPassive c) : Unmoving op c := by
  rcases h with h | rfl | rfl
  · cases c with
    | store k c =>
        obtain ⟨rfl, hc⟩ := h
        cases c <;> trivial
    | broker b => cases b <;> trivial
    | _ => trivial
  · trivial
  · trivial

theorem passive_collectOrFail (cfg : ReconcilerConfig) (d : TradingDate) :
    Within IsPassive (fun _ => True) (collectOrFail cfg d) := by
  unfold collectOrFail collect
  have hcollect : Within IsPassive (fun _ => True) (collectFindings cfg d) :=
    Within.mono (fun _ h => Or.inl h) (observes_collectFindings cfg d)
  refine within_tryCatch (within_bind hcollect fun f => passive_createResult d f _) fun e _ => ?_
  refine within_ite (fun _ => ?_) fun _ => within_ite (fun _ => ?_) fun _ => trivial
  · exact passive_failedResult d .brokerQueryFailure _
  · generalize ledgerDetail e.message = detail
    exact passive_failedResult d .localLedgerInvariant detail

theorem plain_pauseOnMismatch : Plain op pauseOnMismatch := by
  unfold pauseOnMismatch
  refine plain_bind (plain_ask (c := .store .uow (.setEntriesPaused true _)) trivial) fun _ => ?_
  refine plain_bind (plain_ask (c := .clock) trivial) fun now => ?_
  refine plain_bind (plain_ask (c := .uuid4) trivial) fun id => ?_
  refine plain_bind (plain_ofExcept _) fun r => ?_
  exact plain_bind (plain_ask (c := .store .uow (.addCommand r)) trivial) fun _ => trivial

theorem plain_reconcile (cfg : ReconcilerConfig) (d : TradingDate) : Plain op (reconcile cfg d) := by
  unfold reconcile
  refine plain_bind (Within.mono (fun _ h => unmoving_of_passive h) (passive_collectOrFail cfg d)) fun result => ?_
  unfold recordResult
  refine plain_bind (plain_ask (c := .store .uow (.addRun result)) trivial) fun _ => ?_
  have hcommit : ∀ _ : Unit, Plain op (commit.bind fun _ => ret result) :=
    fun _ => plain_commit result
  exact within_ite (fun _ => plain_bind plain_pauseOnMismatch hcommit) fun _ => hcommit ()

/-- A statement that records no mirror. -/
theorem free_statement {s : Tx} (hs : Free s) {c : StoreCall} (hc : ∀ o, c ≠ .recordBrokerOrder o) (env : Env) :
    Free (transact env (.store .uow c) s).2 := by
  simp only [transact]
  split
  · exact hs.like (Like.pass s)
  · simp only [handler, World.statement]
    split
    · refine ⟨?_, ?_⟩
      · cases c <;> first | exact hs.free | exact absurd rfl (hc _)
      · rw [stated_eq]
        exact quietRows_set hs.ctl fun e => by cases e
    · exact ⟨hs.free, hs.ctl⟩

/-- Two programs in a row that leave the transaction free. -/
theorem wp_free_bind {α β : Type} {p : Proc α} {f : α → Proc β} {s : Tx}
    (hp : wp (serial op adm) p (fun _ s' => Free s') s)
    (hf : ∀ a s', Free s' → wp (serial op adm) (f a) (fun _ s'' => Free s'') s') :
    wp (serial op adm) (p.bind f) (fun _ s' => Free s') s := by
  rw [wp_bind]
  refine wp_mono (fun r s' h => ?_) hp
  cases r with
  | error e => exact h
  | ok a => exact hf a s' h

theorem wp_free_tryCatch {α : Type} {p : Proc α} {f : PyError → Proc α} {s : Tx}
    (hp : wp (serial op adm) p (fun _ s' => Free s') s)
    (hf : ∀ e s', Free s' → wp (serial op adm) (f e) (fun _ s'' => Free s'') s') :
    wp (serial op adm) (p.tryCatch f) (fun _ s' => Free s') s := by
  rw [wp_tryCatch]
  refine wp_mono (fun r s' h => ?_) hp
  cases r with
  | error e => exact hf e s' h
  | ok a => exact h

/-! ### Pause and resume -/

theorem plain_pauseEntries (reason actor : String) : Plain op (pauseEntries reason actor) := by
  unfold pauseEntries
  refine plain_bind (plain_ask (c := .store .uow (.setEntriesPaused true _)) trivial) fun _ => ?_
  refine plain_bind (plain_record .pauseEntries reason actor true) fun _ => ?_
  exact plain_commit _

/-- The connections are idle: statements see the durable tables. -/
def Idle (s : Tx) : Prop := s.world.session = .idle

theorem Idle.free {s : Tx} (h : Idle s) (hf : s.absorbed = none) : Free s := by
  refine ⟨hf, ?_⟩
  rw [h]
  exact QuietRows.nil

theorem Idle.view {s : Tx} (h : Idle s) : s.view = s.world.db := by
  unfold Tx.view World.view
  rw [h]
  rfl

/-- A read in a transaction without rows. -/
theorem wp_idle_read {β : Type} {c : StoreCall} {a : c.Ans} {f : c.Ans → Proc β} {s : Tx} (hs : Idle s)
    (hfree : s.absorbed = none) (hlive : s.aborted .uow = false) (hc : c.isRead = true)
    (ha : s.view.read c = .ok a)
    (h : ∀ s', Idle s' → s'.absorbed = none → s'.aborted .uow = false →
      wp (serial op adm) (f a) (fun _ s'' => Free s'') s') :
    wp (serial op adm) ((ask (.store .uow c)).bind f) (fun _ s' => Free s') s :=
  wp_read_bind hlive hc ha (h s.pass hs hfree hlive)

theorem wp_resumeEntries (actor actor' : String) {s : Tx} (hs : Idle s) (hfree : s.absorbed = none)
    (hlive : s.aborted .uow = false) :
    wp (serial (.resume actor') adm) (resumeEntries actor) (fun _ s' => Free s') s := by
  unfold resumeEntries
  simp only [bind_eq, pure_eq_ret]
  rw [wp_bind]
  refine wp_ask (c := .lockControl .uow) trivial fun env _ => ?_
  simp only [transact, hlive, Bool.false_eq_true, if_false]
  show wp _ (Prog.bind (Prog.tryCatch _ _) _) _ s.pass
  have hs₁ : Idle s.pass := hs
  have hfree₁ : s.pass.absorbed = none := hfree
  refine wp_free_bind (wp_free_tryCatch ?_ fun e s' hs' => wp_plain
    (plain_bind (plain_ask (c := .rollback .uow) trivial) fun _ => plain_raise e) hs') fun _ s' hs' =>
      wp_plain (plain_commit _) hs'
  unfold resumeChecked
  simp only [bind_eq, pure_eq_ret]
  refine wp_idle_read (c := .latestRun) hs₁ hfree₁ hlive rfl rfl fun s₂ hs₂ hfree₂ hlive₂ => ?_
  split
  · exact hs₂.free hfree₂
  · refine wp_idle_read (c := .listByStatus .unknown) hs₂ hfree₂ hlive₂ rfl rfl fun s₃ hs₃ hfree₃ hlive₃ => ?_
    split
    · exact hs₃.free hfree₃
    · refine wp_idle_read (c := .listByStatus .reviewRequired) hs₃ hfree₃ hlive₃ rfl rfl
        fun s₄ hs₄ hfree₄ hlive₄ => ?_
      split
      · exact hs₄.free hfree₄
      · refine wp_bind.mpr (wp_ask (c := .store .uow (.setEntriesPaused false none))
          (Or.inr ⟨⟨actor', rfl⟩, hs₄.view⟩) fun env _ => ?_)
        have hs₅ := free_statement (hs₄.free hfree₄) (c := .setEntriesPaused false none) (by simp) env
        cases (transact env (.store .uow (.setEntriesPaused false none)) s₄).1 with
        | error e => exact hs₅
        | ok snapshot => exact wp_plain (plain_bind (plain_record _ _ _ _) fun _ => plain_ret snapshot) hs₅

/-! ### The trade-update consumer -/

/-- A move of an intent in such a transaction. -/
theorem wp_freeMove {k : ClientOrderId} {t : OrderStatus} {i : OrderIntent}
    {Q : Except PyError OrderIntent → Tx → Prop} {s : Tx} (hs : Free s) (hlive : s.aborted .uow = false)
    (hi : s.view.intents.get k = some i) (hlaw : MoveLaw op s i t)
    (hok : Free (s.moved i t) → Q (.ok (i.withStatus t)) (s.moved i t))
    (herr : ∀ e s', Free s' → Q (.error e) s') : wp (serial op adm) (transitionStatus k t) Q s := by
  refine wp_ask (c := .store .uow (.transitionStatus k t)) (Or.inr ⟨i, hi, hlaw⟩) fun env _ => ?_
  have hfree := free_statement hs (c := .transitionStatus k t) (by simp) env
  have hview : s.world.next.view .uow = s.view := rfl
  revert hfree
  simp only [transact, hlive, Bool.false_eq_true, if_false, handler, World.statement, hview, Db.exec]
  cases hx : s.view.transitionStatus k t with
  | ok p =>
      obtain ⟨j, hj, rfl⟩ := Db.transitionStatus_inv hx
      obtain rfl : i = j := Option.some.inj (hi.symm.trans hj)
      exact hok
  | error e => exact herr e _

theorem plain_suppress_rollback : Plain op (suppress rollback) := within_suppress (plain_ask (c := .rollback .uow) trivial)

theorem wp_free_read {β : Type} {c : StoreCall} {a : c.Ans} {f : c.Ans → Proc β} {s : Tx} (hs : Free s)
    (hc : c.isRead = true) (ha : s.view.read c = .ok a)
    (h : s.aborted .uow = false → wp (serial op adm) (f a) (fun _ s' => Free s') s.pass) :
    wp (serial op adm) ((ask (.store .uow c)).bind f) (fun _ s' => Free s') s := by
  cases hab : s.aborted .uow with
  | false => exact wp_read_bind hab hc ha (h hab)
  | true =>
      refine wp_bind.mpr (wp_ask (lawful_read hc) fun env _ => ?_)
      simp only [transact, hab, if_true]
      exact hs.like (Like.pass s)

theorem wp_free_getIntent {β : Type} {k : ClientOrderId} {f : Option OrderIntent → Proc β} {s : Tx} (hs : Free s)
    (h : s.aborted .uow = false → wp (serial op adm) (f (s.view.intents.get k)) (fun _ s' => Free s') s.pass) :
    wp (serial op adm) ((getIntent k).bind f) (fun _ s' => Free s') s :=
  wp_free_read (c := .getIntent k) (a := s.view.intents.get k) hs rfl rfl h

theorem wp_persistConflictMarker (k : ClientOrderId) (conflict : String) {s : Tx} (hs : Free s) :
    wp (serial op adm) (persistConflictMarker k conflict) (fun _ s' => Free s') s := by
  unfold persistConflictMarker
  simp only [bind_eq, pure_eq_ret]
  refine wp_free_getIntent hs fun hlive => ?_
  have hs₁ := hs.like (Like.pass s)
  cases hi : s.view.intents.get k with
  | none => exact hs₁
  | some i =>
      show wp (serial op adm) (if _ then _ else _) _ s.pass
      split
      · exact hs₁
      · refine wp_free_tryCatch ?_ fun e s' hs' => wp_plain (plain_bind plain_suppress_rollback
          fun _ => plain_fail _ _) hs'
        rw [wp_bind]
        refine wp_freeMove hs₁ hlive hi .review (fun hs₂ => ?_) fun e s' hs' => hs'
        exact wp_plain (plain_ask (c := .commit .uow) trivial) hs₂

theorem plain_markerFallback (conflict : String) (e : PyError) : Plain op (markerFallback conflict e) := by
  unfold markerFallback
  refine within_ite (fun _ => ?_) fun _ => trivial
  refine plain_bind (within_tryCatch (plain_ask (c := .persistSafetyPause _) trivial) fun _ _ => plain_fail _ _)
    fun _ => plain_fail _ _

theorem plain_persistPause (conflict : String) : Plain op (persistPause conflict) := by
  unfold persistPause
  refine within_tryCatch (plain_bind (plain_ask (c := .store .uow (.setEntriesPaused true _)) trivial)
    fun _ => plain_ask (c := .commit .uow) trivial) fun _ _ => ?_
  exact plain_bind plain_suppress_rollback fun _ => plain_fail _ _

theorem plain_persistPauseAudit (uuid5 : NameUuid) (k : ClientOrderId) (conflict : String) :
    Plain op (persistPauseAudit uuid5 k conflict) := by
  unfold persistPauseAudit
  refine plain_bind (within_tryCatch ?_ fun _ _ => plain_bind plain_suppress_rollback fun _ => plain_fail _ _)
    fun _ => ?_
  · unfold addPauseAudit
    refine plain_bind (plain_ask (c := .store .uow .controlState) trivial) fun cs => ?_
    refine plain_bind (plain_ofExcept _) fun r => ?_
    exact plain_bind (plain_ask (c := .store .uow (.addCommand r)) trivial) fun _ => trivial
  · refine within_tryCatch (plain_ask (c := .commit .uow) trivial) fun _ _ => ?_
    exact plain_bind plain_suppress_rollback fun _ => plain_fail _ _

theorem wp_persistConflictPause (uuid5 : NameUuid) (k : ClientOrderId) (conflict : String) {s : Tx} (hs : Free s) :
    wp (serial op adm) (persistConflictPause uuid5 k conflict) (fun _ s' => Free s') s := by
  unfold persistConflictPause
  refine wp_free_bind (wp_free_tryCatch (wp_persistConflictMarker k conflict hs)
    fun e s' hs' => wp_plain (plain_markerFallback conflict e) hs') fun _ s' hs' => ?_
  exact wp_plain (plain_bind (plain_persistPause conflict) fun _ => plain_persistPauseAudit uuid5 k conflict) hs'

theorem wp_surfaceConflict (uuid5 : NameUuid) (k : ClientOrderId) (conflict : String) (e : PyError) {s : Tx}
    (hs : Free s) : wp (serial op adm) (surfaceConflict uuid5 k conflict e) (fun _ s' => Free s') s := by
  unfold surfaceConflict
  refine wp_free_bind (wp_plain plain_suppress_rollback hs) fun _ s₁ hs₁ => ?_
  refine wp_free_bind (wp_persistConflictPause uuid5 k conflict hs₁) fun _ s₂ hs₂ => ?_
  split
  · exact hs₂
  · exact hs₂

/-- The consumer has written the mirror of intent `k` with status `t`, and no intent yet. -/
structure Mirrors (u : TradeUpdate) (k : ClientOrderId) (t : BrokerOrderStatus) (s : Tx) : Prop extends Free s where
  live : s.aborted .uow = false
  mirror : ∃ m, s.view.mirrorOf k = some m ∧ m.order.status = t
  intents : s.view.intents = s.origin.intents
  delivers : Delivers s.origin k t u

theorem Mirrors.pass {u : TradeUpdate} {k : ClientOrderId} {t : BrokerOrderStatus} {s : Tx} (h : Mirrors u k t s) :
    Mirrors u k t s.pass := ⟨h.toFree.like (Like.pass s), h.live, h.mirror, h.intents, h.delivers⟩

theorem wp_updateMirror {u : TradeUpdate} (hop : op = .consume u) {o : BrokerOrder} {t : BrokerOrderStatus}
    {n : Nat} {at' : Option UtcTimestamp} {β : Type} {f : BrokerOrder → Proc β} {s : Tx} (hs : Free s)
    (hlive : s.aborted .uow = false) (hrow : s.view.getBrokerOrderById o.brokerOrderId = some o)
    (hintents : s.view.intents = s.origin.intents) (hu : Delivers s.origin o.clientOrderId t u)
    (h : ∀ a s', Mirrors u o.clientOrderId t s' → s'.origin = s.origin →
      wp (serial op adm) (f a) (fun _ s'' => Free s'') s') :
    wp (serial op adm) ((updateBrokerOrderStatus o.brokerOrderId t n at').bind f) (fun _ s' => Free s') s := by
  refine wp_bind.mpr (wp_ask (c := .store .uow (.updateBrokerOrderStatus o.brokerOrderId t n at'))
    (Or.inr ⟨u, hop⟩) fun env _ => ?_)
  have hfree := free_statement hs (c := .updateBrokerOrderStatus o.brokerOrderId t n at') (by simp) env
  have hview : s.world.next.view .uow = s.view := rfl
  revert hfree
  simp only [transact, hlive, Bool.false_eq_true, if_false, handler, World.statement, hview, Db.exec]
  cases hx : s.view.refreshMirror o.brokerOrderId t n at' with
  | error e => exact id
  | ok p =>
      intro hfree
      obtain ⟨r, r', hr, hp, hbase, hst, -, -⟩ := Db.refreshMirror_inv hx
      have hro : r.order = o := by
        simp only [Db.getBrokerOrderById, hr, Option.map_some, Option.some.injEq] at hrow
        exact hrow
      have hview' : (s.world.next.write .uow p.2).view .uow = s.view.apply (.putMirror r') := by
        rw [World.write_view, hview, hp]
        rfl
      have hkey : s.view.mirrors.get r'.brokerOrderId = some r := by
        show s.view.mirrors.get r'.order.brokerOrderId = some r
        rw [hbase.brokerOrderId, hro]
        exact hr
      refine h p.1 _ ⟨hfree, hlive, ⟨r', ?_, hst⟩, ?_, hu⟩ rfl
      · show ((s.world.next.write .uow p.2).view .uow).mirrorOf _ = _
        rw [hview', Db.mirrorOf_apply_putMirror hkey hbase.clientOrderId.symm, if_pos]
        show r'.order.clientOrderId = _
        rw [hbase.clientOrderId, hro]
      · show ((s.world.next.write .uow p.2).view .uow).intents = s.origin.intents
        rw [hview', ← hintents]
        exact Db.apply_putMirror_intents r'

/-- The intent follows its mirror after a fill. -/
theorem wp_transitionAfterFill {u : TradeUpdate} (hop : op = .consume u) {k : ClientOrderId}
    {t : BrokerOrderStatus} {s : Tx} (hs : Mirrors u k t s) :
    wp (serial op adm) (transitionAfterFill k t) (fun _ s' => Free s') s := by
  unfold transitionAfterFill
  simp only [bind_eq, pure_eq_ret]
  refine wp_free_getIntent hs.toFree fun hlive => ?_
  obtain ⟨m, hm, rfl⟩ := hs.mirror
  have hs₁ := hs.pass
  cases hi : s.view.intents.get k with
  | none => exact hs₁.toFree
  | some i =>
      obtain rfl : i.clientOrderId = k := Table.key_of_get hi
      have horigin : s.pass.origin.intents.get i.clientOrderId = some i := by
        rw [← hs₁.intents]
        exact hi
      show wp (serial op adm) (if _ then _ else _) _ s.pass
      split
      · split
        · rw [wp_bind]
          exact wp_freeMove hs₁.toFree hlive hi (.stream hop hs₁.delivers (Or.inl horigin) hm (Or.inl rfl))
            (fun hs₂ => hs₂) fun e s' hs' => hs'
        · exact hs₁.toFree
      · exact hs₁.toFree

theorem statusIntentTarget_canceled {b : BrokerOrderStatus} {t : OrderStatus}
    (h : statusIntentTarget b t = .canceled) (ht : t ≠ .canceled) : b = .canceled := by
  cases b <;> cases t <;> simp_all [statusIntentTarget, intentStatusByBrokerStatus]

/-- The intent follows its mirror after an observation. -/
theorem wp_transitionAfterStatus {u : TradeUpdate} (hop : op = .consume u) {i : OrderIntent}
    {t : BrokerOrderStatus} {s : Tx} (hs : Mirrors u i.clientOrderId t s)
    (hi : s.view.intents.get i.clientOrderId = some i) :
    wp (serial op adm) (transitionAfterStatus i.clientOrderId i.status (statusIntentTarget t i.status))
      (fun _ s' => Free s') s := by
  obtain ⟨m, hm, rfl⟩ := hs.mirror
  unfold transitionAfterStatus
  split
  swap
  · exact hs.toFree
  rename_i hne
  unfold transitionIntent
  simp only [bind_eq, pure_eq_ret]
  split
  · split
    · rename_i hcancel
      have hbroker : m.order.status = .canceled :=
        statusIntentTarget_canceled hcancel.1 fun h => hne (hcancel.1.trans h.symm)
      rw [wp_bind]
      refine wp_freeMove hs.toFree hs.live hi (.stream hop hs.delivers (Or.inr hbroker) hm
        (Or.inr (Or.inr ⟨hbroker, Or.inl rfl⟩))) (fun hs₁ => ?_) fun e s' hs' => hs'
      show wp (serial op adm) ((transitionStatus i.clientOrderId _).bind _) _ _
      rw [wp_bind, hcancel.1]
      have hm₁ : (s.moved i .cancelPending).view.mirrorOf i.clientOrderId = some m := by
        rw [moved_view]
        exact hm
      exact wp_freeMove hs₁ hs.live (moved_intent .cancelPending hi) (.stream hop hs.delivers (Or.inr hbroker) hm₁
        (Or.inr (Or.inr ⟨hbroker, Or.inr rfl⟩))) (fun hs₂ => hs₂) fun e s' hs' => hs'
    · exact hs.toFree
  · rw [wp_bind]
    refine wp_freeMove hs.toFree hs.live hi (.stream hop hs.delivers (Or.inl ?_) hm (Or.inr (Or.inl rfl)))
      (fun hs₁ => hs₁) fun e s' hs' => hs'
    rw [← hs.intents]
    exact hi

/-- The fill is recorded: the mirror and the intent are derived from the tables. -/
theorem wp_deriveFromFill {x : Fill} (hop : op = .consume (.fill x)) {r : MirrorRow} {s : Tx}
    (hs : Free s) (hview : s.view = s.origin.apply (.addFill x)) (hnew : s.origin.fills.get x.executionId = none)
    (hr : s.origin.mirrors.get x.brokerOrderId = some r) :
    wp (serial op adm) (deriveFromFill r.order x) (fun _ s' => Free s') s := by
  have hb : r.order.brokerOrderId = x.brokerOrderId := (Table.key_of_get hr : r.brokerOrderId = _)
  have htotal : fillTotal (s.view.fillsOf r.order.brokerOrderId) =
      fillTotal (s.origin.fillsOf r.brokerOrderId) + x.quantity.value := by
    rw [hview, hb, Db.fillsOf_apply_addFill hnew]
    show _ = fillTotal (s.origin.fillsOf r.order.brokerOrderId) + _
    rw [hb]
    simp [fillTotal]
  unfold deriveFromFill
  simp only [bind_eq, pure_eq_ret]
  refine wp_free_read (c := .listFills r.order.brokerOrderId) (a := s.view.fillsOf r.order.brokerOrderId) hs rfl rfl
    fun hlive => ?_
  have hs₁ := hs.like (Like.pass s)
  show wp (serial op adm) (if r.order.quantity.value < (if fillTotal _ < _ then _ else fillTotal _) then _ else _) _
    s.pass
  rw [htotal]
  have hfilled : (if fillTotal (s.origin.fillsOf r.brokerOrderId) + x.quantity.value < r.order.filledQuantity then
      r.order.filledQuantity else fillTotal (s.origin.fillsOf r.brokerOrderId) + x.quantity.value) =
      filledWith s.origin r x := rfl
  rw [hfilled]
  generalize (if r.order.updatedAt < x.occurredAt then some x.occurredAt else none) = observed
  split
  · exact hs₁
  · rename_i hle
    rw [wp_bind, wp_ofExcept]
    cases ht : fillBrokerTarget r.order (filledWith s.origin r x) with
    | error e => exact hs₁
    | ok t =>
        rw [andThen_ok]
        split
        · exact hs₁
        · have hrow : s.pass.view.getBrokerOrderById r.order.brokerOrderId = some r.order := by
            show (s.view.mirrors.get r.order.brokerOrderId).map MirrorRow.order = _
            rw [hview, hb]
            show (s.origin.mirrors.get x.brokerOrderId).map MirrorRow.order = _
            rw [hr]
            rfl
          have hintents : s.pass.view.intents = s.pass.origin.intents := by
            show s.view.intents = s.origin.intents
            rw [hview]
            rfl
          refine wp_updateMirror hop hs₁ hlive hrow hintents ⟨r, hr, rfl, hnew, Nat.le_of_not_lt hle, ht⟩
            fun _ s₂ hs₂ _ => ?_
          refine wp_free_bind (wp_transitionAfterFill hop hs₂) fun _ s₃ hs₃ => ?_
          exact wp_plain (plain_commit _) hs₃

theorem wp_applyFill (uuid5 : NameUuid) {x : Fill} (hop : op = .consume (.fill x)) {s : Tx}
    (hs : Free s) (hview₀ : s.view = s.origin) :
    wp (serial op adm) (applyFill uuid5 x) (fun _ s' => Free s') s := by
  unfold applyFill
  simp only [bind_eq, pure_eq_ret]
  refine wp_free_read (c := .getBrokerOrderById x.brokerOrderId)
    (a := s.view.getBrokerOrderById x.brokerOrderId) hs rfl rfl fun hlive => ?_
  have hs₁ := hs.like (Like.pass s)
  cases hrow : s.view.getBrokerOrderById x.brokerOrderId with
  | none => exact hs₁
  | some o =>
      show wp (serial op adm) ((addFill x).bind _) _ s.pass
      refine wp_bind.mpr (wp_ask (c := .store .uow (.addFill x)) (Or.inr (Or.inl ⟨_, hop⟩)) fun env _ => ?_)
      have hfree := free_statement hs₁ (c := .addFill x) (by simp) env
      have hview : s.pass.world.next.view .uow = s.view := rfl
      have hlive₁ : s.pass.aborted .uow = false := hlive
      revert hfree
      simp only [transact, hlive₁, Bool.false_eq_true, if_false, handler, World.statement, hview, Db.exec]
      rcases Db.addFill_cases s.view x with ⟨e, hx, -⟩ | hx | hx
      · rw [hx]
        exact id
      · -- The execution is known: a different fill under its id is a conflict.
        rw [hx]
        intro hs₂
        show wp (serial op adm) (if _ then _ else _) _ _
        rw [if_pos rfl]
        refine wp_free_bind (wp_plain (plain_ask (c := .store .uow (.getFillByExecutionId x.executionId)) trivial)
          hs₂) fun existing s₃ hs₃ => ?_
        split
        · refine wp_free_bind (wp_plain plain_suppress_rollback hs₃) fun _ s₄ hs₄ => ?_
          exact wp_free_bind (wp_persistConflictPause uuid5 _ _ hs₄) fun _ s₅ hs₅ => hs₅
        · exact wp_plain (plain_commit _) hs₃
      · have hnew := Db.addFill_new hx
        rw [hx]
        intro hs₂
        show wp (serial op adm) (if _ then _ else _) _ _
        rw [if_neg (by simp), wp_bind]
        refine wp_commit hs₂.steady fun s₃ hs₃ horigin hview₃ => ?_
        have horigin₃ : s₃.origin = s.origin := horigin
        simp only [Db.getBrokerOrderById, Option.map_eq_some_iff] at hrow
        obtain ⟨r, hr, rfl⟩ := hrow
        have hview' : s₃.view = s₃.origin.apply (.addFill x) := by
          rw [(hview₃ hlive).1, horigin₃, ← hview₀]
          show (s.pass.world.next.write .uow [.addFill x]).view .uow = _
          rw [World.write_view]
          rfl
        refine wp_free_tryCatch (wp_deriveFromFill hop (r := r) (Free.of_still hs₃.toStill) hview' ?_ ?_)
          fun e s' hs' => wp_surfaceConflict uuid5 _ _ e hs'
        · rw [horigin₃, ← hview₀]
          exact hnew
        · rw [horigin₃, ← hview₀]
          exact hr

theorem wp_applyStatus (uuid5 : NameUuid) {u : OrderStatusUpdate} (hop : op = .consume (.status u)) {s : Tx}
    (hs : Free s) (hview₀ : s.view = s.origin) :
    wp (serial op adm) (applyStatus uuid5 u) (fun _ s' => Free s') s := by
  unfold applyStatus
  simp only [bind_eq, pure_eq_ret]
  refine wp_free_getIntent hs fun hlive => ?_
  have hs₁ := hs.like (Like.pass s)
  cases hi : s.view.intents.get u.clientOrderId with
  | none => exact hs₁
  | some i =>
      have hk : i.clientOrderId = u.clientOrderId := Table.key_of_get hi
      refine wp_free_read (c := .getBrokerOrder u.clientOrderId) (a := s.view.getBrokerOrder u.clientOrderId)
        hs₁ rfl rfl fun _ => ?_
      have hs₂ := hs₁.like (Like.pass s.pass)
      cases hrow : s.view.getBrokerOrder u.clientOrderId with
      | none => exact hs₂
      | some o =>
          simp only [Db.getBrokerOrder, Option.map_eq_some_iff] at hrow
          obtain ⟨r, hr, rfl⟩ := hrow
          obtain ⟨hget, hc⟩ := Db.get_of_mirrorOf hr
          show wp (serial op adm) (if _ then _ else _) _ s.pass.pass
          split
          · exact hs₂
          · rename_i hid
            split
            · exact hs₂
            · rename_i hfresh
              split
              · exact hs₂
              · rename_i hdiff
                refine wp_free_tryCatch ?_ fun e s' hs' => wp_surfaceConflict uuid5 _ _ e hs'
                unfold deriveFromStatus
                simp only [bind_eq, pure_eq_ret]
                rw [wp_bind, wp_ofExcept]
                cases hcheck : checkStatus r.order u with
                | error e => exact hs₂
                | ok a =>
                    rw [andThen_ok]
                    have hrow' : s.pass.pass.view.getBrokerOrderById r.order.brokerOrderId = some r.order := by
                      show (s.view.mirrors.get r.brokerOrderId).map MirrorRow.order = some r.order
                      rw [hget]
                      rfl
                    have hintents : s.pass.pass.view.intents = s.pass.pass.origin.intents :=
                      congrArg Db.intents hview₀
                    have hc' : r.order.clientOrderId = u.clientOrderId := hc
                    have hu : Delivers s.pass.pass.origin r.order.clientOrderId u.status (.status u) := by
                      refine ⟨hc'.symm, rfl, r, ?_, not_not.mp hid, hfresh, hdiff, hcheck⟩
                      show s.origin.mirrorOf _ = _
                      rw [hc', ← hview₀]
                      exact hr
                    refine wp_updateMirror hop hs₂ hlive hrow' hintents hu fun _ s₃ hs₃ horigin₃ => ?_
                    rw [hc', ← hk] at hs₃
                    have hi₃ : s₃.view.intents.get i.clientOrderId = some i := by
                      rw [hs₃.intents, horigin₃, hk, show s.pass.pass.origin = s.view from hview₀.symm]
                      exact hi
                    rw [← hk]
                    refine wp_free_bind (wp_transitionAfterStatus hop hs₃ hi₃) fun _ s₄ hs₄ => ?_
                    exact wp_plain (plain_commit _) hs₄

/-! ### Sweeps of the control plane -/

theorem quiet_record (command : ControlCommand) (reason actor : String) (applied : Bool) :
    Within (Permits reading) Mild (record command reason actor applied) := by
  unfold record
  refine within_bind (within_ask (c := .clock) trivial) fun now => ?_
  refine within_bind (within_ask (c := .uuid4) trivial) fun id => ?_
  refine within_bind (within_ofExcept fun e he => controlCommandRecord_create_mild he) fun r => ?_
  exact within_bind (within_ask (c := .store .uow (.addCommand r)) (Or.inl rfl)) fun _ => trivial

/-- A failed stage is audited, committed and raised. -/
theorem wp_failStage {α : Type} (command : ControlCommand) (reason actor : String) (completed total : Nat)
    (ids : List String) (e report : PyError) {s : Tx} (hs : Steady s) :
    wp (serial op adm) (failStage command reason actor completed total ids e report : Proc α)
      (fun r s' => (∃ e', r = .error e') ∧ Steady s') s := by
  unfold failStage recordPartialFailure
  simp only [bind_eq]
  rw [wp_bind]
  refine wp_mono (fun r s₁ h₁ => ?_) (wp_quiet (quiet_record command _ actor false) hs)
  cases r with
  | error e' => exact ⟨⟨e', rfl⟩, h₁.1⟩
  | ok _ =>
      rw [andThen_ok, wp_bind]
      exact wp_commit h₁.1 fun s₂ hs₂ _ _ => ⟨⟨report, rfl⟩, hs₂.steady⟩

/-- The end of a stage: it keeps `I`, or it raises and may be committed. -/
def Stage (I : Tx → Prop) {α : Type} (r : Except PyError α) (s : Tx) : Prop :=
  (∃ a, r = .ok a ∧ I s) ∨ ∃ e, r = .error e ∧ Steady s

theorem wp_stage_bind {I : Tx → Prop} {J : Tx → Prop} {α β : Type} {p : Proc α} {f : α → Proc β} {s : Tx}
    (hp : wp (serial op adm) p (Stage I) s) (hf : ∀ a s', I s' → wp (serial op adm) (f a) (Stage J) s') :
    wp (serial op adm) (p.bind f) (Stage J) s := by
  rw [wp_bind]
  refine wp_mono (fun r s' h => ?_) hp
  rcases h with ⟨a, rfl, ha⟩ | ⟨e, rfl, hs'⟩
  · exact hf a s' ha
  · exact Or.inr ⟨e, rfl, hs'⟩

/-- A sweep whose failures are audited. -/
theorem wp_sweep {I : Tx → Prop} {α β : Type} {f : α → Proc β} {onError : List β → PyError → Proc β}
    (hf : ∀ a s, I s → wp (serial op adm) (f a) (Stage I) s)
    (hfail : ∀ done e s, Steady s → wp (serial op adm) (onError done e)
      (fun r s' => (∃ e', r = .error e') ∧ Steady s') s)
    (done : List β) (l : List α) {s : Tx} (hs : I s) :
    wp (serial op adm) (sweep f onError done l) (Stage I) s := by
  induction l generalizing done s with
  | nil => exact Or.inl ⟨done, rfl, hs⟩
  | cons a l ih =>
      simp only [sweep, bind_eq]
      refine wp_stage_bind (I := I) ?_ fun b s' hs' => ih (done ++ [b]) hs'
      rw [wp_tryCatch]
      refine wp_mono (fun r s' h => ?_) (hf a s hs)
      rcases h with ⟨b, rfl, hb⟩ | ⟨e, rfl, hs'⟩
      · exact Or.inl ⟨b, rfl, hb⟩
      · refine wp_mono (fun r s'' h => ?_) (hfail done e s' hs')
        obtain ⟨⟨e', rfl⟩, hs''⟩ := h
        exact Or.inr ⟨e', rfl, hs''⟩

theorem stage_of_finished {α : Type} {r : Except PyError α} {s : Tx} (h : Finished r s) : Stage Still r s := by
  rcases h with h | ⟨hs, e, he, -⟩
  · exact Or.inl h
  · exact Or.inr ⟨e, he, hs⟩

theorem quiet_listByStatuses (l : List OrderStatus) : Within (Permits reading) Mild (listByStatuses l) :=
  within_foldlM fun _ t => within_bind (within_ask (c := .store .uow (.listByStatus t)) (Or.inl rfl))
    fun _ => trivial

theorem wp_listByStatuses (l : List OrderStatus) {s : Tx} (hs : Still s) :
    wp (serial op adm) (listByStatuses l) (Stage Still) s := by
  refine wp_mono (fun r s' h => ?_) (wp_still (quiet_listByStatuses l) hs)
  cases r with
  | ok a => exact Or.inl ⟨a, rfl, h.1⟩
  | error e => exact Or.inr ⟨e, rfl, h.1.steady⟩

/-- The audit of a command and its commit. -/
theorem wp_recordCommit {α : Type} (command : ControlCommand) (reason actor : String) (a : α) {s : Tx}
    (hs : Steady s) : wp (serial op adm) ((record command reason actor true).bind fun _ =>
      commit.bind fun _ => ret a) (fun _ s' => Steady s') s := by
  rw [wp_bind]
  refine wp_mono (fun r s₁ h₁ => ?_) (wp_quiet (quiet_record command reason actor true) hs)
  cases r with
  | error e => exact h₁.1
  | ok _ =>
      rw [andThen_ok, wp_bind]
      exact wp_commit h₁.1 fun s₂ hs₂ _ _ => hs₂.steady

theorem steady_of_stage {I : Tx → Prop} (hI : ∀ s, I s → Steady s) {α : Type} {r : Except PyError α} {s : Tx}
    (h : Stage I r s) : Steady s := by
  rcases h with ⟨a, -, ha⟩ | ⟨e, -, hs⟩
  · exact hI s ha
  · exact hs

/-- A stage and what follows it, to the end of the operation. -/
theorem wp_stage_end {I : Tx → Prop} {α β : Type} {p : Proc α} {f : α → Proc β} {s : Tx}
    (hp : wp (serial op adm) p (Stage I) s)
    (hf : ∀ a s', I s' → wp (serial op adm) (f a) (fun _ s'' => Steady s'') s') :
    wp (serial op adm) (p.bind f) (fun _ s' => Steady s') s := by
  rw [wp_bind]
  refine wp_mono (fun r s' h => ?_) hp
  rcases h with ⟨a, rfl, ha⟩ | ⟨e, rfl, hs'⟩
  · exact hf a s' ha
  · exact hs'

section Engine

variable (cfg : EngineConfig) (uuid5 : NameUuid)

theorem wp_cancelOpenOrders (reason actor : String) {s : Tx} (hs : Still s) :
    wp (serial op adm) (cancelOpenOrders cfg uuid5 reason actor) (fun _ s' => Steady s') s := by
  unfold cancelOpenOrders
  simp only [bind_eq, pure_eq_ret]
  refine wp_stage_end (wp_listByStatuses liveStatuses hs) fun candidates s₁ hs₁ => ?_
  refine wp_stage_end (wp_sweep (fun i s hs => ?_) (fun done e s hs => wp_failStage _ _ _ _ _ _ e _ hs) [] candidates
    hs₁) fun canceled s₂ hs₂ => wp_recordCommit _ _ _ canceled hs₂.steady
  exact wp_mono (fun _ _ h => stage_of_finished h) (wp_requestCancel cfg uuid5 i.clientOrderId hs.steady)

/-! ### Flatten -/

/-- A flatten may reserve and submit any intent. -/
theorem flatten_allows (h : op.isFlatten = true) (db : Db) (i : OrderIntent) : op.Reserves db i ∧ op.Submits db i := by
  cases op with
  | flatten _ _ _ _ _ _ => exact ⟨trivial, trivial⟩
  | _ => cases h

theorem flatten_not_engine (h : op.isFlatten = true) : op.isEngine = false := by
  cases op with
  | flatten _ _ _ _ _ _ => rfl
  | _ => cases h

theorem wp_flattenSettle (hop : op.config = some cfg) (hflatten : op.isFlatten = true) (reason actor : String)
    {s : Tx} (hs : Still s) :
    wp (serial op adm) (flattenSettle cfg uuid5 reason actor) (Stage Still) s := by
  unfold flattenSettle
  simp only [bind_eq, pure_eq_ret]
  refine wp_stage_bind (wp_listByStatuses _ hs) fun ambiguous s₁ hs₁ => ?_
  refine wp_stage_bind (wp_sweep (fun i s hs => ?_) (fun done e s hs => wp_failStage _ _ _ _ _ _ e _ hs) [] ambiguous
    hs₁) fun _ s₂ hs₂ => ?_
  · exact wp_mono (fun _ _ h => stage_of_finished h) (wp_resolve cfg uuid5 hop (fun db j => (flatten_allows hflatten db j).2)
      i.clientOrderId hs)
  refine wp_stage_bind (wp_listByStatuses _ hs₂) fun live s₃ hs₃ => ?_
  refine wp_stage_bind (wp_sweep (fun i s hs => ?_) (fun done e s hs => wp_failStage _ _ _ _ _ _ e _ hs) [] live
    hs₃) fun _ s₄ hs₄ => ?_
  · exact wp_mono (fun _ _ h => stage_of_finished h) (wp_requestCancel cfg uuid5 i.clientOrderId hs.steady)
  refine wp_stage_bind (wp_listByStatuses _ hs₄) fun pending s₅ hs₅ => ?_
  refine wp_stage_bind (wp_sweep (fun i s hs => ?_) (fun done e s hs => wp_failStage _ _ _ _ _ _ e _ hs) [] pending
    hs₅) fun _ s₆ hs₆ => ?_
  · refine wp_mono (fun r s' h => ?_) (wp_applyFills cfg uuid5 i.clientOrderId hs.steady)
    rcases h with ⟨a, ha, hlike | hs'⟩ | ⟨hs', e, he, -⟩
    · exact Or.inl ⟨a, ha, hlike.still hs⟩
    · exact Or.inl ⟨a, ha, hs'⟩
    · exact Or.inr ⟨e, he, hs'⟩
  refine wp_stage_bind (wp_listByStatuses _ hs₆) fun unresolved s₇ hs₇ => ?_
  split
  · refine wp_mono (fun r s' h => ?_) (wp_failStage _ _ _ _ _ _ _ _ hs₇.steady)
    obtain ⟨⟨e, he⟩, hs'⟩ := h
    exact Or.inr ⟨e, he, hs'⟩
  · exact Or.inl ⟨(), rfl, hs₇⟩

/-- A plain stage of a flatten, with its failures audited. -/
theorem wp_plainStage {α : Type} {p : Proc α} (hp : Plain op p) {onError : PyError → Proc α}
    (hfail : ∀ e s, Steady s → wp (serial op adm) (onError e) (fun r s' => (∃ e', r = .error e') ∧ Steady s') s)
    {s : Tx} (hs : Free s) : wp (serial op adm) (p.tryCatch onError) (Stage Free) s := by
  rw [wp_tryCatch]
  refine wp_mono (fun r s' h => ?_) (wp_plain hp hs)
  cases r with
  | ok a => exact Or.inl ⟨a, rfl, h⟩
  | error e =>
      refine wp_mono (fun r s'' h => ?_) (hfail e s' h.steady)
      obtain ⟨⟨e', rfl⟩, hs''⟩ := h
      exact Or.inr ⟨e', rfl, hs''⟩

theorem plain_foldlM {α β : Type} {f : β → α → Proc β} {l : List α} {b : β} (hf : ∀ b a, Plain op (f b a)) :
    Plain op (l.foldlM f b) := within_foldlM hf

theorem plain_flattenProjection : Plain op flattenProjection := by
  unfold flattenProjection
  refine plain_bind (plain_ask (c := .store .uow .listAllBrokerOrders) trivial) fun _ => ?_
  exact plain_bind (plain_ask (c := .store .uow .listAllFills) trivial) fun _ => plain_ofExcept _

theorem plain_ledgerPrice (x : Symbol) : Plain op (ledgerPrice x) := by
  unfold ledgerPrice
  refine plain_bind (plain_ask (c := .store .uow .listAllBrokerOrders) trivial) fun _ => ?_
  refine plain_bind (plain_ask (c := .store .uow .listAllFills) trivial) fun _ => ?_
  refine plain_bind (plain_ofExcept _) fun l => ?_
  cases latestFill l <;> trivial

theorem plain_flattenPlan (hop : op.isFlatten = true) (priceProvider : Bool) (projection : LedgerProjection) :
    Plain op (flattenPlan priceProvider projection) := by
  unfold flattenPlan
  refine plain_bind ?_ fun _ => plain_bind ?_ fun _ => ?_
  · unfold assertPositionsAgree
    exact plain_bind (plain_ask (c := .broker .listPositions) trivial) fun _ =>
      within_ite (fun _ => within_pure ()) fun _ => plain_fail _ _
  · exact plain_foldlM fun _ p => plain_bind (plain_ask (c := .broker (.getAsset p.1)) trivial) fun _ =>
      within_ite (fun _ => within_pure ()) fun _ => plain_fail _ _
  · refine plain_bind (plain_ask (c := .clock) trivial) fun now => ?_
    generalize UtcTimestamp.shift now _ = shifted
    refine plain_bind (plain_ofExcept shifted) fun cancelAt => ?_
    refine plain_bind (plain_foldlM fun l p => plain_bind ?_ fun _ => trivial) fun _ => ?_
    · unfold flattenPrice
      exact within_ite (fun _ => plain_ask (c := .currentPrice p.1) trivial) fun _ => plain_ledgerPrice p.1
    · exact plain_bind (plain_ask (c := .store .uow .bumpFlattenGeneration) hop) fun _ => trivial

theorem plain_newRunId : Plain op newRunId := by
  unfold newRunId
  refine plain_bind (plain_ask (c := .uuid4) trivial) fun u => ?_
  by_cases h : u.int ≠ 0
  · rw [dif_pos h]
    trivial
  · rw [dif_neg h]
    trivial

/-- An exit is created in its first status. -/
theorem wp_flattenExit (d : TradingDate) (plan : FlattenPlan) (p : Symbol × Nat × PriceCollar) {s : Tx}
    (hs : Free s) : wp (serial op adm) (flattenExit d plan p)
      (fun r s' => Free s' ∧ ∀ i, r = .ok i → i.status = .created) s := by
  unfold flattenExit
  simp only [bind_eq]
  rw [wp_bind, wp_ofExcept]
  cases orderQuantity p.2.1 with
  | error e => exact ⟨hs, by rintro _ ⟨⟩⟩
  | ok quantity =>
      rw [andThen_ok, wp_bind]
      refine wp_mono (fun r s₁ hs₁ => ?_) (wp_plain plain_newRunId hs)
      cases r with
      | error e => exact ⟨hs₁, by rintro _ ⟨⟩⟩
      | ok runId =>
          rw [andThen_ok, wp_bind]
          refine wp_mono (fun r s₂ hs₂ => ?_) (wp_plain (plain_ask (c := .uuid4) trivial) hs₁)
          cases r with
          | error e => exact ⟨hs₂, by rintro _ ⟨⟩⟩
          | ok id =>
              show wp (serial op adm) (Prog.ofExcept _) _ s₂
              rw [wp_ofExcept]
              exact ⟨hs₂, fun i hi => OrderIntent.create_status hi⟩

/-- An intent is added, or was there before under the same id. -/
theorem wp_addIntent {β : Type} (hop : op.isEngine = false) {i : OrderIntent} (hst : i.status = .created)
    {f : OrderIntent → Proc β} {I : Tx → Prop} {s : Tx} (hs : Free s)
    (h : ∀ a s' j, Free s' → s'.aborted .uow = false → s'.view.intents.get i.clientOrderId = some j →
      wp (serial op adm) (f a) (Stage I) s') :
    wp (serial op adm) ((addIntent i).bind f) (Stage I) s := by
  have hlaw : StatementLaw op s (.addIntent i) := by
    refine ⟨?_, ?_, Or.inr hst, hop⟩ <;> rw [hst] <;> decide
  refine wp_bind.mpr (wp_ask (c := .store .uow (.addIntent i)) (Or.inr hlaw) fun env _ => ?_)
  have hfree := free_statement hs (c := .addIntent i) (by simp) env
  cases hab : s.aborted .uow with
  | true =>
      simp only [transact, hab, if_true] at hfree ⊢
      exact Or.inr ⟨_, rfl, hfree.steady⟩
  | false =>
      have hview : s.world.next.view .uow = s.view := rfl
      revert hfree
      simp only [transact, hab, Bool.false_eq_true, if_false, handler, World.statement, hview, Db.exec]
      cases hx : s.view.addIntent (env.clock s.world.tick) i with
      | error e => exact fun hfree => Or.inr ⟨e, rfl, hfree.steady⟩
      | ok p =>
          intro hfree
          obtain ⟨j, hj⟩ := Db.addIntent_present hx
          refine h p.1 _ j hfree hab ?_
          show ((s.world.next.write .uow p.2).view .uow).intents.get _ = _
          rw [World.write_view]
          exact hj

/-- A move of an exit towards the outbox. -/
theorem wp_exitMove {β : Type} {k : ClientOrderId} {t : OrderStatus} (ht : t = .riskApproved ∨ t = .outboxPending)
    {j : OrderIntent} {f : OrderIntent → Proc β} {I : Tx → Prop} {s : Tx} (hs : Free s)
    (hlive : s.aborted .uow = false) (hj : s.view.intents.get k = some j)
    (h : ∀ a s', Free s' → s'.aborted .uow = false → s'.view.intents.get k = some (j.withStatus t) →
      wp (serial op adm) (f a) (Stage I) s') :
    wp (serial op adm) ((transitionStatus k t).bind f) (Stage I) s := by
  rw [wp_bind]
  have hlaw : MoveLaw op s j t := by
    rcases ht with rfl | rfl
    · exact .approve
    · exact .enqueue
  refine wp_freeMove hs hlive hj hlaw (fun hs₁ => ?_) fun e s' hs' => Or.inr ⟨e, rfl, hs'.steady⟩
  exact h _ _ hs₁ hlive (moved_intent t hj)

theorem wp_submitExit (hop : op.config = some cfg) (hflatten : op.isFlatten = true) (d : TradingDate)
    (plan : FlattenPlan) (p : Symbol × Nat × PriceCollar) {s : Tx} (hs : Free s) :
    wp (serial op adm) (submitExit cfg uuid5 d plan p) (Stage Free) s := by
  unfold submitExit
  simp only [bind_eq, pure_eq_ret]
  rw [wp_bind]
  refine wp_mono (fun r s₁ h₁ => ?_) (wp_flattenExit d plan p hs)
  cases r with
  | error e => exact Or.inr ⟨e, rfl, h₁.1.steady⟩
  | ok i =>
      refine wp_addIntent (flatten_not_engine hflatten) (h₁.2 i rfl) h₁.1 fun _ s₂ j hs₂ hlive hj => ?_
      refine wp_exitMove (Or.inl rfl) hs₂ hlive hj fun _ s₃ hs₃ hlive₃ hj₃ => ?_
      refine wp_exitMove (Or.inr rfl) hs₃ hlive₃ hj₃ fun _ s₄ hs₄ _ _ => ?_
      refine wp_stage_bind (I := Free) (wp_submitFromOutbox cfg uuid5 hop i.clientOrderId hs₄ fun j _ _ =>
        ⟨(flatten_allows hflatten _ j).1, (flatten_allows hflatten _ _).2⟩) fun result s₅ hs₅ => ?_
      split
      · exact Or.inl ⟨result, rfl, hs₅⟩
      · exact Or.inr ⟨_, rfl, hs₅.steady⟩

theorem wp_flattenPaper (hop : op.config = some cfg) (hflatten : op.isFlatten = true) (priceProvider : Bool)
    (d : TradingDate) (reason actor confirmation : String) {s : Tx} (hs : Still s) :
    wp (serial op adm) (flattenPaper cfg uuid5 priceProvider d reason actor confirmation)
      (fun _ s' => Steady s') s := by
  have hfail : ∀ {α : Type} (total : Nat) (e : PyError) (s : Tx), Steady s → wp (serial op adm)
      (failStage .flattenPaper reason actor 0 total [] e (preflightError e) : Proc α)
      (fun r s' => (∃ e', r = .error e') ∧ Steady s') s :=
    fun total e s hs => wp_failStage _ _ _ _ _ _ e _ hs
  unfold flattenPaper
  simp only [bind_eq, pure_eq_ret]
  split
  · exact hs.steady
  · have hstate : wp (serial op adm) (controlState .uow) (Stage Still) s := by
      refine wp_mono (fun r s' h => ?_) (wp_still (within_ask (c := .store .uow .controlState) (Or.inl rfl)) hs)
      cases r with
      | ok a => exact Or.inl ⟨a, rfl, h.1⟩
      | error e => exact Or.inr ⟨e, rfl, h.1.steady⟩
    refine wp_stage_end hstate fun state s₁ hs₁ => ?_
    split
    · exact hs₁.steady
    · refine wp_stage_end (wp_flattenSettle cfg uuid5 hop hflatten reason actor hs₁) fun _ s₂ hs₂ => ?_
      refine wp_stage_end (wp_plainStage plain_flattenProjection (hfail 0) (Free.of_still hs₂))
        fun projection s₃ hs₃ => ?_
      refine wp_stage_end (wp_plainStage (plain_flattenPlan hflatten priceProvider projection) (hfail _) hs₃)
        fun plan s₄ hs₄ => ?_
      refine wp_stage_end (wp_sweep (fun p s hs => wp_submitExit cfg uuid5 hop hflatten d plan p hs)
        (fun done e s hs => wp_failStage _ _ _ _ _ _ e _ hs) [] plan.positions hs₄) fun submitted s₅ hs₅ => ?_
      exact wp_recordCommit _ _ _ submitted hs₅.steady

end Engine

/-! ### All operations -/

/-- An intent is added before it is known to the broker. -/
def IsFresh : Operation → Prop
  | .add i => i.status ≠ .filled ∧ i.status ≠ .canceled
  | _ => True

theorem wp_addOperation {i : OrderIntent} (hst : i.status ≠ .filled ∧ i.status ≠ .canceled) {s : Tx} (hs : Free s)
    (hshown : s.shown = none) (hop : op.isEngine = false) :
    wp (serial op adm) ((addIntent i).bind fun _ => commit) (fun _ s' => Steady s') s := by
  refine wp_bind.mpr (wp_ask (c := .store .uow (.addIntent i)) (Or.inr ⟨hst.1, hst.2, Or.inl hshown, hop⟩)
    fun env _ => ?_)
  have hfree := free_statement hs (c := .addIntent i) (by simp) env
  cases (transact env (.store .uow (.addIntent i)) s).1 with
  | error e => exact hfree.steady
  | ok a => exact wp_commit hfree.steady fun s' hs' _ _ => hs'.steady

theorem still_start (db : Db) : Still (Tx.start db) := ⟨QuietRows.nil, rfl, QuietRows.nil⟩

/-- Every operation is lawful from its start. -/
theorem wp_operation (uuid5 : NameUuid) (op : Operation) (hop : IsFresh op) (db : Db) :
    wp (serial op adm) (op.proc uuid5) (fun _ s => Steady s) (.start db) := by
  have hs := still_start db
  have hfree := Free.of_still hs
  cases op with
  | add i => exact wp_addOperation hop hfree rfl rfl
  | engine cfg o => exact wp_engineOp cfg uuid5 o hs rfl
  | consume u =>
      refine wp_effect (wp_mono (fun _ _ h => Free.steady h) ?_)
      cases u with
      | fill x => exact wp_applyFill uuid5 rfl hfree rfl
      | status u => exact wp_applyStatus uuid5 rfl hfree rfl
  | reconcile cfg d => exact wp_effect (wp_mono (fun _ _ h => h.steady) (wp_plain (plain_reconcile cfg d) hfree))
  | pause reason actor =>
      exact wp_effect (wp_mono (fun _ _ h => h.steady) (wp_plain (plain_pauseEntries reason actor) hfree))
  | resume actor =>
      exact wp_effect (wp_mono (fun _ _ h => Free.steady h) (wp_resumeEntries actor actor rfl rfl rfl))
  | cancelOpen cfg reason actor => exact wp_effect (wp_cancelOpenOrders cfg uuid5 reason actor hs)
  | flatten cfg priceProvider d reason actor confirmation =>
      exact wp_effect (wp_flattenPaper cfg uuid5 rfl rfl priceProvider d reason actor confirmation hs)

end Services

end Serial

end SevenLens
