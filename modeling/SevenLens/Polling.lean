import SevenLens.ConsumerStream
import SevenLens.Engine

/-! # Polling and streaming

`ExecutionEngine.apply_fills` and `TradeUpdateConsumer.apply` absorb the same broker
observation by different code.  For an observation that differs from the mirror they agree:
both write the same mirror and the same intent status, or both refuse.  The exception is a
cancel the broker made on its own: polling refuses it, streaming takes the intent through a
pending cancel.  A repeated observation moves the watermark when polled and not when
streamed. -/

namespace SevenLens

open Calls Prog

variable {env : Env} {cfg : EngineConfig} {uuid5 : NameUuid} {w : World}

/-- The mirror row is the one of the intent. -/
structure MirrorRow.OfIntent (row : MirrorRow) (i : OrderIntent) : Prop where
  clientOrderId : row.order.clientOrderId = i.clientOrderId
  symbol : row.order.symbol = i.symbol
  side : row.order.side = i.side
  quantity : row.order.quantity = i.quantity
  limitPrice : row.order.limitPrice = i.limitPrice

/-- The broker shows the live order of intent `i` as `o`: newer than the mirror row `row`, in a
status the mirror may take, with no fewer executed shares, and with recorded fills only. -/
structure Observes (env : Env) (db : Db) (row : MirrorRow) (i : OrderIntent) (o : BrokerOrder)
    (fills : List Fill) : Prop where
  row_get : db.mirrors.get row.brokerOrderId = some row
  intent_get : db.intents.get i.clientOrderId = some i
  live : i.status = .acknowledged ∨ i.status = .partiallyFilled ∨ i.status = .cancelPending
  mirror : row.OfIntent i
  base : o.SameBase row.order
  newer : row.order.updatedAt < o.updatedAt
  status : o.status = row.order.status ∨ brokerOrderTransitionAllowed row.order.status o.status = true
  filled : row.order.filledQuantity ≤ o.filledQuantity
  order_answer : ∀ n, env.broker n (.getOrder i.clientOrderId) = .ok (some o)
  fills_answer : ∀ n, env.broker n (.listFills o.brokerOrderId) = .ok fills
  recorded : ∀ f ∈ fills, f ∈ db.fillsOf o.brokerOrderId
  fits : ∀ f ∈ fills, f.quantity.value ≤ bigintMax

/-- The update of the trade stream that carries the same observation. -/
def BrokerOrder.report (o : BrokerOrder) : OrderStatusUpdate :=
  ⟨o.clientOrderId, o.brokerOrderId, o.status, o.filledQuantity, o.updatedAt, o.id_ok.1⟩

/-! ### The polling path -/

/-- Only the call counter moved. -/
structure World.Waited (w w' : World) : Prop where
  db : w'.db = w.db
  session : w'.session = w.session

namespace World.Waited

theorem next (w : World) : w.Waited w.next := ⟨rfl, rfl⟩

theorem trans {a b c : World} (h : a.Waited b) (h' : b.Waited c) : a.Waited c :=
  ⟨h'.db.trans h.db, h'.session.trans h.session⟩

theorem view_eq {a b : World} (h : a.Waited b) (k : Handle) : b.view k = a.view k := by
  rw [World.view, h.db, h.session]
  rfl

end World.Waited

theorem run_broker (c : BrokerCall) : run (handler env) (ask (.broker c)) w = (env.broker w.tick c, w.next) :=
  run_ask w (.broker c)

/-- A response of recorded fills of the order passes the check. -/
theorem checkFills_recorded (env : Env) (cfg : EngineConfig) (uuid5 : NameUuid) (i : OrderIntent)
    {o : BrokerOrder} {fills : List Fill} (seen : List Fill)
    (hs : ∀ f ∈ seen, f ∈ (w.view .uow).fills.rows)
    (hf : ∀ f ∈ fills, f ∈ (w.view .uow).fillsOf o.brokerOrderId) :
    ∃ w', run (handler env) (checkFills cfg uuid5 i o fills seen) w = (.ok (), w') ∧ w.Waited w' := by
  induction fills generalizing w seen with
  | nil => exact ⟨w, rfl, rfl, rfl⟩
  | cons f fills ih =>
      obtain ⟨hmem, hb⟩ : f ∈ (w.view .uow).fills.rows ∧ f.brokerOrderId = o.brokerOrderId := by
        simpa [Db.fillsOf] using hf f List.mem_cons_self
      have hrest : ∀ g ∈ fills, g ∈ (w.view .uow).fillsOf o.brokerOrderId :=
        fun g hg => hf g (List.mem_cons_of_mem _ hg)
      have hget : (w.view .uow).fills.get f.executionId = some f := Table.get_of_mem hmem
      rw [checkFills]
      cases hfind : seen.find? (fun g => g.executionId = f.executionId) with
      | some g =>
          have hg : g = f := by
            have hkey : g.executionId = f.executionId := by simpa using List.find?_some hfind
            exact Table.eq_of_mem_of_key (hs g (List.mem_of_find?_eq_some hfind)) hmem hkey
          simp only [hg, ne_eq, not_true, if_false]
          exact ih seen hs hrest
      | none =>
          have hnext : ∀ g ∈ f :: seen, g ∈ (w.next.view .uow).fills.rows := by
            intro g hg
            rcases List.mem_cons.mp hg with rfl | hg
            · exact hmem
            · exact hs g hg
          obtain ⟨w', hrun, hw'⟩ := ih (w := w.next) (f :: seen) hnext hrest
          refine ⟨w', ?_, (World.Waited.next w).trans hw'⟩
          simpa [hb, hget, run_bind] using hrun

/-- Fills that are recorded already are not inserted again. -/
theorem addFills_recorded (env : Env) (cfg : EngineConfig) (uuid5 : NameUuid) (i : OrderIntent)
    {fills : List Fill}
    (hf : ∀ f ∈ fills, f ∈ (w.view .uow).fills.rows) (hfit : ∀ f ∈ fills, f.quantity.value ≤ bigintMax) :
    ∃ w', run (handler env) (addFills cfg uuid5 i fills) w = (.ok (), w') ∧ w.Waited w' := by
  induction fills generalizing w with
  | nil => exact ⟨w, rfl, rfl, rfl⟩
  | cons f fills ih =>
      have hget : (w.view .uow).fills.get f.executionId = some f :=
        Table.get_of_mem (hf f List.mem_cons_self)
      have hadd : run (handler env) (addFill f) w = (.ok false, w.next) := by
        refine run_read w ?_
        show (w.view .uow).addFill f = .ok (false, [])
        simp [Db.addFill, hget, Nat.not_lt.mpr (hfit f List.mem_cons_self)]
      obtain ⟨w', hrun, hw'⟩ := ih (w := w.next.next) (fun g hg => hf g (List.mem_cons_of_mem _ hg))
        (fun g hg => hfit g (List.mem_cons_of_mem _ hg))
      refine ⟨w', ?_, ((World.Waited.next w).trans (World.Waited.next w.next)).trans hw'⟩
      rw [addFills]
      simpa [run_bind, hadd, hget] using hrun

/-- The engine accepts the observation: the mirror guard takes it and the intent has a legal
transition. -/
def Accepts (i : OrderIntent) (o : BrokerOrder) : Prop :=
  (o.status = .filled → o.filledQuantity = o.quantity.value) ∧
    (refreshTarget o.status i.status = i.status ∨
      orderTransitionAllowed i.status (refreshTarget o.status i.status) = true)

namespace Observes

variable {db : Db} {row : MirrorRow} {i : OrderIntent} {o : BrokerOrder} {fills : List Fill}

theorem le_quantity (h : Observes env db row i o fills) : o.filledQuantity ≤ row.order.quantity.value :=
  h.base.quantity ▸ o.filled_le

/-- Recording the observed order refreshes the mirror, or a guard rejects it. -/
theorem recordBrokerOrder_eq (h : Observes env db row i o fills) :
    (∀ hf : o.status = .filled → o.filledQuantity = row.order.quantity.value,
      db.recordBrokerOrder o = .ok ((row.refreshed o.status o.filledQuantity (some o.updatedAt) h.le_quantity hf).order,
        [.putMirror (row.refreshed o.status o.filledQuantity (some o.updatedAt) h.le_quantity hf)])) ∧
    (o.status = .filled ∧ o.filledQuantity ≠ row.order.quantity.value →
      ∃ e, db.recordBrokerOrder o = .error e ∧ e.kind = .database) := by
  have hquantity : o.quantity = row.order.quantity := h.base.quantity
  have hfits : ¬ bigintMax < o.quantity.value := by
    rw [hquantity]
    exact Nat.not_lt.mpr row.fits
  have hrow : db.mirrors.get o.brokerOrderId = some row := by
    rw [h.base.brokerOrderId]
    exact h.row_get
  have hsame : row.order.sameIdentity o = true := by
    simp [BrokerOrder.sameIdentity, h.base.clientOrderId, h.base.symbol, h.base.side, h.base.quantity,
      h.base.limitPrice, h.base.submittedAt]
  constructor
  · intro hf
    have hexact : ¬ (o.status = .filled ∧ o.filledQuantity ≠ o.quantity.value) := by
      rw [hquantity]
      exact fun e => e.2 (hf e.1)
    have hrefresh := MirrorRow.refresh_eq_ok (r := row) (t := some o.updatedAt)
      (by simpa using h.newer.le) h.status h.filled hf h.le_quantity
    simp only [Db.recordBrokerOrder, dif_neg hfits, dif_neg hexact, hrow, hsame, if_true,
      Db.refreshMirror, hrefresh]
    rfl
  · intro hf
    have hexact : o.status = .filled ∧ o.filledQuantity ≠ o.quantity.value := by
      rw [hquantity]
      exact hf
    refine ⟨⟨.database, "a filled mirror must be exactly filled"⟩, ?_, rfl⟩
    simp only [Db.recordBrokerOrder, dif_neg hfits, dif_pos hexact]

theorem mismatchFields_eq (h : Observes env db row i o fills) :
    mismatchFields i o (some row.order) (some row.order) = [] := by
  have hid : row.order.brokerOrderId = o.brokerOrderId := h.base.brokerOrderId.symm
  simp [mismatchFields, h.base.clientOrderId, h.base.symbol, h.base.side, h.base.quantity,
    h.base.limitPrice, h.mirror.clientOrderId, h.mirror.symbol, h.mirror.side, h.mirror.quantity,
    h.mirror.limitPrice, hid]

end Observes

/-- The intent follows the broker order, or the lifecycle has no transition. -/
theorem followBrokerOrder_run {i : OrderIntent} {t : OrderStatus}
    (hi : (w.view .uow).intents.get i.clientOrderId = some i) {r : Except PyError OrderIntent} {w' : World}
    (h : run (handler env) (followBrokerOrder i t) w = (r, w')) :
    w'.db = w.db ∧
    (((t = i.status ∨ orderTransitionAllowed i.status t = true) ∧ (∃ j, r = .ok j) ∧
      (w'.view .uow).mirrors = (w.view .uow).mirrors ∧
      (w'.view .uow).intents = (w.view .uow).intents.put (i.withStatus t)) ∨
    (¬ (t = i.status ∨ orderTransitionAllowed i.status t = true) ∧ ∃ e, r = .error e)) := by
  unfold followBrokerOrder at h
  by_cases hne : t ≠ i.status
  · rw [if_pos hne] at h
    cases ha : orderTransitionAllowed i.status t with
    | true =>
        have hrun : run (handler env) (transitionStatus i.clientOrderId t) w = _ :=
          run_statement w (Db.transitionStatus_eq_ok hi (Or.inr ha))
        rw [ha, if_pos rfl, hrun] at h
        cases h
        exact ⟨rfl, Or.inl ⟨Or.inr rfl, ⟨_, rfl⟩, by simp, by simp⟩⟩
    | false =>
        rw [ha, if_neg Bool.false_ne_true] at h
        cases h
        refine ⟨rfl, Or.inr ⟨?_, _, rfl⟩⟩
        rintro (e | e)
        · exact hne e
        · cases e
  · rw [if_neg hne] at h
    rw [not_not] at hne
    cases h
    refine ⟨rfl, Or.inl ⟨Or.inl hne, ⟨_, rfl⟩, rfl, ?_⟩⟩
    rw [hne, OrderIntent.withStatus_self]
    exact (Table.put_self hi).symm

/-- Absorbing the observed order writes the mirror and the intent, or refuses and commits
nothing. -/
theorem refreshFromBrokerOrder_run (hw : w.Idle) {row : MirrorRow} {i : OrderIntent} {o : BrokerOrder}
    {fills : List Fill} (h : Observes env w.db row i o fills) {r : Except PyError OrderIntent} {w' : World}
    (hrun : run (handler env) (refreshFromBrokerOrder cfg uuid5 i o) w = (r, w')) :
    (∃ hf : o.status = .filled → o.filledQuantity = row.order.quantity.value, Accepts i o ∧ (∃ j, r = .ok j) ∧
      w'.db.mirrors = w.db.mirrors.put
        (row.refreshed o.status o.filledQuantity (some o.updatedAt) h.le_quantity hf) ∧
      w'.db.intents = w.db.intents.put (i.withStatus (refreshTarget o.status i.status))) ∨
    (¬ Accepts i o ∧ (∃ e, r = .error e) ∧ w'.db = w.db) := by
  have hfills : run (handler env) (listBrokerFills o.brokerOrderId) w = (.ok fills, w.next) :=
    (run_broker _).trans (congrArg (·, w.next) (h.fills_answer w.tick))
  have hrecorded : ∀ f ∈ fills, f ∈ (w.next.view .uow).fillsOf o.brokerOrderId := by
    rw [World.next_view, hw.view_eq]
    exact h.recorded
  obtain ⟨w₁, hcheck, hw₁⟩ := checkFills_recorded env cfg uuid5 i [] (by simp) hrecorded
  have hwait : w.Waited w₁ := (World.Waited.next w).trans hw₁
  have hview₁ : w₁.view .uow = w.db := (hwait.view_eq .uow).trans hw.view_eq
  obtain ⟨hok, herr⟩ := h.recordBrokerOrder_eq
  simp only [refreshFromBrokerOrder, bind_eq, run_bind, hfills, hcheck, mirrorBrokerOrder, run_tryCatch] at hrun
  by_cases hf : o.status = .filled → o.filledQuantity = row.order.quantity.value
  · have hrecord : run (handler env) (recordBrokerOrder o) w₁ = _ :=
      run_statement w₁ ((congrArg (fun db => db.recordBrokerOrder o) hview₁).trans (hok hf))
    simp only [hrecord, pure_eq_ret, run_ret] at hrun
    generalize hw₂ : w₁.next.write .uow [.putMirror (row.refreshed o.status o.filledQuantity
      (some o.updatedAt) h.le_quantity hf)] = w₂ at hrun
    have hmirrors₂ : (w₂.view .uow).mirrors = w.db.mirrors.put (row.refreshed o.status o.filledQuantity
        (some o.updatedAt) h.le_quantity hf) := by
      have hrow₁ : (w₁.view .uow).mirrors.get row.brokerOrderId = some row := by
        rw [hview₁]
        exact h.row_get
      have hput := view_putMirror (row.refreshed o.status o.filledQuantity (some o.updatedAt)
        h.le_quantity hf) hrow₁ rfl rfl
      rw [hw₂, hview₁] at hput
      exact hput
    have hintents₂ : (w₂.view .uow).intents = w.db.intents := by simp [← hw₂, hview₁]
    have hfills₂ : (w₂.view .uow).fills = w.db.fills := by simp [← hw₂, hview₁]
    have hdb₂ : w₂.db = w.db := by simp [← hw₂, hwait.db]
    have hmem : ∀ f ∈ fills, f ∈ (w₂.view .uow).fills.rows := by
      intro f hmem
      rw [hfills₂]
      exact (List.mem_filter.mp (h.recorded f hmem)).1
    obtain ⟨w₃, hadd, hw₃⟩ := addFills_recorded env cfg uuid5 i hmem h.fits
    have hview₃ := hw₃.view_eq .uow
    rcases hfollow : run (handler env) (followBrokerOrder i (refreshTarget o.status i.status)) w₃ with ⟨r₄, w₄⟩
    have hi₃ : (w₃.view .uow).intents.get i.clientOrderId = some i := by
      rw [hview₃, hintents₂]
      exact h.intent_get
    rw [hadd] at hrun
    simp only [hfollow] at hrun
    obtain ⟨hdb₄, ⟨hlegal, ⟨j, rfl⟩, hm₄, hi₄⟩ | ⟨hno, e, rfl⟩⟩ := followBrokerOrder_run hi₃ hfollow
    · simp only [run_commit] at hrun
      cases hrun
      refine Or.inl ⟨hf, ⟨fun e => h.base.quantity ▸ hf e, hlegal⟩, ⟨j, rfl⟩, ?_, ?_⟩
      · rw [World.commit_db, World.next_view, hm₄, hview₃, hmirrors₂]
      · rw [World.commit_db, World.next_view, hi₄, hview₃, hintents₂]
    · cases hrun
      exact Or.inr ⟨fun ha => hno ha.2, ⟨e, rfl⟩, by rw [hdb₄, hw₃.db, hdb₂]⟩
  · rw [Classical.not_imp] at hf
    obtain ⟨e, he, hk⟩ := herr hf
    have hrecord : run (handler env) (recordBrokerOrder o) w₁ = _ :=
      run_statement_error w₁ ((congrArg (fun db => db.recordBrokerOrder o) hview₁).trans he)
    have hkind : ¬ e.kind = .brokerOrderIdentityConflict := by
      rw [hk]
      decide
    simp only [hrecord, if_neg hkind, run_raise] at hrun
    cases hrun
    exact Or.inr ⟨fun ha => hf.2 (h.base.quantity ▸ ha.1 hf.1), ⟨e, rfl⟩, hwait.db⟩

/-- Polling an observation writes the mirror and the intent, or refuses and commits nothing. -/
theorem applyFills_run {db : Db} {row : MirrorRow} {i : OrderIntent} {o : BrokerOrder} {fills : List Fill}
    (h : Observes env db row i o fills) {r : Except PyError OrderIntent} {w' : World}
    (hrun : run (handler env) (applyFills cfg uuid5 i.clientOrderId) (.start db) = (r, w')) :
    (∃ hf : o.status = .filled → o.filledQuantity = row.order.quantity.value, Accepts i o ∧ (∃ j, r = .ok j) ∧
      w'.db.mirrors = db.mirrors.put
        (row.refreshed o.status o.filledQuantity (some o.updatedAt) h.le_quantity hf) ∧
      w'.db.intents = db.intents.put (i.withStatus (refreshTarget o.status i.status))) ∨
    (¬ Accepts i o ∧ (∃ e, r = .error e) ∧ w'.db = db) := by
  have hmirror : db.mirrorOf i.clientOrderId = some row := by
    rw [← h.mirror.clientOrderId]
    exact Db.mirrorOf_of_get h.row_get
  have hmirrorId : db.mirrors.get o.brokerOrderId = some row := by
    rw [h.base.brokerOrderId]
    exact h.row_get
  have hlive : ¬ (i.status ≠ .acknowledged ∧ i.status ≠ .partiallyFilled ∧ i.status ≠ .cancelPending) := by
    rintro ⟨h₁, h₂, h₃⟩
    rcases h.live with e | e | e
    · exact h₁ e
    · exact h₂ e
    · exact h₃ e
  have horder (w : World) : run (handler env) (getOrder i.clientOrderId) w = (.ok (some o), w.next) :=
    (run_broker _).trans (congrArg (·, w.next) (h.order_answer w.tick))
  simp only [applyFills, requireIntent, bind_eq, run_bind, run_getIntent, World.start_view, Db.getIntent,
    h.intent_get, pure_eq_ret, run_ret, if_neg hlive, run_getBrokerOrder, World.next_view, Db.getBrokerOrder,
    hmirror, Option.map_some, absorbBrokerOrder, horder, assertMirrorMatches, run_getBrokerOrderById,
    Db.getBrokerOrderById, hmirrorId, h.mismatchFields_eq, if_true] at hrun
  have hidle : (World.start db).next.next.next.next.next.Idle := World.start_idle db
  exact refreshFromBrokerOrder_run hidle h hrun

/-! ### The streaming path -/

/-- The broker canceled the order on its own: no cancel is pending locally. -/
def ExternalCancel (i : OrderIntent) (o : BrokerOrder) : Prop := o.status = .canceled ∧ i.status ≠ .cancelPending

theorem Observes.checkStatus_report {db : Db} {row : MirrorRow} {i : OrderIntent} {o : BrokerOrder}
    {fills : List Fill} (h : Observes env db row i o fills) :
    checkStatus row.order o.report = .ok () ↔
      (o.status = .filled → o.filledQuantity = row.order.quantity.value) := by
  constructor
  · exact fun hc => (checkStatus_ok hc).2.2.2.1
  · intro hf
    have h₁ : ¬ o.report.observedAt = row.order.updatedAt := h.newer.ne'
    have h₂ : ¬ o.report.filledQuantity < row.order.filledQuantity := Nat.not_lt.mpr h.filled
    have h₃ : ¬ row.order.quantity.value < o.report.filledQuantity := Nat.not_lt.mpr h.le_quantity
    have h₄ : ¬ (o.report.status = .filled ∧ o.report.filledQuantity ≠ row.order.quantity.value) :=
      fun e => e.2 (hf e.1)
    rw [checkStatus, if_neg h₁, if_neg h₂, if_neg h₃, if_neg h₄]
    by_cases hs : o.report.status ≠ row.order.status
    · have ha : brokerOrderTransitionAllowed row.order.status o.report.status = true :=
        h.status.resolve_left hs
      rw [if_pos hs, assertBrokerOrderTransition, if_pos ha]
    · rw [if_neg hs]

/-- The stream can take a live intent wherever polling can, and through a pending cancel. -/
theorem observable_iff {i : OrderIntent} {o : BrokerOrder}
    (hlive : i.status = .acknowledged ∨ i.status = .partiallyFilled ∨ i.status = .cancelPending) :
    observable i.status (statusIntentTarget o.status i.status) ↔
      (refreshTarget o.status i.status = i.status ∨
        orderTransitionAllowed i.status (refreshTarget o.status i.status) = true) ∨ ExternalCancel i o := by
  unfold ExternalCancel
  generalize i.status = s at hlive
  generalize o.status = t
  rcases hlive with rfl | rfl | rfl <;> cases t <;> decide

/-- Streaming the same observation writes the same mirror and intent status, or refuses and
leaves the mirror alone; it refuses what polling refuses, an external cancel apart. -/
theorem report_run {db : Db} {row : MirrorRow} {i : OrderIntent} {o : BrokerOrder} {fills : List Fill}
    (h : Observes env db row i o fills)
    (hnew : ¬ (o.status = row.order.status ∧ o.filledQuantity = row.order.filledQuantity))
    {r : Except PyError TradeUpdateOutcome} {w' : World}
    (hrun : run (handler env) (applyUpdate uuid5 (.status o.report)) (.start db) = (r, w')) :
    (∃ hf : o.status = .filled → o.filledQuantity = row.order.quantity.value,
      (Accepts i o ∨ ExternalCancel i o) ∧ r = .ok .applied ∧
      w'.db.mirrors = db.mirrors.put
        (row.refreshed o.status o.filledQuantity (some o.updatedAt) h.le_quantity hf) ∧
      w'.db.intents = db.intents.put (i.withStatus (refreshTarget o.status i.status))) ∨
    (¬ Accepts i o ∧ ¬ ExternalCancel i o ∧ (∃ e, r = .error e) ∧ w'.db.mirrors = db.mirrors) := by
  have hc : o.report.clientOrderId = i.clientOrderId :=
    h.base.clientOrderId.trans h.mirror.clientOrderId
  have hmirror : db.mirrorOf o.report.clientOrderId = some row := by
    rw [hc, ← h.mirror.clientOrderId]
    exact Db.mirrorOf_of_get h.row_get
  have hintent : db.intents.get o.report.clientOrderId = some i := by
    rw [hc]
    exact h.intent_get
  have hexact : (o.status = .filled → o.filledQuantity = o.quantity.value) ↔
      (o.status = .filled → o.filledQuantity = row.order.quantity.value) := by
    rw [h.base.quantity]
  obtain ⟨-, hcons, -⟩ := applyUpdate_consumed (World.start_idle db) hrun
  change Consumed db _ r w'.db at hcons
  generalize w'.db = db' at hcons
  cases hcons with
  | unknownStatus hno =>
      rcases hno with hno | hno
      · rw [hintent] at hno
        cases hno
      · exact absurd h.base.brokerOrderId.symm (hno row hmirror)
  | stale hm hlt =>
      obtain rfl : row = _ := Option.some.inj (hmirror.symm.trans hm)
      exact absurd h.newer (not_lt.mpr (le_of_lt hlt))
  | repeatedStatus hm hb hle hs =>
      obtain rfl : row = _ := Option.some.inj (hmirror.symm.trans hm)
      exact absurd hs hnew
  | @observed _ row₂ j _ hj hm hb hle hd =>
      obtain rfl : row = row₂ := Option.some.inj (hmirror.symm.trans hm)
      obtain rfl : i = j := Option.some.inj (hintent.symm.trans hj)
      cases hd with
      | moved hcheck hob hq hf hd =>
          refine Or.inl ⟨hf, ?_, rfl, hd.mirrors, ?_⟩
          · rcases (observable_iff h.live).mp hob with hlegal | hext
            · exact Or.inl ⟨hexact.mpr hf, hlegal⟩
            · exact Or.inr hext
          · have hrc : row.clientOrderId = i.clientOrderId := h.mirror.clientOrderId
            have hget : db.intents.get row.clientOrderId = some i := hrc ▸ h.intent_get
            rw [hd.intents]
            exact Db.movedIntents_of_get _ hget
  | @refusedStatus _ row₂ j e _ hj hm hle hr he hgate =>
      obtain rfl : row = row₂ := Option.some.inj (hmirror.symm.trans hm)
      obtain rfl : i = j := Option.some.inj (hintent.symm.trans hj)
      refine Or.inr ⟨fun ha => ?_, fun hext => ?_, ⟨e, rfl⟩, hgate.mirrors⟩
      · rcases hr with ⟨x, hx⟩ | hob
        · rw [h.checkStatus_report.mpr (hexact.mp ha.1)] at hx
          cases hx
        · exact hob ((observable_iff h.live).mpr (Or.inl ha.2))
      · rcases hr with ⟨x, hx⟩ | hob
        · have hf : o.status = .filled → o.filledQuantity = row.order.quantity.value := by
            rw [hext.1]
            rintro ⟨⟩
          rw [h.checkStatus_report.mpr hf] at hx
          cases hx
        · exact hob ((observable_iff h.live).mpr (Or.inr hext))

/-! ### Agreement -/

/-- Both paths succeed with the same intent status and the same mirror, or both refuse. -/
def Agreed (c : ClientOrderId) (polled : Except PyError OrderIntent × World)
    (streamed : Except PyError TradeUpdateOutcome × World) : Prop :=
  ((∃ j, polled.1 = .ok j) ∧ (∃ u, streamed.1 = .ok u) ∧
    (polled.2.db.getIntent c).map OrderIntent.status = (streamed.2.db.getIntent c).map OrderIntent.status ∧
    ∃ p q, polled.2.db.getBrokerOrder c = some p ∧ streamed.2.db.getBrokerOrder c = some q ∧
      p.status = q.status ∧ p.filledQuantity = q.filledQuantity ∧ p.updatedAt = q.updatedAt) ∨
  ((∃ e, polled.1 = .error e) ∧ ∃ e, streamed.1 = .error e)

/-- What is read back after the mirror and the intent are written. -/
theorem Observes.read_written {db db' : Db} {row : MirrorRow} {i : OrderIntent} {o : BrokerOrder}
    {fills : List Fill} (h : Observes env db row i o fills) {t : OrderStatus}
    (hf : o.status = .filled → o.filledQuantity = row.order.quantity.value)
    (hm : db'.mirrors = db.mirrors.put
      (row.refreshed o.status o.filledQuantity (some o.updatedAt) h.le_quantity hf))
    (hi : db'.intents = db.intents.put (i.withStatus t)) :
    db'.getIntent i.clientOrderId = some (i.withStatus t) ∧
    ∃ q, db'.getBrokerOrder i.clientOrderId = some q ∧ q.status = o.status ∧
      q.filledQuantity = o.filledQuantity ∧ q.updatedAt = o.updatedAt := by
  have hget : db'.mirrors.get row.brokerOrderId =
      some (row.refreshed o.status o.filledQuantity (some o.updatedAt) h.le_quantity hf) := by
    rw [hm]
    exact Table.get_put_self h.row_get
  have hc : row.clientOrderId = i.clientOrderId := h.mirror.clientOrderId
  have hmirror : db'.mirrorOf row.clientOrderId =
      some (row.refreshed o.status o.filledQuantity (some o.updatedAt) h.le_quantity hf) :=
    Db.mirrorOf_of_get hget
  refine ⟨?_, (row.refreshed o.status o.filledQuantity (some o.updatedAt) h.le_quantity hf).order, ?_,
    rfl, rfl, rfl⟩
  · rw [Db.getIntent, hi]
    exact Table.get_put_self h.intent_get
  · rw [Db.getBrokerOrder, ← hc, hmirror]
    rfl

/-- **Polling and streaming agree** on every observation that differs from the mirror, an
external cancel apart.  An external cancel is refused by polling, which commits nothing, and
taken by streaming: the intent is canceled and the mirror shows the observation. -/
theorem polling_streaming_agree (env : Env) (cfg : EngineConfig) (uuid5 : NameUuid) (db : Db)
    (row : MirrorRow) (i : OrderIntent) (o : BrokerOrder) (fills : List Fill)
    (h : Observes env db row i o fills)
    (hnew : ¬ (o.status = row.order.status ∧ o.filledQuantity = row.order.filledQuantity)) :
    let polled := run (handler env) (applyFills cfg uuid5 i.clientOrderId) (.start db)
    let streamed := run (handler env) (applyUpdate uuid5 (.status o.report)) (.start db)
    (¬ ExternalCancel i o → Agreed i.clientOrderId polled streamed) ∧
    (ExternalCancel i o → (∃ e, polled.1 = .error e) ∧ polled.2.db = db ∧ streamed.1 = .ok .applied ∧
      (streamed.2.db.getIntent i.clientOrderId).map OrderIntent.status = some .canceled ∧
      ∃ q, streamed.2.db.getBrokerOrder i.clientOrderId = some q ∧
        q.status = .canceled ∧ q.filledQuantity = o.filledQuantity ∧ q.updatedAt = o.updatedAt) := by
  intro polled streamed
  have hrun : run (handler env) (applyFills cfg uuid5 i.clientOrderId) (.start db) = (polled.1, polled.2) := rfl
  have hrun' : run (handler env) (applyUpdate uuid5 (.status o.report)) (.start db) =
    (streamed.1, streamed.2) := rfl
  constructor
  · intro hext
    rcases report_run h hnew hrun' with ⟨hf, hacc, hok, hm, hi⟩ | ⟨hno, -, herr, -⟩
    · have hacc : Accepts i o := hacc.resolve_right hext
      rcases applyFills_run h hrun with ⟨hf', -, hok', hm', hi'⟩ | ⟨hno, -⟩
      · obtain ⟨hint, q, hq, hs, hn, ht⟩ := h.read_written hf hm hi
        obtain ⟨hint', p, hp, hs', hn', ht'⟩ := h.read_written hf' hm' hi'
        refine Or.inl ⟨hok', ⟨_, hok⟩, by rw [hint, hint'], p, q, hp, hq, ?_, ?_, ?_⟩
        · rw [hs, hs']
        · rw [hn, hn']
        · rw [ht, ht']
      · exact absurd hacc hno
    · rcases applyFills_run h hrun with ⟨-, hacc, -⟩ | ⟨-, herr', -⟩
      · exact absurd hacc hno
      · exact Or.inr ⟨herr', herr⟩
  · intro hext
    have hno : ¬ Accepts i o := by
      rintro ⟨-, hlegal⟩
      rw [hext.1] at hlegal
      rcases h.live with e | e | e
      · rw [e] at hlegal
        revert hlegal
        decide
      · rw [e] at hlegal
        revert hlegal
        decide
      · exact hext.2 e
    rcases applyFills_run h hrun with ⟨-, hacc, -⟩ | ⟨-, herr, hdb⟩
    · exact absurd hacc hno
    · rcases report_run h hnew hrun' with ⟨hf, -, hok, hm, hi⟩ | ⟨-, hext', -⟩
      · obtain ⟨hint, q, hq, hs, hn, ht⟩ := h.read_written hf hm hi
        refine ⟨herr, hdb, hok, ?_, q, hq, hs.trans hext.1, hn, ht⟩
        rw [hint, hext.1]
        rfl
      · exact absurd hext hext'

/-- An environment in which the broker shows `o` without fills. -/
def showing (o : BrokerOrder) : Env :=
  { sampleEnv with
    broker := fun _ c => match c with
      | .getOrder _ => .ok (some o)
      | .listFills _ => .ok []
      | _ => .error ⟨.brokerTransport, "unreachable"⟩ }

/-- Both paths see the sample order with four shares filled. -/
theorem polling_streaming_agree_sample :
    Agreed sampleId
      (run (handler (showing (sampleOrder .partiallyFilled 4 5)))
        (applyFills ⟨true, none⟩ sampleUuid5 (sampleIntent .acknowledged).clientOrderId)
        (.start (sampleDb .acknowledged sampleRow)))
      (run (handler (showing (sampleOrder .partiallyFilled 4 5)))
        (applyUpdate sampleUuid5 (.status (sampleOrder .partiallyFilled 4 5).report))
        (.start (sampleDb .acknowledged sampleRow))) :=
  (polling_streaming_agree (showing (sampleOrder .partiallyFilled 4 5)) ⟨true, none⟩ sampleUuid5
    (sampleDb .acknowledged sampleRow) sampleRow (sampleIntent .acknowledged)
    (sampleOrder .partiallyFilled 4 5) []
    ⟨by decide +kernel, by decide +kernel, Or.inl rfl, ⟨rfl, rfl, rfl, rfl, rfl⟩,
      ⟨rfl, rfl, rfl, rfl, rfl, rfl, rfl⟩, by decide, Or.inr rfl, by decide, fun _ => rfl, fun _ => rfl,
      by simp, by simp⟩ (by decide)).1 (fun e => absurd e.1 (by decide))

/-- The paths disagree in two cases.  The repeated observation of an accepted order moves the
watermark when polled only; and the cancel of an acknowledged order by the broker is refused
when polled and applied when streamed. -/
theorem polling_streaming_differ :
    (let polled := run (handler (showing (sampleOrder .accepted 0 5)))
        (applyFills ⟨true, none⟩ sampleUuid5 sampleId) (.start (sampleDb .acknowledged sampleRow))
      let streamed := run (handler (showing (sampleOrder .accepted 0 5)))
        (applyUpdate sampleUuid5 (.status (sampleOrder .accepted 0 5).report))
        (.start (sampleDb .acknowledged sampleRow))
      (polled.2.db.getBrokerOrder sampleId).map BrokerOrder.updatedAt = some (instant 5) ∧
        streamed.1 = .ok .duplicate ∧
        (streamed.2.db.getBrokerOrder sampleId).map BrokerOrder.updatedAt = some (instant 1)) ∧
    (let polled := run (handler (showing (sampleOrder .canceled 0 5)))
        (applyFills ⟨true, none⟩ sampleUuid5 sampleId) (.start (sampleDb .acknowledged sampleRow))
      let streamed := run (handler (showing (sampleOrder .canceled 0 5)))
        (applyUpdate sampleUuid5 (.status (sampleOrder .canceled 0 5).report))
        (.start (sampleDb .acknowledged sampleRow))
      polled.1.isOk = false ∧ streamed.1 = .ok .applied ∧
        (streamed.2.db.getIntent sampleId).map OrderIntent.status = some .canceled) := by
  decide +kernel

end SevenLens
