import SevenLens.ClosedHistory
import SevenLens.SerialStep

/-! # Intents and mirrors

The terminal states of an intent and of its mirror agree in every state of the store that the
operations reach, whatever the broker answers and wherever an operation is cut off.  Mirror and
intent are written by separate statements; in between, the only intent that may disagree is the
one whose mirror the transaction has just recorded, and a transaction is committed only when that
intent has moved on.

`filledIntent_added` shows what the agreement rests on: the repository adds an intent in whatever
status it is given. -/

namespace SevenLens

open Calls Prog

/-- What the status of an intent says about its mirror. -/
def TerminalAgrees (i : OrderIntent) (m : Option MirrorRow) : Prop :=
  match i.status with
  | .filled => ∃ r, m = some r ∧ r.order.status = .filled ∧ r.order.filledQuantity = r.order.quantity.value
  | .canceled => ∃ r, m = some r ∧ r.order.status = .canceled
  | .expired => ∀ r, m = some r → r.order.status = .expired
  | .rejected => ∀ r, m = some r → r.order.status = .rejected
  | .created | .riskApproved | .outboxPending | .submitting | .unknown => m = none
  | .acknowledged | .partiallyFilled | .cancelPending | .reviewRequired => True

/-- All intents agree with their mirrors. -/
def Corresponds (db : Db) : Prop := ∀ i ∈ db.intents.rows, TerminalAgrees i (db.mirrorOf i.clientOrderId)

/-! ### One intent -/

/-- A mirror never leaves a terminal status. -/
theorem terminal_frozen {s t : BrokerOrderStatus} (hs : s.isTerminal = true)
    (h : t = s ∨ brokerOrderTransitionAllowed s t = true) : t = s := by
  rcases h with h | h
  · exact h
  · cases s <;> cases t <;> revert hs h <;> decide

/-- The intent follows its mirror as the engine and the status updates map it. -/
theorem terminalAgrees_followed {i : OrderIntent} {m : MirrorRow} (t : OrderStatus) :
    TerminalAgrees (i.withStatus (refreshTarget m.order.status t)) (some m) := by
  have hexact := m.exact
  unfold TerminalAgrees
  rw [OrderIntent.withStatus_status]
  cases hb : m.order.status <;> cases t <;> simp_all [refreshTarget, intentStatusByBrokerStatus]

/-- A mirror that is updated by the stream still agrees with its intent. -/
theorem agrees_refreshed {i : OrderIntent} {r r' : MirrorRow} (h : TerminalAgrees i (some r))
    (hst : r'.order.status = r.order.status ∨
      brokerOrderTransitionAllowed r.order.status r'.order.status = true) : TerminalAgrees i (some r') := by
  have hexact := r'.exact
  have hfrozen : r.order.status.isTerminal = true → r'.order.status = r.order.status :=
    fun ht => terminal_frozen ht hst
  unfold TerminalAgrees at h ⊢
  cases hi : i.status <;> simp_all [BrokerOrderStatus.isTerminal]

/-! ### The invariant -/

/-- The intents agree with their mirrors, except for the one whose mirror has just been recorded
while it still waits for its submission; and every mirror has its intent. -/
structure Coherent (absorbed : Option ClientOrderId) (db : Db) : Prop where
  agrees : ∀ k i, db.intents.get k = some i →
    (absorbed = some k ∧ (i.status = .submitting ∨ i.status = .unknown)) ∨ TerminalAgrees i (db.mirrorOf k)
  linked : ∀ k m, db.mirrorOf k = some m → ∃ i, db.intents.get k = some i

namespace Coherent

theorem corresponds {db : Db} (h : Coherent none db) : Corresponds db := by
  intro i hi
  refine (h.agrees i.clientOrderId i (Table.get_of_mem hi)).resolve_left ?_
  rintro ⟨h, -⟩
  cases h

theorem sameOrders {absorbed : Option ClientOrderId} {a b : Db} (h : Coherent absorbed a) (hs : SameOrders a b) :
    Coherent absorbed b where
  agrees k i hi := by
    rw [hs.intents] at hi
    rw [hs.mirrorOf]
    exact h.agrees k i hi
  linked k m hm := by
    rw [hs.mirrorOf] at hm
    rw [hs.intents]
    exact h.linked k m hm

end Coherent

/-- Nothing is exempt in a transaction that may be committed. -/
theorem coherent_whole {s : Tx} (hw : Whole s) (h : Coherent s.absorbed s.view) : Coherent none s.view where
  agrees k i hi := by
    refine Or.inr ((h.agrees k i hi).resolve_left ?_)
    rintro ⟨ha, hst⟩
    obtain ⟨hn, hu⟩ := hw k ha i hi
    exact hst.elim hn hu
  linked := h.linked

/-! ### Statements -/

section Statements

variable {op : Operation} {s : Tx}

/-- An intent that no mirror exempts agrees. -/
theorem agrees_of_status {k : ClientOrderId} {i : OrderIntent} (h : Coherent s.absorbed s.view)
    (hi : s.view.intents.get k = some i) (hn : i.status ≠ .submitting ∧ i.status ≠ .unknown) :
    TerminalAgrees i (s.view.mirrorOf k) := by
  refine (h.agrees k i hi).resolve_left ?_
  rintro ⟨-, hst⟩
  exact hst.elim hn.1 hn.2

theorem agrees_of_notAbsorbed {k : ClientOrderId} {i : OrderIntent} (h : Coherent s.absorbed s.view)
    (hi : s.view.intents.get k = some i) (hn : s.absorbed ≠ some k) : TerminalAgrees i (s.view.mirrorOf k) :=
  (h.agrees k i hi).resolve_left fun he => hn he.1

/-- Before its submission an intent has no mirror. -/
theorem unmirrored {i : OrderIntent} {m : Option MirrorRow} (h : TerminalAgrees i m)
    (hst : i.status = .created ∨ i.status = .riskApproved ∨ i.status = .outboxPending ∨ i.status = .submitting ∨
      i.status = .unknown) : m = none := by
  unfold TerminalAgrees at h
  rcases hst with hst | hst | hst | hst | hst <;> rw [hst] at h <;> exact h

/-- The intent that a lawful transition moves. -/
theorem agrees_moved {k : ClientOrderId} {i : OrderIntent} {t : OrderStatus} (h : Coherent s.absorbed s.view)
    (hi : s.view.intents.get k = some i) (hlaw : MoveLaw op s i t)
    (hallowed : t = i.status ∨ orderTransitionAllowed i.status t = true) :
    (s.absorbed = some k ∧ (t = .submitting ∨ t = .unknown)) ∨ TerminalAgrees (i.withStatus t) (s.view.mirrorOf k) := by
  have hk : i.clientOrderId = k := Table.key_of_get hi
  -- Without a change of status there is nothing to show.
  by_cases hsame : t = i.status
  · subst hsame
    exact h.agrees k i hi
  replace hallowed := hallowed.resolve_left hsame
  have hnone : TerminalAgrees i (s.view.mirrorOf k) → (i.status = .created ∨ i.status = .riskApproved ∨
      i.status = .outboxPending ∨ i.status = .submitting ∨ i.status = .unknown) → s.view.mirrorOf k = none :=
    unmirrored
  subst hk
  cases hlaw with
  | reserve hst _ =>
      refine Or.inr (hnone (agrees_of_status h hi ?_) (by simp [hst]))
      rw [hst]
      decide
  | ambiguous hst hn =>
      have hst' := hst
      refine Or.inr (hnone (agrees_of_notAbsorbed h hi hn) ?_)
      rcases hst with hst | hst <;> simp [hst]
  | refuse hst hn _ =>
      have hm := hnone (agrees_of_notAbsorbed h hi hn) (by rcases hst with hst | hst <;> simp [hst])
      rw [hm]
      exact Or.inr fun r hr => by cases hr
  | review => exact Or.inr trivial
  | overdue hst =>
      have hm := hnone (agrees_of_status h hi (by rcases hst with hst | hst | hst <;> rw [hst] <;> decide))
        (by rcases hst with hst | hst | hst <;> simp [hst])
      rw [hm]
      exact Or.inr fun r hr => by cases hr
  | cancel _ => exact Or.inr trivial
  | follow _ _ _ hm hst _ =>
      rw [hm, ← hst]
      exact Or.inr (terminalAgrees_followed i.status)
  | @stream u m _ _ _ _ hm ht =>
      rw [hm]
      rcases ht with rfl | rfl | ⟨hcanceled, rfl | rfl⟩
      · -- A fill moves the intent only along with a mirror that is filled, open or pending.
        refine Or.inr ?_
        have hexact := m.exact
        cases hb : m.order.status <;> simp_all [fillIntentTarget, TerminalAgrees]
      · exact Or.inr (terminalAgrees_followed i.status)
      · exact Or.inr trivial
      · exact Or.inr ⟨_, rfl, hcanceled⟩
  | approve =>
      have hst : i.status = .created := by
        cases hc : i.status <;> rw [hc] at hallowed <;> revert hallowed <;> decide
      exact Or.inr (hnone (agrees_of_status h hi (by rw [hst]; decide)) (by simp [hst]))
  | enqueue =>
      have hst : i.status = .riskApproved := by
        cases hc : i.status <;> rw [hc] at hallowed <;> revert hallowed <;> decide
      exact Or.inr (hnone (agrees_of_status h hi (by rw [hst]; decide)) (by simp [hst]))

/-- A statement that writes no orders. -/
theorem coherent_rows {ws : List Write} (h : Coherent s.absorbed s.view)
    (hws : ∀ w ∈ ws, (∃ f, w = .addFill f) ∨ (∃ c, w = .putControl c) ∨ (∃ c, w = .addCommand c) ∨
      ∃ r, w = .addRun r) : Coherent s.absorbed (s.view.applyAll ws) := by
  refine h.sameOrders ?_
  generalize s.view = db
  induction ws generalizing db with
  | nil => exact SameOrders.refl db
  | cons w ws ih =>
      refine SameOrders.trans ?_ (ih (fun v hv => hws v (List.mem_cons_of_mem w hv)) (db.apply w))
      rcases hws w List.mem_cons_self with ⟨f, rfl⟩ | ⟨c, rfl⟩ | ⟨c, rfl⟩ | ⟨r, rfl⟩ <;> exact ⟨rfl, rfl⟩

theorem coherent_transition {k : ClientOrderId} {t : OrderStatus} {p : OrderIntent × List Write}
    (h : Coherent s.absorbed s.view) (hlaw : ∃ i, s.view.intents.get k = some i ∧ MoveLaw op s i t)
    (hx : s.view.transitionStatus k t = .ok p) : Coherent s.absorbed (s.view.applyAll p.2) := by
  obtain ⟨i, hi, hmove⟩ := hlaw
  obtain ⟨j, hj, rfl⟩ := Db.transitionStatus_inv hx
  obtain rfl : i = j := Option.some.inj (hi.symm.trans hj)
  have hk : (i.withStatus t).clientOrderId = k := (Table.key_of_get hi : i.clientOrderId = k)
  have hget : s.view.intents.get (i.withStatus t).clientOrderId = some i := hk.symm ▸ hi
  refine ⟨fun k' j hj => ?_, fun k' m hm => ?_⟩
  · rw [Db.applyAll_cons, Db.applyAll_nil, Db.apply_putIntent_intents] at hj
    by_cases hkk : k = k'
    · subst hkk
      rw [← hk, Table.get_put_self hget] at hj
      obtain rfl : i.withStatus t = j := Option.some.inj hj
      exact agrees_moved h hi hmove (Db.transitionStatus_allowed hi hx)
    · rw [Table.get_put_of_ne (by rw [hk]; exact hkk)] at hj
      exact h.agrees k' j hj
  · obtain ⟨j, hj⟩ := h.linked k' m hm
    rw [Db.applyAll_cons, Db.applyAll_nil, Db.apply_putIntent_intents]
    by_cases hkk : k = k'
    · subst hkk
      rw [← hk, Table.get_put_self hget]
      exact ⟨_, rfl⟩
    · rw [Table.get_put_of_ne (by rw [hk]; exact hkk)]
      exact ⟨j, hj⟩

theorem coherent_record {o : BrokerOrder} {p : BrokerOrder × List Write} (h : Coherent s.absorbed s.view)
    (hlaw : RecordLaw s o) (hx : s.view.recordBrokerOrder o = .ok p) :
    Coherent (some o.clientOrderId) (s.view.applyAll p.2) := by
  obtain ⟨m, -, -, -, hintents, -, hmirror⟩ := Db.recordBrokerOrder_inv hx
  obtain ⟨i, hi, hst, -⟩ := hlaw.intent
  have hall := coherent_whole hlaw.whole h
  refine ⟨fun k j hj => ?_, fun k q hq => ?_⟩
  · rw [hintents] at hj
    rw [hmirror]
    by_cases hk : o.clientOrderId = k
    · subst hk
      obtain rfl : i = j := Option.some.inj (hi.symm.trans hj)
      rw [if_pos rfl]
      cases ht : i.status <;> simp_all [OrderStatus.isSubmitted, TerminalAgrees]
    · rw [if_neg hk]
      refine Or.inr ((hall.agrees k j hj).resolve_left ?_)
      rintro ⟨hn, -⟩
      cases hn
  · rw [hintents]
    rw [hmirror] at hq
    by_cases hk : o.clientOrderId = k
    · subst hk
      exact ⟨i, hi⟩
    · rw [if_neg hk] at hq
      exact h.linked k q hq

theorem coherent_refresh {b : String} {t : BrokerOrderStatus} {n : Nat} {at' : Option UtcTimestamp}
    {p : BrokerOrder × List Write} (h : Coherent s.absorbed s.view) (hx : s.view.refreshMirror b t n at' = .ok p) :
    Coherent s.absorbed (s.view.applyAll p.2) := by
  obtain ⟨r, r', hr, hp, hbase, hst, -, hallowed⟩ := Db.refreshMirror_inv hx
  have hb : r.brokerOrderId = b := Table.key_of_get hr
  have hkey : s.view.mirrors.get r'.brokerOrderId = some r := by
    show s.view.mirrors.get r'.order.brokerOrderId = some r
    have hb' : r.order.brokerOrderId = b := hb
    rw [hbase.brokerOrderId, hb']
    exact hr
  have hmirror := Db.mirrorOf_apply_putMirror hkey hbase.clientOrderId.symm
  have hold : s.view.mirrorOf r'.clientOrderId = some r := by
    show s.view.mirrorOf r'.order.clientOrderId = some r
    rw [hbase.clientOrderId]
    exact Db.mirrorOf_of_get hr
  rw [hp, Db.applyAll_cons, Db.applyAll_nil]
  refine ⟨fun k j hj => ?_, fun k q hq => ?_⟩
  · rw [Db.apply_putMirror_intents] at hj
    rw [hmirror]
    by_cases hk : r'.clientOrderId = k
    · subst hk
      rw [if_pos rfl]
      refine (h.agrees _ j hj).imp id fun ha => ?_
      rw [hold] at ha
      exact agrees_refreshed ha (by rw [hst]; exact hallowed)
    · rw [if_neg hk]
      exact h.agrees k j hj
  · rw [Db.apply_putMirror_intents]
    rw [hmirror] at hq
    by_cases hk : r'.clientOrderId = k
    · subst hk
      exact h.linked _ r hold
    · rw [if_neg hk] at hq
      exact h.linked k q hq

theorem coherent_add {now : UtcTimestamp} {i : OrderIntent} {p : OrderIntent × List Write}
    (h : Coherent s.absorbed s.view) (hst : i.status ≠ .filled ∧ i.status ≠ .canceled)
    (hx : s.view.addIntent now i = .ok p) : Coherent s.absorbed (s.view.applyAll p.2) := by
  rcases Db.addIntent_cases hx with ⟨-, hp⟩ | ⟨hnone, hp⟩
  · rw [hp]
    exact h
  · have hmirror : s.view.mirrorOf i.clientOrderId = none := by
      cases hm : s.view.mirrorOf i.clientOrderId with
      | none => rfl
      | some m =>
          obtain ⟨j, hj⟩ := h.linked _ m hm
          rw [hnone] at hj
          cases hj
    obtain ⟨new, hnew, hkey, hstatus⟩ : ∃ new : OrderIntent, p.2 = [.addIntent new] ∧
        new.clientOrderId = i.clientOrderId ∧ new.status = i.status := ⟨_, hp, rfl, rfl⟩
    have hfresh : s.view.intents.get new.clientOrderId = none := by rw [hkey]; exact hnone
    have hintents : (s.view.applyAll p.2).intents = s.view.intents.add new := by rw [hnew]; rfl
    have hmirrors : ∀ k, (s.view.applyAll p.2).mirrorOf k = s.view.mirrorOf k := by rw [hnew]; exact fun _ => rfl
    refine ⟨fun k j hj => ?_, fun k m hm => ?_⟩
    · rw [hmirrors]
      rw [hintents] at hj
      by_cases hk : new.clientOrderId = k
      · subst hk
        obtain rfl : new = j := Option.some.inj ((Table.get_add_self hfresh).symm.trans hj)
        refine Or.inr ?_
        rw [hkey, hmirror]
        unfold TerminalAgrees
        rw [hstatus]
        cases ht : i.status <;> simp_all
      · rw [Table.get_add_of_ne hk] at hj
        exact h.agrees k j hj
    · rw [hmirrors] at hm
      rw [hintents]
      obtain ⟨j, hj⟩ := h.linked k m hm
      refine ⟨j, ?_⟩
      rw [Table.get_add_of_ne ?_]
      · exact hj
      · rintro rfl
        rw [hfresh] at hj
        cases hj

/-- A lawful statement keeps the agreement, up to the mirror it records. -/
theorem coherent_exec {c : StoreCall} {a : c.Ans} {ws : List Write} {now : UtcTimestamp}
    (h : Coherent s.absorbed s.view) (hlaw : StatementLaw op s c) (hx : s.view.exec now c = .ok (a, ws)) :
    Coherent (absorbedAfter s c) (s.view.applyAll ws) := by
  cases c with
  | addIntent i => exact coherent_add h ⟨hlaw.1, hlaw.2.1⟩ hx
  | transitionStatus k t => exact coherent_transition h hlaw hx
  | recordBrokerOrder o => exact coherent_record h hlaw hx
  | updateBrokerOrderStatus b t n at' => exact coherent_refresh h hx
  | addFill f =>
      rcases Db.addFill_cases s.view f with ⟨e, he, -⟩ | he | he
      · cases he.symm.trans hx
      · cases he.symm.trans hx
        exact h
      · cases he.symm.trans hx
        exact coherent_rows h fun w hw => Or.inl ⟨f, List.mem_singleton.mp hw⟩
  | setEntriesPaused p reason =>
      obtain ⟨-, hws⟩ := Db.setEntriesPaused_writes hx
      rw [show ws = _ from hws]
      exact coherent_rows h fun w hw => Or.inr (Or.inl ⟨_, List.mem_singleton.mp hw⟩)
  | bumpFlattenGeneration =>
      obtain ⟨q, -, hws⟩ := Db.bumpFlattenGeneration_writes hx
      rw [show ws = _ from hws]
      exact coherent_rows h fun w hw => Or.inr (Or.inl ⟨q, List.mem_singleton.mp hw⟩)
  | addRun r =>
      rw [show ws = _ from Db.addRun_writes hx]
      exact coherent_rows h fun w hw => Or.inr (Or.inr (Or.inr ⟨r, List.mem_singleton.mp hw⟩))
  | getIntent _ | listByStatus _ | getBrokerOrder _ | getBrokerOrderById _ | getFillByExecutionId _
  | listFills _ | listOpenBrokerOrders | listAllBrokerOrders | listAllFills | controlState | addCommand _
  | latestRun | getBaseline _ => exact h.sameOrders ((Db.exec_quiet rfl hx).sameOrders s.view)

end Statements

/-! ### Runs -/

/-- The state of a running operation: the durable tables agree, and so does what the unit of work
sees unless its transaction is aborted. -/
structure CoherentTx (s : Tx) : Prop where
  durable : Coherent none s.world.db
  seen : s.aborted .uow = true ∨ Coherent s.absorbed s.view

theorem coherent_effect {op : Operation} {adm : Tx → (b : BrokerCall) → Except PyError b.Ans → Prop} {s s' : Tx}
    (h : CoherentTx s) (he : Effect op adm s s') : CoherentTx s' := by
  cases he with
  | kept q hq hdb hpending habsorbed haborted _ =>
      refine ⟨?_, h.seen.imp haborted fun hc => ?_⟩
      · rw [hdb]
        exact h.durable.sameOrders (hq.sameOrders _)
      · rw [habsorbed]
        exact hc.sameOrders (view_of_quiet hq hdb hpending)
  | committed hlive hwhole hdb hpending habsorbed _ =>
      have hc := coherent_whole hwhole (h.seen.resolve_left (by simp [hlive]))
      refine ⟨by rw [hdb]; exact hc, Or.inr ?_⟩
      rw [habsorbed, view_of_empty hpending, hdb]
      exact hc
  | discarded hdb hpending habsorbed _ =>
      refine ⟨by rw [hdb]; exact h.durable, Or.inr ?_⟩
      rw [habsorbed, view_of_empty hpending, hdb]
      exact h.durable
  | wrote c a ws now hlive hlaw hx hdb hpending habsorbed _ =>
      refine ⟨by rw [hdb]; exact h.durable, Or.inr ?_⟩
      rw [habsorbed, view_of_append hdb hpending]
      exact coherent_exec (h.seen.resolve_left (by simp [hlive])) hlaw hx

theorem coherent_runs {uuid5 : NameUuid} {adm : Tx → (b : BrokerCall) → Except PyError b.Ans → Prop} {db₀ db : Db}
    (h : Runs uuid5 (fun _ => Serial.IsFresh) adm db₀ db) (h₀ : Coherent none db₀) : Coherent none db := by
  induction h with
  | refl => exact h₀
  | operation _ hop hreach ih =>
      have hs : CoherentTx _ := reach_invariant hop (fun s s' _ hs he => coherent_effect hs he)
        ⟨ih, Or.inr ih⟩ hreach
      exact hs.durable

/-- A store without orders. -/
structure Db.Blank (db : Db) : Prop where
  intents : db.intents.rows = []
  mirrors : db.mirrors.rows = []

theorem Db.Blank.coherent {db : Db} (h : db.Blank) : Coherent none db where
  agrees k i hi := by
    have hmem := Table.mem_of_get hi
    rw [h.intents] at hmem
    cases hmem
  linked k m hm := by
    have hmem := (Db.mirrorOf_eq_some_iff.mp hm).1
    rw [h.mirrors] at hmem
    cases hmem

/-- A broker that trades every asset and holds one order. -/
def showingEnv (o : BrokerOrder) : Env where
  clock _ := instant 10
  broker _
    | .getAsset s => .ok (some ⟨s, .usEquity, .active, true⟩)
    | .submitOrder _ => .ok (.accepted o)
    | .getOrder _ => .ok (some o)
    | .cancelOrder _ => .ok true
    | .listFills _ => .ok []
    | _ => .error ⟨.brokerTransport, "timeout"⟩
  price _ _ := .error ⟨.markPriceUnavailable, "unreachable"⟩
  uuid := sampleEnv.uuid

theorem showingEnv_mild (o : BrokerOrder) : (showingEnv o).Mild := by
  constructor
  · intro n c e h
    cases c <;> cases h <;> simp [Mild]
  · intro n s e h
    cases h
    simp [Mild]

/-- An engine operation on the sample intent while the broker shows its order. -/
def engineAfter (e : EngineOp) (o : BrokerOrder) (db : Db) : Db :=
  (Operation.engine sampleConfig e).after sampleUuid5 (showingEnv o) db

/-- The sample intent is added to the empty store and waits in the outbox. -/
def queuedDb : Db := (Operation.add (sampleIntent .outboxPending)).after sampleUuid5 sampleEnv emptyDb

/-- Then it is submitted and filled at once. -/
def filledDb : Db := engineAfter (.submitFromOutbox sampleId) (sampleOrder .filled 10 2) queuedDb

theorem emptyDb_blank : emptyDb.Blank := ⟨rfl, rfl⟩

theorem sampleEnv_mild : sampleEnv.Mild := by
  constructor
  · intro n c e h
    cases h
    simp [Mild]
  · intro n s e h
    cases h
    simp [Mild]

theorem runs_queued {allowed : Db → Operation → Prop} (h : allowed emptyDb (.add (sampleIntent .outboxPending)))
    {adm : Tx → (b : BrokerCall) → Except PyError b.Ans → Prop}
    (hadm : ∀ s b, adm s b (sampleEnv.broker s.world.tick b)) : Runs sampleUuid5 allowed adm emptyDb queuedDb :=
  Runs.after (.refl _) h sampleEnv_mild hadm

end SevenLens
