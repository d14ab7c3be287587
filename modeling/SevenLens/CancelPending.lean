import SevenLens.Correspondence

/-! # A requested cancel

An intent that is durably `cancelPending` waits for the broker to prove that the order is
canceled, expired or filled.  The code does not keep it there: a broker order, a status update
or a fill that shows the order as partially filled moves the intent back to `partiallyFilled`
(`cancelPending_forgotten`).  As long as no such observation meets an intent that is
`cancelPending`, the cancel is not forgotten (`cancelPending_kept`). -/

namespace SevenLens

open Calls Prog

/-- The statuses an intent may take after its cancel has been requested. -/
def OrderStatus.keepsCancel : OrderStatus → Bool
  | cancelPending | canceled | expired | filled | reviewRequired => true
  | _ => false

/-- The cancel of intent `k` has been requested and not forgotten. -/
def CancelKept (k : ClientOrderId) (db : Db) : Prop :=
  ∃ i, db.intents.get k = some i ∧ i.status.keepsCancel = true

/-! ### Observations of a partial fill -/

/-- The broker shows no order as partially filled whose intent is `cancelPending`. -/
def NoPartialAnswer (s : Tx) (b : BrokerCall) (r : Except PyError b.Ans) : Prop :=
  ∀ o, Answers b r o → o.status = .partiallyFilled → ∀ i, s.view.intents.get o.clientOrderId = some i →
    i.status ≠ .cancelPending

/-- The mirror is open, and no cancel of it is pending at the broker. -/
def BrokerOrderStatus.takesFills : BrokerOrderStatus → Bool
  | received | accepted | acceptedForBidding | partiallyFilled => true
  | _ => false

/-- An update tells that the order of intent `k` is partially filled: a status update that is
neither stale nor known nor contradictory, or a new fill of an open order that does not complete it. -/
def ObservesPartial (db : Db) (k : ClientOrderId) : TradeUpdate → Prop
  | .status u => u.clientOrderId = k ∧ u.status = .partiallyFilled ∧ ∃ r, db.mirrorOf k = some r ∧
      r.brokerOrderId = u.brokerOrderId ∧ ¬ u.observedAt < r.order.updatedAt ∧
      ¬ (u.status = r.order.status ∧ u.filledQuantity = r.order.filledQuantity) ∧ checkStatus r.order u = .ok ()
  | .fill f => ∃ r, db.mirrors.get f.brokerOrderId = some r ∧ r.clientOrderId = k ∧
      db.fills.get f.executionId = none ∧ r.order.status.takesFills = true ∧
      filledWith db r f < r.order.quantity.value

/-- An operation that brings no such update to an intent that is `cancelPending`. -/
def NoPartialUpdate (db : Db) (op : Operation) : Prop :=
  Serial.IsFresh op ∧ ∀ u, op = .consume u → ∀ k i, db.intents.get k = some i → i.status = .cancelPending →
    ¬ ObservesPartial db k u

/-- A fill leads to a partially filled mirror only in this way. -/
theorem fillBrokerTarget_partial {o : BrokerOrder} {n : Nat} (hn : n ≤ o.quantity.value)
    (h : fillBrokerTarget o n = .ok .partiallyFilled) : o.status.takesFills = true ∧ n < o.quantity.value := by
  unfold fillBrokerTarget at h
  split at h
  · rename_i hclosed
    cases h' : o.status <;> simp_all [BrokerOrderStatus.isTerminal, BrokerOrderStatus.isReview]
  · rename_i hopen
    split at h
    · cases h
    · rename_i hpending
      have htakes : o.status.takesFills = true := by
        cases h' : o.status <;>
          simp_all [BrokerOrderStatus.isTerminal, BrokerOrderStatus.isReview, BrokerOrderStatus.takesFills]
      refine ⟨htakes, lt_of_le_of_ne hn fun hfull => ?_⟩
      have hcandidate : fillCandidate o n = .filled := if_pos hfull
      rw [hcandidate] at h
      split at h
      · rename_i hst
        rw [← hst] at htakes
        cases htakes
      · split at h
        · cases h
        · cases h

theorem observesPartial_of_delivers {db : Db} {k : ClientOrderId} {u : TradeUpdate}
    (h : Delivers db k .partiallyFilled u) : ObservesPartial db k u := by
  cases u with
  | status u => exact h
  | fill f =>
      obtain ⟨r, hr, hk, hnew, hle, ht⟩ := h
      obtain ⟨htakes, hlt⟩ := fillBrokerTarget_partial hle ht
      exact ⟨r, hr, hk, hnew, htakes, hlt⟩

/-! ### One step -/

/-- An order and its intent: a partially filled one has no cancel pending. -/
def NotPartial (o : BrokerOrder) (i : OrderIntent) : Prop :=
  o.status = .partiallyFilled → i.status ≠ .cancelPending

section Step

variable {op : Operation} {s : Tx} {db : Db} {k : ClientOrderId}

/-- A lawful move does not send a cancel that is pending back. -/
theorem cancelPending_not_partial {i : OrderIntent} (hop : NoPartialUpdate db op) (horigin : s.origin = db)
    (hshown : ShownSafely NotPartial s) (hi : s.view.intents.get i.clientOrderId = some i) (hst : i.status = .cancelPending)
    {t : OrderStatus} (hlaw : MoveLaw op s i t) : t ≠ .partiallyFilled := by
  rintro rfl
  generalize ht : OrderStatus.partiallyFilled = t at hlaw
  cases hlaw with
  | @follow o _ _ ho hc _ _ _ =>
      rw [hst] at ht
      have hfilling : o.status = .partiallyFilled := by
        cases hb : o.status <;> rw [hb] at ht <;> revert ht <;> decide
      exact hshown o ho i (hc.symm ▸ hi) hfilling hst
  | @stream u m _ hu hdel hcur _ htarget =>
      subst ht
      rw [hst] at htarget
      have hfilling : m.order.status = .partiallyFilled := by
        rcases htarget with htarget | htarget | ⟨-, htarget | htarget⟩
        · cases hb : m.order.status <;> rw [hb] at htarget <;> revert htarget <;> decide
        · cases hb : m.order.status <;> rw [hb] at htarget <;> revert htarget <;> decide
        · cases htarget
        · cases htarget
      rw [hfilling, horigin] at hdel
      refine hop.2 u hu i.clientOrderId i ?_ hst (observesPartial_of_delivers hdel)
      rw [horigin] at hcur
      exact hcur.resolve_right (by rw [hfilling]; decide)
  | _ => cases ht

/-- The transitions out of the kept statuses, but for the one back. -/
theorem keepsCancel_of_allowed {a b : OrderStatus} (ha : a.keepsCancel = true)
    (h : orderTransitionAllowed a b = true) (hne : a = .cancelPending → b ≠ .partiallyFilled) :
    b.keepsCancel = true := by
  cases a <;> cases b <;> revert ha h hne <;> decide

theorem cancelKept_exec {c : StoreCall} {a : c.Ans} {ws : List Write} {now : UtcTimestamp}
    (hop : NoPartialUpdate db op) (horigin : s.origin = db) (hshown : ShownSafely NotPartial s)
    (h : CancelKept k s.view) (hlaw : StatementLaw op s c) (hx : s.view.exec now c = .ok (a, ws)) :
    CancelKept k (s.view.applyAll ws) := by
  refine intent_of_exec hx (fun j t hc hj hst hallowed => ?_) h
  subst hc
  obtain ⟨i, hi, hmove⟩ := hlaw
  obtain rfl : i = j := Option.some.inj (hi.symm.trans hj)
  obtain rfl : i.clientOrderId = k := Table.key_of_get hi
  rcases hallowed with rfl | hallowed
  · exact hst
  · refine keepsCancel_of_allowed hst hallowed fun hpending => ?_
    exact cancelPending_not_partial hop horigin hshown hi hpending hmove

end Step

/-! ### Runs -/

/-- The state of a running operation in which the cancel of intent `k` is not forgotten. -/
structure CancelKeptTx (k : ClientOrderId) (s : Tx) : Prop where
  durable : CancelKept k s.world.db
  seen : CancelKept k s.view
  shown : ShownSafely NotPartial s

theorem cancelKept_sameOrders {k : ClientOrderId} {a b : Db} (h : CancelKept k a) (hs : SameOrders a b) :
    CancelKept k b := by
  unfold CancelKept
  rw [hs.intents]
  exact h

theorem cancelKept_effect {op : Operation} {db : Db} {k : ClientOrderId} (hop : NoPartialUpdate db op) {s s' : Tx}
    (horigin : s.origin = db) (h : CancelKeptTx k s) (he : Effect op NoPartialAnswer s s') : CancelKeptTx k s' := by
  have hshown : ShownSafely NotPartial s' :=
    shownSafely_effect (fun o i hi _ => by rw [hi]; decide) (fun s b r hadm o ho i hi hfilling => hadm o ho hfilling i hi)
      h.shown he
  obtain ⟨hdb, hview⟩ := he.keeps cancelKept_sameOrders
    (fun hlaw hx => cancelKept_exec hop horigin h.shown h.seen hlaw hx) h.durable h.seen
  exact ⟨hdb, hview, hshown⟩

theorem cancelKept_runs {uuid5 : NameUuid} {k : ClientOrderId} {db₀ db : Db}
    (h : Runs uuid5 NoPartialUpdate NoPartialAnswer db₀ db) (h₀ : CancelKept k db₀) : CancelKept k db := by
  induction h with
  | refl => exact h₀
  | operation _ hop hreach ih =>
      have hs : CancelKeptTx k _ := reach_invariant hop.1
        (fun s s' horigin hs he => cancelKept_effect hop horigin hs he)
        ⟨ih, ih, shownSafely_none rfl⟩ hreach
      exact hs.durable

/-- A cancel that has been requested is not forgotten, as long as neither the broker nor an update
shows an order as partially filled while its intent is `cancelPending`. -/
theorem cancelPending_kept (uuid5 : NameUuid) (db₀ db : Db) (k : ClientOrderId) (i : OrderIntent)
    (hi : db₀.intents.get k = some i) (hst : i.status = .cancelPending)
    (hruns : Runs uuid5 NoPartialUpdate NoPartialAnswer db₀ db) :
    ∃ j, db.intents.get k = some j ∧ (j.status = .cancelPending ∨ j.status = .canceled ∨ j.status = .expired ∨
      j.status = .filled ∨ j.status = .reviewRequired) := by
  obtain ⟨j, hj, hkept⟩ := cancelKept_runs hruns ⟨i, hi, by rw [hst]; rfl⟩
  refine ⟨j, hj, ?_⟩
  cases hs : j.status <;> simp_all [OrderStatus.keepsCancel]

/-- The sample intent is submitted, accepted, and its cancel requested. -/
def cancelingDb : Db :=
  engineAfter (.requestCancel sampleId) (sampleOrder .accepted 0 2)
    (engineAfter (.submitFromOutbox sampleId) (sampleOrder .accepted 0 2) queuedDb)

theorem cancelingDb_status :
    ∃ i, cancelingDb.intents.get sampleId = some i ∧ i.status = .cancelPending := by
  have h : (cancelingDb.intents.get sampleId).map OrderIntent.status = some .cancelPending := by decide +kernel
  simpa using h

/-- The broker cancels the order. -/
theorem cancelPending_kept_sample :
    ∃ j, (engineAfter (.applyFills sampleId) (sampleOrder .canceled 0 3) cancelingDb).intents.get sampleId = some j ∧
      (j.status = .cancelPending ∨ j.status = .canceled ∨ j.status = .expired ∨ j.status = .filled ∨
        j.status = .reviewRequired) := by
  obtain ⟨i, hi, hst⟩ := cancelingDb_status
  refine cancelPending_kept sampleUuid5 cancelingDb _ sampleId i hi hst ?_
  refine Runs.after (.refl _) ⟨trivial, by rintro u ⟨⟩⟩ (showingEnv_mild _) ?_
  intro s b o ho hfilling
  have hcanceled : o.status = .canceled := by
    cases b <;> simp only [showingEnv, Answers] at ho <;> subst ho <;> rfl
  rw [hcanceled] at hfilling
  cases hfilling

/-- A partial fill forgets the cancel: the operations reach a store in which the intent is
`cancelPending`, and one more operation of the engine commits it as `partiallyFilled`. -/
theorem cancelPending_forgotten : ∃ db₁ db₂,
    Runs sampleUuid5 (fun _ => Serial.IsFresh) (fun _ _ _ => True) emptyDb db₁ ∧
    (db₁.intents.get sampleId).map OrderIntent.status = some .cancelPending ∧
    Runs sampleUuid5 (fun _ op => ∃ cfg e, op = .engine cfg e) (fun _ _ _ => True) db₁ db₂ ∧
    (db₂.intents.get sampleId).map OrderIntent.status = some .partiallyFilled := by
  refine ⟨cancelingDb, engineAfter (.applyFills sampleId) (sampleOrder .partiallyFilled 4 3) cancelingDb, ?_,
    by decide +kernel, ?_, by decide +kernel⟩
  · have hqueued : Runs sampleUuid5 (fun _ => Serial.IsFresh) (fun _ _ _ => True) emptyDb queuedDb :=
      runs_queued ⟨by decide, by decide⟩ fun _ _ => trivial
    have hengine : ∀ e, Serial.IsFresh (.engine sampleConfig e) := fun _ => trivial
    exact (hqueued.after (hengine (.submitFromOutbox sampleId)) (showingEnv_mild (sampleOrder .accepted 0 2))
      fun _ _ => trivial).after (hengine (.requestCancel sampleId)) (showingEnv_mild _) fun _ _ => trivial
  · exact Runs.after (.refl _) ⟨_, _, rfl⟩ (showingEnv_mild _) fun _ _ => trivial

end SevenLens
