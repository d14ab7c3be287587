import SevenLens.ConsumerStream

/-! # Out-of-order observations

An observation is judged stale against the watermark of the mirror only.  An applied
observation moves the watermark, a repeated one does not; so an older observation is ignored
as long as no repeated observation was newer than the watermark (`TimelyRun`), and may take
effect otherwise (`olderObservation_applied`). -/

namespace SevenLens

open Calls Prog

variable {env : Env} {uuid5 : NameUuid} {w : World}

/-- The update does not repeat the mirror's status and quantity with a later timestamp. -/
def Timely (db : Db) : TradeUpdate → Prop
  | .fill _ => True
  | .status u => ∀ row ∈ db.mirrorOf u.clientOrderId, row.brokerOrderId = u.brokerOrderId →
      u.status = row.order.status → u.filledQuantity = row.order.filledQuantity →
      u.observedAt ≤ row.order.updatedAt

instance decidableTimely (db : Db) : (u : TradeUpdate) → Decidable (Timely db u)
  | .fill _ => isTrue trivial
  | .status u => inferInstanceAs (Decidable (∀ row ∈ db.mirrorOf u.clientOrderId, _))

/-- Every update of the stream is timely in the state it is delivered to. -/
def TimelyRun (env : Env) (uuid5 : NameUuid) : World → List TradeUpdate → Prop
  | _, [] => True
  | w, u :: us => Timely w.db u ∧ TimelyRun env uuid5 (run (handler env) (applyUpdate uuid5 u) w).2 us

instance decidableTimelyRun (env : Env) (uuid5 : NameUuid) :
    (w : World) → (us : List TradeUpdate) → Decidable (TimelyRun env uuid5 w us)
  | _, [] => isTrue trivial
  | w, u :: us =>
      have := decidableTimelyRun env uuid5 (run (handler env) (applyUpdate uuid5 u) w).2 us
      inferInstanceAs (Decidable (_ ∧ _))

theorem TimelyRun.at_append {us vs : List TradeUpdate} {u : TradeUpdate}
    (h : TimelyRun env uuid5 w (us ++ u :: vs)) : Timely (deliver env uuid5 w us).2.db u := by
  induction us generalizing w with
  | nil => exact h.1
  | cons v us ih => exact ih h.2

/-- The outcome of consuming an observation, whether it was applied or recognised as repeated. -/
def IsConsumed (r : Except PyError TradeUpdateOutcome) : Prop := r = .ok .applied ∨ r = .ok .duplicate

/-- The watermark of the order `c` is at least `t`. -/
def WatermarkAtLeast (t : UtcTimestamp) (c : ClientOrderId) (db : Db) : Prop :=
  ∃ row, db.mirrorOf c = some row ∧ t ≤ row.order.updatedAt

theorem WatermarkAtLeast.forward {t : UtcTimestamp} {c : ClientOrderId} {db db' : Db}
    (h : WatermarkAtLeast t c db) (hf : Forward db db') : WatermarkAtLeast t c db' := by
  obtain ⟨row, hm, ht⟩ := h
  obtain ⟨hget, hc⟩ := Db.get_of_mirrorOf hm
  obtain ⟨row', hget', hrow⟩ := hf.mirrors _ _ hget
  refine ⟨row', ?_, ht.trans hrow.watermark⟩
  rw [← hc, ← hrow.client]
  exact Db.mirrorOf_of_get hget'

/-- A timely observation that is consumed is covered by the watermark from then on. -/
theorem watermarkAtLeast_of_consumed {db db' : Db} {v : OrderStatusUpdate}
    {r : Except PyError TradeUpdateOutcome} (h : Consumed db (.status v) r db') (hr : IsConsumed r)
    (ht : Timely db (.status v)) : WatermarkAtLeast v.observedAt v.clientOrderId db' := by
  cases h with
  | unknownStatus => rcases hr with hr | hr <;> cases hr
  | stale => rcases hr with hr | hr <;> cases hr
  | refusedStatus => rcases hr with hr | hr <;> cases hr
  | repeatedStatus hm hb hle hs => exact ⟨_, hm, ht _ hm hb hs.1 hs.2⟩
  | @observed _ row i _ hi hm hb hle hd =>
      obtain ⟨hget, hc⟩ := Db.get_of_mirrorOf hm
      cases hd with
      | moved hcheck hob hq hf hd =>
          have hself : db'.mirrors.get row.brokerOrderId =
              some (row.refreshed v.status v.filledQuantity (some v.observedAt) hq hf) := by
            rw [hd.mirrors]
            exact Table.get_put_self hget
          refine ⟨row.refreshed v.status v.filledQuantity (some v.observedAt) hq hf, ?_, le_rfl⟩
          rw [← hc]
          exact Db.mirrorOf_of_get hself

/-- An observation older than the watermark changes nothing. -/
theorem unchanged_of_older {db db' : Db} {u : OrderStatusUpdate}
    {r : Except PyError TradeUpdateOutcome} (h : Consumed db (.status u) r db') {t : UtcTimestamp}
    (hw : WatermarkAtLeast t u.clientOrderId db) (hlt : u.observedAt < t) : db' = db := by
  obtain ⟨row, hrow, ht⟩ := hw
  cases h with
  | unknownStatus => rfl
  | stale => rfl
  | repeatedStatus => rfl
  | observed hi hm hb hle hd =>
      obtain rfl : row = _ := Option.some.inj (hrow.symm.trans hm)
      exact absurd (hlt.trans_le ht) (not_lt.mpr hle)
  | refusedStatus hi hm hle hr he hgate =>
      obtain rfl : row = _ := Option.some.inj (hrow.symm.trans hm)
      exact absurd (hlt.trans_le ht) (not_lt.mpr hle)

/-- **Older observations never take effect in a timely run.**  In a stream whose updates are
all timely, an observation `u` strictly older than an observation `v` of the same order that
was consumed earlier leaves the tables as they are. -/
theorem olderObservation_ignored (env : Env) (uuid5 : NameUuid) (db : Db)
    (us vs ws : List TradeUpdate) (v u : OrderStatusUpdate)
    (htimely : TimelyRun env uuid5 (.start db) (us ++ .status v :: (vs ++ .status u :: ws)))
    (hv : IsConsumed (run (handler env) (applyUpdate uuid5 (.status v))
      (deliver env uuid5 (.start db) us).2).1)
    (hc : u.clientOrderId = v.clientOrderId) (hlt : u.observedAt < v.observedAt) :
    (run (handler env) (applyUpdate uuid5 (.status u))
      (deliver env uuid5 (.start db) (us ++ .status v :: vs)).2).2.db =
    (deliver env uuid5 (.start db) (us ++ .status v :: vs)).2.db := by
  have hidle : (deliver env uuid5 (.start db) us).2.Idle := deliver_idle (World.start_idle db) us
  have hrun : run (handler env) (applyUpdate uuid5 (.status v)) (deliver env uuid5 (.start db) us).2 =
    (_, _) := rfl
  obtain ⟨hidle₁, hcons, -⟩ := applyUpdate_consumed hidle hrun
  have hmark := watermarkAtLeast_of_consumed hcons hv htimely.at_append
  have hrun₂ : run (handler env) (applyUpdate uuid5 (.status u))
    (deliver env uuid5 (.start db) (us ++ .status v :: vs)).2 = (_, _) := rfl
  have hidle₂ : (deliver env uuid5 (.start db) (us ++ .status v :: vs)).2.Idle :=
    deliver_idle (World.start_idle db) _
  obtain ⟨-, hcons₂, -⟩ := applyUpdate_consumed hidle₂ hrun₂
  refine unchanged_of_older hcons₂ (t := v.observedAt) ?_ hlt
  rw [hc, deliver_append]
  exact hmark.forward (deliver_forward hidle₁ vs)

/-- An accepted order filled to four shares at instant 5 ignores an observation of instant 3. -/
theorem olderObservation_ignored_accepted :
    (run (handler sampleEnv) (applyUpdate sampleUuid5 (.status (sampleStatus .partiallyFilled 2 3)))
      (deliver sampleEnv sampleUuid5 (.start (sampleDb .acknowledged sampleRow))
        ([] ++ .status (sampleStatus .partiallyFilled 4 5) :: [])).2).2.db =
    (deliver sampleEnv sampleUuid5 (.start (sampleDb .acknowledged sampleRow))
      ([] ++ .status (sampleStatus .partiallyFilled 4 5) :: [])).2.db :=
  olderObservation_ignored sampleEnv sampleUuid5 (sampleDb .acknowledged sampleRow) [] [] []
    (sampleStatus .partiallyFilled 4 5) (sampleStatus .partiallyFilled 2 3) (by decide +kernel)
    (Or.inl (by decide +kernel)) rfl (by decide)

/-- A repeated observation of instant 5 leaves the watermark at instant 1, and an observation
of instant 3 that arrives afterwards moves the mirror and the intent. -/
theorem olderObservation_applied :
    let w := (deliver sampleEnv sampleUuid5 (.start (sampleDb .acknowledged sampleRow))
      [.status (sampleStatus .accepted 0 5)])
    let out := run (handler sampleEnv)
      (applyUpdate sampleUuid5 (.status (sampleStatus .partiallyFilled 4 3))) w.2
    w.1 = [.ok .duplicate] ∧ instant 3 < instant 5 ∧ out.1 = .ok .applied ∧
      (out.2.db.getBrokerOrder sampleId).map BrokerOrder.status = some .partiallyFilled ∧
      (w.2.db.getBrokerOrder sampleId).map BrokerOrder.status = some .accepted ∧
      (out.2.db.getIntent sampleId).map OrderIntent.status = some .partiallyFilled ∧
      (w.2.db.getIntent sampleId).map OrderIntent.status = some .acknowledged := by
  decide +kernel

end SevenLens
