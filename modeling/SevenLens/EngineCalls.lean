import SevenLens.Engine

/-! # The calls of the engine

Which calls the parts of the engine issue and which exceptions they raise, for any set of calls that has the
ones they need.  A conflict is made durable by the same few statements whatever has caused it
(`ConflictCalls`), and the absorption of a broker order adds its own writes to them. -/

namespace SevenLens

open Calls Prog

/-- The calls that pause the entries. -/
structure PauseCalls (C : Call → Prop) : Prop where
  pause : ∀ h r, C (.store h (.setEntriesPaused true r))
  audit : ∀ h r, C (.store h (.addCommand r))
  clock : C .clock
  commit : C (.commit .uow)
  rollback : C (.rollback .uow)

/-- The calls that make a conflict over intent `k` durable, and the reads before it. -/
structure ConflictCalls (C : Call → Prop) (k : ClientOrderId) : Prop extends PauseCalls C where
  review : C (.store .uow (.transitionStatus k .reviewRequired))
  getIntent : ∀ c, C (.store .uow (.getIntent c))
  getBrokerOrder : ∀ c, C (.store .uow (.getBrokerOrder c))
  getBrokerOrderById : ∀ b, C (.store .uow (.getBrokerOrderById b))
  getFill : ∀ e, C (.store .uow (.getFillByExecutionId e))

/-- The exceptions that the engine raises over a conflict. -/
structure ConflictErrors (E : PyError → Prop) : Prop where
  persistence : ∀ m, E ⟨.controlPersistence, m⟩
  mismatch : ∀ m, E ⟨.brokerMirrorMismatch, m⟩

variable {C : Call → Prop} {E : PyError → Prop} (cfg : EngineConfig) (uuid5 : NameUuid)

theorem calls_ask {c : Call} (h : C c) : Within C E (ask c) := within_perform (S := ports) h

theorem calls_pause (hC : PauseCalls C) (hE : ∀ m, E ⟨.controlPersistence, m⟩) (i : OrderIntent) (conflict : String) :
    Within C E (pauseForReconciliationRequired cfg uuid5 i conflict) := by
  unfold pauseForReconciliationRequired
  refine within_ite (fun _ => trivial) fun _ => ?_
  split
  · trivial
  · rename_i h _
    unfold recordPause recordPauseAudit
    simp only [bind_eq, pure_eq_ret]
    have hroll : ∀ m, Within C E ((suppress rollback).bind fun _ => (fail .controlPersistence m : Proc Unit)) :=
      fun m => within_bind (within_suppress (calls_ask hC.rollback)) fun _ => hE m
    refine within_bind (within_catch ?_ fun _ => ?_) fun _ => within_bind (within_catch ?_ fun _ => ?_) fun _ => ?_
    · exact within_bind (calls_ask (hC.pause h _)) fun _ => within_ite (fun _ => calls_ask hC.commit) fun _ => trivial
    · exact within_ite (fun _ => hroll _) fun _ => hE _
    · refine within_bind (calls_ask hC.clock) fun _ => within_bind (within_ofExcept fun _ _ => trivial) fun _ => ?_
      exact within_bind (calls_ask (hC.audit h _)) fun _ => trivial
    · exact within_ite (fun _ => hroll _) fun _ => hE _
    · exact within_ite (fun _ => within_catch (calls_ask hC.commit) fun _ => hroll _) fun _ => trivial

section Conflicts

variable {i : OrderIntent} (hC : ConflictCalls C i.clientOrderId) (hE : ConflictErrors E)

include hC hE

theorem calls_raiseConflict {α : Type} (conflict message : String) :
    Within C E (raiseConflict cfg uuid5 i conflict message : Proc α) := by
  unfold raiseConflict persistReviewAndPause
  simp only [bind_eq, pure_eq_ret]
  refine within_bind (within_bind (calls_ask (hC.getIntent _)) fun j => ?_) fun _ => hE.mismatch _
  split
  · exact hE.persistence _
  · have hpause : ∀ k, Within C E ((pauseForReconciliationRequired cfg uuid5 k conflict).bind fun _ => ret k) :=
      fun k => within_bind (calls_pause cfg uuid5 hC.toPauseCalls hE.persistence k conflict) fun _ => trivial
    refine within_ite (fun _ => hpause _) fun _ => within_bind (within_catch ?_ fun _ => ?_) hpause
    · exact within_bind (calls_ask hC.review) fun _ => within_bind (calls_ask hC.commit) fun _ => trivial
    · exact within_bind (within_suppress (calls_ask hC.rollback)) fun _ => hE.persistence _

theorem calls_assertMirrorMatches (o : BrokerOrder) : Within C E (assertMirrorMatches cfg uuid5 i o) := by
  unfold assertMirrorMatches
  simp only [bind_eq, pure_eq_ret]
  refine within_bind (calls_ask (hC.getBrokerOrder _)) fun _ => within_bind (calls_ask (hC.getBrokerOrderById _)) fun _ => ?_
  exact within_ite (fun _ => trivial) fun _ => calls_raiseConflict cfg uuid5 hC hE _ _

theorem calls_checkFills (o : BrokerOrder) (fills seen : List Fill) : Within C E (checkFills cfg uuid5 i o fills seen) := by
  induction fills generalizing seen with
  | nil => trivial
  | cons f fills ih =>
    simp only [checkFills, bind_eq]
    split
    · exact within_ite (fun _ => calls_raiseConflict cfg uuid5 hC hE _ _) fun _ => ih seen
    · refine within_ite (fun _ => calls_raiseConflict cfg uuid5 hC hE _ _) fun _ => within_bind (calls_ask (hC.getFill _)) fun _ => ?_
      exact within_ite (fun _ => calls_raiseConflict cfg uuid5 hC hE _ _) fun _ => ih (f :: seen)

theorem calls_addFills {fills : List Fill} (hfills : ∀ f ∈ fills, C (.store .uow (.addFill f))) :
    Within C E (addFills cfg uuid5 i fills) := by
  induction fills with
  | nil => trivial
  | cons f fills ih =>
    have hrest := ih fun g hg => hfills g (List.mem_cons_of_mem f hg)
    simp only [addFills, bind_eq]
    refine within_bind (calls_ask (hfills f List.mem_cons_self)) fun _ => within_ite (fun _ => hrest) fun _ => ?_
    refine within_bind (calls_ask (hC.getFill _)) fun _ => ?_
    exact within_ite (fun _ => calls_raiseConflict cfg uuid5 hC hE _ _) fun _ => hrest

theorem calls_mirrorBrokerOrder {o : BrokerOrder} (ho : C (.store .uow (.recordBrokerOrder o))) :
    Within C E (mirrorBrokerOrder cfg uuid5 i o) := by
  unfold mirrorBrokerOrder
  simp only [bind_eq, pure_eq_ret]
  refine within_tryCatch (within_bind (calls_ask ho) fun _ => trivial) fun e he => within_ite (fun _ => ?_) fun _ => he
  exact within_bind (within_suppress (calls_ask hC.rollback)) fun _ => calls_raiseConflict cfg uuid5 hC hE _ _

end Conflicts

theorem calls_followBrokerOrder {i : OrderIntent} {t : OrderStatus} (ht : C (.store .uow (.transitionStatus i.clientOrderId t)))
    (hE : ∀ m, E ⟨.executionState, m⟩) : Within C E (followBrokerOrder i t) := by
  unfold followBrokerOrder
  exact within_ite (fun _ => within_ite (fun _ => calls_ask ht) fun _ => hE _) fun _ => trivial

theorem calls_becomeUnknown (hC : PauseCalls C) (hE : ∀ m, E ⟨.controlPersistence, m⟩) {i : OrderIntent}
    (hi : C (.store .uow (.transitionStatus i.clientOrderId .unknown))) : Within C E (becomeUnknown cfg uuid5 i) := by
  unfold becomeUnknown
  simp only [bind_eq, pure_eq_ret]
  refine within_bind (calls_ask hi) fun _ => within_bind (calls_ask hC.commit) fun _ => ?_
  exact within_bind (calls_pause cfg uuid5 hC hE i _) fun _ => trivial

end SevenLens
