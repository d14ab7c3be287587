import SevenLens.Alpaca.Adapter
import SevenLens.EntryGate

/-! # Rejected submissions

A broker keeps at most one order per client id and refuses a repeated one.  Answers get lost, so an intent
may be submitted again although its order exists.  The adapter tells a refusal of a repeated id from a
rejection by the wording of the message: `rejected_absent_iff` says that a run of submissions reports no live
order as rejected exactly when the wording of every such refusal is recognised.

The engine makes an intent rejected only after a rejection, or for an order that the broker itself shows as
rejected (`afterSubmit_open`). -/

namespace SevenLens.Alpaca

open Calls Prog

/-! ### The broker -/

/-- The request that submits an intent. -/
def submission (i : OrderIntent) : Request := ⟨.post, "/v2/orders", [], some (orderBody i)⟩

/-- The status of a refusal. -/
def IsRefusal (a : AlpacaResponse) : Prop := a.status = 400 ∨ a.status = 422

instance (a : AlpacaResponse) : Decidable (IsRefusal a) := inferInstanceAs (Decidable (_ ∨ _))

/-- What a submission under the client id `id` does to the ids with an order, and what the adapter gets to
see of it: any answer may be lost on the way. -/
inductive Processed (held : List String) (id : String) : Except PyError AlpacaResponse → List String → Prop
  /-- The order is accepted. -/
  | accepted {x : Except PyError AlpacaResponse} : id ∉ held → (∀ a, x = .ok a → ¬ IsRefusal a) → Processed held id x (id :: held)
  /-- The order is refused, or the request is lost. -/
  | refused {x : Except PyError AlpacaResponse} : id ∉ held → Processed held id x held
  /-- The id is known: the broker refuses it with any body. -/
  | repeated {x : Except PyError AlpacaResponse} : id ∈ held → (∀ a, x = .ok a → a.status / 100 ≠ 2) → Processed held id x held

/-- A broker with the client ids of its orders. -/
structure Broker (σ : Type) where
  handler : Handler transport PyError σ
  held : σ → List String
  submits : ∀ (i : OrderIntent) (s : σ),
    Processed (held s) i.clientOrderId.value (handler (submission i) s).1 (held (handler (submission i) s).2)
  reads : ∀ (r : Request) (s : σ), r.method = .get → held (handler r s).2 = held s

/-- One submission of a run. -/
structure Attempt (σ : Type) where
  intent : OrderIntent
  before : σ
  result : Except PyError SubmitResult
  after : σ

namespace Broker

variable {σ : Type} (b : Broker σ)

def attempt (i : OrderIntent) (s : σ) : Attempt σ :=
  ⟨i, s, (run b.handler (submitOrder i) s).1, (run b.handler (submitOrder i) s).2⟩

/-- A run of submissions, of the same or of different intents. -/
def submissions : List OrderIntent → σ → List (Attempt σ)
  | [], _ => []
  | i :: is, s => b.attempt i s :: submissions is (b.attempt i s).after

/-- A submission that is reported as rejected has no order. -/
def Absent (a : Attempt σ) : Prop :=
  ∀ reason, a.result = .ok (.rejected reason) → a.intent.clientOrderId.value ∉ b.held a.after

/-- If the id has an order already and the refusal arrives, its wording is recognised. -/
def Recognised (a : Attempt σ) : Prop :=
  a.intent.clientOrderId.value ∈ b.held a.before → ∀ x, (b.handler (submission a.intent) a.before).1 = .ok x →
    IsRefusal x → isDuplicateRejection x.body = true

end Broker

/-! ### One submission -/

theorem rejection_rejected (body : Json) : ∃ reason, rejection body = .rejected reason := by
  unfold rejection
  split
  · split
    · exact ⟨_, rfl⟩
    · exact ⟨_, rfl⟩
  · exact ⟨_, rfl⟩

/-- What a submission does with the answer of the broker. -/
def afterPost (i : OrderIntent) (a : AlpacaResponse) : Wire SubmitResult :=
  if a.status ∈ timeoutStatusCodes then Prog.raise (transportError "Alpaca submission outcome is unknown")
  else if IsRefusal a then
    if isDuplicateRejection a.body then resolveDuplicate i else pure (rejection a.body)
  else if a.status / 100 ≠ 2 then Prog.raise (transportError "Alpaca submission failed")
  else do return .accepted (← Prog.ofExcept (brokerOrderFromPayload a.body))

theorem submitOrder_eq (i : OrderIntent) : submitOrder i = (request (submission i)).bind (afterPost i) := rfl

section Attempts

variable {σ : Type} (b : Broker σ)

theorem run_submitOrder (i : OrderIntent) (s : σ) : run b.handler (submitOrder i) s =
    match b.handler (submission i) s with
    | (.ok a, s') => run b.handler (afterPost i a) s'
    | (.error e, s') => (.error e, s') := by
  rw [submitOrder_eq, run_bind]
  have hrequest : run b.handler (request (submission i)) s = b.handler (submission i) s :=
    run_perform (S := transport) b.handler (submission i) s
  rw [hrequest]
  rcases b.handler (submission i) s with ⟨_ | a, s'⟩
  · rfl
  · rfl

/-- Resolving a duplicate ends with an order, if it returns. -/
theorem yields_resolveDuplicate (i : OrderIntent) :
    Yields (S := transport) (fun _ (_ : Except PyError AlpacaResponse) => True) (resolveDuplicate i)
      (fun r => ∃ o, r = .accepted o) := by
  refine yields_bind (yields_true _) fun a _ => ?_
  split_ifs with hmissing htimeout hfailed
  · exact yields_raise _
  · exact yields_raise _
  · exact yields_raise _
  · refine yields_bind (yields_true _) fun o _ => ?_
    split_ifs with hconflict
    · exact yields_raise _
    · exact yields_ret ⟨o, rfl⟩

/-- A rejection is a refusal that is not taken for a duplicate. -/
theorem rejected_of_run {h : Handler transport PyError σ} {i : OrderIntent} {a : AlpacaResponse} {s : σ} {reason : RejectionReason}
    (hrun : (run h (afterPost i a) s).1 = .ok (.rejected reason)) :
    IsRefusal a ∧ isDuplicateRejection a.body = false ∧ (run h (afterPost i a) s).2 = s := by
  unfold afterPost at hrun ⊢
  split_ifs at hrun ⊢ with htimeout hrefusal hduplicate hfailed
  · cases hrun
  · obtain ⟨o, ho⟩ := (yields_resolveDuplicate i).run (I := fun _ => True) (fun _ _ _ _ => ⟨trivial, trivial⟩)
      (within_true _) trivial hrun
    cases ho
  · exact ⟨hrefusal, by simpa using hduplicate, rfl⟩
  · cases hrun
  · cases horder : brokerOrderFromPayload a.body with
    | ok o =>
      rw [horder] at hrun
      cases hrun
    | error e =>
      rw [horder] at hrun
      cases hrun

theorem run_rejection {h : Handler transport PyError σ} {i : OrderIntent} {a : AlpacaResponse} {s : σ} (ha : IsRefusal a)
    (hbody : isDuplicateRejection a.body = false) : ∃ reason, run h (afterPost i a) s = (.ok (.rejected reason), s) := by
  obtain ⟨reason, hreason⟩ := rejection_rejected a.body
  have htimeout : a.status ∉ timeoutStatusCodes := by
    obtain ha | ha := ha
    · rw [ha]
      decide
    · rw [ha]
      decide
  refine ⟨reason, ?_⟩
  rw [afterPost, if_neg htimeout, if_pos ha, if_neg (by simp [hbody]), hreason]
  rfl

/-- One submission reports no live order as rejected exactly when its refusal is recognised. -/
theorem absent_iff (i : OrderIntent) (s : σ) : b.Absent (b.attempt i s) ↔ b.Recognised (b.attempt i s) := by
  have hprocessed := b.submits i s
  have hrun := run_submitOrder b i s
  have hresult : (b.attempt i s).result = (run b.handler (submitOrder i) s).1 := rfl
  have hafter : (b.attempt i s).after = (run b.handler (submitOrder i) s).2 := rfl
  rcases hx : b.handler (submission i) s with ⟨x, s'⟩
  rw [hx] at hprocessed hrun
  change Processed (b.held s) i.clientOrderId.value x (b.held s') at hprocessed
  cases x with
  | error e =>
    refine iff_of_true ?_ ?_
    · intro reason h
      rw [hresult, hrun] at h
      cases h
    · intro _ a ha
      have : (b.handler (submission i) s).1 = .ok a := ha
      rw [hx] at this
      cases this
  | ok a =>
    change run b.handler (submitOrder i) s = run b.handler (afterPost i a) s' at hrun
    generalize hkeys : b.held s' = keys at hprocessed
    constructor
    · intro habsent hheld a' ha' hrefusal
      have : (b.handler (submission i) s).1 = .ok a' := ha'
      rw [hx] at this
      cases this
      by_contra hbody
      obtain ⟨reason, hrejected⟩ := @run_rejection σ b.handler i a s' hrefusal (by simpa using hbody)
      rw [hrejected] at hrun
      have hkept : b.held s' = b.held s := by
        rw [hkeys]
        cases hprocessed with
        | accepted hnew _ => exact absurd hheld hnew
        | refused _ => rfl
        | repeated _ _ => rfl
      refine habsent reason (hresult.trans (congrArg Prod.fst hrun)) ?_
      rw [hafter, hrun, hkept]
      exact hheld
    · intro hrecognised reason h
      rw [hresult, hrun] at h
      obtain ⟨hrefusal, hbody, hstate⟩ := rejected_of_run h
      have hnot : i.clientOrderId.value ∉ b.held s := by
        intro hheld
        have hnamed := hrecognised hheld a (by rw [Broker.attempt, hx]) hrefusal
        rw [hbody] at hnamed
        cases hnamed
      rw [hafter, hrun, hstate, hkeys]
      cases hprocessed with
      | accepted _ haccepted => exact absurd hrefusal (haccepted a rfl)
      | refused _ => exact hnot
      | repeated hheld _ => exact absurd hheld hnot

end Attempts

/-! ### The engine -/

/-- Every call but the one that makes an intent rejected. -/
def KeepsOpen : Call → Prop
  | .store _ (.transitionStatus _ t) => t ≠ .rejected
  | _ => True

section Engine

variable (cfg : EngineConfig) (uuid5 : NameUuid)

theorem pauseCalls_keepsOpen : PauseCalls KeepsOpen := ⟨fun _ _ => trivial, fun _ _ => trivial, trivial, trivial, trivial⟩

theorem conflictCalls_keepsOpen (k : ClientOrderId) : ConflictCalls KeepsOpen k :=
  ⟨pauseCalls_keepsOpen, by simp [KeepsOpen], fun _ => trivial, fun _ => trivial, fun _ => trivial, fun _ => trivial⟩

theorem conflictErrors_all : ConflictErrors fun _ => True := ⟨fun _ => trivial, fun _ => trivial⟩

/-- Only a rejected order leads to a rejected intent. -/
theorem refreshTarget_open {b : BrokerOrderStatus} (hb : b ≠ .rejected) (t : OrderStatus) : refreshTarget b t ≠ .rejected := by
  cases b with
  | rejected => exact absurd rfl hb
  | _ => cases t <;> decide

theorem open_recordAccepted (i : OrderIntent) {o : BrokerOrder} (ho : o.status ≠ .rejected) :
    Within KeepsOpen (fun _ => True) (recordAccepted cfg uuid5 i o) := by
  have hconflict := conflictCalls_keepsOpen i.clientOrderId
  unfold recordAccepted refreshFromBrokerOrder
  simp only [bind_eq, pure_eq_ret]
  refine within_bind (calls_assertMirrorMatches cfg uuid5 hconflict conflictErrors_all o) fun _ => ?_
  refine within_bind (calls_ask (c := .broker (.listFills o.brokerOrderId)) trivial) fun fills => ?_
  refine within_bind (calls_checkFills cfg uuid5 hconflict conflictErrors_all o fills []) fun _ => ?_
  refine within_bind (calls_mirrorBrokerOrder cfg uuid5 hconflict conflictErrors_all trivial) fun _ => ?_
  refine within_bind (calls_addFills cfg uuid5 hconflict conflictErrors_all fun _ _ => trivial) fun _ => ?_
  refine within_bind (calls_followBrokerOrder (refreshTarget_open ho _) fun _ => trivial) fun _ => ?_
  exact within_bind (calls_ask (c := .commit .uow) trivial) fun _ => trivial

/-- After an answer that is neither a rejection nor a rejected order the engine does not reject the intent. -/
theorem afterSubmit_open (i : OrderIntent) {x : Except PyError SubmitResult}
    (hx : ∀ reason, x ≠ .ok (.rejected reason)) (ho : ∀ o, x = .ok (.accepted o) → o.status ≠ .rejected) :
    Within KeepsOpen (fun _ => True) (afterSubmit cfg uuid5 i x) := by
  have hunknown : Within KeepsOpen (fun _ => True) (becomeUnknown cfg uuid5 i) :=
    calls_becomeUnknown cfg uuid5 pauseCalls_keepsOpen (fun _ => trivial) (by simp [KeepsOpen])
  unfold afterSubmit
  split
  · exact within_ite (fun _ => hunknown) fun _ =>
      within_ite (fun _ => within_bind hunknown fun _ => trivial) fun _ => trivial
  · rename_i reason
    exact absurd rfl (hx reason)
  · rename_i o
    exact open_recordAccepted cfg uuid5 i (ho o rfl)

end Engine

/-! ### Runs of submissions -/

/-- In every run, what is reported as rejected has no order exactly when every refusal of a repeated id that
arrives is recognised; and the engine rejects an intent after a rejection or a rejected order only. -/
theorem rejected_absent_iff {σ : Type} (b : Broker σ) (is : List OrderIntent) (s : σ) (cfg : EngineConfig) (uuid5 : NameUuid) :
    ((∀ a ∈ b.submissions is s, b.Absent a) ↔ ∀ a ∈ b.submissions is s, b.Recognised a) ∧
    ∀ (i : OrderIntent) (x : Except PyError SubmitResult), Within KeepsOpen (fun _ => True) (afterSubmit cfg uuid5 i x) ∨
      (∃ reason, x = .ok (.rejected reason)) ∨ ∃ o, x = .ok (.accepted o) ∧ o.status = .rejected := by
  refine ⟨?_, fun i x => ?_⟩
  · induction is generalizing s with
    | nil => exact iff_of_true (by simp [Broker.submissions]) (by simp [Broker.submissions])
    | cons i is ih =>
      simp only [Broker.submissions, List.forall_mem_cons]
      exact and_congr (absent_iff b i s) (ih _)
  · by_cases hrejected : ∃ reason, x = .ok (.rejected reason)
    · exact Or.inr (Or.inl hrejected)
    by_cases horder : ∃ o, x = .ok (.accepted o) ∧ o.status = .rejected
    · exact Or.inr (Or.inr horder)
    refine Or.inl (afterSubmit_open cfg uuid5 i (fun reason h => hrejected ⟨reason, h⟩) fun o h ho => ?_)
    exact horder ⟨o, h, ho⟩

/-! ### A lost answer -/

/-- A broker that names a repeated id in its own words, and whose acceptances are lost. -/
def tersePost (id : String) (held : List String) : Except PyError AlpacaResponse × List String :=
  if id ∈ held then (.ok ⟨422, .obj [("message", .str "order not unique")], by decide⟩, held)
  else (.error (transportError "Alpaca response was lost"), id :: held)

/-- The broker of which every order has the id of its intent. -/
def terse : Broker (List String) where
  handler r held :=
    match r.method, r.body with
    | .post, some (.obj (("client_order_id", .str id) :: _)) => tersePost id held
    | _, _ => (.error (transportError "Alpaca response was lost"), held)
  held := id
  submits i held := by
    change Processed held i.clientOrderId.value (tersePost i.clientOrderId.value held).1
      (tersePost i.clientOrderId.value held).2
    unfold tersePost
    split_ifs with hheld
    · refine .repeated hheld fun a ha => ?_
      cases ha
      decide
    · refine .accepted hheld fun a ha => ?_
      cases ha
  reads r held hget := by
    change (match r.method, r.body with
      | .post, some (.obj (("client_order_id", .str id) :: _)) => tersePost id held
      | _, _ => (.error (transportError "Alpaca response was lost"), held)).2 = held
    rw [hget]

/-- An order whose acceptance was lost is submitted again and reported as rejected. -/
theorem rejected_while_live : ∃ a ∈ terse.submissions [sampleIntent .submitting, sampleIntent .submitting] [],
    a.result = .ok (.rejected .orderParametersRejected) ∧ a.intent.clientOrderId.value ∈ terse.held a.after :=
  ⟨(terse.submissions [sampleIntent .submitting, sampleIntent .submitting] []).get ⟨1, by decide⟩, List.get_mem _ _,
    Dict.ok_of_toOption (by decide +kernel), by decide +kernel⟩

end SevenLens.Alpaca
