import SevenLens.Correspondence

/-! # An unresolved intent blocks

An entry whose submission has an unknown outcome, and any intent under review, closes the
system for entries.  The guard of a submission counts the intent itself as unresolved, the
lifecycle gives it no way out, every reconciliation reports it, and a resume is refused while
it is there.  `unresolved_blocks` says that these four keep each other closed over every run of
the engine, the reconciler and `resumeEntries`, as long as the broker does not come to hold an
order of an entry whose outcome is unknown. -/

namespace SevenLens

open Calls Prog

/-- Intent `k` is an entry with an unknown outcome, or an intent under review. -/
def Unresolved (k : ClientOrderId) (db : Db) : Prop :=
  ∃ i, db.intents.get k = some i ∧
    ((i.status = .unknown ∧ i.intentType = .rebalance) ∨ i.status = .reviewRequired)

/-- Operations of the engine on a unit of work with a control repository, reconciliations and
resumes. -/
def Continues : Operation → Prop
  | .engine cfg _ => cfg.uowControl = true
  | .reconcile _ _ | .resume _ => True
  | _ => False

/-- The broker holds no order of intent `k` while its outcome is unknown. -/
def HoldsNone (k : ClientOrderId) (s : Tx) (b : BrokerCall) (r : Except PyError b.Ans) : Prop :=
  ∀ o, Answers b r o → o.clientOrderId = k → ∀ i, s.view.intents.get k = some i → i.status ≠ .unknown

theorem Continues.fresh {op : Operation} (h : Continues op) : Serial.IsFresh op := by
  cases op <;> first | exact h.elim | trivial

/-! ### One step -/

section Step

variable {op : Operation} {s : Tx} {k : ClientOrderId}

/-- Neither the intent itself nor any entry is submitted. -/
theorem submit_blocked {i : OrderIntent} (hop : Continues op) (h : Unresolved k s.view) (hlaw : SubmitLaw op s i) :
    i.clientOrderId ≠ k ∧ i.intentType ≠ .rebalance := by
  obtain ⟨j, hj, hst⟩ := h
  have hentry : i.intentType ≠ .rebalance := by
    intro ht
    obtain ⟨cfg, hcfg, hgate⟩ := hlaw.gated
    have hguard : cfg.guardControl.isSome := by
      cases op with
      | engine cfg' e =>
          obtain rfl : cfg' = cfg := Option.some.inj hcfg
          have hcontrol : cfg'.uowControl = true := hop
          simp [EngineConfig.guardControl, hcontrol]
      | reconcile _ _ => cases hcfg
      | resume _ => cases hcfg
      | _ => exact hop.elim
    have hnone := hgate ht hguard j (Table.mem_of_get hj)
    rcases hst with ⟨hst, -⟩ | hst
    · exact hnone.1 hst
    · exact hnone.2 hst
  refine ⟨?_, hentry⟩
  rintro rfl
  obtain rfl : i = j := Option.some.inj (hlaw.current.symm.trans hj)
  rcases hst with ⟨-, ht⟩ | hst
  · exact hentry ht
  · rcases hlaw.reserved with hr | hr <;> rw [hst] at hr <;> cases hr

/-- An order shown by the broker does not name intent `k` while its outcome is unknown. -/
def NotShown (k : ClientOrderId) (o : BrokerOrder) (i : OrderIntent) : Prop :=
  o.clientOrderId = k → i.status ≠ .unknown

/-- What is known of intent `k` while an operation runs. -/
structure UnresolvedTx (k : ClientOrderId) (s : Tx) : Prop where
  durable : Unresolved k s.world.db
  seen : Unresolved k s.view
  shown : ShownSafely (NotShown k) s
  refused : s.refused ≠ some k

/-- The lifecycle has no way out, but for the answers of the broker. -/
theorem unresolved_move {i : OrderIntent} {t : OrderStatus} (hop : Continues op) (h : UnresolvedTx i.clientOrderId s)
    (hi : s.view.intents.get i.clientOrderId = some i)
    (hst : (i.status = .unknown ∧ i.intentType = .rebalance) ∨ i.status = .reviewRequired) (hlaw : MoveLaw op s i t)
    (hallowed : t = i.status ∨ orderTransitionAllowed i.status t = true) :
    (t = .unknown ∧ i.intentType = .rebalance) ∨ t = .reviewRequired := by
  rcases hst with ⟨hst, htype⟩ | hst
  · cases hlaw with
    | ambiguous => exact Or.inl ⟨rfl, htype⟩
    | review => exact Or.inr rfl
    | refuse _ _ hr => exact absurd hr h.refused
    | @follow o m _ ho hc _ _ _ => exact absurd hst (h.shown o ho i (hc.symm ▸ hi) hc)
    | stream hu => subst hu; exact hop.elim
    | reserve he => rw [hst] at he; cases he
    | overdue he => rw [hst] at he; rcases he with he | he | he <;> cases he
    | cancel he => rw [hst] at he; rcases he with he | he <;> cases he
    | approve => rw [hst] at hallowed; exact absurd hallowed (by decide)
    | enqueue => rw [hst] at hallowed; exact absurd hallowed (by decide)
  · right
    rw [hst] at hallowed
    cases t <;> revert hallowed <;> decide

theorem unresolved_exec {c : StoreCall} {a : c.Ans} {ws : List Write} {now : UtcTimestamp} (hop : Continues op)
    (h : UnresolvedTx k s) (hlaw : StatementLaw op s c) (hx : s.view.exec now c = .ok (a, ws)) :
    Unresolved k (s.view.applyAll ws) := by
  refine intent_of_exec hx (fun j t hc hj hst hallowed => ?_) h.seen
  subst hc
  obtain ⟨i, hi, hmove⟩ := hlaw
  obtain rfl : i = j := Option.some.inj (hi.symm.trans hj)
  obtain rfl : i.clientOrderId = k := Table.key_of_get hi
  have hstatus := unresolved_move hop h hi hst hmove hallowed
  exact hstatus

theorem unresolved_sameOrders {a b : Db} (h : Unresolved k a) (hs : SameOrders a b) : Unresolved k b := by
  unfold Unresolved
  rw [hs.intents]
  exact h

/-- No refusal of intent `k` is heard, since it is not submitted. -/
theorem not_refused_effect {s' : Tx} (hop : Continues op) (h : UnresolvedTx k s)
    (he : Effect op (HoldsNone k) s s') : s'.refused ≠ some k := by
  have hnone : NoEvidence s' → s'.refused ≠ some k := fun hev => by rw [hev.2]; simp
  have hsame : SameEvidence s s' → s'.refused ≠ some k := fun hev => by rw [hev.2]; exact h.refused
  cases he with
  | kept q _ _ _ _ _ hev =>
      rcases hev with hev | ⟨b, r, -, hlaw, -, hrefused⟩
      · exact hsame hev
      · rw [hrefused]
        unfold Tx.told
        split
        · exact h.refused
        · exact h.refused
        · intro hk
          exact (submit_blocked hop h.seen hlaw).1 (Option.some.inj hk)
        · exact h.refused
        · exact h.refused
  | committed _ _ _ _ _ hev => exact hnone hev
  | discarded _ _ _ hev => exact hnone hev
  | wrote c a ws now _ _ _ _ _ _ hev =>
      cases c with
      | transitionStatus _ _ => exact hnone hev
      | _ => exact hsame hev

theorem unresolved_effect {s' : Tx} (hop : Continues op) (h : UnresolvedTx k s)
    (he : Effect op (HoldsNone k) s s') : UnresolvedTx k s' := by
  obtain ⟨hdb, hview⟩ := he.keeps unresolved_sameOrders (unresolved_exec hop h) h.durable h.seen
  refine ⟨hdb, hview, ?_, not_refused_effect hop h he⟩
  refine shownSafely_effect (fun o i hi _ => by rw [hi]; decide) (fun s b r hadm o ho i hi hc => ?_) h.shown he
  exact hadm o ho hc i (hc ▸ hi)

end Step

theorem unresolved_start {k : ClientOrderId} {db : Db} (h : Unresolved k db) : UnresolvedTx k (.start db) :=
  ⟨h, h, shownSafely_none rfl, by simp [Tx.start]⟩

theorem unresolved_reach {uuid5 : NameUuid} {k : ClientOrderId} {db : Db} {op : Operation} {s : Tx} {p : Proc Unit}
    (hop : Continues op) (h : Unresolved k db)
    (hreach : Reach (serial op (HoldsNone k)) (.start db) (op.proc uuid5) s p) : UnresolvedTx k s :=
  reach_invariant hop.fresh (fun _ _ _ hs he => unresolved_effect hop hs he) (unresolved_start h) hreach

theorem unresolved_runs {uuid5 : NameUuid} {k : ClientOrderId} {db₀ db : Db}
    (hruns : Runs uuid5 (fun _ => Continues) (HoldsNone k) db₀ db) (h : Unresolved k db₀) : Unresolved k db := by
  induction hruns with
  | refl => exact h
  | operation _ hop hreach ih => exact (unresolved_reach hop ih hreach).durable

/-! ### Reconciliation -/

/-- What statements may answer while the tables are `db`: an error, or what they read. -/
def Reads (db : Db) : (c : ports.Call) → Except PyError (ports.Ans c) → Prop
  | .store _ c, r => ∀ a, r = .ok a → db.read c = .ok a
  | _, _ => True

/-- The calls of a reconciliation before its record leave the tables and the connections alone. -/
theorem reads_step {op : Operation} {adm : Tx → (b : BrokerCall) → Except PyError b.Ans → Prop} {db : Db}
    {s s' : Tx} {c : Call} {r : Except PyError c.Ans} (hs : s.world.Shows db) (hc : IsPassive c)
    (h : (serial op adm).Step s c r s') : Reads db c r ∧ s'.world.Shows db := by
  obtain ⟨env, -, -, rfl, rfl⟩ := h
  rcases hc with hc | rfl | rfl
  · cases c with
    | store k c =>
        obtain ⟨hanswer, hshows⟩ := @handler_answered db env _ _ hs hc
        obtain ⟨rfl, -⟩ := hc
        simp only [transact]
        split
        · exact ⟨by rintro a ⟨⟩, hs⟩
        · refine ⟨fun a ha => hanswer.symm.trans ha, ?_⟩
          exact Eq.mpr (congrArg (World.Shows db) (stated_eq s .uow c _ _)) hshows
    | broker b =>
        obtain ⟨hw, -, -⟩ := told_like s b (env.broker s.world.tick b)
        refine ⟨trivial, ?_⟩
        simp only [transact, hw]
        exact hs
    | beginReconciliationSnapshot =>
        simp only [transact]
        split
        · exact ⟨trivial, hs⟩
        · exact ⟨trivial, hs⟩
    | currentPrice x => exact ⟨trivial, hs⟩
    | _ => exact hc.elim
  · exact ⟨trivial, hs⟩
  · exact ⟨trivial, hs⟩

/-- There is a mismatch. -/
def Found (l : List ReconciliationMismatch) : Prop := l ≠ []

theorem found_stays : Stays Found := fun l m _ => by simp [Found]

section Passes

variable {A : (c : ports.Call) → Except PyError (ports.Ans c) → Prop}

theorem yields_found (f : Findings) (kind : MismatchKind) (detail : String) :
    Yields A (f.report kind detail) (fun f' => Found f'.mismatches) := by
  refine yields_ofExcept fun f' h => ?_
  cases hm : ReconciliationMismatch.create kind detail with
  | error e => rw [hm] at h; cases h
  | ok m => rw [hm] at h; cases h; simp [Found]

theorem yields_checkUnresolved_stays {f : Findings} (hf : Found f.mismatches) (t : OrderStatus) :
    Yields A (checkUnresolved f t) (fun f' => Found f'.mismatches) :=
  yields_bind (yields_true _) fun _ _ =>
    yields_foldlM (I := fun f' : Findings => Found f'.mismatches) (fun _ _ _ hf => yields_report found_stays hf _ _) hf

/-- The pass over one unresolved status reports an intent in it. -/
theorem yields_checkUnresolved {db : Db} {i : OrderIntent} (hi : i ∈ db.intents.rows) (f : Findings) :
    Yields (Reads db) (checkUnresolved f i.status) (fun f' => Found f'.mismatches) := by
  refine yields_bind (P := fun l => i ∈ l) (yields_perform fun l hl => ?_) fun l hl => ?_
  · obtain rfl : db.listByStatus i.status = l := Except.ok.inj (hl l rfl)
    simp [Db.listByStatus, hi]
  · cases l with
    | nil => cases hl
    | cons j l =>
        rw [List.foldlM_cons]
        refine yields_bind (yields_found _ _ _) fun f' hf' => ?_
        exact yields_foldlM (I := fun f' : Findings => Found f'.mismatches)
          (fun _ _ _ hf => yields_report found_stays hf _ _) hf'

theorem yields_checkOpenMirror {f : Findings} (hf : Found f.mismatches) (m : BrokerOrder) :
    Yields A (checkOpenMirror f m) (fun f' => Found f'.mismatches) := by
  refine yields_bind (yields_true _) fun (o : Option BrokerOrder) _ => ?_
  cases o with
  | none => exact yields_report found_stays (f := f.countOrder) hf _ _
  | some o =>
      refine yields_bind (yields_true _) fun _ _ =>
        yields_bind (yields_reportIf found_stays (f := f.countOrder) hf _ _ _) fun _ hf₁ =>
        yields_bind (yields_reportIf found_stays hf₁ _ _ _) fun _ hf₂ =>
        yields_bind (yields_reportIf found_stays hf₂ _ _ _) fun _ hf₃ => ?_
      exact yields_bind (yields_true _) fun _ _ => yields_bind (yields_true _) fun _ _ =>
        yields_checkBrokerFills found_stays hf₃ _ _

theorem yields_checkClosedMirror {f : Findings} (hf : Found f.mismatches) (ids : List String) (m : BrokerOrder) :
    Yields A (checkClosedMirror ids f m) (fun f' => Found f'.mismatches) := by
  unfold checkClosedMirror
  split
  · exact yields_ret hf
  · refine yields_bind (yields_true _) fun (o : Option BrokerOrder) _ => ?_
    cases o with
    | none => exact yields_ret hf
    | some o =>
        simp only []
        split
        · exact yields_report found_stays (f := f.countOrder) hf _ _
        · exact yields_ret hf

theorem yields_orderPasses_stays {f : Findings} (hf : Found f.mismatches) :
    Yields A ((listOpenBrokerOrders).bind fun localMirrors => (localMirrors.foldlM checkOpenMirror f).bind fun f =>
      listAllBrokerOrders.bind fun all =>
      (all.foldlM (checkClosedMirror (localMirrors.map BrokerOrder.brokerOrderId)) f).bind fun f =>
      listAllBrokerOrders.bind fun known => listOpenOrders.bind fun opened =>
      opened.foldlM (checkOpenOrder (known.map BrokerOrder.clientOrderId)) (f, []))
      (fun acc => Found acc.1.mismatches) := by
  refine yields_bind (yields_true _) fun _ _ => yields_bind (yields_foldlM
    (I := fun f' : Findings => Found f'.mismatches) (fun _ _ _ hf => yields_checkOpenMirror hf _) hf) fun _ hf₁ => ?_
  refine yields_bind (yields_true _) fun _ _ => yields_bind (yields_foldlM
    (I := fun f' : Findings => Found f'.mismatches) (fun _ _ _ hf => yields_checkClosedMirror hf _ _) hf₁)
    fun _ hf₂ => ?_
  refine yields_bind (yields_true _) fun _ _ => yields_bind (yields_true _) fun _ _ => ?_
  refine yields_foldlM (I := fun acc : Findings × List BrokerOrder => Found acc.1.mismatches)
    (fun acc o _ hf => ?_) hf₂
  exact yields_bind (yields_reportIf found_stays (f := acc.1.countOrder) hf _ _ _) fun _ hf' => yields_ret hf'

theorem yields_orderPasses_found {db : Db} {i : OrderIntent} (hi : i ∈ db.intents.rows)
    (hst : i.status = .unknown ∨ i.status = .reviewRequired) (f : Findings) :
    Yields (Reads db) (orderPasses f) (fun acc => Found acc.1.mismatches) := by
  rcases hst with hst | hst
  · refine yields_bind (yields_true _) fun f₁ _ => yields_bind ?_ fun f₂ hf₂ => yields_orderPasses_stays hf₂
    rw [← hst]
    exact yields_checkUnresolved hi f₁
  · refine yields_bind (P := fun f' => Found f'.mismatches) ?_ fun f₁ hf₁ =>
      yields_bind (yields_checkUnresolved_stays hf₁ .unknown) fun f₂ hf₂ => yields_orderPasses_stays hf₂
    rw [← hst]
    exact yields_checkUnresolved hi f

theorem yields_historyPass_stays (d : TradingDate) {acc : Findings × List BrokerOrder}
    (hf : Found acc.1.mismatches) : Yields A (historyPass d acc) (fun f => Found f.mismatches) := by
  refine yields_bind (yields_true _) fun _ _ => yields_bind (yields_true _) fun _ _ =>
    yields_bind (yields_true _) fun _ _ => yields_bind (yields_foldlM
      (I := fun acc : Findings × List BrokerOrder => Found acc.1.mismatches)
      (fun _ o _ hf => yields_checkHistory_stays found_stays hf o) hf) fun _ hf' => yields_ret hf'

theorem yields_createResult (d : TradingDate) {f : Findings} (hf : Found f.mismatches) (scope : ReconciliationScope) :
    Yields A (createResult d f scope) (fun r => r.status = .mismatch) := by
  refine yields_bind (yields_true _) fun _ _ => yields_bind (yields_true _) fun _ _ => yields_ofExcept fun r hr => ?_
  cases hst : r.status with
  | mismatch => rfl
  | clean =>
      have hempty := r.status_iff.mp hst
      rw [(ReconciliationResult.create_ok hr).2.1] at hempty
      exact absurd hempty hf

/-- A reconciliation over tables with an unresolved intent is a mismatch, or fails. -/
theorem yields_collectOrFail {db : Db} {i : OrderIntent} (hi : i ∈ db.intents.rows)
    (hst : i.status = .unknown ∨ i.status = .reviewRequired) (cfg : ReconcilerConfig) (d : TradingDate) :
    Yields (Reads db) (collectOrFail cfg d) (fun r => r.status = .mismatch) := by
  have hfail : ∀ kind detail, Yields (Reads db) (failedResult d kind detail) (fun r => r.status = .mismatch) :=
    fun kind detail => yields_bind (yields_found _ kind detail) fun _ hf => yields_createResult d hf _
  refine yields_tryCatch ?_ fun e => ?_
  · refine yields_bind (P := fun f => Found f.mismatches) ?_ fun _ hf => yields_createResult d hf _
    refine yields_bind (yields_true _) fun _ _ => yields_bind (yields_true _) fun a _ =>
      yields_bind (yields_true _) fun f _ => yields_bind (yields_orderPasses_found hi hst f) fun _ hf₁ => ?_
    refine yields_bind (yields_historyPass_stays d hf₁) fun _ hf₂ => ?_
    exact yields_bind (yields_positionPass found_stays hf₂) fun acc hf₃ => yields_accountPass found_stays cfg a acc.2 hf₃
  · generalize ledgerDetail e.message = detail
    split
    · exact hfail .brokerQueryFailure _
    · split
      · exact hfail .localLedgerInvariant detail
      · exact yields_raise e

end Passes

/-- The steps of an operation, with a record of a clean run not acceptable. -/
def recording (op : Operation) (adm : Tx → (b : BrokerCall) → Except PyError b.Ans → Prop) :
    System ports PyError Tx where
  Step := (serial op adm).Step
  Ok _ c := ∀ h r, c = .store h (.addRun r) → r.status = .mismatch

theorem within_recordResult {r : ReconciliationResult} (hr : r.status = .mismatch) :
    Within (fun c : Call => ∀ h q, c = .store h (.addRun q) → q.status = .mismatch) (fun _ => True)
      (recordResult r) := by
  unfold recordResult pauseOnMismatch
  simp only [bind_eq, pure_eq_ret, hr, if_true]
  refine within_bind (within_perform (S := ports) (c := .store .uow (.addRun r)) ?_) fun _ => ?_
  · rintro h q ⟨⟩
    exact hr
  · refine within_bind (within_bind (within_perform (S := ports) (by rintro h q ⟨⟩)) fun _ =>
      within_bind (within_perform (S := ports) (by rintro h q ⟨⟩)) fun _ =>
      within_bind (within_perform (S := ports) (by rintro h q ⟨⟩)) fun _ =>
      within_bind (within_ofExcept fun _ _ => trivial) fun _ =>
      within_bind (within_perform (S := ports) (by rintro h q ⟨⟩)) fun _ => trivial) fun _ => ?_
    exact within_bind (within_perform (S := ports) (by rintro h q ⟨⟩)) fun _ => trivial

theorem yields_recordResult {A : (c : ports.Call) → Except PyError (ports.Ans c) → Prop} (q : ReconciliationResult) :
    Yields A (recordResult q) (fun r => r = q) := by
  have hcommit : Yields A (commit.bind fun _ => ret q) (fun r => r = q) :=
    yields_bind (yields_true _) fun _ _ => yields_ret rfl
  refine yields_bind (yields_true _) fun _ _ => ?_
  split
  · exact yields_bind (yields_true _) fun _ _ => hcommit
  · exact hcommit

/-- Every result of a reconciliation over such tables, recorded or returned, is a mismatch. -/
theorem wp_reconcile_mismatch {op : Operation} {adm : Tx → (b : BrokerCall) → Except PyError b.Ans → Prop} {db : Db}
    {i : OrderIntent} (hi : i ∈ db.intents.rows) (hst : i.status = .unknown ∨ i.status = .reviewRequired)
    (cfg : ReconcilerConfig) (d : TradingDate) :
    wp (recording op adm) (reconcile cfg d) (fun r _ => ∀ q, r = .ok q → q.status = .mismatch) (.start db) := by
  unfold reconcile
  simp only [bind_eq]
  rw [wp_bind]
  refine wp_mono (fun r s hr => ?_) ((yields_collectOrFail hi hst cfg d).wp (M := recording op adm) (C := IsPassive)
    (I := fun s => s.world.Shows db) (fun s c r s' hs hc (h : (serial op adm).Step s c r s') => reads_step hs hc h)
    ?_ (Serial.passive_collectOrFail cfg d) (World.start_shows db))
  · cases r with
    | error e => rintro q ⟨⟩
    | ok q =>
        have hq := hr.2 q rfl
        have hrecord := (yields_recordResult (A := fun _ _ => True) q).wp (M := recording op adm) (I := fun _ => True)
          (fun _ _ _ _ _ _ _ => ⟨trivial, trivial⟩) (fun _ _ _ hc => hc) (within_recordResult hq) (s := s) trivial
        refine wp_mono (fun r s' h q' hr' => ?_) hrecord
        rw [h.2 q' hr']
        exact hq
  · rintro s c - hc h r rfl
    rcases hc with ⟨-, hread⟩ | hc | hc
    · cases hread
    · cases hc
    · cases hc

/-! ### Resume -/

section Resume

variable {op : Operation} {adm : Tx → (b : BrokerCall) → Except PyError b.Ans → Prop}

/-- The outcome of a refused resume. -/
def Blocked {α : Type} (r : Except PyError α) : Prop := ∃ e, r = .error e ∧ e.kind = .resumeBlocked

theorem wp_resumeChecked_blocked {s : Tx} {i : OrderIntent} (hi : i ∈ s.view.intents.rows)
    (hst : i.status = .unknown ∨ i.status = .reviewRequired) (hlive : s.aborted .uow = false) (actor : String) :
    wp (serial op adm) (resumeChecked actor) (fun r _ => Blocked r) s := by
  have hlisted : ∀ t, i.status = t → s.view.listByStatus t ≠ [] := by
    rintro t rfl hnil
    have hmem : i ∈ s.view.listByStatus i.status := by simp [Db.listByStatus, hi]
    rw [hnil] at hmem
    cases hmem
  unfold resumeChecked
  simp only [bind_eq, pure_eq_ret]
  refine wp_read_bind (c := .latestRun) hlive rfl rfl ?_
  split
  · exact ⟨_, rfl, rfl⟩
  · refine wp_read_bind (c := .listByStatus .unknown) (s := s.pass) hlive rfl rfl ?_
    split
    · exact ⟨_, rfl, rfl⟩
    · rename_i hunknown
      have hreview : i.status = .reviewRequired := hst.resolve_left fun h => hunknown (hlisted _ h)
      refine wp_read_bind (c := .listByStatus .reviewRequired) (s := s.pass.pass) hlive rfl rfl ?_
      split
      · exact ⟨_, rfl, rfl⟩
      · rename_i hnone
        exact absurd (hlisted _ hreview) hnone

/-- A resume over such tables is refused. -/
theorem wp_resumeEntries_blocked {db : Db} {i : OrderIntent} (hi : i ∈ db.intents.rows)
    (hst : i.status = .unknown ∨ i.status = .reviewRequired) (actor : String) :
    wp (serial op adm) (resumeEntries actor) (fun r _ => Blocked r) (.start db) := by
  unfold resumeEntries
  simp only [bind_eq, pure_eq_ret]
  refine wp_bind.mpr (wp_ask (c := .lockControl .uow) trivial fun env _ => ?_)
  show wp _ (Prog.bind (Prog.tryCatch _ _) _) _ (Tx.start db).pass
  refine wp_bind.mpr (wp_tryCatch.mpr (wp_mono (fun r s hr => ?_) (wp_resumeChecked_blocked hi hst rfl actor)))
  obtain ⟨e, rfl, he⟩ := hr
  refine wp_bind.mpr (wp_ask (c := .rollback .uow) trivial fun env _ => ?_)
  exact ⟨e, rfl, he⟩

end Resume

/-! ### Runs -/

/-- **An unresolved intent blocks for good.**  In every run of the engine, the reconciler and
`resumeEntries` it stays unresolved, neither it nor any entry is submitted, every result of a
reconciliation is a mismatch, and every resume is refused. -/
theorem unresolved_blocks (uuid5 : NameUuid) (k : ClientOrderId) (db₀ db : Db) (h : Unresolved k db₀)
    (hruns : Runs uuid5 (fun _ => Continues) (HoldsNone k) db₀ db) :
    Unresolved k db ∧
    (∀ op s i f, Continues op → Reach (serial op (HoldsNone k)) (.start db) (op.proc uuid5) s
        (call (.broker (.submitOrder i)) f) → i.clientOrderId ≠ k ∧ i.intentType ≠ .rebalance) ∧
    (∀ cfg d s r, Reach (serial (.reconcile cfg d) (HoldsNone k)) (.start db) (reconcile cfg d) s (ret r) →
      r.status = .mismatch) ∧
    (∀ cfg d s r f, Reach (serial (.reconcile cfg d) (HoldsNone k)) (.start db) (reconcile cfg d) s
        (call (.store .uow (.addRun r)) f) → r.status = .mismatch) ∧
    (∀ actor s r, Reach (serial (.resume actor) (HoldsNone k)) (.start db) (resumeEntries actor) s
        (Prog.ofExcept r) →
      ∃ e, r = .error e ∧ e.kind = .resumeBlocked) := by
  have hdb := unresolved_runs hruns h
  have ⟨j, hj, hst⟩ := hdb
  have hrow := Table.mem_of_get hj
  have hstatus : j.status = .unknown ∨ j.status = .reviewRequired := hst.imp_left And.left
  have hreach : ∀ {cfg d s} {p : Proc ReconciliationResult},
      Reach (serial (.reconcile cfg d) (HoldsNone k)) (.start db) (reconcile cfg d) s p →
      wp (recording (.reconcile cfg d) (HoldsNone k)) p (fun r _ => ∀ q, r = .ok q → q.status = .mismatch) s :=
    fun {cfg d _ _} hr => wp_reach (Reach.mono (M := serial (.reconcile cfg d) (HoldsNone k)) (fun _ _ _ _ h => h) hr)
      (wp_reconcile_mismatch hrow hstatus cfg d)
  refine ⟨hdb, fun op s i f hop hr => ?_, fun cfg d s r hr => ?_, fun cfg d s r f hr => ?_, fun actor s r hr => ?_⟩
  · have hlaw : SubmitLaw op s i := ok_of_reach (Serial.wp_operation uuid5 op hop.fresh db) hr
    exact submit_blocked hop (unresolved_reach hop hdb hr).seen hlaw
  · exact hreach hr r rfl
  · exact (hreach hr).1 .uow r rfl
  · exact wp_ofExcept.mp (wp_reach hr (wp_resumeEntries_blocked hrow hstatus actor))

/-- A broker that trades every asset, loses every submission and holds no order. -/
def silentEnv : Env where
  clock _ := instant 10
  broker _
    | .getAsset s => .ok (some ⟨s, .usEquity, .active, true⟩)
    | .getOrder _ => .ok none
    | _ => .error ⟨.brokerTransport, "timeout"⟩
  price _ _ := .error ⟨.markPriceUnavailable, "unreachable"⟩
  uuid := sampleEnv.uuid

theorem silentEnv_mild : silentEnv.Mild := by
  constructor
  · intro n c e h
    cases c <;> cases h <;> simp [Mild]
  · intro n s e h
    cases h
    simp [Mild]

/-- The submission of the sample intent is lost. -/
def lostDb : Db :=
  (Operation.engine sampleConfig (.submitFromOutbox sampleId)).after sampleUuid5 silentEnv queuedDb

theorem lostDb_unresolved : Unresolved sampleId lostDb := by
  have h : (lostDb.intents.get sampleId).any
      (fun i => decide (i.status = .unknown ∧ i.intentType = .rebalance)) = true := by decide +kernel
  obtain ⟨i, hi, hst⟩ := (Option.any_eq_true _ _).mp h
  exact ⟨i, hi, Or.inl (of_decide_eq_true hst)⟩

/-- A recovery does not resubmit it. -/
theorem unresolved_blocks_sample :
    Unresolved sampleId ((Operation.engine sampleConfig .recover).after sampleUuid5 silentEnv lostDb) := by
  refine (unresolved_blocks sampleUuid5 sampleId lostDb _ lostDb_unresolved ?_).1
  refine Runs.after (.refl _) (show sampleConfig.uowControl = true by rfl) silentEnv_mild fun s b o ho => ?_
  cases b <;> exact ho.elim

end SevenLens
