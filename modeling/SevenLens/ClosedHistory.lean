import SevenLens.ConsumerStream
import SevenLens.Observation

/-! # The closed-history pass

Whether a broker order without a local mirror that became terminal at time `t` is found by the
reconciliation runs.  The broker lists it from then on in every history that reaches back to
`t`; a run looks back one day from the latest recorded run, whether that run examined anything
or failed.

`closedOrder_reported`: the first run that completes reports the order, as long as the last run
recorded before it was observed within a day after `t`.  `failedRun_hides_order` shows a run that
fails two days after `t` and so hides the order from the next one. -/

namespace SevenLens

open Calls Prog

/-- The mismatch that reports a broker order unknown to the local tables. -/
def Reports (o : BrokerOrder) (l : List ReconciliationMismatch) : Prop :=
  ∃ m ∈ l, m.kind = .unknownBrokerOrder ∧ m.detail = o.brokerOrderId

/-- A terminal broker order without mirror, which every history that reaches back to `t` shows. -/
structure Unmirrored (db : Db) (env : Env) (o : BrokerOrder) (t : UtcTimestamp) : Prop where
  terminal : o.status.isTerminal = true
  missing : db.mirrorOf o.clientOrderId = none
  visible : ∀ n since (l : List BrokerOrder), since ≤ t → env.broker n (.listRecentOrders since) = .ok l → o ∈ l
  /-- A broker order id names one order. -/
  recent_identity : ∀ n since (l : List BrokerOrder), env.broker n (.listRecentOrders since) = .ok l →
    ∀ p ∈ l, p.brokerOrderId = o.brokerOrderId → p.clientOrderId = o.clientOrderId
  open_identity : ∀ n (l : List BrokerOrder), env.broker n .listOpenOrders = .ok l →
    ∀ p ∈ l, p.brokerOrderId = o.brokerOrderId → p.clientOrderId = o.clientOrderId

/-! ### Mismatches are only added -/

section Grows

variable {A : (c : ports.Call) → Except PyError (ports.Ans c) → Prop} {P : List ReconciliationMismatch → Prop}

/-- A property of the mismatches that more of them do not break. -/
def Stays (P : List ReconciliationMismatch → Prop) : Prop := ∀ l m, P l → P (l ++ [m])

theorem yields_report (hP : Stays P) {f : Findings} (hf : P f.mismatches) (k : MismatchKind) (d : String) :
    Yields A (f.report k d) (fun f' => P f'.mismatches) := by
  refine yields_ofExcept fun f' h => ?_
  cases hm : ReconciliationMismatch.create k d with
  | error e =>
      rw [hm] at h
      cases h
  | ok m =>
      rw [hm] at h
      cases h
      exact hP _ _ hf

theorem yields_reportIf (hP : Stays P) {f : Findings} (hf : P f.mismatches) (c : Prop) [Decidable c]
    (k : MismatchKind) (d : String) : Yields A (f.reportIf c k d) (fun f' => P f'.mismatches) := by
  unfold Findings.reportIf
  split
  · exact yields_report hP hf k d
  · exact yields_ret hf

theorem yields_checkBrokerFills (hP : Stays P) {f : Findings} (hf : P f.mismatches) (l m : List Fill) :
    Yields A (checkBrokerFills l m f) (fun f' => P f'.mismatches) := by
  refine yields_foldlM (I := fun f' : Findings => P f'.mismatches) (fun f _ _ hf => ?_) hf
  exact yields_reportIf hP (f := f.countFill) hf _ _ _

theorem yields_positionPass (hP : Stays P) {f : Findings} (hf : P f.mismatches) :
    Yields A (positionPass f) (fun acc => P acc.1.mismatches) := by
  refine yields_bind (yields_true _) fun _ _ => yields_bind (yields_true _) fun _ _ =>
    yields_bind (yields_true _) fun p _ => yields_bind (yields_true _) fun _ _ => ?_
  refine yields_bind (yields_foldlM (I := fun f' : Findings => P f'.mismatches) (fun f s _ hf => ?_) hf)
    fun f' hf' => yields_ret hf'
  unfold checkPosition
  split
  · exact yields_report hP hf _ _
  · exact yields_reportIf hP hf _ _ _

theorem yields_navPass (hP : Stays P) (cfg : ReconcilerConfig) (policy : AccountReconciliationPolicy)
    (a : PaperAccount) (p : LedgerProjection) (cash : Int) {f : Findings} (hf : P f.mismatches) :
    Yields A (navPass cfg policy a p cash f) (fun f' => P f'.mismatches) := by
  refine yields_tryCatch ?_ fun e => ?_
  · split
    · split
      · exact yields_report hP hf _ _
      · exact yields_reportIf hP hf _ _ _
    · refine yields_bind (yields_true _) fun _ _ => yields_bind (yields_true _) fun _ _ => ?_
      exact yields_reportIf hP hf _ _ _
  · split
    · exact yields_report hP hf _ _
    · exact yields_raise e

theorem yields_accountPass (hP : Stays P) (cfg : ReconcilerConfig) (a : PaperAccount) (p : LedgerProjection)
    {f : Findings} (hf : P f.mismatches) :
    Yields A (accountPass cfg a p f) (fun f' => P f'.mismatches) := by
  unfold accountPass
  split
  · exact yields_ret hf
  · rename_i policy _
    refine yields_bind (yields_reportIf hP hf _ _ _) fun f₁ hf₁ => ?_
    have hsome : ∀ b : AccountBaseline,
        Yields A (baselinePass cfg policy a p b f₁) (fun f' => P f'.mismatches) := by
      intro b
      refine yields_bind (yields_true _) fun _ _ => yields_bind (yields_true _) fun _ _ =>
        yields_bind (yields_true _) fun _ _ => ?_
      exact yields_bind (yields_reportIf hP hf₁ _ _ _) fun _ hf₂ => yields_navPass hP _ _ _ _ _ hf₂
    split
    · refine yields_bind (yields_true _) fun b _ => ?_
      cases b with
      | none => exact yields_report hP hf₁ _ _
      | some b => exact hsome b
    · exact yields_report hP hf₁ .accountReconciliationUnavailable "missing opening cash baseline"

end Grows

/-! ### The passes over the broker's orders -/

theorem reports_stays (o : BrokerOrder) : Stays (Reports o) := by
  rintro l m ⟨x, hx, h⟩
  exact ⟨x, List.mem_append_left _ hx, h⟩

/-- Reporting an order under its broker order id. -/
theorem yields_reports {A : (c : ports.Call) → Except PyError (ports.Ans c) → Prop} (o : BrokerOrder)
    (f : Findings) {b : String} (hb : b = o.brokerOrderId) :
    Yields A (f.report .unknownBrokerOrder b) (fun f' => Reports o f'.mismatches) := by
  refine yields_ofExcept fun f' h => ?_
  unfold ReconciliationMismatch.create at h
  split at h
  · cases h
    exact ⟨_, List.mem_append_right _ (List.mem_singleton.mpr rfl), rfl, hb⟩
  · cases h

section Passes

variable {db : Db} {env : Env} {o : BrokerOrder} {t : UtcTimestamp}

/-- Every entry reported under the id of `o` was reported as unknown. -/
def Covers (o : BrokerOrder) (acc : Findings × List BrokerOrder) : Prop :=
  (∃ p ∈ acc.2, p.brokerOrderId = o.brokerOrderId) → Reports o acc.1.mismatches

theorem getBrokerOrder_missing (h : Unmirrored db env o t) :
    db.read (.getBrokerOrder o.clientOrderId) = .ok none := by
  simp [Db.read, Db.exec, Db.getBrokerOrder, h.missing, Except.map]

theorem notMem_known (h : Unmirrored db env o t) :
    o.clientOrderId ∉ db.listAllBrokerOrders.map BrokerOrder.clientOrderId := by
  intro hmem
  obtain ⟨p, hp, hc⟩ := List.mem_map.mp hmem
  rw [Db.listAllBrokerOrders, List.mem_insertionSort, List.mem_map] at hp
  obtain ⟨r, hr, rfl⟩ := hp
  have hnone := List.find?_eq_none.mp h.missing r hr
  exact hnone (decide_eq_true hc)

/-- Remembering an order under another id. -/
theorem yields_covers_cons {A : (c : ports.Call) → Except PyError (ports.Ans c) → Prop} {p : BrokerOrder}
    {acc : Findings × List BrokerOrder} {q : Proc Findings} (hb : p.brokerOrderId ≠ o.brokerOrderId)
    (hacc : Covers o acc)
    (hq : Reports o acc.1.mismatches → Yields A q (fun f' => Reports o f'.mismatches)) :
    Yields A (q.bind fun f' => ret (f', p :: acc.2)) (Covers o) := by
  by_cases hrep : ∃ p ∈ acc.2, p.brokerOrderId = o.brokerOrderId
  · exact yields_bind (hq (hacc hrep)) fun f' hf' => yields_ret fun _ => hf'
  · refine yields_bind (yields_true _) fun f' _ => yields_ret ?_
    rintro ⟨r, hr, hrb⟩
    rcases List.mem_cons.mp hr with rfl | hr
    · exact absurd hrb hb
    · exact absurd ⟨r, hr, hrb⟩ hrep

/-- The open orders the broker lists under the id of `o` are reported as unknown. -/
theorem yields_orderPasses (h : Unmirrored db env o t) (f : Findings) :
    Yields (Answered db env) (orderPasses f) (Covers o) := by
  refine yields_bind (yields_true _) fun _ _ => yields_bind (yields_true _) fun _ _ =>
    yields_bind (yields_true _) fun _ _ => yields_bind (yields_true _) fun _ _ =>
    yields_bind (yields_true _) fun _ _ => yields_bind (yields_true _) fun f _ => ?_
  refine yields_bind (P := fun known => known = db.listAllBrokerOrders)
    (yields_perform fun known hk => (Except.ok.inj hk)) fun known hknown => ?_
  refine yields_bind (P := fun opened : List BrokerOrder => ∀ p ∈ opened,
      p.brokerOrderId = o.brokerOrderId → p.clientOrderId = o.clientOrderId)
    (yields_perform fun opened ho => ?_) fun opened hopened => ?_
  · obtain ⟨n, hn⟩ := ho
    exact h.open_identity n opened hn.symm
  · subst hknown
    refine yields_foldlM (I := Covers o) (fun acc p hp hacc => ?_) (by rintro ⟨p, hp, -⟩; cases hp)
    by_cases hb : p.brokerOrderId = o.brokerOrderId
    · have hunknown : p.clientOrderId ∉ db.listAllBrokerOrders.map BrokerOrder.clientOrderId := by
        rw [hopened p hp hb]
        exact notMem_known h
      refine yields_bind (P := fun f' => Reports o f'.mismatches) ?_ fun f' hf' => yields_ret fun _ => hf'
      rw [Findings.reportIf, if_pos hunknown]
      exact yields_reports o _ hb
    · refine yields_covers_cons hb hacc fun hf => ?_
      exact yields_reportIf (reports_stays o) (f := acc.1.countOrder) hf _ _ _

/-- What `check` of a closed order with a mirror adds. -/
theorem yields_mirrored {A : (c : ports.Call) → Except PyError (ports.Ans c) → Prop}
    {P : List ReconciliationMismatch → Prop} (hP : Stays P) {f : Findings} (hf : P f.mismatches)
    (p m : BrokerOrder) :
    Yields A ((f.reportIf (p.status ≠ m.status) .statusMismatch m.brokerOrderId).bind fun f =>
      (listFills m.brokerOrderId).bind fun localFills => (listBrokerFills p.brokerOrderId).bind fun brokerFills =>
      checkBrokerFills localFills brokerFills f) (fun f' => P f'.mismatches) :=
  yields_bind (yields_reportIf hP hf _ _ _) fun _ hf₁ => yields_bind (yields_true _) fun _ _ =>
    yields_bind (yields_true _) fun _ _ => yields_checkBrokerFills hP hf₁ _ _

theorem yields_checkHistory_stays {A : (c : ports.Call) → Except PyError (ports.Ans c) → Prop}
    {P : List ReconciliationMismatch → Prop} (hP : Stays P) {acc : Findings × List BrokerOrder}
    (hf : P acc.1.mismatches) (p : BrokerOrder) :
    Yields A (checkHistory acc p) (fun acc' => P acc'.1.mismatches) := by
  unfold checkHistory
  split
  · exact yields_ret hf
  · split
    · exact yields_ret hf
    · refine yields_bind (yields_true _) fun (m : Option BrokerOrder) _ => ?_
      cases m with
      | none =>
          exact yields_bind (yields_report hP (f := acc.1.countOrder) hf _ _) fun _ hf' => yields_ret hf'
      | some m =>
          have hm := yields_mirrored (A := A) hP (f := acc.1.countOrder) hf p m
          have := yields_bind hm fun f' hf' =>
            yields_ret (A := A) (Q := fun acc' : Findings × List BrokerOrder => P acc'.1.mismatches)
              (a := (f', p :: acc.2)) hf'
          simpa only [bind_assoc, bind_eq, pure_eq_ret] using this

/-- An entry under the id of `o` is redundant or reported as unknown. -/
theorem yields_checkHistory_same (h : Unmirrored db env o t) {acc : Findings × List BrokerOrder}
    {p : BrokerOrder} (hb : p.brokerOrderId = o.brokerOrderId) (hc : p.clientOrderId = o.clientOrderId)
    (hacc : Covers o acc) :
    Yields (Answered db env) (checkHistory acc p) (fun acc' => Covers o acc' ∧
      (p.isOpen = false → Reports o acc'.1.mismatches)) := by
  unfold checkHistory
  split
  · rename_i hred
    refine yields_ret ⟨hacc, fun _ => hacc ?_⟩
    obtain ⟨q, hq, -⟩ := Option.any_eq_true _ _ |>.mp hred
    exact ⟨q, List.mem_of_find?_eq_some hq, by simpa [hb] using List.find?_some hq⟩
  · split
    · rename_i hopen
      exact yields_ret ⟨hacc, fun hclosed => absurd hclosed (by rw [hopen]; decide)⟩
    · refine yields_bind (P := fun m => m = none) (yields_perform fun m hm => ?_) fun m hm => ?_
      · have hm : .ok m = db.read (.getBrokerOrder p.clientOrderId) := hm
        rw [hc, getBrokerOrder_missing h] at hm
        exact Except.ok.inj hm
      · subst hm
        refine yields_bind (yields_reports o _ hb) fun f' hf' => yields_ret ⟨fun _ => hf', fun _ => hf'⟩

theorem yields_checkHistory_covers (h : Unmirrored db env o t) {acc : Findings × List BrokerOrder}
    {p : BrokerOrder} (hp : p.brokerOrderId = o.brokerOrderId → p.clientOrderId = o.clientOrderId)
    (hacc : Covers o acc) : Yields (Answered db env) (checkHistory acc p) (Covers o) := by
  by_cases hb : p.brokerOrderId = o.brokerOrderId
  · exact (yields_checkHistory_same h hb (hp hb) hacc).mono fun _ h => h.1
  · unfold checkHistory
    split
    · exact yields_ret hacc
    · split
      · exact yields_ret hacc
      · refine yields_bind (yields_true _) fun (m : Option BrokerOrder) _ => ?_
        cases m with
        | none =>
            refine yields_covers_cons hb hacc fun hf => ?_
            exact yields_report (reports_stays o) (f := acc.1.countOrder) hf _ _
        | some m =>
            have := yields_covers_cons hb hacc fun hf =>
              yields_mirrored (A := Answered db env) (reports_stays o) (f := acc.1.countOrder) hf p m
            simpa only [bind_assoc, bind_eq, pure_eq_ret] using this

theorem yields_historyPass (h : Unmirrored db env o t) (d : TradingDate)
    (hhorizon : ∀ since, historyHorizon d db.latestRun = .ok since → since ≤ t)
    {acc : Findings × List BrokerOrder} (hacc : Covers o acc) :
    Yields (Answered db env) (historyPass d acc) (fun f => Reports o f.mismatches) := by
  refine yields_bind (P := fun latest => latest = db.latestRun)
    (yields_perform fun latest hl => Except.ok.inj hl) fun latest hlatest => ?_
  subst hlatest
  refine yields_bind (P := fun since => since ≤ t) (yields_ofExcept hhorizon) fun since hsince => ?_
  refine yields_bind (P := fun recent : List BrokerOrder => o ∈ recent ∧ ∀ p ∈ recent,
      p.brokerOrderId = o.brokerOrderId → p.clientOrderId = o.clientOrderId)
    (yields_perform fun recent hr => ?_) fun recent hrecent => ?_
  · obtain ⟨n, hn⟩ := hr
    exact ⟨h.visible n since recent hsince hn.symm, h.recent_identity n since recent hn.symm⟩
  · obtain ⟨hmem, hidentity⟩ := hrecent
    obtain ⟨before, after, rfl⟩ := List.append_of_mem hmem
    have hclosed : o.isOpen = false := by simp [BrokerOrder.isOpen, h.terminal]
    -- The entries before `o`, then `o` itself, then the rest.
    refine yields_bind (P := fun acc' => Reports o acc'.1.mismatches) ?_ fun acc' hr => yields_ret hr
    rw [List.foldlM_append]
    refine yields_bind (yields_foldlM (I := Covers o) (fun acc p hp hacc => ?_) hacc) fun acc₁ hacc₁ => ?_
    · exact yields_checkHistory_covers h (hidentity p (List.mem_append_left _ hp)) hacc
    rw [List.foldlM_cons]
    refine yields_bind (yields_checkHistory_same h rfl rfl hacc₁) fun acc₂ hacc₂ => ?_
    refine yields_foldlM (I := fun acc : Findings × List BrokerOrder => Reports o acc.1.mismatches)
      (fun acc p _ hr => ?_) (hacc₂.2 hclosed)
    exact yields_checkHistory_stays (reports_stays o) hr p

/-- A run whose history reaches back to `t` reports the order. -/
theorem yields_collectFindings (h : Unmirrored db env o t) (cfg : ReconcilerConfig) (d : TradingDate)
    (hhorizon : ∀ since, historyHorizon d db.latestRun = .ok since → since ≤ t) :
    Yields (Answered db env) (collectFindings cfg d) (fun f => Reports o f.mismatches) := by
  refine yields_bind (yields_true _) fun _ _ => yields_bind (yields_true _) fun a _ =>
    yields_bind (yields_true _) fun f _ => yields_bind (yields_orderPasses h f) fun acc hacc => ?_
  refine yields_bind (yields_historyPass h d hhorizon hacc) fun f hf => ?_
  refine yields_bind (yields_positionPass (reports_stays o) hf) fun acc hacc => ?_
  exact yields_accountPass (reports_stays o) cfg a acc.2 hacc

end Passes

/-! ### Histories of runs -/

/-- `ReconcileHistory db rs db'`: from the tables `db`, runs at any times and against any broker
answers recorded `rs`, and left the tables `db'`.  A run may have failed on a broker query or an
inconsistent ledger and recorded that.  Between runs others may write to all tables but the one of
the runs. -/
inductive ReconcileHistory : Db → List ReconciliationResult → Db → Prop
  | start (db : Db) : ReconcileHistory db [] db
  | run {db₀ db : Db} {rs : List ReconciliationResult} {env : Env} {cfg : ReconcilerConfig}
      {d : TradingDate} {r : ReconciliationResult} {w : World} :
      ReconcileHistory db₀ rs db → Prog.run (handler env) (reconcile cfg d) (.start db) = (.ok r, w) →
      ReconcileHistory db₀ (rs ++ [r]) w.db
  | other {db₀ db db' : Db} {rs : List ReconciliationResult} :
      ReconcileHistory db₀ rs db → db'.runs = db.runs → ReconcileHistory db₀ rs db'

theorem ReconcileHistory.runs_eq {db₀ db : Db} {rs : List ReconciliationResult}
    (h : ReconcileHistory db₀ rs db) : db.runs = db₀.runs ++ rs := by
  induction h with
  | start => simp
  | run _ hrun ih => rw [reconcile_records (World.start_shows _) hrun, ih, List.append_assoc]
  | other _ hruns ih => rw [hruns, ih]

/-- The latest run is the last one of the history. -/
theorem ReconcileHistory.latestRun_eq {db₀ db : Db} {rs : List ReconciliationResult}
    (h : ReconcileHistory db₀ rs db) : db.latestRun = rs.getLast?.or db₀.latestRun := by
  rw [Db.latestRun, h.runs_eq, List.getLast?_append, Db.latestRun]

/-- The history of a run whose predecessor was observed within a day after `t` reaches back to `t`. -/
theorem historyHorizon_le {d : TradingDate} {latest : ReconciliationResult} {t since : UtcTimestamp}
    (hl : latest.observedAt.micros ≤ t.micros + dayMicros)
    (h : historyHorizon d (some latest) = .ok since) : since ≤ t := by
  unfold historyHorizon UtcTimestamp.shift at h
  simp only [] at h
  split at h
  · cases h
    rw [UtcTimestamp.le_iff]
    simp only []
    omega
  · cases h

/-- **No terminal order escapes for long enough histories.**  A broker order without mirror that
became terminal at `t`, after the horizon of the first run, is reported by the run that completes,
if the last run recorded before was observed at most one day after `t`. -/
theorem closedOrder_reported (db₀ db : Db) (rs : List ReconciliationResult) (env : Env)
    (cfg : ReconcilerConfig) (d : TradingDate) (r : ReconciliationResult) (o : BrokerOrder) (t : UtcTimestamp)
    (hruns : ReconcileHistory db₀ rs db) (ho : Unmirrored db env o t)
    (hfirst : rs = [] → ∀ since, historyHorizon d db₀.latestRun = .ok since → since ≤ t)
    (hlast : ∀ q ∈ rs.getLast?, q.observedAt.micros ≤ t.micros + dayMicros)
    (hdone : (run (handler env) (collect cfg d) (.start db)).1 = .ok r) : Reports o r.mismatches := by
  have hhorizon : ∀ since, historyHorizon d db.latestRun = .ok since → since ≤ t := by
    intro since hs
    rw [hruns.latestRun_eq] at hs
    cases hq : rs.getLast? with
    | none =>
        rw [hq] at hs
        exact hfirst (List.getLast?_eq_none_iff.mp hq) since hs
    | some q =>
        rw [hq] at hs
        exact historyHorizon_le (hlast q hq) hs
  simp only [collect, bind_eq, run_bind] at hdone
  rcases hf : run (handler env) (collectFindings cfg d) (.start db) with ⟨x, w⟩
  rw [hf] at hdone
  cases x with
  | error e => cases hdone
  | ok f =>
      have hreports : Reports o f.mismatches :=
        (yields_collectFindings ho cfg d hhorizon).run (fun _ _ hs hc => handler_answered hs hc)
          (observes_collectFindings cfg d) (World.start_shows db) (by rw [hf])
      simp only [run_createResult] at hdone
      rw [(ReconciliationResult.create_ok hdone).2.1]
      exact hreports

/-! ### A failed run hides an order -/

/-- An order the tables do not know, canceled at instant 1. -/
def foreignOrder : BrokerOrder := sampleOrder .canceled 0 1

/-- The instant `n` days and one microsecond into year 1. -/
def dayInstant (n : Fin 100) : UtcTimestamp :=
  ⟨n * dayMicros + 1, by have := n.isLt; unfold dayMicros hourMicros maxMicros; omega⟩

/-- A broker on day `n` that holds nothing but the canceled order and lists every order updated
since the requested time; while it is unreachable all queries fail. -/
theorem paperId_ok : IsBoundedText 100 "paper" := by decide

def noCash : UsdAmount := ⟨0, by decide⟩

def foreignEnv (n : Fin 100) (reachable : Bool) : Env where
  clock _ := dayInstant n
  broker _ c :=
    if reachable then
      match c with
      | .account => .ok ⟨"paper", .paper, noCash, noCash, noCash, paperId_ok⟩
      | .getOrder _ => .ok none
      | .listRecentOrders since => .ok (if since ≤ foreignOrder.updatedAt then [foreignOrder] else [])
      | .listOpenOrders => .ok []
      | .listPositions => .ok []
      | .listFills _ => .ok []
      | .getAsset _ => .ok none
      | .cancelOrder _ => .ok false
      | .submitOrder _ => .error ⟨.brokerTransport, "unreachable"⟩
    else .error ⟨.brokerTransport, "unreachable"⟩
  price _ _ := .error ⟨.markPriceUnavailable, "unreachable"⟩
  uuid k := ⟨n * 1000 + k % 1000 + 1, by have := n.isLt; omega⟩

/-- Reconciliation without an account policy. -/
def plainConfig : ReconcilerConfig := ⟨none, false, false⟩

/-- Tables without orders. -/
def emptyDb : Db where
  intents := Table.empty
  mirrors := Table.empty
  fills := Table.empty
  control := ⟨false, none, instant 0, 0, rfl, Db.no_reason_ok⟩
  commands := Table.empty
  runs := []
  baselineRevisions := []
  accountBaselines := []
  client_unique := Db.no_mirrors_unique

def secondDay : TradingDate := ⟨1, 1, 2, by decide, by decide, by decide⟩

/-- A run on day `n`. -/
def ranOn (n : Fin 100) (reachable : Bool) (db : Db) : Except PyError ReconciliationResult × World :=
  run (handler (foreignEnv n reachable)) (reconcile plainConfig secondDay) (.start db)

/-- What a run on day `n` collects. -/
def collectedOn (n : Fin 100) (db : Db) : Except PyError ReconciliationResult :=
  (run (handler (foreignEnv n true)) (collect plainConfig secondDay) (.start db)).1

theorem foreignOrder_unmirrored (n : Fin 100) (reachable : Bool) (db : Db)
    (hdb : db.mirrorOf sampleId = none) :
    Unmirrored db (foreignEnv n reachable) foreignOrder foreignOrder.updatedAt where
  terminal := rfl
  missing := hdb
  visible k since l hs hl := by
    cases reachable with
    | true =>
        have hl : (if since ≤ foreignOrder.updatedAt then [foreignOrder] else []) = l := Except.ok.inj hl
        rw [← hl, if_pos hs]
        exact List.mem_singleton.mpr rfl
    | false => cases hl
  recent_identity k since l hl p hp _ := by
    cases reachable with
    | true =>
        have hl : (if since ≤ foreignOrder.updatedAt then [foreignOrder] else []) = l := Except.ok.inj hl
        rw [← hl] at hp
        split at hp
        · rw [List.mem_singleton.mp hp]
        · cases hp
    | false => cases hl
  open_identity k l hl p hp _ := by
    cases reachable with
    | true =>
        cases hl
        cases hp
    | false => cases hl

/-- The runs before the next one: one that failed on day `n`. -/
theorem failedOn_history {n : Fin 100} {r : ReconciliationResult} {w : World}
    (h : ranOn n false emptyDb = (.ok r, w)) : ReconcileHistory emptyDb [r] w.db := by
  have hrun : ReconcileHistory emptyDb ([] ++ [r]) w.db := ReconcileHistory.run (.start emptyDb) h
  exact hrun

/-- Reading a run off its two parts. -/
theorem ranOn_of_isOk {n : Fin 100} (h : (ranOn n false emptyDb).1.isOk = true) :
    ∃ r w, ranOn n false emptyDb = (.ok r, w) := by
  rcases hr : ranOn n false emptyDb with ⟨x, w⟩
  rw [hr] at h
  cases x with
  | error e => cases h
  | ok r => exact ⟨r, w, rfl⟩

/-- A run that fails one day after the order was canceled does not hide it: the run on the next day
reports it. -/
theorem closedOrder_reported_sample : ∃ q w r, ranOn 1 false emptyDb = (.ok q, w) ∧
    collectedOn 2 w.db = .ok r ∧ Reports foreignOrder r.mismatches := by
  obtain ⟨q, w, hfailed⟩ := ranOn_of_isOk (n := 1) (by decide +kernel)
  have hobserved : (ranOn 1 false emptyDb).1.toOption.map (·.observedAt) = some (dayInstant 1) := by
    decide +kernel
  have hmissing : (ranOn 1 false emptyDb).2.db.mirrorOf sampleId = none := by decide +kernel
  have hcollected : (collectedOn 2 (ranOn 1 false emptyDb).2.db).isOk = true := by decide +kernel
  rw [hfailed] at hobserved hmissing hcollected
  cases hr : collectedOn 2 w.db with
  | error e =>
      rw [hr] at hcollected
      cases hcollected
  | ok r =>
      refine ⟨q, w, r, hfailed, hr, ?_⟩
      refine closedOrder_reported emptyDb w.db [q] (foreignEnv 2 true) plainConfig secondDay r foreignOrder
        foreignOrder.updatedAt (failedOn_history hfailed) (foreignOrder_unmirrored 2 true w.db hmissing)
        (fun h => absurd h (List.cons_ne_nil q [])) ?_ hr
      rintro q' ⟨⟩
      have hq : q.observedAt = dayInstant 1 := Option.some.inj hobserved
      show q.observedAt.micros ≤ _
      rw [hq]
      decide

/-- A run fails three days after the order was canceled; the run on the next day completes, clean. -/
theorem failedRun_hides_order : ∃ (q : ReconciliationResult) (w : World) (r : ReconciliationResult),
    ReconcileHistory emptyDb [q] w.db ∧
    Unmirrored w.db (foreignEnv 4 true) foreignOrder foreignOrder.updatedAt ∧
    historyHorizon secondDay emptyDb.latestRun = .ok (instant 0) ∧
    collectedOn 4 w.db = .ok r ∧ ¬ Reports foreignOrder r.mismatches := by
  obtain ⟨q, w, hfailed⟩ := ranOn_of_isOk (n := 3) (by decide +kernel)
  have hmissing : (ranOn 3 false emptyDb).2.db.mirrorOf sampleId = none := by decide +kernel
  have hcollected : (collectedOn 4 (ranOn 3 false emptyDb).2.db).toOption.map (·.mismatches) = some [] := by
    decide +kernel
  rw [hfailed] at hmissing hcollected
  cases hr : collectedOn 4 w.db with
  | error e =>
      rw [hr] at hcollected
      cases hcollected
  | ok r =>
      rw [hr] at hcollected
      have hclean : r.mismatches = [] := Option.some.inj hcollected
      refine ⟨q, w, r, failedOn_history hfailed, foreignOrder_unmirrored 4 true w.db hmissing,
        by decide +kernel, hr, ?_⟩
      rintro ⟨m, hm, -⟩
      rw [hclean] at hm
      cases hm

end SevenLens
