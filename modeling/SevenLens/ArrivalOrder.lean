import SevenLens.BaselineCash

/-! # The order in which fills were recorded

A reconciliation reads the fills in the order in which they were recorded.  The mirrors and the closed
history only ask which executions are recorded, and the ledger sorts them, so up to the opening
baseline the order makes no difference (`Unmoved`).  The cash behind the baseline is summed up in the
recorded order and has to stay in its range on the way, which depends on the order.

`collect_arrival_iff`: the outcome is the same for all orders exactly when this sum is not reached, or
stays in its range in every order, or leaves it in every order. -/

namespace SevenLens

open Calls Prog

/-! ### Tables with the same fills -/

/-- The tables with the fills in another order. -/
def Db.arrived (db : Db) (fills : Table Fill.executionId) : Db := { db with fills }

section Passes

variable {v : BrokerView} {db : Db} {fills : Table Fill.executionId}

/-- The order of the fills makes no difference to what the program computes. -/
def Unmoved {α : Type} (v : BrokerView) (db : Db) (fills : Table Fill.executionId) (p : Proc α) : Prop :=
  eval (observe v db) p = eval (observe v (db.arrived fills)) p

/-- Calls that do not list fills. -/
def Call.SparesFills : Call → Prop
  | .store _ (.listFills _) | .store _ .listAllFills | .store _ (.getFillByExecutionId _) => False
  | c => IsObservation c

theorem observe_spares {c : Call} (hc : c.SparesFills) : observe v db c = observe v (db.arrived fills) c := by
  cases c with
  | store h c => cases c <;> first | rfl | exact hc.elim | cases hc.2
  | _ => rfl

theorem eval_ask (v : BrokerView) (db : Db) (c : Call) : eval (observe v db) (ask c) = observe v db c :=
  eval_perform (S := ports) (f := observe v db) c

theorem unmoved_ask {c : Call} (hc : c.SparesFills) : Unmoved v db fills (ask c) :=
  (eval_ask v db c).trans ((observe_spares hc).trans (eval_ask v (db.arrived fills) c).symm)

theorem unmoved_getBaseline (a : String) : Unmoved v db fills (getBaseline a) :=
  unmoved_ask (c := .store .uow (.getBaseline a)) ⟨rfl, rfl⟩

theorem unmoved_currentPrice (s : Symbol) : Unmoved v db fills (currentPrice s) :=
  unmoved_ask (c := .currentPrice s) trivial

theorem unmoved_beginReconciliationSnapshot : Unmoved v db fills beginReconciliationSnapshot :=
  unmoved_ask (c := .beginReconciliationSnapshot) trivial

theorem unmoved_ofExcept {α : Type} (r : Except PyError α) : Unmoved v db fills (Prog.ofExcept r : Proc α) := by
  unfold Unmoved
  rw [eval_ofExcept, eval_ofExcept]

theorem unmoved_bind {α β : Type} {p : Proc α} {q : α → Proc β} (hp : Unmoved v db fills p)
    (hq : ∀ a, eval (observe v db) p = .ok a → Unmoved v db fills (q a)) : Unmoved v db fills (p.bind q) := by
  unfold Unmoved at *
  rw [eval_bind, eval_bind, ← hp]
  cases ha : eval (observe v db) p with
  | ok a => exact hq a ha
  | error e => rfl

theorem unmoved_ite {α : Type} {c : Prop} [Decidable c] {p q : Proc α} (hp : Unmoved v db fills p)
    (hq : Unmoved v db fills q) : Unmoved v db fills (if c then p else q) := by
  split_ifs
  · exact hp
  · exact hq

theorem unmoved_tryCatch {α : Type} {p : Proc α} {q : PyError → Proc α} (hp : Unmoved v db fills p)
    (hq : ∀ e, Unmoved v db fills (q e)) : Unmoved v db fills (p.tryCatch q) := by
  unfold Unmoved at *
  rw [eval_tryCatch, eval_tryCatch, ← hp]
  cases eval (observe v db) p with
  | ok a => rfl
  | error e => exact hq e

theorem unmoved_foldlM {α β : Type} {q : β → α → Proc β} (hq : ∀ b a, Unmoved v db fills (q b a)) (l : List α) (b : β) :
    Unmoved v db fills (l.foldlM q b) := by
  induction l generalizing b with
  | nil => rfl
  | cons a l ih =>
      rw [List.foldlM_cons]
      exact unmoved_bind (hq b a) fun b' _ => ih b'

theorem unmoved_report (f : Findings) (k : MismatchKind) (d : String) : Unmoved v db fills (f.report k d) :=
  unmoved_ofExcept _

theorem unmoved_reportIf (f : Findings) (c : Prop) [Decidable c] (k : MismatchKind) (d : String) :
    Unmoved v db fills (f.reportIf c k d) := unmoved_ite (unmoved_report f k d) rfl

/-! ### The passes before the account -/

/-- Which executions are recorded decides what a comparison with the broker's fills reports. -/
theorem checkBrokerFills_congr {l l' : List Fill} (h : l.Perm l') (m : List Fill) (f : Findings) :
    checkBrokerFills l m f = checkBrokerFills l' m f := by
  have hmem : ∀ g : Fill, g.executionId ∉ l.map Fill.executionId ↔ g.executionId ∉ l'.map Fill.executionId :=
    fun g => not_congr (h.map _).mem_iff
  unfold checkBrokerFills
  congr 1
  funext f g
  unfold Findings.reportIf
  exact if_congr (hmem g) rfl rfl

theorem unmoved_compareFills (hperm : db.fills.rows.Perm fills.rows) (b b' : String) (f : Findings) :
    Unmoved v db fills (do
      let localFills ← listFills b
      let brokerFills ← listBrokerFills b'
      checkBrokerFills localFills brokerFills f) := by
  have hlist : ∀ db' : Db, eval (observe v db') (listFills b) = .ok (db'.fillsOf b) :=
    fun db' => eval_ask v db' (.store .uow (.listFills b))
  have hfills : (db.fillsOf b).Perm ((db.arrived fills).fillsOf b) := hperm.filter _
  unfold Unmoved
  rw [bind_eq, eval_bind_ok (hlist db), eval_bind_ok (hlist (db.arrived fills))]
  have hcongr : (fun m => checkBrokerFills (db.fillsOf b) m f) =
      fun m => checkBrokerFills ((db.arrived fills).fillsOf b) m f :=
    funext fun m => checkBrokerFills_congr hfills m f
  show eval _ ((listBrokerFills b').bind fun m => checkBrokerFills (db.fillsOf b) m f) =
    eval _ ((listBrokerFills b').bind fun m => checkBrokerFills ((db.arrived fills).fillsOf b) m f)
  rw [← hcongr]
  exact unmoved_bind (unmoved_ask trivial) fun m _ => unmoved_foldlM (fun f g => unmoved_reportIf _ _ _ _) m f

theorem unmoved_checkUnresolved (f : Findings) (s : OrderStatus) : Unmoved v db fills (checkUnresolved f s) :=
  unmoved_bind (unmoved_ask ⟨rfl, rfl⟩) fun l _ => unmoved_foldlM (fun _ _ => unmoved_report _ _ _) l f

theorem unmoved_checkOpenMirror (hperm : db.fills.rows.Perm fills.rows) (f : Findings) (m : BrokerOrder) :
    Unmoved v db fills (checkOpenMirror f m) := by
  refine unmoved_bind (unmoved_ask trivial) fun (o : Option BrokerOrder) _ => ?_
  cases o with
  | none => exact unmoved_report _ _ _
  | some o =>
      refine unmoved_bind (unmoved_ask ⟨rfl, rfl⟩) fun i _ => unmoved_bind (unmoved_reportIf _ _ _ _) fun f₁ _ =>
        unmoved_bind (unmoved_reportIf _ _ _ _) fun f₂ _ => unmoved_bind (unmoved_reportIf _ _ _ _) fun f₃ _ => ?_
      exact unmoved_compareFills hperm _ _ f₃

theorem unmoved_checkClosedMirror (ids : List String) (f : Findings) (m : BrokerOrder) :
    Unmoved v db fills (checkClosedMirror ids f m) := by
  refine unmoved_ite rfl (unmoved_bind (unmoved_ask trivial) fun (o : Option BrokerOrder) _ => ?_)
  cases o with
  | none => rfl
  | some o => exact unmoved_ite (unmoved_report _ _ _) rfl

theorem unmoved_checkOpenOrder (known : List ClientOrderId) (acc : Findings × List BrokerOrder) (o : BrokerOrder) :
    Unmoved v db fills (checkOpenOrder known acc o) :=
  unmoved_bind (unmoved_reportIf _ _ _ _) fun _ _ => rfl

theorem unmoved_orderPasses (hperm : db.fills.rows.Perm fills.rows) (f : Findings) :
    Unmoved v db fills (orderPasses f) := by
  refine unmoved_bind (unmoved_checkUnresolved _ _) fun f₁ _ => unmoved_bind (unmoved_checkUnresolved _ _)
    fun f₂ _ => unmoved_bind (unmoved_ask ⟨rfl, rfl⟩) fun mirrors _ => ?_
  refine unmoved_bind (unmoved_foldlM (unmoved_checkOpenMirror hperm) mirrors f₂) fun f₃ _ =>
    unmoved_bind (unmoved_ask ⟨rfl, rfl⟩) fun all _ => ?_
  refine unmoved_bind (unmoved_foldlM (unmoved_checkClosedMirror _) all f₃) fun f₄ _ =>
    unmoved_bind (unmoved_ask ⟨rfl, rfl⟩) fun known _ => unmoved_bind (unmoved_ask trivial) fun opened _ => ?_
  exact unmoved_foldlM (unmoved_checkOpenOrder _) opened _

theorem unmoved_checkHistory (hperm : db.fills.rows.Perm fills.rows) (acc : Findings × List BrokerOrder)
    (o : BrokerOrder) : Unmoved v db fills (checkHistory acc o) := by
  refine unmoved_ite rfl (unmoved_ite rfl (unmoved_bind (unmoved_ask ⟨rfl, rfl⟩) fun (m : Option BrokerOrder) _ => ?_))
  cases m with
  | none => exact unmoved_bind (unmoved_report _ _ _) fun _ _ => rfl
  | some m =>
      refine unmoved_bind (unmoved_reportIf _ _ _ _) fun f _ => ?_
      have hcompare := unmoved_bind (unmoved_compareFills (v := v) hperm m.brokerOrderId o.brokerOrderId f)
        (q := fun f' => (pure (f', o :: acc.2) : Proc (Findings × List BrokerOrder))) fun _ _ => rfl
      simpa only [bind_eq, Prog.bind_assoc] using hcompare

theorem unmoved_historyPass (hperm : db.fills.rows.Perm fills.rows) (d : TradingDate)
    (acc : Findings × List BrokerOrder) : Unmoved v db fills (historyPass d acc) := by
  refine unmoved_bind (unmoved_ask ⟨rfl, rfl⟩) fun latest _ => unmoved_bind (unmoved_ofExcept _) fun since _ =>
    unmoved_bind (unmoved_ask trivial) fun recent _ => ?_
  exact unmoved_bind (unmoved_foldlM (unmoved_checkHistory hperm) recent acc) fun _ _ => rfl

end Passes

/-! ### Up to the baseline -/

/-- What is at hand when the expected cash is summed up. -/
structure AtBaseline where
  policy : AccountReconciliationPolicy
  account : PaperAccount
  projection : LedgerProjection
  baseline : AccountBaseline
  findings : Findings

/-- The account pass up to the opening baseline; without one the pass is over. -/
def openBaseline (cfg : ReconcilerConfig) (account : PaperAccount) (projection : LedgerProjection) (f : Findings) :
    Proc (Findings ⊕ AtBaseline) :=
  match cfg.accountPolicy with
  | none => pure (.inl f)
  | some policy => do
      let f ← f.reportIf (account.accountId ≠ policy.expectedAccountId) .accountIdMismatch
        (slice 100 account.accountId)
      let baseline ← if cfg.accountBaselines then getBaseline account.accountId else pure none
      match baseline with
      | none => do return .inl (← f.report .accountReconciliationUnavailable "missing opening cash baseline")
      | some baseline => pure (.inr ⟨policy, account, projection, baseline, f⟩)

/-- All passes up to the opening baseline. -/
def beforeBaseline (cfg : ReconcilerConfig) (d : TradingDate) : Proc (Findings ⊕ AtBaseline) := do
  beginReconciliationSnapshot
  let account ← brokerAccount
  let f ← Findings.empty.reportIf (account.environment ≠ .paper) .nonPaperAccount
    "broker account does not assert PAPER"
  let acc ← orderPasses f
  let f ← historyPass d acc
  let (f, projection) ← positionPass f
  openBaseline cfg account projection f

/-- The rest of the passes. -/
def fromBaseline (cfg : ReconcilerConfig) : Findings ⊕ AtBaseline → Proc Findings
  | .inl f => pure f
  | .inr x => baselinePass cfg x.policy x.account x.projection x.baseline x.findings

theorem accountPass_eq (cfg : ReconcilerConfig) (account : PaperAccount) (projection : LedgerProjection)
    (f : Findings) : accountPass cfg account projection f =
      (openBaseline cfg account projection f).bind (fromBaseline cfg) := by
  unfold accountPass openBaseline
  cases cfg.accountPolicy with
  | none => rfl
  | some policy =>
      simp only [bind_eq, Prog.bind_assoc]
      congr 1
      funext f
      -- the baseline is read, or there is none
      cases cfg.accountBaselines with
      | false =>
          simp only [Bool.false_eq_true, if_false]
          show f.report _ _ = ((f.report _ _).bind fun f => Prog.ret (.inl f)).bind (fromBaseline cfg)
          rw [Prog.bind_assoc]
          exact (Prog.bind_ret _).symm
      | true =>
          simp only [if_true, Prog.bind_assoc]
          refine congrArg (Prog.bind _) (funext fun (b : Option AccountBaseline) => ?_)
          cases b with
          | none =>
              show f.report _ _ = ((f.report _ _).bind fun f => Prog.ret (.inl f)).bind (fromBaseline cfg)
              rw [Prog.bind_assoc]
              exact (Prog.bind_ret _).symm
          | some b => rfl

theorem collectFindings_eq (cfg : ReconcilerConfig) (d : TradingDate) :
    collectFindings cfg d = (beforeBaseline cfg d).bind (fromBaseline cfg) := by
  simp only [collectFindings, beforeBaseline, bind_eq, bind_assoc, accountPass_eq]

/-- Two outcomes are alike: related values, or exceptions of one kind. -/
def Alike {α : Type} (R : α → α → Prop) : Except PyError α → Except PyError α → Prop
  | .ok a, .ok b => R a b
  | .error e, .error e' => e.kind = e'.kind
  | .ok _, .error _ | .error _, .ok _ => False

theorem alike_rfl {α : Type} (x : Except PyError α) : Alike Eq x x := by
  cases x <;> rfl

section Reached

variable {v : BrokerView} {db : Db} {fills : Table Fill.executionId}

theorem Unmoved.alike {α : Type} {p : Proc α} (h : Unmoved v db fills p) :
    Alike Eq (eval (observe v db) p) (eval (observe v (db.arrived fills)) p) := by
  rw [← h]
  exact alike_rfl _

theorem alike_bind {α β : Type} {R : β → β → Prop} {p : Proc α} {q : α → Proc β}
    (hp : Alike Eq (eval (observe v db) p) (eval (observe v (db.arrived fills)) p))
    (hq : ∀ a, eval (observe v db) p = .ok a →
      Alike R (eval (observe v db) (q a)) (eval (observe v (db.arrived fills)) (q a))) :
    Alike R (eval (observe v db) (p.bind q)) (eval (observe v (db.arrived fills)) (p.bind q)) := by
  rw [eval_bind, eval_bind]
  cases ha : eval (observe v db) p with
  | ok a =>
      cases hb : eval (observe v (db.arrived fills)) p with
      | ok b =>
          rw [ha, hb] at hp
          cases hp
          exact hq a ha
      | error e =>
          rw [ha, hb] at hp
          exact hp.elim
  | error e =>
      cases hb : eval (observe v (db.arrived fills)) p with
      | ok b =>
          rw [ha, hb] at hp
          exact hp.elim
      | error e' =>
          rw [ha, hb] at hp
          exact hp

theorem eval_bind_eq_ok {α β : Type} {p : Proc α} {q : α → Proc β} {b : β} :
    eval (observe v db) (p.bind q) = .ok b ↔
      ∃ a, eval (observe v db) p = .ok a ∧ eval (observe v db) (q a) = .ok b := by
  rw [eval_bind]
  cases eval (observe v db) p with
  | ok a => simp
  | error e => simp

/-- The orders that a reconciliation knows. -/
def Db.knownOrders (db : Db) : String → Option BrokerOrder := byBrokerOrderId db.listAllBrokerOrders

theorem eval_positionPass (f : Findings) : eval (observe v db) (positionPass f) =
    match projectLedger db.fills.rows db.knownOrders with
    | .error e => .error e
    | .ok projection => eval (observe v db) (do
        let positions ← listPositions
        let f ← (positionSymbols projection.positions positions).foldlM
          (checkPosition projection.positions positions) f
        pure (f, projection)) := by
  have hfills : eval (observe v db) listAllFills = .ok db.fills.rows := eval_ask v db (.store .uow .listAllFills)
  have hmirrors : eval (observe v db) listAllBrokerOrders = .ok db.listAllBrokerOrders :=
    eval_ask v db (.store .uow .listAllBrokerOrders)
  unfold positionPass
  rw [bind_eq, eval_bind_ok hfills, bind_eq, eval_bind_ok hmirrors, bind_eq, eval_bind, eval_ofExcept]
  unfold Db.knownOrders
  cases projectLedger db.fills.rows (byBrokerOrderId db.listAllBrokerOrders) <;> rfl

/-- The ledger is replayed in its own order. -/
theorem positionPass_alike (hperm : db.fills.rows.Perm fills.rows) (f : Findings) :
    Alike Eq (eval (observe v db) (positionPass f)) (eval (observe v (db.arrived fills)) (positionPass f)) := by
  rw [eval_positionPass, eval_positionPass]
  have hledger := (projectLedger_fifo db.knownOrders db.fills.rows).2.2 fills.rows hperm
  have horders : (db.arrived fills).knownOrders = db.knownOrders := rfl
  have hrows : (db.arrived fills).fills.rows = fills.rows := rfl
  rw [horders, hrows]
  cases hp : projectLedger db.fills.rows db.knownOrders with
  | ok p =>
      rw [(hledger p).mp hp]
      refine Unmoved.alike (unmoved_bind (unmoved_ask trivial) fun positions _ => ?_)
      exact unmoved_bind (unmoved_foldlM (fun f s => unmoved_ite (unmoved_report _ _ _) (unmoved_reportIf _ _ _ _)) _ f)
        fun _ _ => rfl
  | error e =>
      cases hp' : projectLedger fills.rows db.knownOrders with
      | ok p => exact absurd ((hledger p).mpr hp') (by rw [hp]; simp)
      | error e' => exact (projectLedger_error hp).trans (projectLedger_error hp').symm

theorem unmoved_openBaseline (cfg : ReconcilerConfig) (account : PaperAccount) (projection : LedgerProjection)
    (f : Findings) : Unmoved v db fills (openBaseline cfg account projection f) := by
  unfold openBaseline
  split
  · rfl
  · refine unmoved_bind (unmoved_reportIf _ _ _ _) fun f _ => ?_
    refine unmoved_ite (unmoved_bind (unmoved_getBaseline _) fun (b : Option AccountBaseline) _ => ?_) ?_
    · cases b with
      | none => exact unmoved_bind (unmoved_report _ _ _) fun _ _ => rfl
      | some b => rfl
    · refine unmoved_bind (p := pure none) rfl fun (b : Option AccountBaseline) hb => ?_
      cases hb
      exact unmoved_bind (unmoved_report _ _ _) fun _ _ => rfl

theorem beforeBaseline_alike (hperm : db.fills.rows.Perm fills.rows) (cfg : ReconcilerConfig) (d : TradingDate) :
    Alike Eq (eval (observe v db) (beforeBaseline cfg d)) (eval (observe v (db.arrived fills)) (beforeBaseline cfg d)) := by
  refine alike_bind unmoved_beginReconciliationSnapshot.alike fun _ _ =>
    alike_bind (unmoved_ask (c := .broker .account) trivial).alike fun account _ =>
    alike_bind (unmoved_reportIf _ _ _ _).alike fun f₁ _ => alike_bind (unmoved_orderPasses hperm f₁).alike fun acc _ => ?_
  refine alike_bind (unmoved_historyPass hperm d acc).alike fun f₂ _ => alike_bind (positionPass_alike hperm f₂)
    fun x _ => ?_
  exact (unmoved_openBaseline cfg account x.2 x.1).alike

/-- At the baseline the ledger has been accepted. -/
theorem beforeBaseline_ledger {cfg : ReconcilerConfig} {d : TradingDate} {r : Findings ⊕ AtBaseline}
    (h : eval (observe v db) (beforeBaseline cfg d) = .ok r) : ∃ p, projectLedger db.fills.rows db.knownOrders = .ok p := by
  simp only [beforeBaseline, bind_eq, eval_bind_eq_ok] at h
  obtain ⟨-, -, account, -, f₁, -, acc, -, f₂, -, x, hx, -⟩ := h
  rw [eval_positionPass] at hx
  cases hp : projectLedger db.fills.rows db.knownOrders with
  | ok p => exact ⟨p, rfl⟩
  | error e =>
      rw [hp] at hx
      cases hx

end Reached

/-! ### From the baseline on -/

/-- What follows the expected cash. -/
def afterCash (cfg : ReconcilerConfig) (x : AtBaseline) (expected : Int) : Proc Findings := do
  let f ← x.findings.reportIf (x.policy.cashToleranceCents < ((x.account.cash.cents : Int) - expected).natAbs)
    .cashMismatch (expectedGot expected x.account.cash.cents)
  navPass cfg x.policy x.account x.projection expected f

theorem marketValue_error {lots : List OpenLot} {prices : Symbol → Option Price} {e : PyError}
    (h : marketValue lots prices = .error e) : e.kind = .valueError := by
  unfold marketValue at h
  generalize 0 = total at h
  induction lots generalizing total with
  | nil => cases h
  | cons lot lots ih =>
      rw [List.foldlM_cons] at h
      cases hp : prices lot.symbol with
      | none =>
          rw [hp] at h
          cases h
          rfl
      | some price =>
          rw [hp] at h
          exact ih _ h

theorem accountEquity_error {cash : Int} {lots : List OpenLot} {prices : Symbol → Option Price} {e : PyError}
    (h : accountEquityFromCashAndPositions cash lots prices = .error e) : e.kind = .valueError := by
  unfold accountEquityFromCashAndPositions at h
  split_ifs at h with hcash
  · cases h
    rfl
  · cases hm : marketValue lots prices with
    | error x =>
        rw [hm] at h
        cases h
        exact marketValue_error hm
    | ok value =>
        rw [hm] at h
        change (if maxAbsCents < (cash + value).natAbs then _ else _) = _ at h
        split_ifs at h
        cases h
        rfl

/-- Programs that read at most mark prices and raise no `LedgerInvariantError`. -/
abbrev Valued {α : Type} (p : Proc α) : Prop :=
  Within (S := ports) (fun c => ∃ s, c = Call.currentPrice s) (fun e => e.kind ≠ .ledgerInvariant) p

theorem valued_report (f : Findings) (k : MismatchKind) (d : String) : Valued (f.report k d) := by
  refine within_ofExcept fun e he => ?_
  unfold ReconciliationMismatch.create at he
  split_ifs at he
  · cases he
  · cases he
    simp

theorem valued_reportIf (f : Findings) (c : Prop) [Decidable c] (k : MismatchKind) (d : String) :
    Valued (f.reportIf c k d) :=
  within_ite (fun _ => valued_report f k d) fun _ => trivial

theorem valued_afterCash (cfg : ReconcilerConfig) (x : AtBaseline) (expected : Int) : Valued (afterCash cfg x expected) := by
  refine within_bind (valued_reportIf _ _ _ _) fun f => within_tryCatch (within_ite (fun _ => ?_) fun _ => ?_)
    fun e he => within_ite (fun _ => valued_report _ _ _) fun _ => he
  · exact within_ite (fun _ => valued_report _ _ _) fun _ => valued_reportIf _ _ _ _
  · refine within_bind (within_foldlM fun prices p => within_bind (within_perform (S := ports) ⟨p.1, rfl⟩) fun _ => trivial)
      fun prices => within_bind (within_ofExcept fun e he => ?_) fun nav => valued_reportIf _ _ _ _
    rw [accountEquity_error he]
    simp

section Behind

variable {v : BrokerView} {db : Db} {fills : Table Fill.executionId}

theorem unmoved_markPrices (positions : List (Symbol × Nat)) : Unmoved v db fills (markPrices positions) := by
  unfold markPrices
  refine unmoved_foldlM (fun prices p => ?_) positions []
  exact unmoved_bind (unmoved_currentPrice p.1) fun _ _ => rfl

theorem unmoved_afterCash (cfg : ReconcilerConfig) (x : AtBaseline) (expected : Int) :
    Unmoved v db fills (afterCash cfg x expected) := by
  refine unmoved_bind (unmoved_reportIf _ _ _ _) fun f _ => unmoved_tryCatch (unmoved_ite ?_ ?_) fun e =>
    unmoved_ite (unmoved_report _ _ _) rfl
  · exact unmoved_ite (unmoved_report _ _ _) (unmoved_reportIf _ _ _ _)
  · refine unmoved_bind (unmoved_markPrices _) fun prices _ => unmoved_bind (unmoved_ofExcept _) fun nav _ => unmoved_reportIf _ _ _ _

/-- Behind the expected cash no exception is a `LedgerInvariantError`. -/
theorem eval_afterCash_error {cfg : ReconcilerConfig} {x : AtBaseline} {expected : Int} {e : PyError}
    (h : eval (observe v db) (afterCash cfg x expected) = .error e) : e.kind ≠ .ledgerInvariant := by
  refine eval_error_within (fun c hc e he => ?_) (valued_afterCash cfg x expected) h
  obtain ⟨s, rfl⟩ := hc
  rw [v.unavailable s e he]
  decide

theorem eval_baselinePass (cfg : ReconcilerConfig) (x : AtBaseline) : eval (observe v db) (fromBaseline cfg (.inr x)) =
    match expectedCashOf db.knownOrders db.fills.rows x.baseline with
    | .error e => .error e
    | .ok expected => eval (observe v db) (afterCash cfg x expected) := by
  have hfills : eval (observe v db) listAllFills = .ok db.fills.rows := eval_ask v db (.store .uow .listAllFills)
  have hmirrors : eval (observe v db) listAllBrokerOrders = .ok db.listAllBrokerOrders :=
    eval_ask v db (.store .uow .listAllBrokerOrders)
  show eval _ (baselinePass cfg x.policy x.account x.projection x.baseline x.findings) = _
  rw [baselinePass_eq, bind_eq, eval_bind_ok hfills, bind_eq, eval_bind_ok hmirrors, bind_eq, eval_bind, eval_ofExcept]
  unfold Db.knownOrders
  cases expectedCashOf (byBrokerOrderId db.listAllBrokerOrders) db.fills.rows x.baseline <;> rfl

end Behind

/-! ### Sums that stay in their range in every order -/

section Turnover

variable {orders : String → Option BrokerOrder}

theorem turnover_nonneg (side : OrderSide) (l : List Fill) : 0 ≤ turnover orders side l := by
  induction l with
  | nil => exact le_rfl
  | cons f l ih =>
      rw [← List.singleton_append, turnover_append]
      refine add_nonneg ?_ ih
      simp only [turnover, List.map_cons, List.map_nil, List.sum_cons, List.sum_nil, add_zero]
      split_ifs
      · exact Int.mul_nonneg (Int.natCast_nonneg _) (Int.natCast_nonneg _)
      · exact le_rfl

theorem turnover_mono {side : OrderSide} {l m : List Fill} (h : l <+: m) : turnover orders side l ≤ turnover orders side m := by
  obtain ⟨k, rfl⟩ := h
  rw [turnover_append]
  have hk := @turnover_nonneg orders side k
  omega

/-- The fills of one side. -/
def ofSide (orders : String → Option BrokerOrder) (side : OrderSide) (f : Fill) : Bool :=
  (orders f.brokerOrderId).any (fun o => o.side = side)

theorem turnover_ofSide (side : OrderSide) (l : List Fill) :
    turnover orders side (l.filter (ofSide orders side)) = turnover orders side l := by
  induction l with
  | nil => rfl
  | cons f l ih =>
      rw [← List.singleton_append, List.filter_append, turnover_append, turnover_append, ih]
      congr 1
      by_cases h : ofSide orders side f = true
      · rw [List.filter_cons_of_pos h, List.filter_nil]
      · rw [List.filter_cons_of_neg h, List.filter_nil]
        simp only [turnover, List.map_cons, List.map_nil, List.sum_cons, List.sum_nil, add_zero]
        exact (if_neg h).symm

theorem turnover_otherSide {side other : OrderSide} (hne : side ≠ other) (l : List Fill) :
    turnover orders other (l.filter (ofSide orders side)) = 0 := by
  refine List.sum_eq_zero fun x hx => ?_
  obtain ⟨f, hf, rfl⟩ := List.mem_map.mp hx
  have hside := (List.mem_filter.mp hf).2
  rw [ofSide, Option.any_eq_true] at hside
  obtain ⟨o, ho, hside⟩ := hside
  rw [ho]
  refine if_neg fun h => hne ?_
  exact (of_decide_eq_true hside).symm.trans (of_decide_eq_true h)

/-- A sum stays in its range in every order exactly when neither side alone leaves it. -/
theorem inRange_perm_iff {l : List Fill} (hknown : ∀ f ∈ l, ∃ o, orders f.brokerOrderId = some o) :
    (∀ l', l.Perm l' → InRange orders l') ↔
      turnover orders .buy l ≤ maxAbsCents ∧ turnover orders .sell l ≤ maxAbsCents := by
  constructor
  · -- one side first
    intro h
    have hfirst : ∀ side : OrderSide, (flow orders (l.filter (ofSide orders side))).natAbs ≤ maxAbsCents := fun side =>
      h _ (List.filter_append_perm (ofSide orders side) l).symm _ (List.prefix_append _ _)
    have hflow : ∀ side : OrderSide, flow orders (l.filter (ofSide orders side)) =
        turnover orders .sell (l.filter (ofSide orders side)) - turnover orders .buy (l.filter (ofSide orders side)) :=
      fun side => flow_eq_turnover fun f hf => hknown f (List.mem_of_mem_filter hf)
    have hbuy := hfirst .buy
    have hsell := hfirst .sell
    rw [hflow, turnover_ofSide, turnover_otherSide (by decide)] at hbuy hsell
    omega
  · rintro ⟨hbuy, hsell⟩ l' hperm p hp
    have hp' : ∀ f ∈ p, ∃ o, orders f.brokerOrderId = some o := fun f hf => hknown f (hperm.mem_iff.mpr (hp.subset hf))
    rw [turnover_perm hperm] at hbuy hsell
    have hb := @turnover_mono orders .buy _ _ hp
    have hs := @turnover_mono orders .sell _ _ hp
    have hb₀ := @turnover_nonneg orders .buy p
    have hs₀ := @turnover_nonneg orders .sell p
    rw [flow_eq_turnover hp']
    omega

end Turnover

/-! ### The outcome of a reconciliation -/

/-- The outcome is a `LedgerInvariantError`. -/
def Refused {α : Type} (r : Except PyError α) : Prop := ∃ e, r = .error e ∧ e.kind = .ledgerInvariant

theorem Alike.refused_iff {α : Type} {R : α → α → Prop} {r r' : Except PyError α} (h : Alike R r r') :
    Refused r ↔ Refused r' := by
  cases r with
  | ok a =>
      cases r' with
      | ok b => simp [Refused]
      | error e => exact h.elim
  | error e =>
      cases r' with
      | ok b => exact h.elim
      | error e' =>
          have hkind : e.kind = e'.kind := h
          simp [Refused, hkind]

theorem expectedCashOf_error {orders : String → Option BrokerOrder} {fills : List Fill} {b : AccountBaseline} {e : PyError}
    (h : expectedCashOf orders fills b = .error e) : e.kind = .ledgerInvariant := by
  have hfold : ∀ (l : List Fill) (cash : Int), l.foldlM (addCashDelta orders) cash = .error e → e.kind = .ledgerInvariant := by
    intro l
    induction l with
    | nil =>
        intro cash h
        cases h
    | cons f l ih =>
        intro cash h
        rw [List.foldlM_cons] at h
        cases ha : addCashDelta orders cash f with
        | ok next =>
            rw [ha] at h
            exact ih next h
        | error x =>
            rw [ha] at h
            cases h
            unfold addCashDelta at ha
            cases ho : orders f.brokerOrderId with
            | none =>
                rw [ho] at ha
                cases ha
                rfl
            | some o =>
                simp only [ho] at ha
                split_ifs at ha
                all_goals cases ha
                all_goals rfl
  unfold expectedCashOf at h
  cases hd : (fills.filter (isPostBaseline b)).foldlM (addCashDelta orders) 0 with
  | ok delta =>
      rw [hd] at h
      cases h
  | error x =>
      rw [hd] at h
      cases h
      exact hfold _ _ hd

section Outcome

variable {v : BrokerView} {db : Db} {fills : Table Fill.executionId}

/-- The fills behind the baseline, in the order in which they were recorded. -/
def Db.fillsBehind (db : Db) (b : AccountBaseline) : List Fill := db.fills.rows.filter (isPostBaseline b)

/-- Behind the baseline the ledger is refused exactly when the sum leaves its range. -/
theorem refused_iff {cfg : ReconcilerConfig} {d : TradingDate} {x : AtBaseline}
    (hx : eval (observe v db) (beforeBaseline cfg d) = .ok (.inr x)) :
    Refused (eval (observe v db) (collectFindings cfg d)) ↔ ¬ InRange db.knownOrders (db.fillsBehind x.baseline) := by
  obtain ⟨p, hp⟩ := beforeBaseline_ledger hx
  have hknown := (projectLedger_flow hp).1
  rw [collectFindings_eq, eval_bind_ok hx, eval_baselinePass]
  cases hcash : expectedCashOf db.knownOrders db.fills.rows x.baseline with
  | ok cash =>
      have hrange := ((expectedCashOf_ok hknown).mp hcash).1
      refine iff_of_false ?_ (not_not.mpr hrange)
      rintro ⟨e, he, hkind⟩
      exact eval_afterCash_error he hkind
  | error e =>
      refine iff_of_true ⟨e, rfl, expectedCashOf_error hcash⟩ fun hrange => ?_
      exact absurd (hcash.symm.trans ((expectedCashOf_ok hknown).mpr ⟨hrange, rfl⟩)) (by simp)

/-- Two orders of the fills with sums of one kind lead to one outcome. -/
theorem collectFindings_alike (hperm : db.fills.rows.Perm fills.rows) {cfg : ReconcilerConfig} {d : TradingDate}
    (hsame : ∀ x, eval (observe v db) (beforeBaseline cfg d) = .ok (.inr x) →
      (InRange db.knownOrders (db.fillsBehind x.baseline) ↔
        InRange db.knownOrders ((db.arrived fills).fillsBehind x.baseline))) :
    Alike Eq (eval (observe v db) (collectFindings cfg d)) (eval (observe v (db.arrived fills)) (collectFindings cfg d)) := by
  rw [collectFindings_eq]
  refine alike_bind (beforeBaseline_alike hperm cfg d) fun r hr => ?_
  cases r with
  | inl f => rfl
  | inr x =>
      obtain ⟨p, hp⟩ := beforeBaseline_ledger hr
      have hknown := (projectLedger_flow hp).1
      have hknown' : ∀ f ∈ (db.arrived fills).fills.rows, ∃ o, db.knownOrders f.brokerOrderId = some o :=
        fun f hf => hknown f (hperm.mem_iff.mpr hf)
      have horders : (db.arrived fills).knownOrders = db.knownOrders := rfl
      rw [eval_baselinePass, eval_baselinePass, horders]
      cases hcash : expectedCashOf db.knownOrders db.fills.rows x.baseline with
      | ok cash =>
          obtain ⟨hrange, rfl⟩ := (expectedCashOf_ok hknown).mp hcash
          have hcash' := (expectedCashOf_ok hknown').mpr ⟨(hsame x hr).mp hrange, rfl⟩
          have hflow : flow db.knownOrders (db.fills.rows.filter (isPostBaseline x.baseline)) =
              flow db.knownOrders ((db.arrived fills).fills.rows.filter (isPostBaseline x.baseline)) :=
            flow_perm (hperm.filter _)
          rw [← hflow] at hcash'
          rw [hcash']
          exact (unmoved_afterCash cfg x _).alike
      | error e =>
          cases hcash' : expectedCashOf db.knownOrders (db.arrived fills).fills.rows x.baseline with
          | ok cash =>
              have hrange := (hsame x hr).mpr ((expectedCashOf_ok hknown').mp hcash').1
              exact absurd (hcash.symm.trans ((expectedCashOf_ok hknown).mpr ⟨hrange, rfl⟩)) (by simp)
          | error e' => exact (expectedCashOf_error hcash).trans (expectedCashOf_error hcash').symm

/-- Two results that differ at most in their run ids. -/
def SameRun (r r' : ReconciliationResult) : Prop := ∃ id h, r' = { r with runId := id, runId_ne := h }

/-- What a run of `collect` returns that reads the clock at `now`. -/
def collected (v : BrokerView) (now : UtcTimestamp) (uuid : Nat → RunId) (cfg : ReconcilerConfig) (d : TradingDate)
    (db : Db) : Except PyError ReconciliationResult :=
  (run (handler (v.env (fun _ => now) (fun n => (uuid n).value))) (collect cfg d) (.start db)).1

theorem collected_eq (v : BrokerView) (now : UtcTimestamp) (uuid : Nat → RunId) (cfg : ReconcilerConfig)
    (d : TradingDate) (db : Db) : ∃ n, collected v now uuid cfg d db =
      (eval (observe v db) (collectFindings cfg d)).bind fun f => ReconciliationResult.create d f.mismatches
        f.checkedOrders f.checkedFills now (uuid n).value cfg.scope := by
  have hfindings := (run_collectFindings v (fun _ => now) (fun n => (uuid n).value) cfg d (World.start_shows db)).1
  unfold collected
  simp only [collect, bind_eq, run_bind]
  rcases hrun : run (handler (v.env (fun _ => now) (fun n => (uuid n).value))) (collectFindings cfg d) (.start db) with ⟨r, w⟩
  rw [hrun] at hfindings
  rw [← hfindings]
  cases r with
  | ok f => exact ⟨w.tick + 1, by simp only [run_createResult]; rfl⟩
  | error e => exact ⟨0, rfl⟩

theorem create_sameRun (d : TradingDate) (f : Findings) (now : UtcTimestamp) (id id' : RunId) (scope : ReconciliationScope) :
    Alike SameRun
      (ReconciliationResult.create d f.mismatches f.checkedOrders f.checkedFills now id.value scope)
      (ReconciliationResult.create d f.mismatches f.checkedOrders f.checkedFills now id'.value scope) := by
  unfold ReconciliationResult.create
  rw [dif_pos id.nonNil, dif_pos id'.nonNil]
  by_cases hbound : f.mismatches.length ≤ maxMismatches
  · rw [dif_pos hbound, dif_pos hbound]
    exact ⟨id'.value, id'.nonNil, rfl⟩
  · rw [dif_neg hbound, dif_neg hbound]
    rfl

theorem refused_create {x : Except PyError Findings} {d : TradingDate} {now : UtcTimestamp} {id : Uuid} {scope : ReconciliationScope} :
    Refused (x.bind fun f => ReconciliationResult.create d f.mismatches f.checkedOrders f.checkedFills now id scope) ↔
      Refused x := by
  cases x with
  | error e => simp [Refused, Except.bind]
  | ok f =>
      refine iff_of_false ?_ (by simp [Refused])
      rintro ⟨e, he, hkind⟩
      change ReconciliationResult.create d f.mismatches f.checkedOrders f.checkedFills now id scope = .error e at he
      unfold ReconciliationResult.create at he
      split_ifs at he
      all_goals cases he
      all_goals cases hkind

/-- The sum over the fills stays in its range in every order of them, or leaves it in every order. -/
def OrderFree (orders : String → Option BrokerOrder) (fills : List Fill) : Prop :=
  (turnover orders .buy fills ≤ maxAbsCents ∧ turnover orders .sell fills ≤ maxAbsCents) ∨
    ∀ l, fills.Perm l → ¬ InRange orders l

theorem orderFree_iff {orders : String → Option BrokerOrder} {l : List Fill}
    (hknown : ∀ f ∈ l, ∃ o, orders f.brokerOrderId = some o) :
    OrderFree orders l ↔ ∀ l', l.Perm l' → (InRange orders l ↔ InRange orders l') := by
  unfold OrderFree
  rw [← inRange_perm_iff hknown]
  constructor
  · rintro (h | h) l' hl'
    · exact iff_of_true (h l (List.Perm.refl l)) (h l' hl')
    · exact iff_of_false (h l (List.Perm.refl l)) (h l' hl')
  · intro h
    by_cases hl : InRange orders l
    · exact .inl fun l' hl' => (h l' hl').mp hl
    · exact .inr fun l' hl' hl'' => hl ((h l' hl').mpr hl'')

/-- Every order of the fills behind the baseline comes from an order of all fills. -/
theorem exists_arrived (db : Db) (b : AccountBaseline) {l : List Fill} (hl : (db.fillsBehind b).Perm l) :
    ∃ fills : Table Fill.executionId, db.fills.rows.Perm fills.rows ∧ (db.arrived fills).fillsBehind b = l := by
  have hperm : db.fills.rows.Perm (l ++ db.fills.rows.filter (fun f => !isPostBaseline b f)) :=
    (List.filter_append_perm (isPostBaseline b) db.fills.rows).symm.trans (hl.append_right _)
  refine ⟨⟨_, (hperm.map _).nodup_iff.mp db.fills.nodup⟩, hperm, ?_⟩
  have hpost : ∀ f ∈ l, isPostBaseline b f = true := fun f hf => List.of_mem_filter (hl.mem_iff.mpr hf)
  have hrest : ∀ f ∈ db.fills.rows.filter (fun f => !isPostBaseline b f), ¬ isPostBaseline b f = true := by
    intro f hf
    have hnot := List.of_mem_filter hf
    simpa using hnot
  show (l ++ _).filter (isPostBaseline b) = l
  rw [List.filter_append, List.filter_eq_self.mpr hpost, List.filter_eq_nil_iff.mpr hrest, List.append_nil]

/-- The tables with the fills in another order get to the same baseline. -/
theorem arrived_inr (hperm : db.fills.rows.Perm fills.rows) {cfg : ReconcilerConfig} {d : TradingDate} {x : AtBaseline}
    (hx : eval (observe v db) (beforeBaseline cfg d) = .ok (.inr x)) :
    eval (observe v (db.arrived fills)) (beforeBaseline cfg d) = .ok (.inr x) := by
  have hbefore := beforeBaseline_alike (v := v) hperm cfg d
  rw [hx] at hbefore
  cases hr : eval (observe v (db.arrived fills)) (beforeBaseline cfg d) with
  | ok r =>
      rw [hr] at hbefore
      cases hbefore
      rfl
  | error e =>
      rw [hr] at hbefore
      exact hbefore.elim

end Outcome

/-- **A reconciliation has the same outcome for all orders in which its fills were recorded exactly when,
if it gets to an opening baseline, the range of the cash behind the baseline does not depend on the order.** -/
theorem collect_arrival_iff (v : BrokerView) (now : UtcTimestamp) (uuid uuid' : Nat → RunId) (cfg : ReconcilerConfig)
    (d : TradingDate) (db : Db) :
    (∀ fills fills' : Table Fill.executionId, db.fills.rows.Perm fills.rows → db.fills.rows.Perm fills'.rows →
      Alike SameRun (collected v now uuid cfg d (db.arrived fills)) (collected v now uuid' cfg d (db.arrived fills'))) ↔
    ∀ x, eval (observe v db) (beforeBaseline cfg d) = .ok (.inr x) →
      OrderFree db.knownOrders (db.fillsBehind x.baseline) := by
  constructor
  · intro h x hx
    obtain ⟨p, hp⟩ := beforeBaseline_ledger hx
    have hknown : ∀ f ∈ db.fillsBehind x.baseline, ∃ o, db.knownOrders f.brokerOrderId = some o :=
      fun f hf => (projectLedger_flow hp).1 f (List.mem_of_mem_filter hf)
    refine (orderFree_iff hknown).mpr fun l hl => ?_
    obtain ⟨fills, hperm, rfl⟩ := exists_arrived db x.baseline hl
    have halike := (h db.fills fills (List.Perm.refl _) hperm).refused_iff
    obtain ⟨n, hn⟩ := collected_eq v now uuid cfg d (db.arrived db.fills)
    obtain ⟨n', hn'⟩ := collected_eq v now uuid' cfg d (db.arrived fills)
    rw [hn, hn', refused_create, refused_create] at halike
    have hx' := arrived_inr hperm hx
    exact not_iff_not.mp ((refused_iff hx).symm.trans (halike.trans (refused_iff hx')))
  · intro h fills fills' hperm hperm'
    have hcross : (db.arrived fills).fills.rows.Perm fills'.rows := hperm.symm.trans hperm'
    have hfindings : Alike Eq (eval (observe v (db.arrived fills)) (collectFindings cfg d))
        (eval (observe v (db.arrived fills')) (collectFindings cfg d)) := by
      refine collectFindings_alike hcross fun x hx => ?_
      have hx' : eval (observe v db) (beforeBaseline cfg d) = .ok (.inr x) := @arrived_inr v (db.arrived fills) db.fills hperm.symm cfg d x hx
      obtain ⟨p, hp⟩ := beforeBaseline_ledger hx'
      have hfree := (orderFree_iff fun f hf => (projectLedger_flow hp).1 f (List.mem_of_mem_filter hf)).mp (h x hx')
      exact (hfree _ (hperm.filter _)).symm.trans (hfree _ (hperm'.filter _))
    obtain ⟨n, hn⟩ := collected_eq v now uuid cfg d (db.arrived fills)
    obtain ⟨n', hn'⟩ := collected_eq v now uuid' cfg d (db.arrived fills')
    rw [hn, hn']
    cases hf : eval (observe v (db.arrived fills)) (collectFindings cfg d) with
    | ok f =>
        cases hf' : eval (observe v (db.arrived fills')) (collectFindings cfg d) with
        | ok f' =>
            rw [hf, hf'] at hfindings
            cases hfindings
            exact create_sameRun d f now (uuid n) (uuid' n') cfg.scope
        | error e =>
            rw [hf, hf'] at hfindings
            exact hfindings.elim
    | error e =>
        cases hf' : eval (observe v (db.arrived fills')) (collectFindings cfg d) with
        | ok f' =>
            rw [hf, hf'] at hfindings
            exact hfindings.elim
        | error e' =>
            rw [hf, hf'] at hfindings
            exact hfindings

/-! ### Two buys before the sales -/

def swingSellId : ClientOrderId := ⟨"slv1-seven-lens-2026-08-17-open-t1-AAPL-sell", by decide +kernel⟩

/-- An order over 1200 shares at ten million dollars, filled. -/
def swingRow (side : OrderSide) : MirrorRow where
  order :=
    { brokerOrderId := if side = .buy then "b-1" else "s-1"
      clientOrderId := if side = .buy then sampleId else swingSellId
      symbol := sampleSymbol
      side
      quantity := ⟨1200, by decide⟩
      filledQuantity := 1200
      limitPrice := ⟨1000000000, by decide⟩
      status := .filled
      submittedAt := instant 1
      updatedAt := instant 5
      id_ok := by cases side <;> decide
      filled_le := by decide }
  watermarkKnown := true
  unknown_eq := by simp
  exact := by simp
  fits := by
    show 1200 ≤ bigintMax
    decide

/-- Half of one of the orders, executed at instant `n`. -/
def swingFill (executionId brokerOrderId : String) (n : Fin 1000) (h : IsIdText 100 executionId)
    (hb : IsIdText 100 brokerOrderId) : Fill :=
  ⟨executionId, brokerOrderId, ⟨600, by decide⟩, ⟨1000000000, by decide⟩, instant n, h, hb⟩

/-- The fills in the order of their execution: each buy is sold before the next one. -/
def swingFills : Table Fill.executionId :=
  (((Table.empty.add (swingFill "x-1" "b-1" 2 execution_one_ok orderId_ok)).add
    (swingFill "x-2" "s-1" 3 execution_two_ok (by decide))).add
    (swingFill "x-3" "b-1" 4 (by decide) orderId_ok)).add
    (swingFill "x-4" "s-1" 5 (by decide) (by decide))

/-- The same fills, the second buy recorded before the first sale. -/
def lateSwingFills : Table Fill.executionId :=
  (((Table.empty.add (swingFill "x-1" "b-1" 2 execution_one_ok orderId_ok)).add
    (swingFill "x-3" "b-1" 4 (by decide) orderId_ok)).add
    (swingFill "x-2" "s-1" 3 execution_two_ok (by decide))).add
    (swingFill "x-4" "s-1" 5 (by decide) (by decide))

def swingDb : Db where
  intents := Table.empty
  mirrors := (Table.empty.add (swingRow .buy)).add (swingRow .sell)
  fills := swingFills
  control := ⟨false, none, instant 0, 0, rfl, Db.no_reason_ok⟩
  commands := Table.empty
  runs := []
  baselineRevisions := []
  accountBaselines := [⟨"paper", 100000, instant 0, instant 0, none, none, paperId_ok, thousandOpening_ok⟩]
  client_unique := by decide +kernel

/-- A broker without orders and positions. -/
def quietView : BrokerView where
  answer
    | .account => .ok ⟨"paper", .paper, thousandDollars, thousandDollars, thousandDollars, paperId_ok⟩
    | .submitOrder _ => .error ⟨.brokerTransport, "timeout"⟩
    | .getOrder _ | .getAsset _ => .ok none
    | .listRecentOrders _ | .listOpenOrders | .listPositions | .listFills _ => .ok []
    | .cancelOrder _ => .ok false
  price _ := .ok samplePrice
  transport := by
    intro c e h
    cases c <;> cases h
    rfl
  unavailable := laggingView.unavailable

/-- What a reconciliation collects over the orders in one of the two records. -/
def swingRun (fills : Table Fill.executionId) : Except PyError ReconciliationResult :=
  collected quietView (instant 10) (fun _ => ⟨.one, Uuid.one_ne⟩) ⟨some strictPolicy, true, true⟩ secondDay
    (swingDb.arrived fills)

/-- The second buy, recorded before the first sale, takes the sum out of its range: the reconciliation
of a ledger that is clean otherwise raises. -/
theorem arrival_order_decides : swingDb.fills.rows.Perm lateSwingFills.rows ∧
    (∃ r, swingRun swingFills = .ok r ∧ r.status = .clean) ∧ ¬ Alike SameRun (swingRun swingFills) (swingRun lateSwingFills) := by
  obtain ⟨r, hr, hclean⟩ : ∃ r, swingRun swingFills = .ok r ∧ decide (r.status = .clean) = true :=
    exists_ok (by decide +kernel)
  have hlate : (swingRun lateSwingFills).isOk = false := by decide +kernel
  refine ⟨by decide +kernel, ⟨r, hr, of_decide_eq_true hclean⟩, fun h => ?_⟩
  rw [hr] at h
  cases hl : swingRun lateSwingFills with
  | ok r' =>
      rw [hl] at hlate
      exact nomatch hlate
  | error e =>
      rw [hl] at h
      exact h.elim

end SevenLens
