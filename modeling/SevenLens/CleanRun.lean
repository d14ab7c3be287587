import SevenLens.ClosedHistory
import Mathlib.Data.List.Dedup

/-! # What a clean reconciliation proves

A run of full scope is clean when none of its passes has found anything.  `clean_full_agrees` says
what the tables and the broker's view have then in common, pass by pass.

Open mirrors are compared with the broker's order by status and by fills, and the parameters of the
broker's order with those of the intent.  The broker's order id and its filled quantity are not
compared with the mirror (`clean_hides_filled_quantity`); an entry of the closed history is passed
over when the broker has already reported the same order at a later time. -/

namespace SevenLens

open Calls Prog

/-! ### The agreement -/

section Agreement

variable (v : BrokerView) (db : Db)

/-- The broker lists fills for the order `b`, and all of them are recorded for the mirror `m`. -/
def FillsRecorded (m b : String) : Prop :=
  ∃ l : List Fill, v.answer (.listFills b) = .ok l ∧
    ∀ f ∈ l, ∃ g ∈ db.fills.rows, g.brokerOrderId = m ∧ g.executionId = f.executionId

/-- The broker's order has the parameters of the intent. -/
structure SameParameters (o : BrokerOrder) (i : OrderIntent) : Prop where
  symbol : o.symbol = i.symbol
  side : o.side = i.side
  quantity : o.quantity = i.quantity
  limitPrice : o.limitPrice = i.limitPrice

/-- A mirror that is not terminal, and the broker's order under its client order id. -/
structure OpenMirrorAgrees (m : BrokerOrder) : Prop where
  order : ∃ o : BrokerOrder, v.answer (.getOrder m.clientOrderId) = .ok (some o) ∧ o.status = m.status ∧
    ∀ i, db.intents.get m.clientOrderId = some i → SameParameters o i ∧ ¬ (i.status.isTerminal = true ∧ o.isOpen = true)
  fills : FillsRecorded v db m.brokerOrderId m.brokerOrderId

/-- The broker's order has a mirror with its status, and all of its fills are recorded. -/
def ClosedOrderAgrees (o : BrokerOrder) : Prop :=
  ∃ m, db.getBrokerOrder o.clientOrderId = some m ∧ o.status = m.status ∧
    FillsRecorded v db m.brokerOrderId o.brokerOrderId

/-- `p` is a report of the same broker order that makes `o` redundant. -/
def Supersedes (p o : BrokerOrder) : Prop :=
  p.brokerOrderId = o.brokerOrderId ∧
    (o.updatedAt < p.updatedAt ∨ (o.updatedAt = p.updatedAt ∧ o.status = p.status))

/-- The closed order `o` agrees with its mirror, or is superseded by an open order that has a mirror
or by a closed one that agrees. -/
def HistoryAgrees (opened recent : List BrokerOrder) (o : BrokerOrder) : Prop :=
  ClosedOrderAgrees v db o ∨
    (∃ p ∈ opened, Supersedes p o ∧ (db.getBrokerOrder p.clientOrderId).isSome) ∨
    (∃ p ∈ recent, Supersedes p o ∧ p.isOpen = false ∧ ClosedOrderAgrees v db p)

/-- The cash that the opening baseline and the fills behind its cutoff leave. -/
def expectedCash (baseline : AccountBaseline) : Int :=
  baseline.openingCashCents +
    ((db.fills.rows.filter (isPostBaseline baseline)).map (cashFlow (byBrokerOrderId db.listAllBrokerOrders))).sum

/-- Identity, cash and net value of the account. -/
structure AccountAgrees (policy : AccountReconciliationPolicy) (account : PaperAccount)
    (projection : LedgerProjection) (baseline : AccountBaseline) (marked : Nat) : Prop where
  identity : account.accountId = policy.expectedAccountId
  opening : db.getBaseline account.accountId = .ok (some baseline)
  cash : ((account.cash.cents : Int) - expectedCash db baseline).natAbs ≤ policy.cashToleranceCents
  marks : marketValue projection.lots (fun s => (v.price s).toOption) = .ok marked
  equity : ((account.equity.cents : Int) - (expectedCash db baseline + marked)).natAbs ≤ policy.navToleranceCents

/-- What the tables and the broker's view have in common after a clean run of full scope. -/
structure Agreement (policy : AccountReconciliationPolicy) (d : TradingDate) : Prop where
  resolved : ∀ i ∈ db.intents.rows, i.status ≠ .unknown ∧ i.status ≠ .reviewRequired
  openMirrors : ∀ r ∈ db.mirrors.rows, r.order.status.isTerminal = false → OpenMirrorAgrees v db r.order
  closedMirrors : ∀ r ∈ db.mirrors.rows, r.order.status.isTerminal = true → ∀ o,
    v.answer (.getOrder r.order.clientOrderId) = .ok (some o) → o.isOpen = false
  orders : ∃ (opened recent : List BrokerOrder) (since : UtcTimestamp),
    v.answer .listOpenOrders = .ok opened ∧ historyHorizon d db.latestRun = .ok since ∧
    v.answer (.listRecentOrders since) = .ok recent ∧
    (∀ o ∈ opened, (db.getBrokerOrder o.clientOrderId).isSome) ∧
    ∀ o ∈ recent, o.isOpen = false → HistoryAgrees v db opened recent o
  account : ∃ (account : PaperAccount) (projection : LedgerProjection) (positions : List PaperPosition)
      (baseline : AccountBaseline) (marked : Nat),
    v.answer .account = .ok account ∧ account.environment = .paper ∧
    projectLedger db.fills.rows (byBrokerOrderId db.listAllBrokerOrders) = .ok projection ∧
    v.answer .listPositions = .ok positions ∧
    (∀ s, quantityOf projection.positions s = brokerQuantity positions s) ∧
    AccountAgrees v db policy account projection baseline marked

end Agreement

/-! ### Passes that find nothing -/

/-- Nothing has been found. -/
def Findings.Clean (f : Findings) : Prop := f.mismatches = []

/-- Calls answer from the tables and the view. -/
def Told (v : BrokerView) (db : Db) (c : ports.Call) (r : Except PyError (ports.Ans c)) : Prop := r = observe v db c

section Passes

variable {v : BrokerView} {db : Db}

theorem yields_told {c : Call} {Q : c.Ans → Prop} (h : ∀ a, observe v db c = .ok a → Q a) :
    Yields (Told v db) (ask c) Q :=
  yields_perform fun a ha => h a (Eq.symm ha)

theorem yields_unclean (f : Findings) (k : MismatchKind) (d : String) :
    Yields (Told v db) (f.report k d) (fun f' => ¬ f'.Clean) := by
  refine yields_ofExcept fun f' h => ?_
  cases hm : ReconciliationMismatch.create k d with
  | error e =>
      rw [hm] at h
      cases h
  | ok m =>
      rw [hm] at h
      cases h
      simp [Findings.Clean]

/-- After a report everything follows. -/
theorem yields_reported {X : Prop} (f : Findings) (k : MismatchKind) (d : String) :
    Yields (Told v db) (f.report k d) (fun f' => f'.Clean → X) :=
  (yields_unclean f k d).mono fun _ h hc => absurd hc h

/-- A report that must not have been made. -/
theorem yields_reportIf_clean (f : Findings) (c : Prop) [Decidable c] (k : MismatchKind) (d : String) :
    Yields (Told v db) (f.reportIf c k d) (fun f' => f'.Clean → f.Clean ∧ ¬ c) := by
  unfold Findings.reportIf
  split
  · exact yields_reported f k d
  · exact yields_ret fun hc => ⟨hc, ‹_›⟩

/-- A pass over a list that finds nothing. -/
theorem yields_each {α : Type} {f : Findings → α → Proc Findings} {P : α → Prop} {l : List α}
    (hf : ∀ b, ∀ a ∈ l, Yields (Told v db) (f b a) (fun b' => b'.Clean → b.Clean ∧ P a)) (b : Findings) :
    Yields (Told v db) (l.foldlM f b) (fun b' => b'.Clean → b.Clean ∧ ∀ a ∈ l, P a) := by
  refine (yields_foldlM_each (I := fun _ => True) (C := Findings.Clean) (P := P) (fun b a ha _ => ?_) trivial).mono
    fun b' h => h.2
  exact (hf b a ha).mono fun b' h => ⟨trivial, h⟩

theorem clean_checkUnresolved (f : Findings) (t : OrderStatus) :
    Yields (Told v db) (checkUnresolved f t)
      (fun f' => f'.Clean → f.Clean ∧ ∀ i ∈ db.intents.rows, i.status ≠ t) := by
  refine yields_bind (P := fun l => l = db.listByStatus t) (yields_told fun l hl => (Except.ok.inj hl).symm) fun l hl => ?_
  subst hl
  refine (yields_each (P := fun _ => False) (fun b a _ => ?_) f).mono fun f' h hc => ?_
  · exact yields_reported b _ _
  · obtain ⟨hf, hnone⟩ := h hc
    exact ⟨hf, fun i hi hst => hnone i (by simp [Db.listByStatus, hi, hst])⟩

theorem clean_checkBrokerFills (localFills brokerFills : List Fill) (f : Findings) :
    Yields (Told v db) (checkBrokerFills localFills brokerFills f) (fun f' => f'.Clean → f.Clean ∧
      ∀ x ∈ brokerFills, x.executionId ∈ localFills.map Fill.executionId) := by
  refine yields_each (fun b x _ => ?_) f
  refine (yields_reportIf_clean b.countFill _ _ _).mono fun b' h hc => ?_
  obtain ⟨hb, hx⟩ := h hc
  exact ⟨hb, not_not.mp hx⟩

/-- The fills of the broker's order `b` against those of the mirror `m`. -/
theorem clean_fills (m b : String) (f : Findings) :
    Yields (Told v db) ((listFills m).bind fun localFills => (listBrokerFills b).bind fun brokerFills =>
      checkBrokerFills localFills brokerFills f) (fun f' => f'.Clean → f.Clean ∧ FillsRecorded v db m b) := by
  refine yields_bind (P := fun l => l = db.fillsOf m) (yields_told fun l hl => (Except.ok.inj hl).symm) fun l hl => ?_
  subst hl
  refine yields_bind (P := fun l => v.answer (.listFills b) = .ok l) (yields_told fun l hl => hl) fun l hl => ?_
  refine (clean_checkBrokerFills (db.fillsOf m) l f).mono fun f' h hc => ?_
  obtain ⟨hf, hrecorded⟩ := h hc
  refine ⟨hf, l, hl, fun x hx => ?_⟩
  obtain ⟨g, hg, hid⟩ := List.mem_map.mp (hrecorded x hx)
  obtain ⟨hmem, hm⟩ := List.mem_filter.mp hg
  exact ⟨g, hmem, of_decide_eq_true hm, hid⟩

theorem sameParameters {o : BrokerOrder} {i : OrderIntent} (h : parametersDiffer o i = false) : SameParameters o i := by
  simp only [parametersDiffer, Bool.or_eq_false_iff, bne_eq_false_iff_eq] at h
  exact ⟨h.1.1.1, h.1.1.2, h.1.2, h.2⟩

theorem clean_checkOpenMirror (f : Findings) (m : BrokerOrder) :
    Yields (Told v db) (checkOpenMirror f m) (fun f' => f'.Clean → f.Clean ∧ OpenMirrorAgrees v db m) := by
  refine yields_bind (P := fun o => v.answer (.getOrder m.clientOrderId) = .ok o) (yields_told fun o ho => ho)
    fun (o : Option BrokerOrder) ho => ?_
  cases o with
  | none => exact yields_reported _ _ _
  | some o =>
      refine yields_bind (P := fun i => i = db.intents.get m.clientOrderId)
        (yields_told fun i hi => (Except.ok.inj hi).symm) fun i hi => ?_
      subst hi
      refine yields_bind (yields_reportIf_clean f.countOrder _ _ _) fun f₁ h₁ =>
        yields_bind (yields_reportIf_clean f₁ _ _ _) fun f₂ h₂ =>
        yields_bind (yields_reportIf_clean f₂ _ _ _) fun f₃ h₃ => ?_
      refine (clean_fills m.brokerOrderId m.brokerOrderId f₃).mono fun f' h hc => ?_
      obtain ⟨hf₃, hfills⟩ := h hc
      obtain ⟨hf₂, hstatus⟩ := h₃ hf₃
      obtain ⟨hf₁, hterminal⟩ := h₂ hf₂
      obtain ⟨hf, hparameters⟩ := h₁ hf₁
      refine ⟨hf, ⟨o, ho, not_not.mp hstatus, fun i hi => ?_⟩, hfills⟩
      rw [hi, Option.any_some, Bool.not_eq_true] at hparameters hterminal
      exact ⟨sameParameters hparameters, fun hboth => by simp [hboth.1, hboth.2] at hterminal⟩

theorem clean_checkClosedMirror (checked : List String) (f : Findings) (m : BrokerOrder) :
    Yields (Told v db) (checkClosedMirror checked f m) (fun f' => f'.Clean → f.Clean ∧
      (m.brokerOrderId ∉ checked → ∀ o, v.answer (.getOrder m.clientOrderId) = .ok (some o) → o.isOpen = false)) := by
  unfold checkClosedMirror
  split
  · exact yields_ret fun hc => ⟨hc, fun h => absurd ‹_› h⟩
  · refine yields_bind (P := fun o => v.answer (.getOrder m.clientOrderId) = .ok o) (yields_told fun o ho => ho)
      fun (o : Option BrokerOrder) ho => ?_
    cases o with
    | none =>
        refine yields_ret fun hc => ⟨hc, fun _ p hp => ?_⟩
        cases ho.symm.trans hp
    | some o =>
        simp only []
        split
        · exact yields_reported _ _ _
        · rename_i hopen
          refine yields_ret fun hc => ⟨hc, fun _ p hp => ?_⟩
          cases ho.symm.trans hp
          simpa using hopen

/-! ### The orders -/

theorem mem_listAllBrokerOrders {o : BrokerOrder} : o ∈ db.listAllBrokerOrders ↔ ∃ r ∈ db.mirrors.rows, r.order = o := by
  simp [Db.listAllBrokerOrders, List.mem_insertionSort]

theorem mem_listOpenBrokerOrders {o : BrokerOrder} :
    o ∈ db.listOpenBrokerOrders ↔ ∃ r ∈ db.mirrors.rows, r.order = o ∧ o.status.isTerminal = false := by
  rw [Db.listOpenBrokerOrders, List.mem_filter, mem_listAllBrokerOrders]
  constructor
  · rintro ⟨⟨r, hr, ho⟩, hst⟩
    exact ⟨r, hr, ho, by simpa using hst⟩
  · rintro ⟨r, hr, ho, hst⟩
    exact ⟨⟨r, hr, ho⟩, by simp [hst]⟩

/-- A known client order id has a mirror. -/
theorem getBrokerOrder_of_known {c : ClientOrderId} (h : c ∈ db.listAllBrokerOrders.map BrokerOrder.clientOrderId) :
    (db.getBrokerOrder c).isSome := by
  obtain ⟨o, ho, rfl⟩ := List.mem_map.mp h
  obtain ⟨r, hr, rfl⟩ := mem_listAllBrokerOrders.mp ho
  simp only [Db.getBrokerOrder, Db.mirrorOf, Option.isSome_map, List.find?_isSome]
  exact ⟨r, hr, decide_eq_true rfl⟩

/-- A terminal mirror is not among the open ones. -/
theorem notMem_open {r : MirrorRow} (hr : r ∈ db.mirrors.rows) (hst : r.order.status.isTerminal = true) :
    r.order.brokerOrderId ∉ db.listOpenBrokerOrders.map BrokerOrder.brokerOrderId := by
  rintro hmem
  obtain ⟨o, ho, hid⟩ := List.mem_map.mp hmem
  obtain ⟨q, hq, rfl, hopen⟩ := mem_listOpenBrokerOrders.mp ho
  obtain rfl : q = r := Table.eq_of_mem_of_key hq hr hid
  rw [hst] at hopen
  cases hopen

/-- What the order passes establish about intents and mirrors. -/
structure OrdersAgree (v : BrokerView) (db : Db) : Prop where
  resolved : ∀ i ∈ db.intents.rows, i.status ≠ .unknown ∧ i.status ≠ .reviewRequired
  openMirrors : ∀ r ∈ db.mirrors.rows, r.order.status.isTerminal = false → OpenMirrorAgrees v db r.order
  closedMirrors : ∀ r ∈ db.mirrors.rows, r.order.status.isTerminal = true → ∀ o,
    v.answer (.getOrder r.order.clientOrderId) = .ok (some o) → o.isOpen = false

/-- The broker's open orders, all of them reported and each with a mirror when nothing is found. -/
theorem clean_openOrders (opened : List BrokerOrder) (f : Findings) :
    Yields (Told v db) (opened.foldlM (checkOpenOrder (db.listAllBrokerOrders.map BrokerOrder.clientOrderId)) (f, []))
      (fun acc => (∀ o ∈ acc.2, o ∈ opened) ∧
        (acc.1.Clean → f.Clean ∧ ∀ o ∈ opened, (db.getBrokerOrder o.clientOrderId).isSome)) := by
  refine yields_foldlM_each (I := fun acc : Findings × List BrokerOrder => ∀ o ∈ acc.2, o ∈ opened)
    (C := fun acc => acc.1.Clean) (P := fun o : BrokerOrder => (db.getBrokerOrder o.clientOrderId).isSome)
    (fun acc o ho hacc => ?_) (by simp)
  refine yields_bind (yields_reportIf_clean acc.1.countOrder _ _ _) fun f' h => yields_ret ⟨?_, fun hc => ?_⟩
  · exact List.forall_mem_cons.mpr ⟨ho, hacc⟩
  · obtain ⟨hf, hknown⟩ := h hc
    exact ⟨hf, getBrokerOrder_of_known (not_not.mp hknown)⟩

theorem clean_orderPasses (f : Findings) :
    Yields (Told v db) (orderPasses f) (fun acc => ∃ opened : List BrokerOrder, v.answer .listOpenOrders = .ok opened ∧
      (∀ o ∈ acc.2, o ∈ opened) ∧ (acc.1.Clean → f.Clean ∧ OrdersAgree v db ∧
        ∀ o ∈ opened, (db.getBrokerOrder o.clientOrderId).isSome)) := by
  have hall : Yields (Told v db) listAllBrokerOrders (fun l => l = db.listAllBrokerOrders) :=
    yields_told fun l hl => (Except.ok.inj hl).symm
  refine yields_bind (clean_checkUnresolved f .reviewRequired) fun f₁ h₁ =>
    yields_bind (clean_checkUnresolved f₁ .unknown) fun f₂ h₂ => ?_
  refine yields_bind (P := fun l => l = db.listOpenBrokerOrders) (yields_told fun l hl => (Except.ok.inj hl).symm)
    fun l hl => ?_
  subst hl
  refine yields_bind (yields_each (fun b m _ => clean_checkOpenMirror b m) f₂) fun f₃ h₃ =>
    yields_bind hall fun all hall' => ?_
  subst hall'
  refine yields_bind (yields_each (fun b m _ => clean_checkClosedMirror _ b m) f₃) fun f₄ h₄ =>
    yields_bind hall fun known hknown => ?_
  subst hknown
  refine yields_bind (P := fun l => v.answer .listOpenOrders = .ok l) (yields_told fun l hl => hl)
    fun opened hopened => ?_
  refine (clean_openOrders opened f₄).mono fun acc h => ⟨opened, hopened, h.1, fun hc => ?_⟩
  obtain ⟨hf₄, hmirrored⟩ := h.2 hc
  obtain ⟨hf₃, hclosed⟩ := h₄ hf₄
  obtain ⟨hf₂, hagree⟩ := h₃ hf₃
  obtain ⟨hf₁, hunknown⟩ := h₂ hf₂
  obtain ⟨hf, hreview⟩ := h₁ hf₁
  refine ⟨hf, ⟨fun i hi => ⟨hunknown i hi, hreview i hi⟩, fun r hr hst => ?_, fun r hr hst => ?_⟩, hmirrored⟩
  · exact hagree r.order (mem_listOpenBrokerOrders.mpr ⟨r, hr, rfl, hst⟩)
  · exact hclosed r.order (mem_listAllBrokerOrders.mpr ⟨r, hr, rfl⟩) (notMem_open hr hst)

/-! ### The closed history -/

/-- A reported order: an open one with a mirror, or a closed one that agrees. -/
def Reported (v : BrokerView) (db : Db) (opened recent : List BrokerOrder) (p : BrokerOrder) : Prop :=
  (p ∈ opened ∧ (db.getBrokerOrder p.clientOrderId).isSome) ∨
    (p ∈ recent ∧ p.isOpen = false ∧ ClosedOrderAgrees v db p)

theorem supersedes_of_redundant {reported : List BrokerOrder} {o : BrokerOrder} (h : isRedundant reported o = true) :
    ∃ p ∈ reported, Supersedes p o := by
  obtain ⟨p, hp, hlater⟩ := (Option.any_eq_true _ _).mp h
  refine ⟨p, List.mem_of_find?_eq_some hp, by simpa using List.find?_some hp, ?_⟩
  simpa using hlater

theorem historyAgrees_of_redundant {opened recent reported : List BrokerOrder} {o : BrokerOrder}
    (hreported : ∀ p ∈ reported, Reported v db opened recent p) (h : isRedundant reported o = true) :
    HistoryAgrees v db opened recent o := by
  obtain ⟨p, hp, hsup⟩ := supersedes_of_redundant h
  rcases hreported p hp with ⟨hopened, hmirror⟩ | ⟨hrecent, hclosed, hagrees⟩
  · exact Or.inr (Or.inl ⟨p, hopened, hsup, hmirror⟩)
  · exact Or.inr (Or.inr ⟨p, hrecent, hsup, hclosed, hagrees⟩)

/-- One entry of the history that is checked. -/
theorem clean_mirrored (f : Findings) (o m : BrokerOrder) (hm : db.getBrokerOrder o.clientOrderId = some m) :
    Yields (Told v db) ((f.reportIf (o.status ≠ m.status) .statusMismatch m.brokerOrderId).bind fun f =>
      (listFills m.brokerOrderId).bind fun localFills => (listBrokerFills o.brokerOrderId).bind fun brokerFills =>
      checkBrokerFills localFills brokerFills f) (fun f' => f'.Clean → f.Clean ∧ ClosedOrderAgrees v db o) := by
  refine yields_bind (yields_reportIf_clean f _ _ _) fun f₁ h₁ => ?_
  refine (clean_fills m.brokerOrderId o.brokerOrderId f₁).mono fun f' h hc => ?_
  obtain ⟨hf₁, hfills⟩ := h hc
  obtain ⟨hf, hstatus⟩ := h₁ hf₁
  exact ⟨hf, m, hm, not_not.mp hstatus, hfills⟩

/-- When nothing has been found, all orders reported so far are accounted for. -/
def AllReported (v : BrokerView) (db : Db) (opened recent : List BrokerOrder) (acc : Findings × List BrokerOrder) : Prop :=
  acc.1.Clean → ∀ p ∈ acc.2, Reported v db opened recent p

theorem clean_checkHistory {opened recent : List BrokerOrder} {acc : Findings × List BrokerOrder} {o : BrokerOrder}
    (ho : o ∈ recent) (hacc : AllReported v db opened recent acc) :
    Yields (Told v db) (checkHistory acc o) (fun acc' => AllReported v db opened recent acc' ∧
      (acc'.1.Clean → acc.1.Clean ∧ (o.isOpen = false → HistoryAgrees v db opened recent o))) := by
  unfold checkHistory
  split
  · rename_i hred
    exact yields_ret ⟨hacc, fun hc => ⟨hc, fun _ => historyAgrees_of_redundant (hacc hc) hred⟩⟩
  · split
    · rename_i hopen
      exact yields_ret ⟨hacc, fun hc => ⟨hc, fun hclosed => absurd hopen (by simp [hclosed])⟩⟩
    · rename_i hopen
      have hclosed : o.isOpen = false := by simpa using hopen
      refine yields_bind (P := fun m => m = db.getBrokerOrder o.clientOrderId)
        (yields_told fun m hm => (Except.ok.inj hm).symm) fun (m : Option BrokerOrder) hm => ?_
      cases m with
      | none =>
          refine yields_bind (yields_unclean acc.1.countOrder _ _) fun f' hf' => yields_ret ?_
          exact ⟨fun hc => absurd hc hf', fun hc => absurd hc hf'⟩
      | some m =>
          have hmirrored := yields_bind (Q := fun acc' : Findings × List BrokerOrder =>
            AllReported v db opened recent acc' ∧
              (acc'.1.Clean → acc.1.Clean ∧ (o.isOpen = false → HistoryAgrees v db opened recent o)))
            (clean_mirrored (v := v) acc.1.countOrder o m hm.symm) fun f' h =>
              yields_ret (a := (f', o :: acc.2)) ⟨fun hc => List.forall_mem_cons.mpr
                ⟨Or.inr ⟨ho, hclosed, (h hc).2⟩, hacc (h hc).1⟩, fun hc => ⟨(h hc).1, fun _ => Or.inl (h hc).2⟩⟩
          simpa only [Prog.bind_assoc, bind_eq, pure_eq_ret] using hmirrored

theorem clean_historyPass (d : TradingDate) {opened : List BrokerOrder} {acc : Findings × List BrokerOrder}
    (hacc : acc.1.Clean → ∀ p ∈ acc.2, p ∈ opened ∧ (db.getBrokerOrder p.clientOrderId).isSome) :
    Yields (Told v db) (historyPass d acc) (fun f => ∃ (recent : List BrokerOrder) (since : UtcTimestamp), historyHorizon d db.latestRun = .ok since ∧
      v.answer (.listRecentOrders since) = .ok recent ∧
      (f.Clean → acc.1.Clean ∧ ∀ o ∈ recent, o.isOpen = false → HistoryAgrees v db opened recent o)) := by
  refine yields_bind (P := fun latest => latest = db.latestRun) (yields_told fun l hl => (Except.ok.inj hl).symm)
    fun latest hlatest => ?_
  subst hlatest
  refine yields_bind (P := fun since => historyHorizon d db.latestRun = .ok since) (yields_ofExcept fun _ h => h)
    fun since hsince => ?_
  refine yields_bind (P := fun l => v.answer (.listRecentOrders since) = .ok l) (yields_told fun l hl => hl)
    fun recent hrecent => ?_
  refine yields_bind (yields_foldlM_each (I := AllReported v db opened recent) (C := fun acc => acc.1.Clean)
    (P := fun o : BrokerOrder => o.isOpen = false → HistoryAgrees v db opened recent o)
    (fun acc o ho hacc => clean_checkHistory ho hacc) fun hc p hp => Or.inl (hacc hc p hp)) fun acc' h => ?_
  exact yields_ret ⟨recent, since, hsince, hrecent, h.2⟩

/-! ### Positions -/

theorem quantityOf_isSome {l : List (Symbol × Nat)} {s : Symbol} : (quantityOf l s).isSome ↔ s ∈ l.map Prod.fst := by
  simp [quantityOf]

theorem brokerQuantity_isSome {l : List PaperPosition} {s : Symbol} :
    (brokerQuantity l s).isSome ↔ s ∈ l.map PaperPosition.symbol := by
  simp [brokerQuantity]

theorem mem_positionSymbols {projected : List (Symbol × Nat)} {positions : List PaperPosition} {s : Symbol} :
    s ∈ positionSymbols projected positions ↔ (quantityOf projected s).isSome ∨ (brokerQuantity positions s).isSome := by
  simp only [positionSymbols, List.mem_insertionSort, List.mem_dedup, List.mem_append, quantityOf_isSome,
    brokerQuantity_isSome]

theorem clean_checkPosition (projected : List (Symbol × Nat)) (positions : List PaperPosition) (f : Findings)
    (s : Symbol) : Yields (Told v db) (checkPosition projected positions f s)
      (fun f' => f'.Clean → f.Clean ∧ quantityOf projected s = brokerQuantity positions s) := by
  unfold checkPosition
  split
  · exact yields_reported _ _ _
  · refine (yields_reportIf_clean f _ _ _).mono fun f' h hc => ?_
    exact ⟨(h hc).1, not_not.mp (h hc).2⟩

theorem clean_positionPass (f : Findings) :
    Yields (Told v db) (positionPass f) (fun acc => ∃ positions : List PaperPosition,
      projectLedger db.fills.rows (byBrokerOrderId db.listAllBrokerOrders) = .ok acc.2 ∧
      v.answer .listPositions = .ok positions ∧
      (acc.1.Clean → f.Clean ∧ ∀ s, quantityOf acc.2.positions s = brokerQuantity positions s)) := by
  refine yields_bind (P := fun l => l = db.fills.rows) (yields_told fun l hl => (Except.ok.inj hl).symm) fun l hl => ?_
  subst hl
  refine yields_bind (P := fun l => l = db.listAllBrokerOrders) (yields_told fun l hl => (Except.ok.inj hl).symm)
    fun l hl => ?_
  subst hl
  refine yields_bind (yields_ofExcept fun _ h => h) fun projection hprojection => ?_
  refine yields_bind (P := fun l => v.answer .listPositions = .ok l) (yields_told fun l hl => hl)
    fun (positions : List PaperPosition) hpositions => ?_
  refine yields_bind (yields_each (fun b s _ => clean_checkPosition projection.positions positions b s) f)
    fun f' h => yields_ret ⟨positions, hprojection, hpositions, fun hc => ?_⟩
  obtain ⟨hf, hequal⟩ := h hc
  refine ⟨hf, fun s => ?_⟩
  by_cases hs : s ∈ positionSymbols projection.positions positions
  · exact hequal s hs
  · rw [mem_positionSymbols, not_or, Option.not_isSome_iff_eq_none, Option.not_isSome_iff_eq_none] at hs
    rw [hs.1, hs.2]

/-! ### The account -/

/-- The running cash delta is the sum of the cash flows. -/
theorem addCashDelta_sum {orders : String → Option BrokerOrder} {fills : List Fill} {cash delta : Int}
    (h : fills.foldlM (addCashDelta orders) cash = .ok delta) : delta = cash + (fills.map (cashFlow orders)).sum := by
  induction fills generalizing cash with
  | nil =>
      cases h
      simp
  | cons f fills ih =>
      rw [List.foldlM_cons] at h
      obtain ⟨c, hc, hrest⟩ : ∃ c, addCashDelta orders cash f = .ok c ∧ fills.foldlM (addCashDelta orders) c = .ok delta := by
        cases hc : addCashDelta orders cash f with
        | error e =>
            rw [hc] at h
            cases h
        | ok c =>
            rw [hc] at h
            exact ⟨c, rfl, h⟩
      rw [ih hrest, List.map_cons, List.sum_cons, ← add_assoc]
      congr 1
      unfold addCashDelta at hc
      unfold cashFlow
      split at hc
      · cases hc
      · rename_i o ho
        simp only [] at hc
        generalize hnext : (if o.side = .buy then cash - _ else cash + _) = next at hc
        split at hc
        · cases hc
        · cases hc
          rw [ho, ← hnext]
          by_cases hside : o.side = .buy
          · simp only [Option.any_some, hside, decide_true, if_true]
            ring
          · simp [hside]

theorem marketValue_congr {lots : List OpenLot} {p q : Symbol → Option Price}
    (h : ∀ lot ∈ lots, p lot.symbol = q lot.symbol) : marketValue lots p = marketValue lots q := by
  unfold marketValue
  generalize 0 = n
  induction lots generalizing n with
  | nil => rfl
  | cons lot lots ih =>
      rw [List.foldlM_cons, List.foldlM_cons, h lot List.mem_cons_self]
      cases q lot.symbol with
      | none => rfl
      | some price => exact ih (fun l hl => h l (List.mem_cons_of_mem lot hl)) _

/-- The symbol of an open lot has a position. -/
theorem lot_mem_positions {p : LedgerProjection} {lot : OpenLot} (h : lot ∈ p.lots) :
    lot.symbol ∈ p.positions.map Prod.fst := by
  have hheld : ∀ {lots : List OpenLot}, lot ∈ lots → 1 ≤ held lots lot.symbol := by
    intro lots hmem
    induction lots with
    | nil => cases hmem
    | cons l lots ih =>
        rw [held_cons]
        rcases List.mem_cons.mp hmem with rfl | hmem
        · rw [if_pos rfl]
          exact le_add_right lot.pos
        · exact le_add_left (ih hmem)
  rw [← quantityOf_isSome]
  by_contra hnone
  have hzero := p.quantityOf_positions lot.symbol
  rw [Option.not_isSome_iff_eq_none.mp hnone] at hzero
  have := hheld h
  simp only [Option.getD_none] at hzero
  omega

/-- Every price is the mark of its symbol, and every symbol has one. -/
theorem yields_markPrices (positions : List (Symbol × Nat)) :
    Yields (Told v db) (markPrices positions)
      (fun prices => ∀ s ∈ positions.map Prod.fst, priceOf prices s = (v.price s).toOption) := by
  have hfold : ∀ acc : List (Symbol × Price), (∀ q ∈ acc, v.price q.1 = .ok q.2) →
      Yields (Told v db) (positions.foldlM (fun prices p => do return prices ++ [(p.1, ← currentPrice p.1)]) acc)
        (fun prices => (∀ q ∈ prices, v.price q.1 = .ok q.2) ∧
          prices.map Prod.fst = acc.map Prod.fst ++ positions.map Prod.fst) := by
    induction positions with
    | nil => exact fun acc hacc => yields_ret ⟨hacc, by simp⟩
    | cons p positions ih =>
        intro acc hacc
        rw [List.foldlM_cons]
        refine yields_bind (P := fun prices => ∃ x, v.price p.1 = .ok x ∧ prices = acc ++ [(p.1, x)]) ?_ ?_
        · refine yields_bind (P := fun x => v.price p.1 = .ok x) (yields_told fun x hx => hx) fun x hx => ?_
          exact yields_ret ⟨x, hx, rfl⟩
        · rintro _ ⟨x, hx, rfl⟩
          refine (ih (acc ++ [(p.1, x)]) ?_).mono fun prices h => ⟨h.1, by simpa using h.2⟩
          simpa [or_imp, forall_and] using ⟨fun a b h => hacc (a, b) h, hx⟩
  refine (hfold [] (by simp)).mono fun prices h s hs => ?_
  rw [List.map_nil, List.nil_append] at h
  rw [← h.2] at hs
  obtain ⟨q, hq⟩ : ∃ q, prices.find? (fun p => p.1 = s) = some q := by
    rw [← Option.isSome_iff_exists, List.find?_isSome]
    simpa using hs
  have hsymbol : q.1 = s := by simpa using List.find?_some hq
  have hmark := h.1 q (List.mem_of_find?_eq_some hq)
  rw [hsymbol] at hmark
  rw [priceOf, hq, hmark]
  rfl

theorem equity_ok {cash nav : Int} {lots : List OpenLot} {prices : Symbol → Option Price}
    (h : accountEquityFromCashAndPositions cash lots prices = .ok nav) :
    ∃ value, marketValue lots prices = .ok value ∧ nav = cash + value := by
  unfold accountEquityFromCashAndPositions at h
  split at h
  · cases h
  · cases hvalue : marketValue lots prices with
    | error e =>
        rw [hvalue] at h
        cases h
    | ok value =>
        rw [hvalue] at h
        change (if maxAbsCents < (cash + value).natAbs then _ else Except.ok (cash + value)) = _ at h
        split at h
        · cases h
        · cases h
          exact ⟨value, rfl, rfl⟩

theorem clean_navPass (cfg : ReconcilerConfig) (policy : AccountReconciliationPolicy) (account : PaperAccount)
    (projection : LedgerProjection) (cash : Int) (f : Findings) :
    Yields (Told v db) (navPass cfg policy account projection cash f) (fun f' => f'.Clean → f.Clean ∧
      ∃ marked, marketValue projection.lots (fun s => (v.price s).toOption) = .ok marked ∧
        ((account.equity.cents : Int) - (cash + marked)).natAbs ≤ policy.navToleranceCents) := by
  refine yields_tryCatch ?_ fun e => ?_
  · split
    · split
      · exact yields_reported _ _ _
      · rename_i hpositions
        have hlots : projection.lots = [] := by
          refine List.eq_nil_iff_forall_not_mem.mpr fun lot hlot => ?_
          have hmem := lot_mem_positions hlot
          rw [not_not.mp hpositions] at hmem
          cases hmem
        refine (yields_reportIf_clean f _ _ _).mono fun f' h hc => ⟨(h hc).1, 0, ?_, ?_⟩
        · rw [hlots]
          rfl
        · simpa using (h hc).2
    · refine yields_bind (yields_markPrices projection.positions) fun prices hprices => ?_
      refine yields_bind (yields_ofExcept fun nav hnav => equity_ok hnav) fun nav hnav => ?_
      obtain ⟨value, hvalue, rfl⟩ := hnav
      refine (yields_reportIf_clean f _ _ _).mono fun f' h hc => ⟨(h hc).1, value, ?_, not_lt.mp (h hc).2⟩
      rw [← hvalue]
      exact marketValue_congr fun lot hlot => (hprices _ (lot_mem_positions hlot)).symm
  · split
    · exact yields_reported _ _ _
    · exact yields_raise e

theorem getBaseline_of_read {a : String} {b : Option AccountBaseline} (h : db.read (.getBaseline a) = .ok b) :
    db.getBaseline a = .ok b := by
  simp only [Db.read, Db.exec] at h
  cases hb : db.getBaseline a with
  | error e =>
      rw [hb] at h
      cases h
  | ok x =>
      rw [hb] at h
      cases h
      rfl

theorem clean_accountPass (cfg : ReconcilerConfig) {policy : AccountReconciliationPolicy}
    (hpolicy : cfg.accountPolicy = some policy) (account : PaperAccount) (projection : LedgerProjection) (f : Findings) :
    Yields (Told v db) (accountPass cfg account projection f) (fun f' => f'.Clean → f.Clean ∧
      ∃ baseline marked, AccountAgrees v db policy account projection baseline marked) := by
  unfold accountPass
  simp only [hpolicy, bind_eq, pure_eq_ret]
  refine yields_bind (yields_reportIf_clean f _ _ _) fun f₁ h₁ => ?_
  have hmissing : Yields (Told v db) (f₁.report .accountReconciliationUnavailable "missing opening cash baseline")
      (fun f' => f'.Clean → f.Clean ∧ ∃ baseline marked, AccountAgrees v db policy account projection baseline marked) :=
    yields_reported _ _ _
  split
  · refine yields_bind (P := fun b => db.getBaseline account.accountId = .ok b)
      (yields_told fun b hb => getBaseline_of_read hb) fun (b : Option AccountBaseline) hb => ?_
    · cases b with
      | none => exact hmissing
      | some b =>
          refine yields_bind (P := fun l => l = db.fills.rows) (yields_told fun l hl => (Except.ok.inj hl).symm)
            fun l hl => ?_
          subst hl
          refine yields_bind (P := fun l => l = db.listAllBrokerOrders) (yields_told fun l hl => (Except.ok.inj hl).symm)
            fun l hl => ?_
          subst hl
          refine yields_bind (yields_ofExcept fun delta hdelta => addCashDelta_sum hdelta) fun delta hdelta => ?_
          rw [zero_add] at hdelta
          subst hdelta
          refine yields_bind (yields_reportIf_clean f₁ _ _ _) fun f₂ h₂ => ?_
          refine (clean_navPass cfg policy account projection _ f₂).mono fun f' h hc => ?_
          obtain ⟨hf₂, marked, hmarks, hequity⟩ := h hc
          obtain ⟨hf₁, hcash⟩ := h₂ hf₂
          obtain ⟨hf, hidentity⟩ := h₁ hf₁
          exact ⟨hf, b, marked, not_not.mp hidentity, hb, not_lt.mp hcash, hmarks, hequity⟩
  · exact hmissing

/-- The passes of full scope that find nothing. -/
theorem clean_collectFindings (cfg : ReconcilerConfig) {policy : AccountReconciliationPolicy}
    (hpolicy : cfg.accountPolicy = some policy) (d : TradingDate) :
    Yields (Told v db) (collectFindings cfg d) (fun f => f.Clean → Agreement v db policy d) := by
  refine yields_bind (yields_true _) fun _ _ => ?_
  refine yields_bind (P := fun a => v.answer .account = .ok a) (yields_told fun a ha => ha)
    fun (account : PaperAccount) haccount => ?_
  refine yields_bind (yields_reportIf_clean Findings.empty _ _ _) fun f₁ h₁ =>
    yields_bind (clean_orderPasses f₁) fun acc hacc => ?_
  obtain ⟨opened, hopened, hreported, horders⟩ := hacc
  refine yields_bind (@clean_historyPass v db d opened _ fun hc p hp => ?_) fun f₂ hhistory => ?_
  · exact ⟨hreported p hp, (horders hc).2.2 p (hreported p hp)⟩
  obtain ⟨recent, since, hsince, hrecent, hhistory⟩ := hhistory
  refine yields_bind (clean_positionPass f₂) fun acc₂ hpositions => ?_
  obtain ⟨f₃, projection⟩ := acc₂
  obtain ⟨positions, hprojection, hbroker, hpositions⟩ := hpositions
  refine (clean_accountPass cfg hpolicy account projection f₃).mono fun f' h hc => ?_
  obtain ⟨hf₃, baseline, marked, hagrees⟩ := h hc
  obtain ⟨hf₂, hequal⟩ := hpositions hf₃
  obtain ⟨hacc, hhistory⟩ := hhistory hf₂
  obtain ⟨hf₁, horders, hmirrored⟩ := horders hacc
  obtain ⟨-, hpaper⟩ := h₁ hf₁
  exact ⟨horders.resolved, horders.openMirrors, horders.closedMirrors,
    ⟨opened, recent, since, hopened, hsince, hrecent, hmirrored, hhistory⟩,
    ⟨account, projection, positions, baseline, marked, haccount, not_not.mp hpaper, hprojection, hbroker, hequal, hagrees⟩⟩

end Passes

/-- When a reconciliation of full scope is clean, the tables agree with the broker's view. -/
theorem clean_full_agrees (v : BrokerView) (clock : Nat → UtcTimestamp) (uuid : Nat → Uuid) (cfg : ReconcilerConfig)
    (policy : AccountReconciliationPolicy) (hpolicy : cfg.accountPolicy = some policy) (d : TradingDate) (db : Db)
    (result : ReconciliationResult) (w : World)
    (hrun : run (handler (v.env clock uuid)) (collect cfg d) (.start db) = (.ok result, w))
    (hclean : result.status = .clean) : Agreement v db policy d := by
  simp only [collect, bind_eq, run_bind] at hrun
  cases hfindings : run (handler (v.env clock uuid)) (collectFindings cfg d) (.start db) with
  | mk r w₁ =>
      rw [hfindings] at hrun
      cases r with
      | error e => cases hrun
      | ok f =>
          have hyields : f.Clean → Agreement v db policy d := (clean_collectFindings cfg hpolicy d).run
            (h := handler (v.env clock uuid)) (I := World.Shows db) (fun _ _ hs hc => handler_observe hs hc)
            (observes_collectFindings cfg d) (World.start_shows db) (congrArg Prod.fst hfindings)
          have hresult : (run (handler (v.env clock uuid)) (createResult d f cfg.scope) w₁).1 = .ok result :=
            congrArg Prod.fst hrun
          rw [run_createResult] at hresult
          refine hyields ?_
          rw [Findings.Clean, ← (ReconciliationResult.create_ok hresult).2.1]
          exact result.status_iff.mp hclean

/-! ### A filled quantity that is not compared -/

/-- The broker has filled six shares of the sample order, of which it lists four. -/
def thousandDollars : UsdAmount := ⟨100000, by decide⟩

def laggingView : BrokerView where
  answer
    | .account => .ok ⟨"paper", .paper, ⟨60000, by decide⟩, thousandDollars, ⟨60000, by decide⟩, paperId_ok⟩
    | .submitOrder _ => .error ⟨.brokerTransport, "timeout"⟩
    | .getOrder _ => .ok (some (sampleOrder .partiallyFilled 6 5))
    | .listRecentOrders _ => .ok []
    | .listOpenOrders => .ok [sampleOrder .partiallyFilled 6 5]
    | .listPositions => .ok [⟨sampleSymbol, 4, samplePrice, fourQuantity.pos⟩]
    | .listFills _ => .ok [sampleFill "x-1" fourQuantity 4 execution_one_ok]
    | .getAsset _ => .ok none
    | .cancelOrder _ => .ok false
  price _ := .ok samplePrice
  transport := by
    intro c e h
    cases c <;> cases h
    rfl
  unavailable := by
    intro s e h
    cases h

theorem thousandOpening_ok : 100000 ≤ maxOpeningCashCents := by decide

/-- The mirror of the sample order has four shares, and they are recorded. -/
def laggingDb : Db :=
  { sampleDb .partiallyFilled ⟨sampleOrder .partiallyFilled 4 4, true, by simp, fourShares_open, by decide⟩ with
    fills := Table.empty.add (sampleFill "x-1" fourQuantity 4 execution_one_ok)
    accountBaselines := [⟨"paper", 100000, instant 0, instant 0, none, none, paperId_ok, thousandOpening_ok⟩] }

/-- A reconciler of full scope without tolerances. -/
def strictPolicy : AccountReconciliationPolicy := ⟨"paper", 0, 0, paperId_ok⟩

/-- What it collects. -/
def laggingRun : Except PyError ReconciliationResult × World :=
  run (handler (laggingView.env (fun _ => instant 10) sampleEnv.uuid)) (collect ⟨some strictPolicy, true, true⟩ secondDay)
    (.start laggingDb)

theorem laggingRun_clean : ∃ result, laggingRun = (.ok result, laggingRun.2) ∧ result.status = .clean := by
  have h : laggingRun.1.toOption.any (fun r => decide (r.status = .clean)) = true := by decide +kernel
  cases hr : laggingRun with
  | mk r w =>
      rw [hr] at h
      cases r with
      | error e => cases h
      | ok result => exact ⟨result, rfl, of_decide_eq_true h⟩

theorem clean_full_agrees_sample : Agreement laggingView laggingDb strictPolicy secondDay := by
  obtain ⟨result, hrun, hclean⟩ := laggingRun_clean
  exact clean_full_agrees laggingView (fun _ => instant 10) sampleEnv.uuid ⟨some strictPolicy, true, true⟩ strictPolicy rfl
    secondDay laggingDb result _ hrun hclean

/-- A clean run over a mirror whose filled quantity is not the broker's. -/
theorem clean_hides_filled_quantity : ∃ (result : ReconciliationResult) (r : MirrorRow) (o : BrokerOrder),
    laggingRun = (.ok result, laggingRun.2) ∧ result.status = .clean ∧ r ∈ laggingDb.mirrors.rows ∧
    r.order.status.isTerminal = false ∧ laggingView.answer (.getOrder r.order.clientOrderId) = .ok (some o) ∧
    r.order.filledQuantity ≠ o.filledQuantity := by
  obtain ⟨result, hrun, hclean⟩ := laggingRun_clean
  refine ⟨result, ⟨sampleOrder .partiallyFilled 4 4, true, by simp, fourShares_open, by decide⟩,
    sampleOrder .partiallyFilled 6 5, hrun, hclean, ?_, rfl, rfl, by decide⟩
  simp [laggingDb, sampleDb, Table.add, Table.empty]

end SevenLens
