import SevenLens.CleanRun
import SevenLens.FifoLedger

/-! # Opening baselines and the expected cash

An account has a genesis baseline, set while no fill is recorded, and revisions of it, each behind a
fill that is recorded.  A reconciliation adds the cash of the fills behind the baseline to its opening
cash, fill by fill in the order in which they were recorded, and raises when the sum leaves its range
on the way (`cashDelta_ok`).

For a genesis baseline the fills from its effective time on count, although a fill that is recorded
later may have been executed before (`expectedCash_agrees_iff`). -/

namespace SevenLens

open Calls Prog

/-! ### Setting baselines -/

/-- The checks that the two statements share, and the row they insert. -/
def AccountBaseline.create (accountId : String) (openingCashCents : Int) (effectiveAt createdAt : UtcTimestamp)
    (cutoffOccurredAt : Option UtcTimestamp) (cutoffExecutionId : Option String) : Except PyError AccountBaseline :=
  if h : IsBoundedText 100 accountId then
    if hcash : openingCashCents.toNat ≤ maxOpeningCashCents ∧ 0 ≤ openingCashCents then
      .ok ⟨accountId, openingCashCents.toNat, effectiveAt, createdAt, cutoffOccurredAt, cutoffExecutionId, h, hcash.1⟩
    else .error ⟨.valueError, "opening_cash_cents must be a non-negative integer up to 100000000000"⟩
  else .error ⟨.valueError, "account_id must be non-empty text up to 100 characters"⟩

namespace Db

/-- `set_baseline`: the genesis baseline; `now` and `now'` are the times of the two statements. -/
def setBaseline (db : Db) (accountId : String) (openingCashCents : Int) (effectiveAt now now' : UtcTimestamp) :
    Except PyError (AccountBaseline × Db) := do
  let baseline ← AccountBaseline.create accountId openingCashCents effectiveAt now none none
  if db.fills.rows ≠ [] then .error ⟨.valueError, "genesis baseline requires empty fill ledger"⟩
  else if hasNul accountId then .error ⟨.database, "PostgreSQL text fields cannot contain NUL (0x00) bytes"⟩
  else if accountId ∈ db.accountBaselines.map AccountBaseline.accountId then
    .error ⟨.database, "duplicate key value violates unique constraint account_baselines_pkey"⟩
  else if now' < effectiveAt then
    .error ⟨.database, "violates check constraint account_baseline_revisions_check1"⟩
  else
    .ok (baseline, { db with
      accountBaselines := db.accountBaselines ++ [baseline]
      baselineRevisions := db.baselineRevisions ++ [{ baseline with createdAt := now' }] })

/-- `add_revision` -/
def addRevision (db : Db) (accountId : String) (openingCashCents : Int) (effectiveAt : UtcTimestamp)
    (cutoffOccurredAt : Option UtcTimestamp) (cutoffExecutionId : Option String) (reason actor : String)
    (now : UtcTimestamp) : Except PyError (AccountBaseline × Db) := do
  let baseline ← AccountBaseline.create accountId openingCashCents effectiveAt now cutoffOccurredAt cutoffExecutionId
  if ¬ ∀ id ∈ cutoffExecutionId, IsBoundedText 100 id then
    .error ⟨.valueError, "cutoff_execution_id must be bounded text"⟩
  else if ¬ IsBoundedText 200 reason then .error ⟨.valueError, "reason must be bounded text"⟩
  else if ¬ IsBoundedText 100 actor then .error ⟨.valueError, "actor must be bounded text"⟩
  else if cutoffOccurredAt.isSome ≠ cutoffExecutionId.isSome then
    .error ⟨.valueError, "cutoff_occurred_at and cutoff_execution_id must be both set or both None"⟩
  else if db.fills.rows ≠ [] ∧ cutoffOccurredAt = none then
    .error ⟨.valueError, "revision after fills requires explicit cutoff"⟩
  else if ∃ t ∈ cutoffOccurredAt, ∃ id ∈ cutoffExecutionId, ∀ f ∈ db.fills.rows, ¬ (f.executionId = id ∧ f.occurredAt = t) then
    .error ⟨.valueError, "cutoff must reference an existing fill"⟩
  else if hasNul accountId ∨ cutoffExecutionId.any hasNul ∨ hasNul reason ∨ hasNul actor then
    .error ⟨.database, "PostgreSQL text fields cannot contain NUL (0x00) bytes"⟩
  else if now < effectiveAt then .error ⟨.database, "violates check constraint account_baseline_revisions_check1"⟩
  else .ok (baseline, { db with baselineRevisions := db.baselineRevisions ++ [baseline] })

end Db

/-! ### The cash behind a baseline -/

variable {orders : String → Option BrokerOrder}

/-- What fills add to the cash. -/
def flow (orders : String → Option BrokerOrder) (fills : List Fill) : Int := (fills.map (cashFlow orders)).sum

/-- The sum stays in its range on the way through the fills. -/
def InRange (orders : String → Option BrokerOrder) (fills : List Fill) : Prop :=
  ∀ l, l <+: fills → (flow orders l).natAbs ≤ maxAbsCents

/-- The expected cash of a reconciliation, as `baselinePass` computes it. -/
def expectedCashOf (orders : String → Option BrokerOrder) (fills : List Fill) (b : AccountBaseline) : Except PyError Int := do
  let delta ← (fills.filter (isPostBaseline b)).foldlM (addCashDelta orders) 0
  return b.openingCashCents + delta

theorem flow_append (l m : List Fill) : flow orders (l ++ m) = flow orders l + flow orders m := by
  simp [flow]

theorem flow_perm {l m : List Fill} (h : l.Perm m) : flow orders l = flow orders m := (h.map _).sum_eq

theorem flow_singleton (f : Fill) : flow orders [f] = cashFlow orders f := by
  simp [flow]

theorem inRange_append_singleton {l : List Fill} {f : Fill} :
    InRange orders (l ++ [f]) ↔ InRange orders l ∧ (flow orders (l ++ [f])).natAbs ≤ maxAbsCents := by
  constructor
  · exact fun h => ⟨fun k hk => h k (hk.trans (List.prefix_append l [f])), h _ (List.prefix_refl _)⟩
  · rintro ⟨h, hlast⟩ k hk
    obtain rfl | hk := List.prefix_concat_iff.mp hk
    · exact hlast
    · exact h k hk

theorem addCashDelta_ok {cash next : Int} {f : Fill} {o : BrokerOrder} (ho : orders f.brokerOrderId = some o) :
    addCashDelta orders cash f = .ok next ↔ next = cash + cashFlow orders f ∧ next.natAbs ≤ maxAbsCents := by
  have hflow : cash + cashFlow orders f =
      if o.side = .buy then cash - f.quantity.value * f.price.cents else cash + f.quantity.value * f.price.cents := by
    rw [cashFlow, ho]
    by_cases hside : o.side = .buy
    · simp only [Option.any_some, hside, decide_true, if_true]
      ring
    · simp [hside]
  simp only [addCashDelta, ho]
  rw [← hflow]
  split_ifs with hbound
  · simp only [false_iff, not_and, not_le]
    rintro rfl
    exact hbound
  · rw [Except.ok.injEq]
    exact ⟨fun h => ⟨h.symm, h ▸ not_lt.mp hbound⟩, fun h => h.1.symm⟩

/-- The sum is computed exactly when it stays in its range; it is then the cash of the fills. -/
theorem cashDelta_ok {fills : List Fill} (hknown : ∀ f ∈ fills, ∃ o, orders f.brokerOrderId = some o) {delta : Int} :
    fills.foldlM (addCashDelta orders) 0 = .ok delta ↔ InRange orders fills ∧ delta = flow orders fills := by
  induction fills using List.reverseRecOn generalizing delta with
  | nil =>
      constructor
      · intro h
        cases h
        refine ⟨fun l hl => ?_, rfl⟩
        rw [List.prefix_nil.mp hl]
        exact Nat.zero_le _
      · rintro ⟨-, rfl⟩
        rfl
  | append_singleton fills f ih =>
      have hfills : ∀ g ∈ fills, ∃ o, orders g.brokerOrderId = some o := fun g hg => hknown g (List.mem_append_left _ hg)
      obtain ⟨o, ho⟩ := hknown f (by simp)
      have hfold : (fills ++ [f]).foldlM (addCashDelta orders) 0 = .ok delta ↔
          ∃ cash, fills.foldlM (addCashDelta orders) 0 = .ok cash ∧ addCashDelta orders cash f = .ok delta := by
        rw [List.foldlM_append]
        cases hr : fills.foldlM (addCashDelta orders) 0 with
        | error e =>
            constructor
            · exact fun h => nomatch h
            · rintro ⟨cash, h, -⟩
              exact nomatch h
        | ok cash =>
            show (addCashDelta orders cash f >>= pure) = _ ↔ _
            rw [bind_pure]
            exact ⟨fun h => ⟨cash, rfl, h⟩, fun ⟨cash', hc, h⟩ => by cases hc; exact h⟩
      rw [hfold, inRange_append_singleton, flow_append, flow_singleton]
      constructor
      · rintro ⟨cash, hcash, hstep⟩
        obtain ⟨hrange, rfl⟩ := (ih hfills).mp hcash
        obtain ⟨rfl, hbound⟩ := (addCashDelta_ok ho).mp hstep
        exact ⟨⟨hrange, hbound⟩, rfl⟩
      · rintro ⟨⟨hrange, hbound⟩, rfl⟩
        exact ⟨flow orders fills, (ih hfills).mpr ⟨hrange, rfl⟩, (addCashDelta_ok ho).mpr ⟨rfl, hbound⟩⟩

theorem expectedCashOf_ok {fills : List Fill} {b : AccountBaseline}
    (hknown : ∀ f ∈ fills, ∃ o, orders f.brokerOrderId = some o) {cash : Int} :
    expectedCashOf orders fills b = .ok cash ↔ InRange orders (fills.filter (isPostBaseline b)) ∧
      cash = b.openingCashCents + flow orders (fills.filter (isPostBaseline b)) := by
  have hpost : ∀ f ∈ fills.filter (isPostBaseline b), ∃ o, orders f.brokerOrderId = some o :=
    fun f hf => hknown f (List.mem_of_mem_filter hf)
  unfold expectedCashOf
  cases hd : (fills.filter (isPostBaseline b)).foldlM (addCashDelta orders) 0 with
  | error e =>
      constructor
      · exact fun h => nomatch h
      · rintro ⟨hrange, -⟩
        exact absurd (hd.symm.trans ((cashDelta_ok hpost).mpr ⟨hrange, rfl⟩)) (by simp)
  | ok delta =>
      obtain ⟨hrange, rfl⟩ := (cashDelta_ok hpost).mp hd
      constructor
      · intro h
        cases h
        exact ⟨hrange, rfl⟩
      · rintro ⟨-, rfl⟩
        rfl

/-- The cash of fills is what they sold less what they bought. -/
theorem flow_eq_turnover {fills : List Fill} (hknown : ∀ f ∈ fills, ∃ o, orders f.brokerOrderId = some o) :
    flow orders fills = turnover orders .sell fills - turnover orders .buy fills := by
  induction fills with
  | nil => rfl
  | cons f fills ih =>
      obtain ⟨o, ho⟩ := hknown f List.mem_cons_self
      have hrest := ih fun g hg => hknown g (List.mem_cons_of_mem f hg)
      rw [← List.singleton_append, flow_append, turnover_append, turnover_append, hrest, flow_singleton,
        turnover_singleton ho, turnover_singleton ho, cashFlow, ho]
      cases hside : o.side with
      | buy =>
          simp [hside]
          ring
      | sell =>
          simp [hside]
          ring

/-- The cash delta of an accepted ledger. -/
theorem projectLedger_flow {fills : List Fill} {p : LedgerProjection} (h : projectLedger fills orders = .ok p) :
    (∀ f ∈ fills, ∃ o, orders f.brokerOrderId = some o) ∧ p.cashDeltaCents = flow orders fills := by
  have hknown : ∀ f ∈ fills, ∃ o, orders f.brokerOrderId = some o :=
    fun f hf => Option.isSome_iff_exists.mp ((projectLedger_held h).1 f hf)
  obtain ⟨r, hr, -, hcash, -⟩ := projectLedger_ok.mp h
  have hsort := List.perm_insertionSort Fill.before fills
  refine ⟨hknown, ?_⟩
  rw [hcash, ((replay_ok _).1 r hr).cash, turnover_perm hsort, turnover_perm hsort, flow_eq_turnover hknown]

/-- A reconciliation compares the broker's cash with the expected cash. -/
theorem baselinePass_eq (cfg : ReconcilerConfig) (policy : AccountReconciliationPolicy) (account : PaperAccount)
    (projection : LedgerProjection) (baseline : AccountBaseline) (f : Findings) :
    baselinePass cfg policy account projection baseline f = (do
      let fills ← listAllFills
      let mirrors ← listAllBrokerOrders
      let expected ← Prog.ofExcept (expectedCashOf (byBrokerOrderId mirrors) fills baseline)
      let f ← f.reportIf (policy.cashToleranceCents < ((account.cash.cents : Int) - expected).natAbs)
        .cashMismatch (expectedGot expected account.cash.cents)
      navPass cfg policy account projection expected f) := by
  unfold baselinePass expectedCashOf
  congr 1
  funext fills
  congr 1
  funext mirrors
  cases (fills.filter (isPostBaseline baseline)).foldlM (addCashDelta (byBrokerOrderId mirrors)) 0 <;> rfl

/-! ### Genesis baselines and revisions -/

theorem AccountBaseline.create_cutoff {a : String} {c : Int} {e now : UtcTimestamp} {t : Option UtcTimestamp}
    {id : Option String} {b : AccountBaseline} (h : AccountBaseline.create a c e now t id = .ok b) :
    b.effectiveAt = e ∧ b.cutoffOccurredAt = t ∧ b.cutoffExecutionId = id := by
  unfold AccountBaseline.create at h
  split_ifs at h
  cases h
  exact ⟨rfl, rfl, rfl⟩

/-- A genesis baseline has no cutoff and is set on an empty ledger. -/
theorem Db.setBaseline_genesis {db db' : Db} {a : String} {c : Int} {e now now' : UtcTimestamp} {b : AccountBaseline}
    (h : db.setBaseline a c e now now' = .ok (b, db')) :
    db.fills.rows = [] ∧ b.effectiveAt = e ∧ b.cutoffOccurredAt = none ∧ b.cutoffExecutionId = none := by
  unfold setBaseline at h
  cases hb : AccountBaseline.create a c e now none none with
  | error x =>
      rw [hb] at h
      exact nomatch h
  | ok row =>
      rw [hb] at h
      change (if db.fills.rows ≠ [] then _ else _) = _ at h
      split_ifs at h with hfills
      cases h
      exact ⟨not_not.mp hfills, AccountBaseline.create_cutoff hb⟩

/-- A revision has the cutoff it was given. -/
theorem Db.addRevision_cutoff {db db' : Db} {a reason actor : String} {c : Int} {e now : UtcTimestamp}
    {t : Option UtcTimestamp} {id : Option String} {b : AccountBaseline}
    (h : db.addRevision a c e t id reason actor now = .ok (b, db')) :
    b.cutoffOccurredAt = t ∧ b.cutoffExecutionId = id := by
  unfold addRevision at h
  cases hb : AccountBaseline.create a c e now t id with
  | error x =>
      rw [hb] at h
      exact nomatch h
  | ok row =>
      rw [hb] at h
      change (if ¬ ∀ id' ∈ id, IsBoundedText 100 id' then _ else _) = _ at h
      split_ifs at h
      cases h
      exact (AccountBaseline.create_cutoff hb).2

theorem flow_filter_add (p : Fill → Bool) (fills : List Fill) :
    flow orders (fills.filter p) + flow orders (fills.filter (fun f => !p f)) = flow orders fills := by
  rw [← flow_append]
  exact flow_perm (List.filter_append_perm p fills)

/-- The fills behind the cutoff `f` are those that come after it in the canonical order. -/
theorem flow_behind_cutoff {fills l k : List Fill} {f : Fill} {b : AccountBaseline}
    (hids : (fills.map Fill.executionId).Nodup) (hsort : fills.insertionSort Fill.before = l ++ f :: k)
    (ht : b.cutoffOccurredAt = some f.occurredAt) (hid : b.cutoffExecutionId = some f.executionId) :
    flow orders (fills.filter (isPostBaseline b)) = flow orders fills - flow orders (l ++ [f]) := by
  have hperm := List.perm_insertionSort Fill.before fills
  have hpost : ∀ g, isPostBaseline b g = true ↔
      f.occurredAt < g.occurredAt ∨ (f.occurredAt = g.occurredAt ∧ f.executionId < g.executionId) := by
    intro g
    simp only [isPostBaseline, ht, hid, Bool.or_eq_true, Bool.and_eq_true, decide_eq_true_eq, beq_iff_eq]
    rw [eq_comm]
  have hpairwise := List.pairwise_insertionSort Fill.before fills
  rw [hsort, List.pairwise_append, List.pairwise_cons] at hpairwise
  obtain ⟨-, ⟨hfk, -⟩, hlf⟩ := hpairwise
  rw [← (hperm.map _).nodup_iff, hsort, List.map_append, List.map_cons, List.nodup_append, List.nodup_cons] at hids
  -- what comes before the cutoff does not count, and neither does the cutoff itself
  have hbefore : (l ++ [f]).filter (isPostBaseline b) = [] := by
    rw [List.filter_eq_nil_iff]
    intro g hg hgpost
    have hgf : g.before f := by
      obtain hg | hg := List.mem_append.mp hg
      · exact hlf g hg f List.mem_cons_self
      · rw [List.mem_singleton.mp hg]
        exact .inr ⟨rfl, le_rfl⟩
    obtain h | ⟨h, h'⟩ := (hpost g).mp hgpost
    · obtain hlt | ⟨heq, -⟩ := hgf
      · exact absurd h hlt.asymm
      · exact absurd h (heq ▸ lt_irrefl _)
    · obtain hlt | ⟨-, hle⟩ := hgf
      · exact absurd hlt (h ▸ lt_irrefl _)
      · exact absurd h' (not_lt.mpr hle)
  have hafter : k.filter (isPostBaseline b) = k := by
    rw [List.filter_eq_self]
    intro g hg
    rw [hpost]
    obtain h | ⟨h, h'⟩ := hfk g hg
    · exact .inl h
    · refine .inr ⟨h, lt_of_le_of_ne h' fun he => ?_⟩
      exact hids.2.1.1 (he ▸ List.mem_map_of_mem hg)
  have hsplit : l ++ f :: k = (l ++ [f]) ++ k := by simp
  calc flow orders (fills.filter (isPostBaseline b))
      = flow orders ((l ++ f :: k).filter (isPostBaseline b)) := by
        rw [← hsort]
        exact flow_perm (hperm.symm.filter _)
    _ = flow orders k := by rw [hsplit, List.filter_append, hbefore, hafter, List.nil_append]
    _ = flow orders fills - flow orders (l ++ [f]) := by
        rw [← flow_perm hperm, hsort, hsplit, flow_append (l ++ [f])]
        ring

/-- **The expected cash agrees with the ledger exactly when the sum stays in its range and, for a
genesis baseline, the fills from before its effective time move no cash.**  The first part is about
baselines set on an empty ledger, the second one about revisions behind a fill of the ledger. -/
theorem expectedCash_agrees_iff (orders : String → Option BrokerOrder) (fills : List Fill) (p : LedgerProjection)
    (hp : projectLedger fills orders = .ok p) :
    (∀ (db db' : Db) (a : String) (c : Int) (e now now' : UtcTimestamp) (b : AccountBaseline),
      db.setBaseline a c e now now' = .ok (b, db') →
        (expectedCashOf orders fills b = .ok (b.openingCashCents + p.cashDeltaCents) ↔
          InRange orders (fills.filter (isPostBaseline b)) ∧
            flow orders (fills.filter (fun f => decide (f.occurredAt < e))) = 0)) ∧
      ∀ (db db' : Db) (a : String) (c : Int) (e now : UtcTimestamp) (reason actor : String) (f : Fill)
        (b : AccountBaseline) (l k : List Fill),
        db.addRevision a c e (some f.occurredAt) (some f.executionId) reason actor now = .ok (b, db') →
        fills.insertionSort Fill.before = l ++ f :: k →
          (expectedCashOf orders fills b = .ok (b.openingCashCents + (p.cashDeltaCents - flow orders (l ++ [f]))) ↔
            InRange orders (fills.filter (isPostBaseline b))) := by
  obtain ⟨hknown, hcash⟩ := projectLedger_flow hp
  have hids := (projectLedger_accepted.mp ⟨p, hp⟩).1.distinct
  rw [((List.perm_insertionSort Fill.before fills).map _).nodup_iff] at hids
  constructor
  · intro db db' a c e now now' b hb
    obtain ⟨-, heffective, ht, -⟩ := Db.setBaseline_genesis hb
    have hearly : (fun f => !isPostBaseline b f) = fun f => decide (f.occurredAt < e) := by
      funext f
      simp only [isPostBaseline, ht, heffective, ← decide_not, not_le]
    have hsplit := @flow_filter_add orders (isPostBaseline b) fills
    rw [hearly] at hsplit
    rw [expectedCashOf_ok hknown, hcash, ← hsplit]
    refine and_congr_right fun _ => ?_
    constructor
    · intro h
      omega
    · intro h
      omega
  · intro db db' a c e now reason actor f b l k hb hsort
    obtain ⟨ht, hid⟩ := Db.addRevision_cutoff hb
    rw [expectedCashOf_ok hknown, flow_behind_cutoff hids hsort ht hid, hcash]
    exact and_iff_left rfl

/-! ### A fill from before the baseline -/

/-- The order of the sample, under its id. -/
def sampleOrders (b : String) : Option BrokerOrder := if b = "b-1" then some (sampleOrder .filled 10 5) else none

/-- A fill that is recorded late. -/
def lateFill : Fill := sampleFill "x-1" fourQuantity 3 execution_one_ok

/-- A genesis baseline with its effective time. -/
def genesisAt (n : Fin 1000) : Except PyError (AccountBaseline × Db) :=
  emptyDb.setBaseline "paper" 100000 (instant n) (instant 6) (instant 6)

theorem exists_ok {ε α : Type} {x : Except ε α} {q : α → Bool} (h : x.toOption.any q = true) :
    ∃ a, x = .ok a ∧ q a = true := by
  cases x with
  | error e => cases h
  | ok a => exact ⟨a, rfl, h⟩

theorem lateLedger : ∃ p, projectLedger [lateFill] sampleOrders = .ok p ∧ p.cashDeltaCents = -40000 := by
  obtain ⟨p, hp, hcash⟩ : ∃ p, projectLedger [lateFill] sampleOrders = .ok p ∧ decide (p.cashDeltaCents = -40000) = true :=
    exists_ok (by decide +kernel)
  exact ⟨p, hp, of_decide_eq_true hcash⟩

/-- What a reconciliation expects with the genesis baseline of the sample. -/
theorem expected_genesisAt {n : Fin 1000} {cash : Int}
    (h : (genesisAt n).toOption.any (fun x => ((expectedCashOf sampleOrders [lateFill] x.1).toOption.any
      (fun c => decide (c = cash))) && decide (x.1.openingCashCents = 100000)) = true) :
    ∃ b db', genesisAt n = .ok (b, db') ∧ b.openingCashCents = 100000 ∧
      expectedCashOf sampleOrders [lateFill] b = .ok cash := by
  obtain ⟨⟨b, db'⟩, hb, hq⟩ := exists_ok h
  obtain ⟨hexpected, hopening⟩ := Bool.and_eq_true_iff.mp hq
  obtain ⟨c, hc, hcash⟩ := exists_ok hexpected
  obtain rfl : c = cash := of_decide_eq_true hcash
  exact ⟨b, db', hb, of_decide_eq_true hopening, hc⟩

/-- With a baseline from before the fill, the sum stays in its range and nothing is left out. -/
theorem expectedCash_agrees_sample : ∃ b db' p, genesisAt 2 = .ok (b, db') ∧
    projectLedger [lateFill] sampleOrders = .ok p ∧ InRange sampleOrders ([lateFill].filter (isPostBaseline b)) ∧
      flow sampleOrders ([lateFill].filter (fun f => decide (f.occurredAt < instant 2))) = 0 := by
  obtain ⟨p, hp, hdelta⟩ := lateLedger
  obtain ⟨b, db', hb, hopening, hexpected⟩ := @expected_genesisAt 2 60000 (by decide +kernel)
  refine ⟨b, db', p, hb, hp, ((expectedCash_agrees_iff sampleOrders [lateFill] p hp).1 emptyDb db' "paper" 100000
    (instant 2) (instant 6) (instant 6) b hb).mp ?_⟩
  rw [hexpected, hopening, hdelta]
  rfl

/-- With a baseline that is effective after the fill was executed and set before it was recorded, the
expected cash is the opening cash, although the ledger has spent 400 dollars. -/
theorem genesis_skips_early_fill : ∃ b db' p, genesisAt 5 = .ok (b, db') ∧
    projectLedger [lateFill] sampleOrders = .ok p ∧
      expectedCashOf sampleOrders [lateFill] b ≠ .ok (b.openingCashCents + p.cashDeltaCents) := by
  obtain ⟨p, hp, hdelta⟩ := lateLedger
  obtain ⟨b, db', hb, hopening, hexpected⟩ := @expected_genesisAt 5 100000 (by decide +kernel)
  refine ⟨b, db', p, hb, hp, ?_⟩
  rw [hexpected, hopening, hdelta]
  exact fun h => absurd (Except.ok.inj h) (by decide)

end SevenLens
