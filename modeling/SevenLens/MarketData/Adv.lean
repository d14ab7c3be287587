import SevenLens.MarketData.Snapshots
import SevenLens.Securities.CorporateActions

/-! # The average dollar volume of twenty sessions

`computeAdv20` averages close times volume over the latest twenty sessions before a cutoff.  A
split that is visible and effective divides the close and multiplies the volume of every bar
before its ex-date, one split after the other and each operation rounded to 28 digits.

The checks on the arguments are `checkAdv`.  All of them but one are `AdvAdmissible`; the one
left is `IdentityBound`, that a split pins an identity version which some bar was projected
with. -/

namespace SevenLens.MarketData

open Securities Screening

/-! ### Bars and splits -/

/-- One daily bar of the delayed SIP feed, with the identity version it was projected with. -/
structure DailyBar where
  tradingDate : TradingDate
  close : Decimal
  volume : Nat
  sourceRef : SourceRef
  availableAt : UtcTimestamp
  securityId : SecurityId
  identityHash : Hash
  close_pos : 0 < close.value
  source_ok : sourceRef.family = .alpacaHistoricalBars
deriving DecidableEq

/-- One confirmed split, for the bars before its ex-date. -/
@[ext] structure SplitAdjustment where
  securityId : SecurityId
  exDate : TradingDate
  numerator : Nat
  denominator : Nat
  sourceRef : SourceRef
  availableAt : UtcTimestamp
  eventId : EventId
  eventRecordHash : Hash
  securityIdentityHash : Hash
  actionType : CorporateActionType
  effectiveDate : TradingDate
  sourceRefs : List SourceRef
  positive : 0 < numerator ∧ 0 < denominator
  source_ok : sourceRef.family = .alpacaCorporateActions ∧ sourceRef ∈ sourceRefs

instance : DecidableEq SplitAdjustment := fun _ _ => decidable_of_iff' _ SplitAdjustment.ext_iff

/-- `split_adjustment_from_lineage`: the facts of the confirmed head of a legal lineage. -/
def splitAdjustmentFromLineage (event : CorporateActionRecord → Hash) (lineage : List CorporateActionRecord) :
    Except Failure SplitAdjustment := do
  let head ← validateLineage lineage
  require (head.state = .confirmed) "split adjustments require a CONFIRMED corporate-action head"
  let alpacaRefs := head.sourceRefs.filter (fun ref => decide (ref.family = .alpacaCorporateActions))
  match h : (alpacaRefs.sortOn (fun ref => toLex (ref.recordId, ref.recordHash))).head? with
  | none => refuse "confirmed split lineage requires an Alpaca corporate-action source ref"
  | some sourceRef =>
    have hmem : sourceRef ∈ head.sourceRefs ∧ sourceRef.family = .alpacaCorporateActions := by
      have hm := List.mem_filter.mp (List.mem_sortOn.mp (List.mem_of_mem_head? h))
      exact ⟨hm.1, of_decide_eq_true hm.2⟩
    .ok
      { securityId := head.securityId
        exDate := head.exDate
        numerator := head.ratio.numerator
        denominator := head.ratio.denominator
        sourceRef := sourceRef
        availableAt := head.availableAt
        eventId := head.eventId
        eventRecordHash := event head
        securityIdentityHash := head.securityIdentityHash
        actionType := head.actionType
        effectiveDate := head.effectiveDate
        sourceRefs := head.sourceRefs
        positive := head.ratio.positive
        source_ok := ⟨hmem.2, hmem.1⟩ }

/-! ### The calendar -/

def maxMarketSnapshotItems : Nat := 1024

def maxMarketSnapshotSplits : Nat := 64

/-- `date.weekday()`, from Monday on. -/
def weekday (day : Nat) : Nat := day % 7

/-- `validate_nyse_session_window` -/
def validateNyseSessionWindow (session : MarketSession) : Except Failure Unit :=
  match session.regularSession with
  | none => .ok ()
  | some window => do
    let opens := window.opensAt.micros % dayMicros
    let duration := window.closesAt.micros - window.opensAt.micros
    require (12 * hourMicros ≤ opens ∧ opens ≤ 16 * hourMicros)
      "NYSE session window opens outside the plausible UTC range"
    require (hourMicros ≤ duration ∧ 2 * duration ≤ 13 * hourMicros) "NYSE session window duration is implausible"

/-- `_validate_nyse_sessions` -/
def validateNyseSessions (sessions : List MarketSession) : Except Failure Unit := do
  let dates := sessions.map MarketSession.tradingDate
  require (sessions.length ≤ maxMarketSnapshotItems) "sessions exceed the market snapshot item bound"
  require dates.Nodup "sessions must not contain duplicate trading dates"
  require (dates = dates.sortOn TradingDate.days) "sessions must be ordered by trading date"
  require (∀ session ∈ sessions, 5 ≤ weekday session.tradingDate.days → session.dayKind = .closed)
    "NYSE weekends must be explicit CLOSED sessions"
  sessions.forM validateNyseSessionWindow

/-- `_require_complete_weekday_window`: every weekday from the one day to before the other has a
session. -/
def requireCompleteWeekdayWindow (sessions : List MarketSession) (start stop : Nat) : Except Failure Unit :=
  require (∀ k < stop - start, weekday (start + k) < 5 → start + k ∈ sessions.map (fun s => s.tradingDate.days))
    "NYSE calendar window must include every weekday explicitly"

/-! ### The checks -/

section

variable (bars : List DailyBar) (sessions : List MarketSession) (splits : List SplitAdjustment)

/-- The session on a date. -/
def sessionOn (date : TradingDate) : Option MarketSession :=
  sessions.find? (fun s => decide (s.tradingDate = date))

/-- The bar on a date. -/
def barOn (date : TradingDate) : Option DailyBar := bars.find? (fun b => decide (b.tradingDate = date))

/-- The security that the bars have to be of, if one is given or there are bars. -/
def targetSecurity (securityId : Option SecurityId) : Except Failure (Option SecurityId) :=
  match securityId, bars with
  | none, bar :: rest => do
    require (∀ b ∈ rest, b.securityId = bar.securityId) "ADV bars must bind to one security"
    return some bar.securityId
  | _, _ => .ok securityId

def unboundMessage : String := "split adjustment does not bind to the historical-bar identity"

/-- Every split pins an identity version that a bar was projected with. -/
def IdentityBound : Prop := ∀ split ∈ splits, split.securityIdentityHash ∈ bars.map DailyBar.identityHash

instance : Decidable (IdentityBound bars splits) := inferInstanceAs (Decidable (∀ split ∈ splits, _))

/-- The loop over the bars: no date twice, none from the cutoff on, none that was not known. -/
def checkBars (cutoff knownAt : Option UtcTimestamp) : List TradingDate → List DailyBar → Except Failure Unit
  | _, [] => .ok ()
  | seen, bar :: rest => do
    require (bar.tradingDate ∉ seen) "bars must not contain duplicate trading dates"
    require (∀ t ∈ cutoff, bar.tradingDate.days < t.day) "ADV bars dated at or after cutoff are not admissible"
    require (∀ t ∈ knownAt, bar.availableAt ≤ t) "ADV bars known after known_at are not admissible"
    checkBars cutoff knownAt (bar.tradingDate :: seen) rest

/-- The checks before anything is computed.  The dates of the sessions, which are looked at a second
time, and the feed of a bar have been settled by then. -/
def checkAdv (cutoff knownAt : Option UtcTimestamp) (securityId : Option SecurityId) : Except Failure Unit := do
  require (bars.length ≤ maxMarketSnapshotItems) "bars exceed the market snapshot item bound"
  validateNyseSessions sessions
  require (splits.length ≤ maxMarketSnapshotSplits) "split_adjustments exceed the market snapshot item bound"
  require (splits ≠ [] → securityId ≠ none) "split-aware ADV requires the target security id"
  require (∀ sid ∈ securityId, ∀ split ∈ splits, split.securityId = sid)
    "split adjustments must bind to the target security"
  let target ← targetSecurity bars securityId
  require (∀ sid ∈ target, ∀ bar ∈ bars, bar.securityId = sid) "ADV bars must bind to the target security"
  require (IdentityBound bars splits) unboundMessage
  require (splits.map SplitAdjustment.exDate).Nodup "split_adjustments must not repeat an ex-date"
  require (∀ t ∈ cutoff, ∀ k ∈ knownAt, k ≤ t) "known_at cannot be after cutoff"
  require (bars.map DailyBar.tradingDate = (bars.map DailyBar.tradingDate).sortOn TradingDate.days)
    "bars must be ordered by trading date"
  require (∀ bar ∈ bars, ∃ session ∈ sessionOn sessions bar.tradingDate, session.dayKind ≠ .closed)
    "every ADV bar must bind to an explicit open market session"
  checkBars cutoff (knownAt <|> cutoff) [] bars

/-! ### The average -/

/-- The open sessions before the day, the latest first. -/
def qualifyingDates (before : Option Nat) : List TradingDate :=
  (((sessions.filter (fun s => s.isOpen && before.all (fun day => decide (s.tradingDate.days < day)))).map
    MarketSession.tradingDate).sortOn TradingDate.days).reverse

/-- The twenty bars to average, if all of them are there. -/
def eligibleBars (cutoff : Option UtcTimestamp) : Except Failure (Option (List DailyBar)) :=
  match cutoff with
  | some t => do
    let required := (qualifyingDates sessions (some t.day)).take 20
    if required.length < 20 ∨ ∃ date ∈ required, barOn bars date = none then return none
    required.getLast?.forM (fun start => requireCompleteWeekdayWindow sessions start.days t.day)
    return some (required.filterMap (barOn bars))
  | none => do
    -- without a cutoff the day of the last session ends the window, and sessions without a bar are passed over
    let before := (sessions.map (fun s => s.tradingDate.days)).max?
    let eligible := ((qualifyingDates sessions before).filterMap (barOn bars)).take 20
    if eligible.length < 20 then return none
    eligible.getLast?.forM (fun start =>
      before.forM (fun stop => requireCompleteWeekdayWindow sessions start.tradingDate.days stop))
    return some eligible

/-- The split is visible and effective, and the bar is from before it. -/
def applies (cutoff knownAt : Option UtcTimestamp) (bar : DailyBar) (split : SplitAdjustment) : Bool :=
  let visible : Bool :=
    match cutoff, knownAt with
    | none, none => decide (split.availableAt ≤ bar.availableAt)
    | _, some k => decide (split.availableAt ≤ k)
    | some t, none => decide (split.availableAt ≤ t)
  let effective : Bool := cutoff.all (fun t => decide (split.exDate.days ≤ t.day))
  visible && effective && decide (bar.tradingDate.days < split.exDate.days)

/-- One split, applied to a close and a volume. -/
def applySplit (x : Decimal × Decimal) (split : SplitAdjustment) : Except Failure (Decimal × Decimal) := do
  let scaledClose ← arith (context.mul x.1 (.ofNat split.denominator))
  let close ← arith (context.div scaledClose (.ofNat split.numerator))
  let scaledVolume ← arith (context.mul x.2 (.ofNat split.numerator))
  let volume ← arith (context.div scaledVolume (.ofNat split.denominator))
  return (close, volume)

/-- The dollar volume of a bar, after the splits. -/
def dollarVolume (cutoff knownAt : Option UtcTimestamp) (bar : DailyBar) : Except Failure Decimal := do
  let adjusted ← (splits.filter (applies cutoff knownAt bar)).foldlM applySplit (bar.close, .ofNat bar.volume)
  arith (context.mul adjusted.1 adjusted.2)

/-- The running total of the dollar volumes. -/
def totalDollarVolume (cutoff knownAt : Option UtcTimestamp) (total : Decimal) (bar : DailyBar) :
    Except Failure Decimal := do
  let volume ← dollarVolume splits cutoff knownAt bar
  arith (context.add total volume)

def averageDollarVolume (cutoff knownAt : Option UtcTimestamp) (eligible : List DailyBar) : Except Failure Decimal := do
  let total ← eligible.foldlM (totalDollarVolume splits cutoff knownAt) (.ofNat 0)
  arith (context.div total (.ofNat 20))

/-- `compute_adv20` -/
def computeAdv20 (cutoff knownAt : Option UtcTimestamp) (securityId : Option SecurityId) :
    Except Failure (Option Decimal) := do
  checkAdv bars sessions splits cutoff knownAt securityId
  match ← eligibleBars bars sessions cutoff with
  | none => return none
  | some eligible => return some (← averageDollarVolume splits cutoff (knownAt <|> cutoff) eligible)

end

/-! ### What the checks say -/

section

variable {bars : List DailyBar} {sessions : List MarketSession} {splits : List SplitAdjustment}
  {asOf knownAt : UtcTimestamp} {sid : SecurityId}

/-- The arguments of an assembler pass every check but the one of the identity versions. -/
structure AdvAdmissible (bars : List DailyBar) (sessions : List MarketSession) (splits : List SplitAdjustment)
    (asOf knownAt : UtcTimestamp) (sid : SecurityId) : Prop where
  barItems : bars.length ≤ maxMarketSnapshotItems
  calendar : validateNyseSessions sessions = .ok ()
  splitItems : splits.length ≤ maxMarketSnapshotSplits
  splitIds : ∀ split ∈ splits, split.securityId = sid
  barIds : ∀ bar ∈ bars, bar.securityId = sid
  exDates : (splits.map SplitAdjustment.exDate).Nodup
  ordered : knownAt ≤ asOf
  barOrder : bars.map DailyBar.tradingDate = (bars.map DailyBar.tradingDate).sortOn TradingDate.days
  barSessions : ∀ bar ∈ bars, ∃ session ∈ sessionOn sessions bar.tradingDate, session.dayKind ≠ .closed
  barDates : (bars.map DailyBar.tradingDate).Nodup
  barCutoff : ∀ bar ∈ bars, bar.tradingDate.days < asOf.day
  barKnown : ∀ bar ∈ bars, bar.availableAt ≤ knownAt

theorem checkBars_ok {cutoff knownAt : Option UtcTimestamp} {seen : List TradingDate} {bars : List DailyBar} :
    checkBars cutoff knownAt seen bars = .ok () ↔
      (bars.map DailyBar.tradingDate).Nodup ∧ (∀ bar ∈ bars, bar.tradingDate ∉ seen) ∧
        (∀ bar ∈ bars, ∀ t ∈ cutoff, bar.tradingDate.days < t.day) ∧
        ∀ bar ∈ bars, ∀ t ∈ knownAt, bar.availableAt ≤ t := by
  induction bars generalizing seen with
  | nil => simp [checkBars]
  | cons bar rest ih =>
    simp only [checkBars, bind_ok, require_ok, exists_const, ih, List.map_cons, List.nodup_cons, List.forall_mem_cons]
    simp only [List.mem_cons, not_or, List.mem_map, not_exists, not_and]
    constructor
    · rintro ⟨h1, h2, h3, h4, h5, h6, h7⟩
      exact ⟨⟨fun b hb => (h5 b hb).1, h4⟩, ⟨h1, fun b hb => (h5 b hb).2⟩, ⟨h2, h6⟩, h3, h7⟩
    · rintro ⟨⟨h1, h2⟩, ⟨h3, h4⟩, ⟨h5, h6⟩, h7, h8⟩
      exact ⟨h3, h5, h7, h2, fun b hb => ⟨h1 b hb, h4 b hb⟩, h6, h8⟩

/-- The checks of an assembler, the one of the identity versions apart. -/
theorem checkAdv_eq (h : AdvAdmissible bars sessions splits asOf knownAt sid) :
    checkAdv bars sessions splits (some asOf) (some knownAt) (some sid) =
      require (IdentityBound bars splits) unboundMessage := by
  have hbars : checkBars (some asOf) (some knownAt) [] bars = .ok () := by
    rw [checkBars_ok]
    simp only [Option.mem_def, Option.some.injEq, forall_eq', List.not_mem_nil, not_false_eq_true, implies_true,
      true_and]
    exact ⟨h.barDates, h.barCutoff, h.barKnown⟩
  have htarget : targetSecurity bars (some sid) = .ok (some sid) := by
    cases bars <;> rfl
  have h1 : ∀ s ∈ some sid, ∀ split ∈ splits, split.securityId = s := by
    simpa only [Option.mem_def, Option.some.injEq, forall_eq'] using h.splitIds
  have h2 : ∀ s ∈ some sid, ∀ bar ∈ bars, bar.securityId = s := by
    simpa only [Option.mem_def, Option.some.injEq, forall_eq'] using h.barIds
  have h3 : ∀ t ∈ some asOf, ∀ k ∈ some knownAt, k ≤ t := by
    simpa only [Option.mem_def, Option.some.injEq, forall_eq'] using h.ordered
  have hid : splits ≠ [] → some sid ≠ none := fun _ => Option.some_ne_none sid
  unfold checkAdv
  rw [htarget, h.calendar, Option.orElse_eq_orElse, Option.orElse_some, hbars]
  simp only [require, requireOr, if_pos h.barItems, if_pos h.splitItems, if_pos h1, if_pos h.exDates, if_pos h3,
    if_pos h.barOrder, if_pos h.barSessions, if_pos hid, bind, Except.bind, if_pos h2]
  split_ifs <;> rfl

/-- The checks pass for admissible arguments whose splits are bound. -/
theorem checkAdv_ok : checkAdv bars sessions splits (some asOf) (some knownAt) (some sid) = .ok () ↔
    AdvAdmissible bars sessions splits asOf knownAt sid ∧ IdentityBound bars splits := by
  constructor
  · intro h
    simp only [checkAdv, bind_ok, require_ok, exists_const] at h
    obtain ⟨h1, _, h2, h3, -, h4, target, ht, h5, h6, h7, h8, h9, h10, h11⟩ := h
    have htarget : target = some sid := by
      cases bars <;> exact (Except.ok.inj ht).symm
    subst htarget
    obtain ⟨k1, -, k2, k3⟩ := checkBars_ok.mp h11
    exact ⟨⟨h1, h2, h3, h4 sid rfl, h5 sid rfl, h7, h8 asOf rfl knownAt rfl, h9, h10, k1, fun b hb => k2 b hb asOf rfl,
      fun b hb => k3 b hb knownAt rfl⟩, h6⟩
  · rintro ⟨h, hb⟩
    rw [checkAdv_eq h]
    exact require_ok.mpr hb

end

end SevenLens.MarketData
