import SevenLens.MarketData.AdvRecomputed
import SevenLens.MarketData.ProviderTime
import SevenLens.Securities.PointInTime

/-! # Daily bars under changing identity versions

`dailyBarsFromRecord` projects a record of historical bars through the identity of a security as
it is known at one instant.  Of a history in which a security is only observed again, every bar
carries the latest version that is known (`Current`), while a split carries the version that it
was confirmed under.  The average is refused as soon as these differ
(`split_usable_iff_current`). -/

namespace SevenLens.MarketData

open Securities Screening

/-! ### The date of an instant -/

theorem daysBeforeYear_succ {y : Nat} (hy : 1 ≤ y) :
    daysBeforeYear (y + 1) = daysBeforeYear y + if isLeap y then 366 else 365 := by
  obtain ⟨n, rfl⟩ : ∃ n, y = n + 1 := ⟨y - 1, by omega⟩
  have hleap : isLeap (n + 1) = true ↔ 4 ∣ n + 1 ∧ (¬ 100 ∣ n + 1 ∨ 400 ∣ n + 1) := by
    simp only [isLeap, Bool.and_eq_true, Bool.or_eq_true, beq_iff_eq, bne_iff_ne, Nat.dvd_iff_mod_eq_zero, ne_eq]
  have h100 : 100 ∣ n + 1 → 4 ∣ n + 1 := dvd_trans (by decide)
  have h400 : 400 ∣ n + 1 → 100 ∣ n + 1 := dvd_trans (by decide)
  have hsub : n / 100 ≤ n * 365 + n / 4 := by omega
  simp only [daysBeforeYear, Nat.add_sub_cancel, Nat.succ_div, hleap]
  by_cases h4 : 4 ∣ n + 1
  · by_cases hc : 100 ∣ n + 1
    · by_cases hq : 400 ∣ n + 1 <;> simp only [h4, hc, hq, if_true, if_false, not_true, true_and, or_true, or_false] <;>
        omega
    · have hq : ¬ 400 ∣ n + 1 := fun h => hc (h400 h)
      simp only [h4, hc, hq, if_true, if_false, not_false_iff, true_and, true_or]
      omega
  · have hc : ¬ 100 ∣ n + 1 := fun h => h4 (h100 h)
    have hq : ¬ 400 ∣ n + 1 := fun h => hc (h400 h)
    simp only [h4, hc, hq, if_false, false_and]
    omega

theorem daysBeforeYear_mono : Monotone daysBeforeYear := by
  refine monotone_nat_of_le_succ fun y => ?_
  cases y with
  | zero => exact Nat.zero_le _
  | succ n =>
    rw [daysBeforeYear_succ (Nat.le_add_left 1 n)]
    exact Nat.le_add_right _ _

theorem daysBeforeMonth_succ (y : Nat) {m : Nat} (hm : 1 ≤ m) :
    daysBeforeMonth y (m + 1) = daysBeforeMonth y m + daysInMonth y m := by
  unfold daysBeforeMonth
  rw [List.range_succ, List.drop_append_of_le_length (by simpa using hm), List.foldl_append]
  rfl

theorem daysBeforeMonth_year (y : Nat) : daysBeforeMonth y 13 = if isLeap y then 366 else 365 := by
  cases hl : isLeap y <;> simp [daysBeforeMonth, List.range_succ, daysInMonth, hl]

/-- The year of a day number. -/
def yearOf (day : Nat) : Nat := Nat.findGreatest (fun y => daysBeforeYear y ≤ day) (day / 365 + 1)

/-- The month of a day of a year. -/
def monthOf (year day : Nat) : Nat := Nat.findGreatest (fun m => daysBeforeMonth year m ≤ day) 12

theorem yearOf_spec (day : Nat) :
    1 ≤ yearOf day ∧ daysBeforeYear (yearOf day) ≤ day ∧ day < daysBeforeYear (yearOf day + 1) := by
  have hone : daysBeforeYear 1 ≤ day := Nat.zero_le _
  refine ⟨Nat.le_findGreatest (by omega) hone, Nat.findGreatest_spec (P := fun y => daysBeforeYear y ≤ day)
    (Nat.le_add_left 1 _) hone, ?_⟩
  by_contra hnot
  by_cases hle : yearOf day + 1 ≤ day / 365 + 1
  · exact Nat.findGreatest_is_greatest (Nat.lt_succ_self (yearOf day)) hle (not_lt.mp hnot)
  · simp only [daysBeforeYear] at hnot
    omega

theorem monthOf_spec {year day : Nat} (h : day < daysBeforeMonth year 13) :
    1 ≤ monthOf year day ∧ monthOf year day ≤ 12 ∧ daysBeforeMonth year (monthOf year day) ≤ day ∧
      day < daysBeforeMonth year (monthOf year day + 1) := by
  have hone : daysBeforeMonth year 1 ≤ day := Nat.zero_le _
  have hle : monthOf year day ≤ 12 := Nat.findGreatest_le 12
  refine ⟨Nat.le_findGreatest (by decide) hone, hle, Nat.findGreatest_spec (P := fun m => daysBeforeMonth year m ≤ day)
    (by decide : 1 ≤ 12) hone, ?_⟩
  rcases hle.lt_or_eq with hlt | heq
  · by_contra hnot
    exact Nat.findGreatest_is_greatest (Nat.lt_succ_self (monthOf year day)) hlt (not_lt.mp hnot)
  · rw [heq]
    exact h

theorem dayOfYear_lt (day : Nat) : day - daysBeforeYear (yearOf day) < daysBeforeMonth (yearOf day) 13 := by
  obtain ⟨hone, hle, hlt⟩ := yearOf_spec day
  rw [daysBeforeYear_succ hone] at hlt
  rw [daysBeforeMonth_year]
  omega

theorem yearOf_le {day : Nat} (h : day < 3652059) : yearOf day ≤ 9999 := by
  by_contra hgt
  have hlast : daysBeforeYear 10000 = 3652059 := by decide
  have hmono := daysBeforeYear_mono (show 10000 ≤ yearOf day by omega)
  have hle := (yearOf_spec day).2.1
  omega

theorem day_lt (t : UtcTimestamp) : t.day < 3652059 := by
  refine Nat.div_lt_of_lt_mul ?_
  rw [mul_comm]
  exact t.lt

/-- `datetime.date()` of an instant. -/
def dateOf (t : UtcTimestamp) : TradingDate where
  year := yearOf t.day
  month := monthOf (yearOf t.day) (t.day - daysBeforeYear (yearOf t.day))
  day := t.day - daysBeforeYear (yearOf t.day) -
    daysBeforeMonth (yearOf t.day) (monthOf (yearOf t.day) (t.day - daysBeforeYear (yearOf t.day))) + 1
  year_ok := ⟨(yearOf_spec t.day).1, yearOf_le (day_lt t)⟩
  month_ok := ⟨(monthOf_spec (dayOfYear_lt t.day)).1, (monthOf_spec (dayOfYear_lt t.day)).2.1⟩
  day_ok := by
    obtain ⟨hone, -, hle, hlt⟩ := monthOf_spec (dayOfYear_lt t.day)
    rw [daysBeforeMonth_succ _ hone] at hlt
    omega

theorem days_dateOf (t : UtcTimestamp) : (dateOf t).days = t.day := by
  have hyear := (yearOf_spec t.day).2.1
  have hmonth := (monthOf_spec (dayOfYear_lt t.day)).2.2.1
  simp only [dateOf, TradingDate.days]
  omega

theorem daysBeforeMonth_mono (y : Nat) {m n : Nat} (hm : 1 ≤ m) (h : m ≤ n) :
    daysBeforeMonth y m ≤ daysBeforeMonth y n := by
  induction n, h using Nat.le_induction with
  | base => exact le_rfl
  | succ n hle ih =>
    rw [daysBeforeMonth_succ y (hm.trans hle)]
    exact ih.trans (Nat.le_add_right _ _)

theorem yearOf_eq {day y : Nat} (hle : daysBeforeYear y ≤ day) (hlt : day < daysBeforeYear (y + 1)) : yearOf day = y := by
  obtain ⟨-, hle', hlt'⟩ := yearOf_spec day
  rcases lt_trichotomy (yearOf day) y with hc | hc | hc
  · have := daysBeforeYear_mono (show yearOf day + 1 ≤ y from hc)
    omega
  · exact hc
  · have := daysBeforeYear_mono (show y + 1 ≤ yearOf day from hc)
    omega

theorem monthOf_eq {year day m : Nat} (hm : 1 ≤ m ∧ m ≤ 12) (hle : daysBeforeMonth year m ≤ day)
    (hlt : day < daysBeforeMonth year (m + 1)) : monthOf year day = m := by
  have hyear : day < daysBeforeMonth year 13 := hlt.trans_le (daysBeforeMonth_mono year (by omega) (by omega))
  obtain ⟨hone, -, hle', hlt'⟩ := monthOf_spec hyear
  rcases lt_trichotomy (monthOf year day) m with hc | hc | hc
  · have := daysBeforeMonth_mono year (Nat.le_add_left 1 (monthOf year day)) (Nat.succ_le_of_lt hc)
    omega
  · exact hc
  · have := daysBeforeMonth_mono year (Nat.le_add_left 1 m) (Nat.succ_le_of_lt hc)
    omega

/-- A date is found again from its day number. -/
theorem yearOf_days (d : TradingDate) :
    yearOf d.days = d.year ∧ monthOf d.year (d.days - daysBeforeYear d.year) = d.month := by
  obtain ⟨hone, hmonth⟩ := d.month_ok
  have hday := d.day_ok
  have hlast : daysBeforeMonth d.year d.month + (d.day - 1) < daysBeforeMonth d.year (d.month + 1) := by
    rw [daysBeforeMonth_succ _ hone]
    omega
  have hend : daysBeforeMonth d.year (d.month + 1) ≤ daysBeforeMonth d.year 13 :=
    daysBeforeMonth_mono _ (by omega) (by omega)
  rw [TradingDate.days]
  constructor
  · refine yearOf_eq (by omega) ?_
    rw [daysBeforeYear_succ d.year_ok.1, ← daysBeforeMonth_year]
    omega
  · exact monthOf_eq d.month_ok (by omega) (by omega)

theorem days_injective : Function.Injective TradingDate.days := by
  intro d e h
  have hday := d.day_ok.1
  have hday' := e.day_ok.1
  obtain ⟨hyear, hmonth⟩ := yearOf_days d
  obtain ⟨hyear', hmonth'⟩ := yearOf_days e
  rw [h, hyear'] at hyear
  rw [h, ← hyear, hmonth'] at hmonth
  cases d
  cases e
  simp only [TradingDate.days] at h hyear hmonth hday hday'
  subst hyear hmonth
  simp only [TradingDate.mk.injEq, true_and]
  omega

/-- An instant of a day has its date. -/
theorem dateOf_eq {t : UtcTimestamp} {d : TradingDate} (h : t.day = d.days) : dateOf t = d :=
  days_injective ((days_dateOf t).trans h)

/-! ### The projection -/

/-- A value of a payload. -/
inductive Value where
  | null
  | bool (b : Bool)
  | int (n : Int)
  | str (s : String)
  | list (items : List Value)
  | dict (fields : List (String × Value))

/-- `str(value)`.  The text of a list or of a dictionary opens with a bracket, and no more of it is
read: no symbol and no timestamp does. -/
def Value.text : Value → String
  | null => "None"
  | bool b => if b then "True" else "False"
  | int n => toString n
  | str s => s
  | list _ => "["
  | dict _ => "\x7b"

/-- `value.get(name)`, and `str` of it. -/
def fieldOf (fields : List (String × Value)) (name : String) : Value := (fields.lookup name).getD .null

/-- `set(fields) == names` -/
def hasFields (fields : List (String × Value)) (names : List String) : Bool :=
  fields.all (fun f => decide (f.1 ∈ names)) && names.all (fun name => decide (name ∈ fields.map Prod.fst))

/-- A source record with its endpoint and its payload as a dictionary. -/
structure PayloadRecord where
  source : NormalizedSourceRecord
  endpointId : String
  payload : List (String × Value)

/-- `SecuritySymbol(text)` -/
def securitySymbol (text : String) : Except Failure SecuritySymbol :=
  if h : symbolPattern.fullmatch text = true then .ok ⟨text, h⟩
  else refuse "symbol must be uppercase letters, digits, '.' or '-' (max 10)"

def parsedTimestamp (text : String) : Except Failure UtcTimestamp :=
  match parseProviderTimestamp text with
  | .ok t => .ok t
  | .error e => refuse e.message

/-- The fields of a raw bar. -/
def rawBar : Value → Except Failure (List (String × Value))
  | .dict fields => do
    require (hasFields fields ["t", "o", "h", "l", "c", "v"] = true) "historical bar has an unexpected shape"
    return fields
  | _ => refuse "historical bar has an unexpected shape"

/-- The identity of a bar: it has to be resolved and carry the symbol. -/
def resolvedFor (symbol : SecuritySymbol) : IdentityResolution → Except Failure SecurityIdentityRecord
  | .resolved record => do
    require (record.symbol = symbol) "historical bar does not resolve to one stable identity"
    return record
  | _ => refuse "historical bar does not resolve to one stable identity"

section

-- `decimal` is `Decimal(text)`, which may signal or give a number that is not finite
variable (D : Digests) (decimal : String → Except Decimal.Signal (Option Decimal))

/-- The close and the volume of a raw bar, as a bar can have them. -/
def closeAndVolume (fields : List (String × Value)) : Except Failure ({ d : Decimal // 0 < d.value } × Nat) :=
  match fieldOf fields "c", fieldOf fields "v" with
  | .str closeRaw, .int volumeRaw => do
    match ← arith (decimal closeRaw) with
    | none => refuse "close must be a positive finite Decimal"
    | some close =>
      if h : 0 < close.value then
        require (0 ≤ volumeRaw) "volume must be a non-negative integer"
        return (⟨close, h⟩, volumeRaw.toNat)
      else refuse "close must be a positive finite Decimal"
  | _, _ => refuse "historical close/volume types are invalid"

/-- One bar with its instant. -/
def projectBar (record : PayloadRecord) (availableAt : UtcTimestamp) (hfamily : record.source.family = .alpacaHistoricalBars)
    (securityId : SecurityId) (symbol : SecuritySymbol) (identities : List SecurityIdentityRecord) (knownAt : UtcTimestamp)
    (raw : Value) : Except Failure (UtcTimestamp × DailyBar) := do
  let fields ← rawBar raw
  let timestamp ← parsedTimestamp (fieldOf fields "t").text
  require (timestamp ≤ knownAt) "historical bar is after known_at"
  let resolution ← resolveIdentity D.identity identities ⟨timestamp, knownAt, some securityId, some symbol, .inl rfl⟩
  let identity ← resolvedFor symbol resolution
  let (close, volume) ← closeAndVolume decimal fields
  return (timestamp,
    { tradingDate := dateOf timestamp
      close := close
      volume := volume
      sourceRef := ⟨record.source.recordId, record.source.family, record.source.recordHash, record.source.id_ok⟩
      availableAt := availableAt
      securityId := securityId
      identityHash := D.identity identity
      close_pos := close.2
      source_ok := hfamily })

/-- The raw bars of a payload, within the bound. -/
def rawBars (payload : List (String × Value)) : Except Failure (List Value) :=
  match fieldOf payload "bars" with
  | .list items => do
    require (items.length ≤ maxMarketSnapshotItems) "historical-bars payload is missing or exceeds the item bound"
    return items
  | _ => refuse "historical-bars payload is missing or exceeds the item bound"

/-- The record has to be available by the instant. -/
def availableBy (record : PayloadRecord) (knownAt : UtcTimestamp) : Except Failure UtcTimestamp :=
  match record.source.availableAt with
  | none => refuse "historical-bars source is not available by known_at"
  | some t => do
    require (t ≤ knownAt) "historical-bars source is not available by known_at"
    return t

/-- `daily_bars_from_record` -/
def dailyBarsFromRecord (record : PayloadRecord) (securityId : SecurityId) (identities : List SecurityIdentityRecord)
    (knownAt : UtcTimestamp) : Except Failure (List DailyBar) :=
  if hfamily : record.source.family = .alpacaHistoricalBars ∧ record.endpointId = "stock_bars" then do
    let availableAt ← availableBy record knownAt
    require (hasFields record.payload ["symbol", "feed", "timeframe", "bars", "next_page_token"] = true)
      "historical-bars payload has an unexpected shape"
    match fieldOf record.payload "feed", fieldOf record.payload "timeframe" with
    | .str "sip", .str "1Day" =>
      let symbol ← securitySymbol (fieldOf record.payload "symbol").text
      let raw ← rawBars record.payload
      let projected ← raw.mapM (projectBar D decimal record availableAt hfamily.1 securityId symbol identities knownAt)
      require ((projected.map Prod.fst).Pairwise (· < ·)) "historical bars must be ordered and unique"
      return projected.map Prod.snd
    | _, _ => refuse "daily bars require the exact delayed-SIP 1Day request"
  else refuse "daily bars require the historical-bars source endpoint"

end

/-! ### Versions of bars and splits -/

section

variable {D : Digests} {decimal : String → Except Decimal.Signal (Option Decimal)} {record : PayloadRecord}
  {sid : SecurityId} {records : List SecurityIdentityRecord} {knownAt : UtcTimestamp}

/-- A bar carries the version of the record that its instant resolves to. -/
theorem dailyBarsFromRecord_identity {projected : List DailyBar}
    (h : dailyBarsFromRecord D decimal record sid records knownAt = .ok projected) {bar : DailyBar} (hbar : bar ∈ projected) :
    ∃ q r, q.securityId = some sid ∧ q.knownAt = knownAt ∧ resolveIdentity D.identity records q = .ok (.resolved r) ∧
      bar.identityHash = D.identity r := by
  unfold dailyBarsFromRecord at h
  split_ifs at h
  · obtain ⟨availableAt, -, h⟩ := bind_ok.mp h
    obtain ⟨_, -, h⟩ := bind_ok.mp h
    split at h
    · obtain ⟨symbol, -, h⟩ := bind_ok.mp h
      obtain ⟨raw, -, h⟩ := bind_ok.mp h
      obtain ⟨pairs, hpairs, h⟩ := bind_ok.mp h
      obtain ⟨_, -, h⟩ := bind_ok.mp h
      cases h
      obtain ⟨pair, hpair, rfl⟩ := List.mem_map.mp hbar
      obtain ⟨value, -, hvalue⟩ := Dict.exists_of_forall₂ (Dict.forall₂_of_mapM hpairs).flip hpair
      obtain ⟨fields, -, hvalue⟩ := bind_ok.mp hvalue
      obtain ⟨timestamp, -, hvalue⟩ := bind_ok.mp hvalue
      obtain ⟨_, -, hvalue⟩ := bind_ok.mp hvalue
      obtain ⟨resolution, hresolution, hvalue⟩ := bind_ok.mp hvalue
      obtain ⟨identity, hidentity, hvalue⟩ := bind_ok.mp hvalue
      obtain ⟨_, -, hvalue⟩ := bind_ok.mp hvalue
      cases hvalue
      refine ⟨⟨timestamp, knownAt, some sid, some symbol, .inl rfl⟩, identity, rfl, rfl, ?_, rfl⟩
      cases resolution with
      | resolved r =>
        obtain ⟨_, -, hr⟩ := bind_ok.mp hidentity
        cases hr
        exact hresolution
      | unknown => cases hidentity
      | ambiguous => cases hidentity
      | conflict => cases hidentity
      | stale => cases hidentity
    · cases h
  · cases h

/-- A history in which a security is observed again and again with the same interval, symbol,
exchange and status.  No two versions share a hash. -/
structure Reobservations (D : Digests) (records : List SecurityIdentityRecord) : Prop where
  interval : ∀ a ∈ records, ∀ b ∈ records, intervalKey a = intervalKey b
  facts : ∀ a ∈ records, ∀ b ∈ records, a.symbol = b.symbol ∧ a.exchange = b.exchange ∧ a.status = b.status
  distinct : ∀ a ∈ records, ∀ b ∈ records, D.identity a = D.identity b → a = b

/-- With bars projected through the history as it is known, the splits pass exactly if each of them
pins the current version.  A split under a version that is not current refuses the average. -/
theorem split_usable_iff_current {bars : List DailyBar} {sessions : List MarketSession} {splits : List SplitAdjustment}
    {asOf : UtcTimestamp} (hist : Reobservations D records) (hne : bars ≠ [])
    (hbars : ∀ bar ∈ bars, ∃ record projected, dailyBarsFromRecord D decimal record sid records knownAt = .ok projected ∧
      bar ∈ projected)
    (hadm : AdvAdmissible bars sessions splits asOf knownAt sid) :
    (checkAdv bars sessions splits (some asOf) (some knownAt) (some sid) = .ok () ↔
      ∀ split ∈ splits, ∃ r, Current records knownAt r ∧ split.securityIdentityHash = D.identity r) ∧
    ∀ split ∈ splits, ∀ pinned ∈ records, split.securityIdentityHash = D.identity pinned →
      ¬ Current records knownAt pinned →
      computeAdv20 bars sessions splits (some asOf) (some knownAt) (some sid) = refuse unboundMessage := by
  have hcurrent : ∀ bar ∈ bars, ∃ r, Current records knownAt r ∧ bar.identityHash = D.identity r := by
    intro bar hbar
    obtain ⟨record, projected, hproj, hmem⟩ := hbars bar hbar
    obtain ⟨q, r, hq, hknown, hres, hhash⟩ := dailyBarsFromRecord_identity hproj hmem
    exact ⟨r, hknown ▸ current_of_resolved hq hist.interval hist.distinct hres, hhash⟩
  have hbound : IdentityBound bars splits ↔
      ∀ split ∈ splits, ∃ r, Current records knownAt r ∧ split.securityIdentityHash = D.identity r := by
    refine forall₂_congr fun split _ => ?_
    rw [List.mem_map]
    constructor
    · rintro ⟨bar, hbar, hhash⟩
      obtain ⟨r, hr, hbr⟩ := hcurrent bar hbar
      exact ⟨r, hr, hhash.symm.trans hbr⟩
    · rintro ⟨r, hr, hhash⟩
      obtain ⟨bar, hbar⟩ := List.exists_mem_of_ne_nil bars hne
      obtain ⟨r', hr', hbr⟩ := hcurrent bar hbar
      exact ⟨bar, hbar, by rw [hbr, hr'.unique hr, hhash]⟩
  refine ⟨?_, ?_⟩
  · rw [checkAdv_ok, hbound]
    exact and_iff_right hadm
  · intro split hs pinned hp hhash hnot
    have hun : ¬ IdentityBound bars splits := by
      intro hb
      obtain ⟨r, hr, hr'⟩ := hbound.mp hb split hs
      rw [hist.distinct pinned hp r hr.1 (hhash.symm.trans hr')] at hnot
      exact hnot hr
    simp only [computeAdv20, checkAdv_eq hadm, require, requireOr, if_neg hun]
    rfl

end

/-! ### A split before and after an observation -/

/-- The sample identity is observed again on 2026-07-20. -/
def observedAgain : SecurityIdentityRecord := observedAt sampleIdentity (timeOn (julyDate 14) 0)

/-- The split of 2 for 1 with ex-date 2026-07-15, pinned to the first observation, in a state. -/
def julySplit (state : CorporateActionState) : CorporateActionRecord where
  eventId := sampleSplit.eventId
  securityId := sampleSecurity
  securityIdentityHash := stampDigests.identity sampleIdentity
  actionType := .forwardSplit
  ratio := sampleSplit.ratio
  declaredAt := sampleTime 0
  exDate := julyDate 9
  effectiveDate := julyDate 9
  availableAt := timeOn (julyDate 4) 0
  state := state
  sourceRefs := [sampleNotice]
  schemaVersion := ⟨"1.0.0"⟩
  dates_ok := by decide +kernel
  known_ok := by decide +kernel
  refs_ok := sampleSplit.refs_ok

def julyLineage : List CorporateActionRecord := [julySplit .detected, julySplit .entryBlocked, julySplit .confirmed]

/-- A raw bar of a day in July: close 4 and volume 1,000,000. -/
def julyRaw (k : Fin 26) : Value :=
  .dict [("t", .str ((julyDate k).isoformat ++ "T04:00:00Z")), ("o", .str "4"), ("h", .str "4"), ("l", .str "4"),
    ("c", .str "4"), ("v", .int 1000000)]

def julyRecord : PayloadRecord where
  source :=
    { recordId := "bars-1"
      family := .alpacaHistoricalBars
      contentHash := repeated '1' (Eq.refl true)
      recordHash := repeated '1' (Eq.refl true)
      retrievedAt := timeOn monday 0
      availableAt := some (timeOn monday 0)
      supersedesContentHash := none
      payload := ""
      id_ok := Eq.refl true
      available_ok := by simp
      supersedes_ok := by simp }
  endpointId := "stock_bars"
  payload := [("symbol", .str "AAA"), ("feed", .str "sip"), ("timeframe", .str "1Day"),
    ("bars", .list (fourWeeks.map julyRaw)), ("next_page_token", .null)]

/-- `Decimal` of the one text that the raw bars have. -/
def decimalFour (text : String) : Except Decimal.Signal (Option Decimal) :=
  if text = "4" then .ok (some (.ofNat 4)) else .error .invalidOperation

/-- The bars of the record under an identity version. -/
def julyProjected (r : SecurityIdentityRecord) : List DailyBar :=
  fourWeeks.map (fun k => { julyBar 4 1000000 four_dollars k with identityHash := stampDigests.identity r })

/-- The split of the lineage. -/
def julyAdjustment : SplitAdjustment where
  securityId := sampleSecurity
  exDate := julyDate 9
  numerator := 2
  denominator := 1
  sourceRef := sampleNotice
  availableAt := timeOn (julyDate 4) 0
  eventId := sampleSplit.eventId
  eventRecordHash := stampDigests.event (julySplit .confirmed)
  securityIdentityHash := stampDigests.identity sampleIdentity
  actionType := .forwardSplit
  effectiveDate := julyDate 9
  sourceRefs := [sampleNotice]
  positive := two_for_one
  source_ok := sampleNotice_family

theorem julyAdjustment_confirmed :
    splitAdjustmentFromLineage stampDigests.event julyLineage = .ok julyAdjustment := by decide +kernel

theorem july_refused :
    computeAdv20 (julyProjected observedAgain) julySessions [julyAdjustment] (some mondayOpen) (some mondayOpen)
      (some sampleSecurity) = refuse unboundMessage := by decide +kernel

theorem julyProjected_admissible :
    AdvAdmissible (julyProjected observedAgain) julySessions [julyAdjustment] mondayOpen mondayOpen sampleSecurity := by
  have hcheck : checkAdv (julyProjected observedAgain) julySessions [] (some mondayOpen) (some mondayOpen)
      (some sampleSecurity) = .ok () := by decide +kernel
  obtain ⟨h, -⟩ := checkAdv_ok.mp hcheck
  exact { h with
    splitItems := by decide
    splitIds := by
      intro split hs
      rw [List.mem_singleton.mp hs]
      rfl
    exDates := List.nodup_singleton _ }

theorem reobservations_july : Reobservations stampDigests [sampleIdentity, observedAgain] where
  interval := by decide +kernel
  facts := by decide +kernel
  distinct := by decide +kernel

theorem sampleIdentity_not_current : ¬ Current [sampleIdentity, observedAgain] mondayOpen sampleIdentity := by
  rintro ⟨-, -, hall⟩
  have hlt := hall observedAgain (by simp) (by decide +kernel) (by decide +kernel)
  exact absurd hlt (by decide +kernel)

theorem julyProjected_after :
    dailyBarsFromRecord stampDigests decimalFour julyRecord sampleSecurity [sampleIdentity, observedAgain] mondayOpen =
      .ok (julyProjected observedAgain) := by decide +kernel

/-- The identity is only observed again, and the split is refused. -/
theorem split_refused_after_observation :
    splitAdjustmentFromLineage stampDigests.event julyLineage = .ok julyAdjustment ∧
      dailyBarsFromRecord stampDigests decimalFour julyRecord sampleSecurity [sampleIdentity, observedAgain] mondayOpen =
        .ok (julyProjected observedAgain) ∧
      computeAdv20 (julyProjected observedAgain) julySessions [julyAdjustment] (some mondayOpen) (some mondayOpen)
        (some sampleSecurity) = refuse unboundMessage :=
  ⟨julyAdjustment_confirmed, julyProjected_after, july_refused⟩

theorem july_split_not_current :
    ¬ Current [sampleIdentity, observedAgain] mondayOpen sampleIdentity ∧
      computeAdv20 (julyProjected observedAgain) julySessions [julyAdjustment] (some mondayOpen) (some mondayOpen)
        (some sampleSecurity) = refuse unboundMessage :=
  ⟨sampleIdentity_not_current, (split_usable_iff_current reobservations_july (by decide)
    (fun bar hbar => ⟨julyRecord, _, julyProjected_after, hbar⟩) julyProjected_admissible).2
    julyAdjustment (List.mem_singleton_self _) sampleIdentity (by simp) rfl sampleIdentity_not_current⟩

end SevenLens.MarketData
