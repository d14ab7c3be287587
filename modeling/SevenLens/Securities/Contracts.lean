import Mathlib.Data.String.Basic
import Mathlib.Data.List.Sort
import Mathlib.Tactic.IntervalCases
import SevenLens.Library.Decimal
import SevenLens.Orders

/-! # Security identities and their sources

The vocabulary of the security master: what a call can end in, the identifiers of securities
and source records, and the point-in-time identity observation of a security.  A record holds
the proofs of what its constructor checks.

The hash of a record is a function of its content, and every record re-verifies it, so a record
is its content here and `Digests` gives the hashes.  Nothing is assumed of the digests: two
records may have the same one. -/

namespace SevenLens

/-! ### Days -/

/-- The day of an instant, counted from the first of January of year 1. -/
def UtcTimestamp.day (t : UtcTimestamp) : Nat := t.micros / dayMicros

/-- The day number of the first of the month of a date. -/
def TradingDate.monthStart (d : TradingDate) : Nat := d.days - (d.day - 1)

/-- The instant lies in the year and month of the date. -/
def TradingDate.SameMonth (d : TradingDate) (t : UtcTimestamp) : Prop :=
  d.monthStart ≤ t.day ∧ t.day < d.monthStart + daysInMonth d.year d.month

instance (d : TradingDate) (t : UtcTimestamp) : Decidable (d.SameMonth t) :=
  inferInstanceAs (Decidable (_ ∧ _))

theorem daysBeforeMonth_add_le (y m d : Nat) (hm : 1 ≤ m ∧ m ≤ 12) (hd : d ≤ daysInMonth y m) :
    daysBeforeMonth y m + d ≤ if isLeap y then 366 else 365 := by
  obtain ⟨h1, h12⟩ := hm
  interval_cases m <;> cases hl : isLeap y <;>
    simp [daysBeforeMonth, List.range_succ, daysInMonth, hl] at hd ⊢ <;> omega

theorem TradingDate.startMicros_add_le (d : TradingDate) : d.startMicros + dayMicros ≤ maxMicros := by
  have hmonth := daysBeforeMonth_add_le d.year d.month d.day d.month_ok d.day_ok.2
  have hyear : daysBeforeYear d.year + (if isLeap d.year then 366 else 365) ≤ 3652059 := by
    have hy := d.year_ok
    cases hl : isLeap d.year with
    | false =>
      simp only [daysBeforeYear, Bool.false_eq_true, if_false]
      omega
    | true =>
      simp only [isLeap, Bool.and_eq_true, beq_iff_eq] at hl
      simp only [daysBeforeYear, if_true]
      omega
  have h1 := d.day_ok.1
  have hdays : d.days + 1 ≤ 3652059 := by
    unfold TradingDate.days
    split_ifs at hmonth hyear <;> omega
  calc d.startMicros + dayMicros = (d.days + 1) * dayMicros := by rw [TradingDate.startMicros]; ring
    _ ≤ 3652059 * dayMicros := Nat.mul_le_mul_right _ hdays
    _ = maxMicros := rfl

/-- `_date_start`: midnight at the start of the date. -/
def TradingDate.start (d : TradingDate) : UtcTimestamp :=
  ⟨d.startMicros, by
    have h := d.startMicros_add_le
    have hd : 0 < dayMicros := by decide
    omega⟩

namespace Securities

/-! ### Failures -/

/-- What a call can end in besides a result: an exception with its class and
message, a trapped signal of decimal arithmetic, or a dictionary key that is not there. -/
inductive Failure where
  | raised (e : PyError)
  | signal (s : Decimal.Signal)
  | keyError (key : String)
deriving DecidableEq, Repr

/-- `raise kind(message)` -/
def throwing {α : Type} (kind : ErrorKind) (message : String) : Except Failure α := .error (.raised ⟨kind, message⟩)

/-- `raise ValueError(message)` -/
def refuse {α : Type} (message : String) : Except Failure α := throwing .valueError message

/-- `if not p: raise kind(message)` -/
def requireOr (kind : ErrorKind) (p : Prop) [Decidable p] (message : String) : Except Failure Unit :=
  if p then .ok () else throwing kind message

/-- `if not p: raise ValueError(message)` -/
def require (p : Prop) [Decidable p] (message : String) : Except Failure Unit :=
  requireOr .valueError p message

/-- An operation of decimal arithmetic as a step of a call. -/
def arith {α : Type} : Except Decimal.Signal α → Except Failure α
  | .ok a => .ok a
  | .error s => .error (.signal s)

theorem requireOr_ok {kind : ErrorKind} {p : Prop} [Decidable p] {message : String} {u : Unit} :
    requireOr kind p message = .ok u ↔ p := by
  unfold requireOr throwing
  split_ifs with h <;> simp [h]

theorem require_ok {p : Prop} [Decidable p] {message : String} {u : Unit} :
    require p message = .ok u ↔ p := requireOr_ok

theorem arith_ok {α : Type} {x : Except Decimal.Signal α} {a : α} : arith x = .ok a ↔ x = .ok a := by
  cases x <;> simp [arith]

theorem bind_ok {ε α β : Type} {x : Except ε α} {f : α → Except ε β} {b : β} :
    (x >>= f) = .ok b ↔ ∃ a, x = .ok a ∧ f a = .ok b := by
  cases x <;> simp [bind, Except.bind]

/-! ### Texts -/

/-- The class `[0-9a-f]`. -/
def isHex (c : Char) : Bool := isDigit c || ('a' ≤ c && c ≤ 'f')

def isAlnum (c : Char) : Bool := isUpper c || isLowerOrDigit c

/-- The class `[A-Za-z0-9._:-]`. -/
def isRecordChar (c : Char) : Bool := isAlnum c || c == '.' || c == '_' || c == ':' || c == '-'

def securityIdPattern : Pattern := .cat [.cls isHex, .between 7 63 (fun c => isHex c || c == '-')]

def recordIdPattern : Pattern := .cat [.cls isAlnum, .upTo 95 isRecordChar]

/-- A SHA-256 digest in lowercase hexadecimal. -/
structure Hash where
  text : String
  ok : text.length = 64 ∧ text.toList.all isHex = true
deriving DecidableEq, Repr

theorem Hash.zeros_ok : (String.ofList (List.replicate 64 '0')).length = 64 ∧
    (String.ofList (List.replicate 64 '0')).toList.all isHex = true := by decide

theorem Hash.text_injective : Function.Injective Hash.text := by
  intro s t h
  cases s; cases t; cases h; rfl

instance : LinearOrder Hash := LinearOrder.lift' Hash.text Hash.text_injective

/-- The stable identity of one security. -/
structure SecurityId where
  value : String
  ok : securityIdPattern.fullmatch value = true
deriving DecidableEq, Repr

theorem SecurityId.value_injective : Function.Injective SecurityId.value := by
  intro s t h
  cases s; cases t; cases h; rfl

instance : LinearOrder SecurityId := LinearOrder.lift' SecurityId.value SecurityId.value_injective

/-- A ticker in canonical uppercase broker form. -/
@[ext] structure SecuritySymbol where
  value : String
  ok : symbolPattern.fullmatch value = true
deriving Repr

instance : DecidableEq SecuritySymbol := fun _ _ => decidable_of_iff' _ SecuritySymbol.ext_iff

/-- A ten-digit zero-padded SEC Central Index Key. -/
structure Cik where
  value : String
  ok : (Pattern.between 10 10 isDigit).fullmatch value = true
deriving DecidableEq, Repr

/-- A nine-character CUSIP identifier. -/
structure Cusip where
  value : String
  ok : (Pattern.between 9 9 (fun c => isDigit c || isUpper c)).fullmatch value = true
deriving DecidableEq, Repr

/-- A twelve-character ISIN with country prefix and check digit. -/
structure Isin where
  value : String
  ok : (Pattern.cat [.between 2 2 isUpper, .between 9 9 (fun c => isUpper c || isDigit c),
    .cls isDigit]).fullmatch value = true
deriving DecidableEq, Repr

/-- A `MAJOR.MINOR.PATCH` contract version, by its text. -/
structure SchemaVersion where
  value : String
deriving DecidableEq, Repr

/-! ### Sources -/

inductive P4SourceFamily where
  | alpacaAssets | alpacaHistoricalBars | alpacaIexQuotes | alpacaCorporateActions
  | secEdgar | issuerIr | exchangeOfficial | fredAlfred | treasury | bls | bea | eia
  | tavily | gdelt | yfinance
deriving DecidableEq, Repr

namespace P4SourceFamily

def value : P4SourceFamily → String
  | alpacaAssets => "ALPACA_ASSETS"
  | alpacaHistoricalBars => "ALPACA_HISTORICAL_BARS"
  | alpacaIexQuotes => "ALPACA_IEX_QUOTES"
  | alpacaCorporateActions => "ALPACA_CORPORATE_ACTIONS"
  | secEdgar => "SEC_EDGAR"
  | issuerIr => "ISSUER_IR"
  | exchangeOfficial => "EXCHANGE_OFFICIAL"
  | fredAlfred => "FRED_ALFRED"
  | treasury => "TREASURY"
  | bls => "BLS"
  | bea => "BEA"
  | eia => "EIA"
  | tavily => "TAVILY"
  | gdelt => "GDELT"
  | yfinance => "YFINANCE"

/-- The families whose records count as evidence. -/
def isEvidence : P4SourceFamily → Bool
  | alpacaAssets | alpacaCorporateActions | secEdgar | issuerIr | exchangeOfficial => true
  | _ => false

end P4SourceFamily

/-- One hash-bound source record reference. -/
structure SourceRef where
  recordId : String
  family : P4SourceFamily
  recordHash : Hash
  ok : recordIdPattern.fullmatch recordId = true
deriving DecidableEq, Repr

namespace SourceRef

/-- The canonical order: family, record and hash text. -/
def le (a b : SourceRef) : Bool :=
  if a.family.value ≠ b.family.value then a.family.value ≤ b.family.value
  else if a.recordId ≠ b.recordId then a.recordId ≤ b.recordId
  else a.recordHash.text ≤ b.recordHash.text

/-- `tuple(sorted(refs, key=...))` -/
def sorted (refs : List SourceRef) : List SourceRef := refs.insertionSort (fun a b => a.le b)

end SourceRef

/-! ### Validity intervals -/

/-- A half-open window of real-world validity. -/
structure ValidityInterval where
  validFrom : UtcTimestamp
  validTo : Option UtcTimestamp
  ordered : ∀ t ∈ validTo, validFrom < t
deriving DecidableEq

namespace ValidityInterval

def contains (i : ValidityInterval) (point : UtcTimestamp) : Bool :=
  i.validFrom ≤ point && (match i.validTo with | none => true | some t => point < t)

/-- `intervals_overlap` -/
def overlaps (first second : ValidityInterval) : Bool :=
  if (match first.validTo with | none => false | some t => t ≤ second.validFrom) then false
  else match second.validTo with | none => true | some t => first.validFrom < t

theorem contains_iff {i : ValidityInterval} {point : UtcTimestamp} :
    i.contains point = true ↔ i.validFrom ≤ point ∧ ∀ t ∈ i.validTo, point < t := by
  rw [contains, Bool.and_eq_true, decide_eq_true_eq]
  cases i.validTo <;> simp

theorem overlaps_iff {i j : ValidityInterval} :
    i.overlaps j = true ↔ (∀ t ∈ i.validTo, j.validFrom < t) ∧ ∀ t ∈ j.validTo, i.validFrom < t := by
  rw [overlaps]
  cases i.validTo <;> cases j.validTo <;> simp

theorem overlaps_comm (i j : ValidityInterval) : i.overlaps j = j.overlaps i := by
  rw [Bool.eq_iff_iff, overlaps_iff, overlaps_iff, and_comm]

end ValidityInterval

/-! ### Identity observations -/

inductive ListingExchange where
  | amex | arca | bats | nasdaq | nyse
deriving DecidableEq, Repr

inductive SecurityStatus where
  | active | inactive
deriving DecidableEq, Repr

def maxSourceRefs : Nat := 16

/-- The source references of a record: at least one, at most sixteen, of distinct records. -/
def RefsOk (refs : List SourceRef) : Prop :=
  refs ≠ [] ∧ refs.length ≤ maxSourceRefs ∧ (refs.map SourceRef.recordId).Nodup

instance (refs : List SourceRef) : Decidable (RefsOk refs) := inferInstanceAs (Decidable (_ ∧ _ ∧ _))

/-- One point-in-time identity observation of a security.  The one asset class there is and
the producer version are constants. -/
structure SecurityIdentityRecord where
  securityId : SecurityId
  symbol : SecuritySymbol
  exchange : ListingExchange
  interval : ValidityInterval
  availableAt : UtcTimestamp
  status : SecurityStatus
  sourceRefs : List SourceRef
  schemaVersion : SchemaVersion
  cik : Option Cik
  cusip : Option Cusip
  isin : Option Isin
  refs_ok : RefsOk sourceRefs
deriving DecidableEq

namespace SecurityIdentityRecord

/-- The system could know the record at the cutoff. -/
def knownAt (r : SecurityIdentityRecord) (cutoff : UtcTimestamp) : Bool := r.availableAt ≤ cutoff

/-- The identity holds in the real world at the instant. -/
def validAt (r : SecurityIdentityRecord) (asOf : UtcTimestamp) : Bool := r.interval.contains asOf

/-- The record is knowable at one instant and valid at the other. -/
def answersAsOf (r : SecurityIdentityRecord) (asOf knownAt : UtcTimestamp) : Bool :=
  r.knownAt knownAt && r.validAt asOf

end SecurityIdentityRecord

end Securities

end SevenLens
