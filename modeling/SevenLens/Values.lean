import SevenLens.Library.Digits
import Mathlib.Order.Lattice
import Mathlib.Order.Basic
import Mathlib.Data.Nat.Basic
import Mathlib.Order.Defs.LinearOrder

/-! # Value objects: errors, text, identifiers, dates and instants

The vocabulary every part of the system shares.  Exceptions carry the class of the source
and its message.  An instant is counted in microseconds from the first one a `datetime` can
hold, so that arithmetic on instants can leave the representable range. -/

namespace SevenLens

/-! ### Errors -/

/-- The exception classes raised by the modelled code, by the store and by the broker. -/
inductive ErrorKind where
  | valueError | typeError | overflowError
  | invalidOrderTransition | invalidBrokerOrderTransition
  | executionState | brokerMirrorMismatch | executionPaused | controlPersistence
  | controlPlane | resumeBlocked
  | tradeUpdate | ledgerInvariant | markPriceUnavailable
  | brokerTransport | brokerQuery | brokerConflict
  | brokerOrderIdentityConflict | persistenceInvariant | unitOfWorkState | database
  | illegalTransition | inMemorySecurityMaster | inMemoryConcurrentTransition
  | securityMasterService | sourceLineage | identityClosure | recordLineage
  | sourceSchemaDrift | memorySelection | runtimeError
  | familyNotExecutable | invalidEndpoint | invalidParameter | sourceMalformedResponse
deriving DecidableEq, Repr

namespace ErrorKind

/-- The class name, as `type(error).__name__` prints it. -/
def name : ErrorKind → String
  | valueError => "ValueError"
  | typeError => "TypeError"
  | overflowError => "OverflowError"
  | invalidOrderTransition => "InvalidOrderTransitionError"
  | invalidBrokerOrderTransition => "InvalidBrokerOrderTransitionError"
  | executionState => "ExecutionStateError"
  | brokerMirrorMismatch => "BrokerMirrorMismatchError"
  | executionPaused => "ExecutionPausedError"
  | controlPersistence => "ControlPersistenceError"
  | controlPlane => "ControlPlaneError"
  | resumeBlocked => "ResumeBlockedError"
  | tradeUpdate => "TradeUpdateError"
  | ledgerInvariant => "LedgerInvariantError"
  | markPriceUnavailable => "MarkPriceUnavailableError"
  | brokerTransport => "BrokerTransportError"
  | brokerQuery => "BrokerQueryError"
  | brokerConflict => "BrokerConflictError"
  | brokerOrderIdentityConflict => "BrokerOrderIdentityConflictError"
  | persistenceInvariant => "PersistenceInvariantError"
  | unitOfWorkState => "UnitOfWorkStateError"
  | database => "DatabaseError"
  | illegalTransition => "IllegalTransitionError"
  | inMemorySecurityMaster => "InMemorySecurityMasterError"
  | inMemoryConcurrentTransition => "InMemoryConcurrentTransitionError"
  | securityMasterService => "SecurityMasterServiceError"
  | sourceLineage => "SourceLineageError"
  | identityClosure => "IdentityClosureError"
  | recordLineage => "RecordLineageError"
  | sourceSchemaDrift => "SourceSchemaDriftError"
  | memorySelection => "MemorySelectionError"
  | runtimeError => "RuntimeError"
  | familyNotExecutable => "FamilyNotExecutableError"
  | invalidEndpoint => "InvalidEndpointError"
  | invalidParameter => "InvalidParameterError"
  | sourceMalformedResponse => "SourceMalformedResponseError"

end ErrorKind

/-- A raised exception. -/
structure PyError where
  kind : ErrorKind
  message : String
deriving DecidableEq, Repr

/-! ### Text -/

/-- The characters `str.strip` removes. -/
def isSpace (c : Char) : Bool :=
  let n := c.toNat
  (9 ≤ n && n ≤ 13) || (28 ≤ n && n ≤ 32) || n == 0x85 || n == 0xa0 || n == 0x1680 ||
    (0x2000 ≤ n && n ≤ 0x200a) || n == 0x2028 || n == 0x2029 || n == 0x202f || n == 0x205f ||
    n == 0x3000

/-- `not text.strip()`. -/
def isBlank (s : String) : Bool := s.toList.all isSpace

/-- `text.strip()`. -/
def strip (s : String) : String :=
  String.ofList ((s.toList.dropWhile isSpace).reverse.dropWhile isSpace).reverse

/-- `text[:n]`. -/
def slice (n : Nat) (s : String) : String := String.ofList (s.toList.take n)

/-- `"\x00" in text`. -/
def hasNul (s : String) : Bool := s.toList.contains (Char.ofNat 0)

/-- Non-blank text of at most `n` characters. -/
def IsBoundedText (n : Nat) (s : String) : Prop := isBlank s = false ∧ s.length ≤ n

instance (n : Nat) (s : String) : Decidable (IsBoundedText n s) := inferInstanceAs (Decidable (_ ∧ _))

/-- Bounded text without a NUL character: the form of broker order and execution ids. -/
def IsIdText (n : Nat) (s : String) : Prop := IsBoundedText n s ∧ hasNul s = false

instance (n : Nat) (s : String) : Decidable (IsIdText n s) := inferInstanceAs (Decidable (_ ∧ _))

/-- A 128-bit identifier. -/
structure Uuid where
  int : Nat
  lt : int < 2 ^ 128
deriving DecidableEq, Repr

namespace Uuid

theorem one_lt : 1 < 2 ^ 128 := by decide

theorem two_lt : 2 < 2 ^ 128 := by decide

/-- The identifiers 1 and 2 of the examples, which are not nil. -/
def one : Uuid := ⟨1, one_lt⟩

theorem one_ne : one.int ≠ 0 := by decide

def two : Uuid := ⟨2, two_lt⟩

theorem two_ne : two.int ≠ 0 := by decide

end Uuid

/-- A non-nil identifier of one processing run. -/
structure RunId where
  value : Uuid
  nonNil : value.int ≠ 0
deriving DecidableEq, Repr

/-! ### Instants -/

/-- Microseconds in the years 1 to 9999, the range of `datetime`. -/
def maxMicros : Nat := 3652059 * 86400000000

/-- An instant in UTC, counted in microseconds from the start of year 1. -/
structure UtcTimestamp where
  micros : Nat
  lt : micros < maxMicros
deriving DecidableEq, Repr

namespace UtcTimestamp

theorem micros_injective : Function.Injective micros := by
  intro s t h
  cases s; cases t; cases h; rfl

instance : LinearOrder UtcTimestamp := LinearOrder.lift' micros micros_injective

theorem lt_iff {s t : UtcTimestamp} : s < t ↔ s.micros < t.micros := Iff.rfl

theorem zero_lt : 0 < maxMicros := by decide

theorem le_iff {s t : UtcTimestamp} : s ≤ t ↔ s.micros ≤ t.micros := Iff.rfl

/-- `UtcTimestamp(t.value + timedelta)`, which raises outside the range of `datetime`. -/
def shift (t : UtcTimestamp) (delta : Int) : Except PyError UtcTimestamp :=
  let n := (t.micros : Int) + delta
  if h : 0 ≤ n ∧ n < maxMicros then .ok ⟨n.toNat, by omega⟩
  else .error ⟨.overflowError, "date value out of range"⟩

end UtcTimestamp

/-- Microseconds in an hour and in a day. -/
def hourMicros : Nat := 3600000000

def dayMicros : Nat := 24 * hourMicros

/-! ### Dates -/

/-- Whether a year of the proleptic Gregorian calendar is a leap year. -/
def isLeap (y : Nat) : Bool := y % 4 == 0 && (y % 100 != 0 || y % 400 == 0)

/-- Days in the month `m` of year `y`. -/
def daysInMonth (y m : Nat) : Nat :=
  if m = 2 then (if isLeap y then 29 else 28)
  else if m = 4 ∨ m = 6 ∨ m = 9 ∨ m = 11 then 30 else 31

/-- Days of year `y` before the first of month `m`. -/
def daysBeforeMonth (y m : Nat) : Nat := ((List.range m).drop 1).foldl (fun n k => n + daysInMonth y k) 0

/-- Days before the first of January of year `y`. -/
def daysBeforeYear (y : Nat) : Nat := (y - 1) * 365 + (y - 1) / 4 - (y - 1) / 100 + (y - 1) / 400

/-- A calendar date of the years 1 to 9999. -/
structure TradingDate where
  year : Nat
  month : Nat
  day : Nat
  year_ok : 1 ≤ year ∧ year ≤ 9999
  month_ok : 1 ≤ month ∧ month ≤ 12
  day_ok : 1 ≤ day ∧ day ≤ daysInMonth year month
deriving DecidableEq, Repr

/-! The examples are dated 2025 and 2026, and their instants are numbered from zero on. -/

theorem TradingDate.year_2025 : 1 ≤ 2025 ∧ 2025 ≤ 9999 := by decide

theorem TradingDate.year_2026 : 1 ≤ 2026 ∧ 2026 ≤ 9999 := by decide

theorem TradingDate.july : 1 ≤ 7 ∧ 7 ≤ 12 := by decide

theorem TradingDate.august : 1 ≤ 8 ∧ 8 ≤ 12 := by decide

theorem TradingDate.november : 1 ≤ 11 ∧ 11 ≤ 12 := by decide

theorem third_of_november : 1 ≤ 3 ∧ 3 ≤ daysInMonth 2025 11 := by decide

instance neZeroThousand : NeZero 1000 := ⟨by decide⟩

/-- A number in decimal with at least `width` digits. -/
def zeroPad (width n : Nat) : String :=
  let s := toString n
  String.ofList (List.replicate (width - s.length) '0') ++ s

theorem toList_zeroPad (w n : Nat) : (zeroPad w n).toList = Nat.padded w n := by
  simp only [zeroPad, String.toList_append, String.toList_ofList, Nat.toString_eq_repr, Nat.toList_repr, Nat.padded,
    ← String.length_toList]

namespace TradingDate

/-- `date.isoformat()`. -/
def isoformat (d : TradingDate) : String :=
  zeroPad 4 d.year ++ "-" ++ zeroPad 2 d.month ++ "-" ++ zeroPad 2 d.day

/-- Days since the first of January of year 1. -/
def days (d : TradingDate) : Nat := daysBeforeYear d.year + daysBeforeMonth d.year d.month + (d.day - 1)

/-- Microseconds of midnight UTC at the start of the date. -/
def startMicros (d : TradingDate) : Nat := d.days * dayMicros

end TradingDate

end SevenLens
