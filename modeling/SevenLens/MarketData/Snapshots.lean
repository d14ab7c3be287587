import SevenLens.Screening.Contracts

/-! # Market sessions and snapshots

The exchange calendar as explicit sessions, and what later stages read of a market snapshot.
A snapshot is sealed by its hash; the rest of its content is behind it. -/

namespace SevenLens.MarketData

open Securities Screening

inductive MarketDayKind where
  | regular | halfDay | closed
deriving DecidableEq, Repr

@[ext] structure RegularSessionWindow where
  opensAt : UtcTimestamp
  closesAt : UtcTimestamp
  ordered : opensAt < closesAt

instance : DecidableEq RegularSessionWindow := fun _ _ => decidable_of_iff' _ RegularSessionWindow.ext_iff

/-- One day of the calendar.  A day is closed exactly if it has no session window. -/
structure MarketSession where
  tradingDate : TradingDate
  dayKind : MarketDayKind
  regularSession : Option RegularSessionWindow
  window_ok : dayKind = .closed ↔ regularSession = none
deriving DecidableEq

/-- The day has a session. -/
def MarketSession.isOpen (s : MarketSession) : Bool := s.dayKind = .regular || s.dayKind = .halfDay

inductive Freshness where
  | fresh | stale | missing | conflict
deriving DecidableEq, Repr

/-- A market snapshot as the universe and the screening read it. -/
structure MarketSnapshot where
  securityId : SecurityId
  symbol : SecuritySymbol
  asOf : UtcTimestamp
  knownAt : UtcTimestamp
  last : Option Decimal
  adv20Usd : Option Decimal
  barDates : List TradingDate
  freshness : Freshness
  reasons : List ClosedReason
  snapshotHash : Hash
deriving DecidableEq

/-- `Decimal("5.00")` -/
def minPrice : Decimal := ⟨false, 500, -2⟩

/-- `Decimal("20_000_000")` -/
def minAdv20Usd : Decimal := ⟨false, 20000000, 0⟩

def minTradingHistorySessions : Nat := 252

end SevenLens.MarketData
