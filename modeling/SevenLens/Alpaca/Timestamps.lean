import SevenLens.Analysis.Texts

/-! # Broker timestamps

A broker timestamp is read by `datetime.fromisoformat`, moved to UTC and written in the canonical wire
format, which `UtcTimestamp.from_isoformat` reads.  The first step refuses what is no timestamp, and so
do the callers; the second one may leave the years 1 to 9999, which nobody handles. -/

namespace SevenLens.Alpaca

open MarketData

/-! ### `datetime.fromisoformat` -/

/-- A date and time with its offset from UTC, in microseconds. -/
structure IsoDatetime where
  micros : Nat
  offset : Option Int
deriving DecidableEq, Repr

/-- A number of exactly `n` digits at the start of a text. -/
def takeNumber (n : Nat) (s : List Char) : Option (Nat × List Char) :=
  if (s.take n).length = n ∧ (s.take n).all isDigit then some (number (s.take n), s.drop n) else none

/-- The separator between two fields of an extended format; a basic format has none. -/
def skipSeparator (extended : Bool) (separator : Char) (s : List Char) : Option (List Char) :=
  if extended then
    match s with
    | c :: l => if c = separator then some l else none
    | [] => none
  else some s

/-- The days before a civil date. -/
def civilDay (year month day : Nat) : Option Nat :=
  if (1 ≤ year ∧ year ≤ 9999) ∧ (1 ≤ month ∧ month ≤ 12) ∧ 1 ≤ day ∧ day ≤ daysInMonth year month then
    some (daysBeforeYear year + daysBeforeMonth year month + (day - 1))
  else none

/-- The days before a date of the week calendar.  Year 1 starts on a Monday. -/
def weekDay (year week day : Nat) : Option Nat :=
  let first := daysBeforeYear year
  let monday := if first % 7 ≤ 3 then first - first % 7 else first + 7 - first % 7
  let weeks := if first % 7 = 3 ∨ (first % 7 = 2 ∧ isLeap year) then 53 else 52
  let days := monday + (week - 1) * 7 + (day - 1)
  if (1 ≤ year ∧ year ≤ 9999) ∧ (1 ≤ week ∧ week ≤ weeks) ∧ (1 ≤ day ∧ day ≤ 7) ∧ days < 3652059 then some days
  else none

/-- `YYYY-MM-DD`, `YYYY-Www` or `YYYY-Www-D`, with or without the hyphens. -/
def isoDate (s : List Char) : Option Nat := do
  let (year, s) ← takeNumber 4 s
  let extended := s.head? = some '-'
  let s := if extended then s.drop 1 else s
  match s with
  | 'W' :: s => do
    let (week, s) ← takeNumber 2 s
    if s = [] then weekDay year week 1
    else do
      let (day, s) ← takeNumber 1 (← skipSeparator extended '-' s)
      if s = [] then weekDay year week day else none
  | s => do
    let (month, s) ← takeNumber 2 s
    let (day, s) ← takeNumber 2 (← skipSeparator extended '-' s)
    if s = [] then civilDay year month day else none

/-- The microseconds of a fraction of a second; further digits are dropped. -/
def isoFraction : List Char → Option Nat
  | [] => some 0
  | c :: l => if (c = '.' ∨ c = ',') ∧ l ≠ [] ∧ l.all isDigit then some (number (truncated l)) else none

/-- `HH`, `HH:MM` or `HH:MM:SS` with an optional fraction, with or without the colons. -/
def isoClock (s : List Char) : Option (Nat × Nat × Nat × Nat) := do
  let (hour, s) ← takeNumber 2 s
  if s = [] then return (hour, 0, 0, 0)
  else
    let extended := s.head? = some ':'
    let (minute, s) ← takeNumber 2 (← skipSeparator extended ':' s)
    if s = [] then return (hour, minute, 0, 0)
    else
      let (second, s) ← takeNumber 2 (← skipSeparator extended ':' s)
      return (hour, minute, second, ← isoFraction s)

/-- Microseconds of a clock reading. -/
def clockMicros (c : Nat × Nat × Nat × Nat) : Nat :=
  c.1 * hourMicros + c.2.1 * 60000000 + c.2.2.1 * 1000000 + c.2.2.2

def isoTime (s : List Char) : Option Nat := do
  let c ← isoClock s
  if c.1 < 24 ∧ c.2.1 < 60 ∧ c.2.2.1 < 60 then some (clockMicros c) else none

/-- The offset after the time, which is less than a day. -/
def isoZone : List Char → Option (Option Int)
  | [] => some none
  | 'Z' :: l => if l = [] then some (some 0) else none
  | c :: l => do
    let offset := clockMicros (← isoClock l)
    if offset < dayMicros then some (some (if c = '-' then -(offset : Int) else offset)) else none

/-- The place of the character between date and time. -/
def separatorLocation (s : List Char) : Option Nat :=
  let digitAt := fun n => (s.drop n).head?.any isDigit
  if s.length = 7 then some 7
  else if (s.drop 4).head? = some '-' then
    if (s.drop 5).head? = some 'W' then
      if (s.drop 8).head? = some '-' then
        if s.length = 9 then none
        -- two digits after the hyphen are hours, and the hyphen is the separator
        else if digitAt 10 then some 8
        else some 10
      else some 8
    else some 10
  else if (s.drop 4).head? = some 'W' then
    let n := 7 + ((s.drop 7).takeWhile isDigit).length
    if n < 9 then some n else if n % 2 = 0 then some 7 else some 8
  else some 8

/-- `datetime.fromisoformat(text)`; `none` is its `ValueError`. -/
def datetimeFromIsoformat (s : List Char) : Option IsoDatetime :=
  if s.length < 7 then none
  else do
    let n ← separatorLocation s
    let day ← isoDate (s.take n)
    let rest := s.drop (n + 1)
    if rest = [] then return ⟨day * dayMicros, none⟩
    else
      let isZone := fun c => c == '+' || c == '-' || c == 'Z'
      let time ← isoTime (rest.takeWhile (fun c => !isZone c))
      return ⟨day * dayMicros + time, ← isoZone (rest.dropWhile (fun c => !isZone c))⟩

/-! ### The canonical format -/

def transportError (message : String) : PyError := ⟨.brokerTransport, message⟩

/-- `_canonical_timestamp` -/
def canonicalTimestamp (value : String) : Except PyError String :=
  match datetimeFromIsoformat (value.toList.flatMap (fun c => if c = 'Z' then "+00:00".toList else [c])) with
  | none => .error (transportError "Alpaca returned an unparsable timestamp")
  | some ⟨_, none⟩ => .error (transportError "Alpaca timestamp must be timezone-aware")
  | some ⟨micros, some offset⟩ =>
    if h : 0 ≤ (micros : Int) - offset ∧ (micros : Int) - offset < maxMicros then
      .ok (UtcTimestamp.text ⟨((micros : Int) - offset).toNat, by omega⟩)
    else .error ⟨.overflowError, "date value out of range"⟩

/-- `UtcTimestamp.from_isoformat(_canonical_timestamp(value))` -/
def readTimestamp (value : String) : Except PyError UtcTimestamp := do
  match UtcTimestamp.fromIsoformat (← canonicalTimestamp value) with
  | .ok t => .ok t
  | .error (.raised e) => .error e
  | .error _ => .error ⟨.valueError, "UtcTimestamp text must be a valid canonical UTC timestamp"⟩

example : (readTimestamp "2026-08-17T09:30:00.123456789-04:00").map UtcTimestamp.text =
    .ok "2026-08-17T13:30:00.123456Z" := by decide +kernel

end SevenLens.Alpaca
