import Mathlib.Data.List.TakeWhile
import SevenLens.Securities.Contracts

/-! # Provider timestamps on both sides

A provider timestamp is read twice: by `parse_provider_timestamp`, which truncates the fraction
of a second to microseconds, and by the database when it binds a snapshot to the payload,
which rounds it.  The two grammars have the same layouts, but `\d` of the first admits every
decimal digit of Unicode and `[0-9]` of the second only the ASCII ones.

`bound_instant_iff` says for which accepted texts the database derives the same instant. -/

namespace SevenLens.MarketData

/-! ### Digits -/

/-- The code points of the digit zero in each of Unicode's runs of ten decimal digits. -/
def zeroDigits : List Nat :=
  [0x30, 0x660, 0x6f0, 0x7c0, 0x966, 0x9e6, 0xa66, 0xae6, 0xb66, 0xbe6, 0xc66, 0xce6, 0xd66, 0xde6,
    0xe50, 0xed0, 0xf20, 0x1040, 0x1090, 0x17e0, 0x1810, 0x1946, 0x19d0, 0x1a80, 0x1a90, 0x1b50,
    0x1bb0, 0x1c40, 0x1c50, 0xa620, 0xa8d0, 0xa900, 0xa9d0, 0xa9f0, 0xaa50, 0xabf0, 0xff10, 0x104a0,
    0x10d30, 0x11066, 0x110f0, 0x11136, 0x111d0, 0x112f0, 0x11450, 0x114d0, 0x11650, 0x116c0, 0x11730,
    0x118e0, 0x11950, 0x11c50, 0x11d50, 0x11da0, 0x11f50, 0x16a60, 0x16ac0, 0x16b50, 0x1d7ce, 0x1d7d8,
    0x1d7e2, 0x1d7ec, 0x1d7f6, 0x1e140, 0x1e2f0, 0x1e4f0, 0x1e950, 0x1fbf0]

/-- The value of a decimal digit of any script. -/
def decimalValue (c : Char) : Option Nat :=
  (zeroDigits.find? (fun z => decide (z ≤ c.toNat ∧ c.toNat < z + 10))).map (c.toNat - ·)

/-- The class `\d`. -/
def isDecimal (c : Char) : Bool := (decimalValue c).isSome

/-- `int(text)` of a text of digits. -/
def number (digits : List Char) : Nat := digits.foldl (fun n c => 10 * n + (decimalValue c).getD 0) 0

theorem decimalValue_lt {c : Char} {n : Nat} (h : decimalValue c = some n) : n < 10 := by
  obtain ⟨z, hz, rfl⟩ := Option.map_eq_some_iff.mp h
  have := List.find?_some hz
  simp only [decide_eq_true_eq] at this
  omega

/-- An ASCII digit is a decimal digit. -/
theorem isDecimal_of_isDigit {c : Char} (h : isDigit c = true) : isDecimal c = true := by
  have h2 : 0x30 ≤ c.toNat ∧ c.toNat < 0x30 + 10 := by
    simp only [isDigit, Bool.and_eq_true, decide_eq_true_eq, Char.le_def] at h
    have h1 := UInt32.le_iff_toNat_le.mp h.1
    have h2 := UInt32.le_iff_toNat_le.mp h.2
    exact ⟨h1, Nat.lt_succ_of_le h2⟩
  rw [isDecimal, decimalValue, zeroDigits, List.find?_cons_of_pos (by simpa using h2)]
  rfl

theorem foldl_digits (digits : List Char) (n : Nat) :
    digits.foldl (fun n c => 10 * n + (decimalValue c).getD 0) n = n * 10 ^ digits.length + number digits := by
  induction digits generalizing n with
  | nil => simp [number]
  | cons c digits ih =>
    have hc : number (c :: digits) = (decimalValue c).getD 0 * 10 ^ digits.length + number digits := by
      rw [number, List.foldl_cons, ih]
      simp
    rw [List.foldl_cons, ih, hc, List.length_cons, pow_succ]
    ring

theorem number_append (a b : List Char) : number (a ++ b) = number a * 10 ^ b.length + number b := by
  rw [number, List.foldl_append, foldl_digits]
  rfl

theorem number_lt (digits : List Char) : number digits < 10 ^ digits.length := by
  induction digits with
  | nil => simp [number]
  | cons c digits ih =>
    have hc : (decimalValue c).getD 0 < 10 := by
      cases h : decimalValue c with
      | none => simp
      | some n => exact decimalValue_lt h
    rw [number, List.foldl_cons, foldl_digits, List.length_cons, pow_succ]
    nlinarith [Nat.one_le_pow digits.length 10 (by norm_num)]

theorem number_zeros (n : Nat) : number (List.replicate n '0') = 0 := by
  have h0 : decimalValue '0' = some 0 := by decide
  induction n with
  | zero => rfl
  | succ n ih => rw [List.replicate_succ, number, List.foldl_cons, foldl_digits, ih, h0]; simp

/-! ### Layouts -/

/-- Exactly `n` characters of a class, and what follows them. -/
def group (p : Char → Bool) (n : Nat) (s : List Char) : Option (List Char × List Char) :=
  if (s.take n).length = n ∧ (s.take n).all p then some (s.take n, s.drop n) else none

/-- What follows a fixed text. -/
def literal (text s : List Char) : Option (List Char) :=
  if s.take text.length = text then some (s.drop text.length) else none

/-- Groups of digits of fixed widths, each with the text after it. -/
abbrev Layout := List (Nat × List Char)

/-- `dddd-dd-ddTdd:dd:dd` -/
def extendedLayout : Layout :=
  [(4, ['-']), (2, ['-']), (2, ['T']), (2, [':']), (2, [':']), (2, [])]

/-- `ddddddddTddddddZ` -/
def zuluLayout : Layout := [(4, []), (2, []), (2, ['T']), (2, []), (2, []), (2, ['Z'])]

/-- `dddddddddddddd` -/
def bareLayout : Layout := [(4, []), (2, []), (2, []), (2, []), (2, []), (2, [])]

/-- The groups of a text that starts with a layout, and what follows. -/
def readLayout (p : Char → Bool) : Layout → List Char → Option (List (List Char) × List Char)
  | [], s => some ([], s)
  | (n, text) :: layout, s => do
    let (digits, s) ← group p n s
    let s ← literal text s
    let (groups, s) ← readLayout p layout s
    return (digits :: groups, s)

/-- The fraction and the final `Z`: `([.]d+)?Z`. -/
def readFraction (p : Char → Bool) : List Char → Option (List Char)
  | ['Z'] => some []
  | '.' :: s =>
    if s.takeWhile p ≠ [] ∧ s.dropWhile p = ['Z'] then some (s.takeWhile p) else none
  | _ => none

/-- The digit groups of a timestamp: year, month, day, hour, minute, second, and a fraction. -/
structure Stamp where
  groups : List (List Char)
  fraction : List Char
deriving DecidableEq

/-- A text in the extended form, with or without a fraction. -/
def readExtended (p : Char → Bool) (s : List Char) : Option Stamp := do
  let (groups, s) ← readLayout p extendedLayout s
  let fraction ← readFraction p s
  return ⟨groups, fraction⟩

/-- A text in one of the compact forms. -/
def readCompact (p : Char → Bool) (layout : Layout) (s : List Char) : Option Stamp := do
  let (groups, s) ← readLayout p layout s
  if s = [] then return ⟨groups, []⟩ else none

/-! ### Instants -/

/-- A date and a time of day within the ranges of `datetime`. -/
structure CivilTime where
  date : TradingDate
  hour : Nat
  minute : Nat
  second : Nat
  ok : hour < 24 ∧ minute < 60 ∧ second < 60

/-- `datetime(year, month, day, hour, minute, second)`, when no field is out of range. -/
def civilTime (st : Stamp) : Option CivilTime :=
  match st.groups.map number with
  | [year, month, day, hour, minute, second] =>
    if h : (1 ≤ year ∧ year ≤ 9999) ∧ (1 ≤ month ∧ month ≤ 12) ∧ (1 ≤ day ∧ day ≤ daysInMonth year month) ∧
        hour < 24 ∧ minute < 60 ∧ second < 60 then
      some ⟨⟨year, month, day, h.1, h.2.1, h.2.2.1⟩, hour, minute, second, h.2.2.2⟩
    else none
  | _ => none

/-- Microseconds from the first instant of year 1 to a second. -/
def CivilTime.micros (c : CivilTime) : Nat :=
  c.date.startMicros + c.hour * hourMicros + c.minute * 60000000 + c.second * 1000000

/-- The instant a fraction of less than a second after a civil time. -/
def CivilTime.instant (c : CivilTime) (fraction : Nat) (h : fraction < 1000000) : UtcTimestamp :=
  ⟨c.micros + fraction, by
    have hd := c.date.startMicros_add_le
    have := c.ok
    simp only [CivilTime.micros, hourMicros, dayMicros] at hd ⊢
    omega⟩

/-! ### The parser -/

def inRange (lo hi c : Char) : Bool := lo ≤ c && c ≤ hi

/-- The two-character texts of the directives `%m`, `%d`, `%H`, `%M` and `%S`. -/
def monthText : List Char → Bool
  | [a, b] => (a == '1' && inRange '0' '2' b) || (a == '0' && inRange '1' '9' b)
  | _ => false

def dayText : List Char → Bool
  | [a, b] => (a == '3' && inRange '0' '1' b) || (inRange '1' '2' a && isDecimal b) ||
      (a == '0' && inRange '1' '9' b)
  | _ => false

def hourText : List Char → Bool
  | [a, b] => (a == '2' && inRange '0' '3' b) || (inRange '0' '1' a && isDecimal b)
  | _ => false

def minuteText : List Char → Bool
  | [a, b] => inRange '0' '5' a && isDecimal b
  | _ => false

def secondText : List Char → Bool
  | [a, b] => (a == '6' && inRange '0' '1' b) || (inRange '0' '5' a && isDecimal b)
  | _ => false

/-- The groups are texts of the directives `%Y`, `%m`, `%d`, `%H`, `%M` and `%S`. -/
def directives : List (List Char) → Bool
  | [_, month, day, hour, minute, second] =>
    monthText month && dayText day && hourText hour && minuteText minute && secondText second
  | _ => false

/-- `(fraction + "000000")[:6]` -/
def truncated (fraction : List Char) : List Char := (fraction ++ List.replicate 6 '0').take 6

theorem number_truncated_lt (fraction : List Char) : number (truncated fraction) < 1000000 := by
  have h : (truncated fraction).length = 6 := by simp [truncated]
  have := number_lt (truncated fraction)
  rw [h] at this
  exact this

/-- `datetime.strptime` on the groups, where `%f` takes ASCII digits only. -/
def strptime (st : Stamp) : Option UtcTimestamp := do
  let fraction := truncated st.fraction
  if directives st.groups && fraction.all isDigit then
    let c ← civilTime st
    return c.instant (number fraction) (number_truncated_lt st.fraction)
  else none

/-- What one of the four patterns reads of a text. -/
def providerPatterns : List (List Char → Option Stamp) :=
  [fun s => (readExtended isDecimal s).filter (fun st => 1 ≤ st.fraction.length && st.fraction.length ≤ 9),
    fun s => (readExtended isDecimal s).filter (fun st => st.fraction.length == 0),
    readCompact isDecimal zuluLayout,
    readCompact isDecimal bareLayout]

/-- Why a provider timestamp is refused. -/
inductive TimestampRefusal where
  | notAnInstant | unsupportedFormat
deriving DecidableEq, Repr

def TimestampRefusal.message : TimestampRefusal → String
  | notAnInstant => "provider timestamp is not a valid instant"
  | unsupportedFormat => "provider timestamp uses an unsupported format"

/-- `parse_provider_timestamp`: the first pattern that matches decides. -/
def parseProviderTimestamp (text : String) : Except TimestampRefusal UtcTimestamp :=
  match providerPatterns.findSome? (· text.toList) with
  | none => .error .unsupportedFormat
  | some st =>
    match strptime st with
    | none => .error .notAnInstant
    | some t => .ok t

/-! ### The database -/

/-- What the `CASE` over a timestamp text evaluates to.  A field outside the ranges of
`datetime` makes the server raise, or denotes an instant no parsed text has. -/
inductive Reading where
  | null
  | irregular
  | instant (micros : Nat)
deriving DecidableEq, Repr

/-- A fraction of a second to the nearest microsecond; a tie goes up where `tieUp` says so. -/
def nearestMicros (tieUp : Nat → Bool) (fraction : List Char) : Nat :=
  let unit := 10 ^ fraction.length
  let whole := number fraction * 1000000 / unit
  let rest := number fraction * 1000000 % unit
  if 2 * rest < unit then whole
  else if unit < 2 * rest then whole + 1
  else if tieUp whole then whole + 1 else whole

/-- The instant of the groups, by a cast or by `to_timestamp` in a session at UTC. -/
def castStamp (tieUp : Nat → Bool) (st : Stamp) : Reading :=
  match civilTime st with
  | none => .irregular
  | some c => .instant (c.micros + nearestMicros tieUp st.fraction)

/-- The three regular expressions of the `CASE`. -/
def casePatterns : List (List Char → Option Stamp) :=
  [readExtended isDigit, readCompact isDigit zuluLayout, readCompact isDigit bareLayout]

/-- The instant the database derives from the text of a quote or of a bar. -/
def derivedInstant (tieUp : Nat → Bool) (text : String) : Reading :=
  match casePatterns.findSome? (· text.toList) with
  | none => .null
  | some st => castStamp tieUp st

/-- The trading date of a bar: the instant's date at UTC. -/
def derivedDate (tieUp : Nat → Bool) (text : String) : Option Nat :=
  match derivedInstant tieUp text with
  | .instant micros => some (micros / dayMicros)
  | _ => none

/-! ### Truncation and rounding -/

/-- The digits after the sixth are worth less than half a microsecond, or exactly half of one
and the tie goes down. -/
def RoundsDown (tieUp : Nat → Bool) (fraction : List Char) : Prop :=
  2 * number (fraction.drop 6) < 10 ^ (fraction.drop 6).length ∨
    2 * number (fraction.drop 6) = 10 ^ (fraction.drop 6).length ∧ tieUp (number (fraction.take 6)) = false

instance (tieUp : Nat → Bool) (fraction : List Char) : Decidable (RoundsDown tieUp fraction) :=
  inferInstanceAs (Decidable (_ ∨ _))

/-- A fraction of at most six digits is a whole number of microseconds. -/
theorem nearestMicros_short (tieUp : Nat → Bool) {fraction : List Char} (h : fraction.length ≤ 6) :
    nearestMicros tieUp fraction = number (truncated fraction) := by
  have ht : truncated fraction = fraction ++ List.replicate (6 - fraction.length) '0' := by
    rw [truncated, List.take_append, List.take_of_length_le h, List.take_replicate]
    congr 2
    omega
  have hn : number (truncated fraction) = number fraction * 10 ^ (6 - fraction.length) := by
    rw [ht, number_append, number_zeros, List.length_replicate, add_zero]
  have hs : number fraction * 1000000 = number (truncated fraction) * 10 ^ fraction.length := by
    rw [hn, mul_assoc, ← pow_add, Nat.sub_add_cancel h]
    norm_num
  have hpos : 0 < 10 ^ fraction.length := Nat.pow_pos (by norm_num)
  rw [nearestMicros, hs, Nat.mul_mod_left, Nat.mul_div_cancel _ hpos]
  simp

/-- Of a longer fraction, the digits after the sixth are the remainder. -/
theorem scaled_long {fraction : List Char} (h : 6 ≤ fraction.length) :
    number fraction * 1000000 / 10 ^ fraction.length = number (fraction.take 6) ∧
      number fraction * 1000000 % 10 ^ fraction.length = number (fraction.drop 6) * 1000000 := by
  have hn : number fraction = number (fraction.take 6) * 10 ^ (fraction.drop 6).length + number (fraction.drop 6) := by
    rw [← number_append, List.take_append_drop]
  have hu : 10 ^ fraction.length = 10 ^ (fraction.drop 6).length * 1000000 := by
    rw [List.length_drop, show (1000000 : Nat) = 10 ^ 6 from rfl, ← pow_add, Nat.sub_add_cancel h]
  have hlt : number (fraction.drop 6) * 1000000 < 10 ^ fraction.length := by
    rw [hu]
    exact Nat.mul_lt_mul_of_pos_right (number_lt _) (by norm_num)
  have hs : number fraction * 1000000 =
      number (fraction.drop 6) * 1000000 + 10 ^ fraction.length * number (fraction.take 6) := by
    rw [hn, hu]
    ring
  rw [hs, Nat.add_mul_div_left _ _ (by omega), Nat.div_eq_of_lt hlt, Nat.add_mul_mod_self_left,
    Nat.mod_eq_of_lt hlt, zero_add]
  exact ⟨rfl, rfl⟩

/-- Rounding gives what truncation gives exactly when it goes down. -/
theorem nearestMicros_eq_truncated_iff (tieUp : Nat → Bool) (fraction : List Char) :
    nearestMicros tieUp fraction = number (truncated fraction) ↔ RoundsDown tieUp fraction := by
  rcases le_total fraction.length 6 with h | h
  · have hd : fraction.drop 6 = [] := List.drop_eq_nil_of_le h
    have hr : RoundsDown tieUp fraction := by
      left
      simp [hd, number]
    exact iff_of_true (nearestMicros_short tieUp h) hr
  · have ht : truncated fraction = fraction.take 6 := by
      rw [truncated, List.take_append_of_le_length h]
    have hu : 10 ^ fraction.length = 10 ^ (fraction.drop 6).length * 1000000 := by
      rw [List.length_drop, show (1000000 : Nat) = 10 ^ 6 from rfl, ← pow_add, Nat.sub_add_cancel h]
    obtain ⟨hdiv, hmod⟩ := scaled_long h
    rw [nearestMicros, RoundsDown, ht, hdiv, hmod, hu]
    split_ifs with h1 h2 h3
    · simp only [true_iff]
      omega
    · simp only [Nat.add_eq_left, one_ne_zero, false_iff]
      omega
    · simp only [Nat.add_eq_left, one_ne_zero, false_iff, h3]
      rintro (h4 | ⟨-, h4⟩)
      · omega
      · cases h4
    · have : tieUp (number (fraction.take 6)) = false := by simpa using h3
      simp only [this, and_true, true_iff]
      omega

/-! ### The two grammars -/

/-- Every digit of the text is an ASCII digit. -/
def AsciiDigits (text : List Char) : Prop := ∀ c ∈ text, isDecimal c = true → isDigit c = true

instance (text : List Char) : Decidable (AsciiDigits text) := List.decidableBAll _ _

/-- The digits between the point and the final character. -/
def fractionOf (text : List Char) : List Char := ((text.dropWhile (· != '.')).drop 1).dropLast

theorem group_some {p : Char → Bool} {n : Nat} {s g r : List Char} (h : group p n s = some (g, r)) :
    s = g ++ r ∧ g.length = n ∧ ∀ c ∈ g, p c = true := by
  unfold group at h
  split_ifs at h with hg
  cases h
  exact ⟨(List.take_append_drop n s).symm, hg.1, List.all_eq_true.mp hg.2⟩

theorem literal_some {text s r : List Char} (h : literal text s = some r) : s = text ++ r := by
  unfold literal at h
  split_ifs at h with ht
  cases h
  nth_rewrite 1 [← List.take_append_drop text.length s, ht]
  rfl

/-- A layout is read group by group. -/
theorem readLayout_cons_some {p : Char → Bool} {n : Nat} {text : List Char} {layout : Layout}
    {s : List Char} {x : List (List Char) × List Char} (h : readLayout p ((n, text) :: layout) s = some x) :
    ∃ digits s2 groups, s = digits ++ (text ++ s2) ∧ digits.length = n ∧ (∀ c ∈ digits, p c = true) ∧
      readLayout p layout s2 = some (groups, x.2) := by
  simp only [readLayout, Option.bind_eq_bind, Option.bind_eq_some_iff, Prod.exists,
    Option.pure_def, Option.some.injEq] at h
  obtain ⟨digits, s1, hg, s2, ht, groups, s3, hr, rfl⟩ := h
  obtain ⟨rfl, hn, hp⟩ := group_some hg
  obtain rfl := literal_some ht
  exact ⟨digits, s2, groups, rfl, hn, hp, hr⟩

section Congruence

variable {p q : Char → Bool} {s : List Char}

theorem group_congr (n : Nat) (h : ∀ c ∈ s, p c = q c) : group p n s = group q n s := by
  have hall : (s.take n).all p = (s.take n).all q := by
    rw [Bool.eq_iff_iff, List.all_eq_true, List.all_eq_true]
    exact forall₂_congr (fun c hc => by rw [h c (List.mem_of_mem_take hc)])
  rw [group, group, hall]

theorem readLayout_congr (layout : Layout) (h : ∀ c ∈ s, p c = q c) :
    readLayout p layout s = readLayout q layout s := by
  induction layout generalizing s with
  | nil => rfl
  | cons e layout ih =>
    rw [readLayout, readLayout, group_congr e.1 h]
    cases hg : group q e.1 s with
    | none => rfl
    | some g =>
      obtain ⟨rfl, -, -⟩ := group_some hg
      rcases hl : literal e.2 g.2 with _ | r
      · simp [hl]
      · have hr : ∀ c ∈ r, p c = q c := by
          intro c hc
          apply h c
          rw [literal_some hl]
          simp [hc]
        simp [hl, ih hr]

theorem takeWhile_congr (h : ∀ c ∈ s, p c = q c) :
    s.takeWhile p = s.takeWhile q ∧ s.dropWhile p = s.dropWhile q := by
  induction s with
  | nil => exact ⟨rfl, rfl⟩
  | cons c s ih =>
    obtain ⟨h1, h2⟩ := ih (fun d hd => h d (List.mem_cons_of_mem c hd))
    have hc := h c List.mem_cons_self
    cases hq : q c <;> simp [hc, hq, h1, h2]

theorem readFraction_congr (h : ∀ c ∈ s, p c = q c) : readFraction p s = readFraction q s := by
  unfold readFraction
  split
  · rfl
  · obtain ⟨h1, h2⟩ := takeWhile_congr (fun c hc => h c (List.mem_cons_of_mem _ hc))
    rw [h1, h2]
  · rfl

end Congruence

/-- What a layout consumes is made of characters of the class and of its fixed texts. -/
theorem readLayout_consumes {p : Char → Bool} {P : Char → Prop} (hp : ∀ c, p c = true → P c)
    {layout : Layout} (hl : ∀ e ∈ layout, ∀ c ∈ e.2, P c) {s r : List Char} {groups : List (List Char)}
    (h : readLayout p layout s = some (groups, r)) : ∃ u, s = u ++ r ∧ ∀ c ∈ u, P c := by
  induction layout generalizing s groups with
  | nil =>
    simp only [readLayout, Option.some.injEq, Prod.mk.injEq] at h
    exact ⟨[], h.2, by simp⟩
  | cons e layout ih =>
    obtain ⟨digits, s2, groups', rfl, -, hd, hr⟩ := readLayout_cons_some h
    obtain ⟨u, rfl, hu⟩ := ih (fun e' he' => hl e' (List.mem_cons_of_mem e he')) hr
    refine ⟨digits ++ (e.2 ++ u), by simp, ?_⟩
    intro c hc
    rcases List.mem_append.mp hc with hc | hc
    · exact hp c (hd c hc)
    · rcases List.mem_append.mp hc with hc | hc
      · exact hl e List.mem_cons_self c hc
      · exact hu c hc

/-- A fraction that is read ends in `Z`. -/
theorem readFraction_some {p : Char → Bool} {s fraction : List Char} (h : readFraction p s = some fraction) :
    (∀ c ∈ fraction, p c = true) ∧
      (s = ['Z'] ∧ fraction = [] ∨ s = '.' :: (fraction ++ ['Z'])) := by
  unfold readFraction at h
  split at h
  · cases h
    exact ⟨by simp, .inl ⟨rfl, rfl⟩⟩
  · rename_i s
    split_ifs at h with hs
    cases h
    refine ⟨fun c hc => List.mem_takeWhile_imp hc, .inr ?_⟩
    rw [← hs.2, List.takeWhile_append_dropWhile]
  · cases h

/-- The extended form has a separator where the compact forms have a digit. -/
theorem readCompact_eq_none_of_extended {s : List Char} {st : Stamp} (h : readExtended isDecimal s = some st)
    (layout : Layout) {n : Nat} {text : List Char} {more : Layout}
    (hl : layout = (4, []) :: (n + 1, text) :: more) : readCompact isDecimal layout s = none := by
  rw [Option.eq_none_iff_forall_ne_some]
  intro st' h'
  simp only [readExtended, Option.bind_eq_bind, Option.bind_eq_some_iff] at h
  simp only [readCompact, Option.bind_eq_bind, Option.bind_eq_some_iff] at h'
  obtain ⟨x, hx, -⟩ := h
  obtain ⟨y, hy, -⟩ := h'
  subst hl
  obtain ⟨year, s2, -, hs, hyear, -⟩ := readLayout_cons_some hx
  obtain ⟨year', s2', gs', hs', hyear', -, hy'⟩ := readLayout_cons_some hy
  obtain ⟨digits, s3, -, hs3, hn, hd, -⟩ := readLayout_cons_some hy'
  obtain ⟨-, htail⟩ := List.append_inj (hs.symm.trans hs') (hyear.trans hyear'.symm)
  obtain ⟨c, digits, rfl⟩ := List.exists_cons_of_length_eq_add_one hn
  have hc : c = '-' := by
    rw [List.nil_append, hs3] at htail
    exact (List.cons.inj htail).1.symm
  have hdash : isDecimal '-' = false := by decide
  rw [← hc, hd c List.mem_cons_self] at hdash
  contradiction

/-- The forms of both sides in one class of digits. -/
def forms (p : Char → Bool) (s : List Char) : Option Stamp :=
  [readExtended p, readCompact p zuluLayout, readCompact p bareLayout].findSome? (· s)

/-- The pattern that decides reads the stamp of the one form the text has. -/
theorem forms_of_providerPatterns {s : List Char} {st : Stamp}
    (h : providerPatterns.findSome? (· s) = some st) : forms isDecimal s = some st := by
  cases he : readExtended isDecimal s with
  | none => simpa [providerPatterns, forms, List.findSome?_cons, he] using h
  | some st' =>
    have hz := readCompact_eq_none_of_extended he zuluLayout rfl
    have hb := readCompact_eq_none_of_extended he bareLayout rfl
    simp only [providerPatterns, List.findSome?_cons, he, hz, hb, List.findSome?_nil] at h
    simp only [forms, List.findSome?_cons, he]
    rcases Option.eq_none_or_eq_some (Option.filter (fun st => 1 ≤ st.fraction.length && st.fraction.length ≤ 9)
      (some st')) with h1 | ⟨a, h1⟩
    · rw [h1] at h
      rcases Option.eq_none_or_eq_some (Option.filter (fun st => st.fraction.length == 0) (some st')) with
        h2 | ⟨b, h2⟩
      · simp [h2] at h
      · rw [h2] at h
        cases h
        exact (Option.filter_eq_some_iff.mp h2).1
    · rw [h1] at h
      cases h
      exact (Option.filter_eq_some_iff.mp h1).1

theorem forms_congr {p q : Char → Bool} {s : List Char} (h : ∀ c ∈ s, p c = q c) : forms p s = forms q s := by
  have hc : ∀ layout, readCompact p layout s = readCompact q layout s := by
    intro layout
    rw [readCompact, readCompact, readLayout_congr layout h]
  have he : readExtended p s = readExtended q s := by
    rw [readExtended, readExtended, readLayout_congr extendedLayout h]
    cases hr : readLayout q extendedLayout s with
    | none => rfl
    | some r =>
      obtain ⟨u, hu, -⟩ := readLayout_consumes (P := fun _ => True) (fun _ _ => trivial)
        (fun _ _ _ _ => trivial) hr
      have hf : readFraction p r.2 = readFraction q r.2 :=
        readFraction_congr (fun c hc => h c (hu ▸ List.mem_append_right u hc))
      simp [hf]
  simp only [forms, List.findSome?_cons, List.findSome?_nil, he, hc]

/-- What is read of a text: its digit groups, and then a fraction or nothing. -/
theorem forms_some {p : Char → Bool} {s : List Char} {st : Stamp} (h : forms p s = some st) :
    ∃ layout ∈ [extendedLayout, zuluLayout, bareLayout], ∃ r, readLayout p layout s = some (st.groups, r) ∧
      (readFraction p r = some st.fraction ∨ r = [] ∧ st.fraction = []) := by
  have hcompact : ∀ layout, readCompact p layout s = some st →
      ∃ r, readLayout p layout s = some (st.groups, r) ∧ r = [] ∧ st.fraction = [] := by
    intro layout h
    simp only [readCompact, Option.bind_eq_bind, Option.bind_eq_some_iff] at h
    obtain ⟨x, hx, hst⟩ := h
    split_ifs at hst with hr
    cases hst
    exact ⟨x.2, hx, hr, rfl⟩
  obtain ⟨f, hf, hst⟩ := List.exists_of_findSome?_eq_some h
  simp only [List.mem_cons, List.not_mem_nil, or_false] at hf
  obtain rfl | rfl | rfl := hf
  · simp only [readExtended, Option.bind_eq_bind, Option.bind_eq_some_iff] at hst
    obtain ⟨x, hx, fraction, hfr, hst⟩ := hst
    cases hst
    exact ⟨extendedLayout, by simp, x.2, hx, .inl hfr⟩
  · obtain ⟨r, hr, hnil⟩ := hcompact zuluLayout hst
    exact ⟨zuluLayout, by simp, r, hr, .inr hnil⟩
  · obtain ⟨r, hr, hnil⟩ := hcompact bareLayout hst
    exact ⟨bareLayout, by simp, r, hr, .inr hnil⟩

/-- The fixed texts of the layouts hold neither a digit nor a point. -/
theorem layout_texts {layout : Layout} (h : layout ∈ [extendedLayout, zuluLayout, bareLayout]) :
    ∀ e ∈ layout, ∀ c ∈ e.2, isDecimal c = false ∧ c ≠ '.' := by
  have hall : [extendedLayout, zuluLayout, bareLayout].all
      (fun layout => layout.all (fun e => e.2.all (fun c => !isDecimal c && c != '.'))) = true := by decide
  intro e he c hc
  have hc := List.all_eq_true.mp (List.all_eq_true.mp (List.all_eq_true.mp hall layout h) e he) c hc
  simpa using hc

/-- A text the database reads has ASCII digits only. -/
theorem asciiDigits_of_forms {s : List Char} {st : Stamp} (h : forms isDigit s = some st) : AsciiDigits s := by
  obtain ⟨layout, hl, r, hr, hf⟩ := forms_some h
  obtain ⟨u, rfl, hu⟩ := readLayout_consumes (P := fun c => isDecimal c = true → isDigit c = true)
    (fun c hc _ => hc) (fun e he c hc hd => by simp [(layout_texts hl e he c hc).1] at hd) hr
  intro c hc hd
  rcases List.mem_append.mp hc with hc | hc
  · exact hu c hc hd
  · have hfix : isDecimal 'Z' = false ∧ isDecimal '.' = false := by decide
    rcases hf with hf | ⟨rfl, -⟩
    · obtain ⟨hall, ⟨rfl, -⟩ | rfl⟩ := readFraction_some hf
      · rw [List.mem_singleton.mp hc, hfix.1] at hd
        contradiction
      · simp only [List.mem_cons, List.mem_append, List.not_mem_nil, or_false] at hc
        rcases hc with rfl | hc | rfl
        · simp [hfix] at hd
        · exact hall c hc
        · simp [hfix] at hd
    · simp at hc

/-- The fraction of a text stands between its point and its end. -/
theorem fractionOf_of_forms {s : List Char} {st : Stamp} (h : forms isDecimal s = some st) :
    fractionOf s = st.fraction := by
  obtain ⟨layout, hl, r, hr, hf⟩ := forms_some h
  have hpoint : isDecimal '.' = false := by decide
  obtain ⟨u, rfl, hu⟩ := readLayout_consumes (P := fun c => (c != '.') = true)
    (fun c hc => by
      rw [bne_iff_ne]
      rintro rfl
      rw [hpoint] at hc
      contradiction)
    (fun e he c hc => bne_iff_ne.mpr (layout_texts hl e he c hc).2) hr
  rw [fractionOf, List.dropWhile_append_of_pos hu]
  rcases hf with hf | ⟨rfl, hnil⟩
  · obtain ⟨-, ⟨rfl, hnil⟩ | rfl⟩ := readFraction_some hf
    · rw [hnil]
      rfl
    · simp
  · rw [hnil]
    rfl

/-- An accepted text is the stamp of an instant, truncated to microseconds. -/
theorem parseProviderTimestamp_ok {text : String} {t : UtcTimestamp}
    (h : parseProviderTimestamp text = .ok t) :
    ∃ st c, forms isDecimal text.toList = some st ∧ civilTime st = some c ∧
      t.micros = c.micros + number (truncated st.fraction) := by
  unfold parseProviderTimestamp at h
  split at h
  · cases h
  rename_i st hst
  split at h
  · cases h
  rename_i t' ht
  cases h
  simp only [strptime] at ht
  split_ifs at ht
  simp only [Option.bind_eq_bind, Option.bind_eq_some_iff] at ht
  obtain ⟨c, hc, ht⟩ := ht
  cases ht
  exact ⟨st, c, forms_of_providerPatterns hst, hc, rfl⟩

/-! ### Agreement -/

/-- The database derives the instant of the parser, and its date, from exactly those accepted
texts that have ASCII digits only and whose fraction rounds down. -/
theorem bound_instant_iff (tieUp : Nat → Bool) (text : String) (t : UtcTimestamp)
    (h : parseProviderTimestamp text = .ok t) :
    derivedInstant tieUp text = .instant t.micros ∧ derivedDate tieUp text = some t.day ↔
      AsciiDigits text.toList ∧ RoundsDown tieUp (fractionOf text.toList) := by
  obtain ⟨st, c, hst, hc, ht⟩ := parseProviderTimestamp_ok h
  have hsame : AsciiDigits text.toList → forms isDigit text.toList = some st := by
    intro ha
    rw [← hst]
    apply forms_congr
    intro d hd
    cases hdec : isDecimal d with
    | true => exact ha d hd hdec
    | false => exact Bool.eq_false_iff.mpr (fun hdig => by simp [isDecimal_of_isDigit hdig] at hdec)
  have hinstant : derivedInstant tieUp text = .instant t.micros ↔
      AsciiDigits text.toList ∧ RoundsDown tieUp (fractionOf text.toList) := by
    rw [fractionOf_of_forms hst, ← nearestMicros_eq_truncated_iff]
    have hcase : ∀ st', forms isDigit text.toList = some st' → derivedInstant tieUp text = castStamp tieUp st' := by
      intro st' hst'
      rw [forms] at hst'
      rw [derivedInstant, casePatterns, hst']
    constructor
    · intro hd
      have ha : AsciiDigits text.toList := by
        cases hf : forms isDigit text.toList with
        | some st' => exact asciiDigits_of_forms hf
        | none =>
          rw [forms] at hf
          rw [derivedInstant, casePatterns, hf] at hd
          cases hd
      rw [hcase st (hsame ha), castStamp, hc] at hd
      simp only [Reading.instant.injEq, ht, Nat.add_left_cancel_iff] at hd
      exact ⟨ha, hd⟩
    · rintro ⟨ha, hr⟩
      rw [hcase st (hsame ha), castStamp, hc]
      simp [ht, hr]
  constructor
  · intro hd
    exact hinstant.mp hd.1
  · intro hcond
    have hd := hinstant.mpr hcond
    refine ⟨hd, ?_⟩
    rw [derivedDate, hd, UtcTimestamp.day]

/-- Nanoseconds that round down: both sides agree. -/
theorem bound_instant_of_nanoseconds :
    ∃ t, parseProviderTimestamp "2026-06-01T14:00:00.123456400Z" = .ok t ∧
      derivedInstant (fun _ => false) "2026-06-01T14:00:00.123456400Z" = .instant t.micros := by
  refine ⟨⟨63915919200123456, by decide⟩, by decide +kernel, ?_⟩
  exact ((bound_instant_iff (fun _ => false) "2026-06-01T14:00:00.123456400Z" _ (by decide +kernel)).mpr
    (by decide +kernel)).1

/-- Nanoseconds that round up: the parser yields one microsecond less than the database. -/
theorem unbound_instant_of_nanoseconds :
    ∃ t, parseProviderTimestamp "2026-06-01T14:00:00.123456789Z" = .ok t ∧
      ∀ tieUp, derivedInstant tieUp "2026-06-01T14:00:00.123456789Z" = .instant (t.micros + 1) := by
  refine ⟨⟨63915919200123456, by decide⟩, by decide +kernel, fun tieUp => ?_⟩
  have hf : casePatterns.findSome? (· "2026-06-01T14:00:00.123456789Z".toList) =
      some ⟨[['2', '0', '2', '6'], ['0', '6'], ['0', '1'], ['1', '4'], ['0', '0'], ['0', '0']],
        "123456789".toList⟩ := by
    decide +kernel
  rw [derivedInstant, hf]
  rfl

end SevenLens.MarketData
