import SevenLens.Library.Digits
import SevenLens.MarketData.Bars
import SevenLens.Screening.Contracts

/-! # Texts of identifiers and instants

The canonical texts of run identifiers and of instants, and their parsers.  Each parser reads the
text that is written (`RunId.fromString_text`, `UtcTimestamp.fromIsoformat_text`) and accepts
nothing else (`RunId.text_of_fromString`, `UtcTimestamp.text_of_fromIsoformat`). -/

namespace SevenLens

open Securities

/-! ### Identifiers -/

/-- `text.replace(p, "")`, after `skip` more characters of a match. -/
def removeAll (p : List Char) : Nat → List Char → List Char
  | _, [] => []
  | skip + 1, _ :: l => removeAll p skip l
  | 0, c :: l => if p.isPrefixOf (c :: l) then removeAll p (p.length - 1) l else c :: removeAll p 0 l

/-- `text.strip("{}")` -/
def stripBraces (l : List Char) : List Char :=
  let isBrace := fun c => c == Char.ofNat 123 || c == Char.ofNat 125
  ((l.dropWhile isBrace).reverse.dropWhile isBrace).reverse

namespace Uuid

/-- `str(value)` -/
def text (u : Uuid) : String :=
  let hex := Nat.hexPadded 32 u.int
  String.ofList (hex.take 8 ++ '-' :: ((hex.drop 8).take 4 ++ '-' :: ((hex.drop 12).take 4 ++ '-' ::
    ((hex.drop 16).take 4 ++ '-' :: hex.drop 20))))

/-- `UUID(value)`.  Python's `int(hex, 16)` also takes a sign, blanks, underscores and the digits of
other scripts; a text with one of these is not canonical, and `from_string` refuses it either way. -/
def parse (s : String) : Option Uuid :=
  let hex := (stripBraces (removeAll "uuid:".toList 0 (removeAll "urn:".toList 0 s.toList))).filter (· != '-')
  if hex.length = 32 then
    match Nat.ofHexChars hex with
    | some n => if h : n < 2 ^ 128 then some ⟨n, h⟩ else none
    | none => none
  else none

end Uuid

namespace RunId

/-- `str(value)` -/
def text (r : RunId) : String := r.value.text

/-- `RunId.from_string` -/
def fromString (s : String) : Except Failure RunId :=
  match Uuid.parse s with
  | none => refuse "RunId text must be a valid UUID"
  | some u =>
    if u.text = s then
      if h : u.int ≠ 0 then .ok ⟨u, h⟩ else refuse "RunId must not be the nil UUID"
    else refuse "RunId text must use canonical lowercase UUID format"

end RunId

theorem removeAll_of_notMem {c : Char} {p l : List Char} (h : c ∉ l) : removeAll (c :: p) 0 l = l := by
  induction l with
  | nil => rfl
  | cons d l ih =>
    obtain ⟨hne, hl⟩ : c ≠ d ∧ c ∉ l := by simpa [List.mem_cons, not_or] using h
    have hhead : (c :: p).isPrefixOf (d :: l) = false := by simp [List.isPrefixOf, hne]
    rw [removeAll, if_neg (by rw [hhead]; decide), ih hl]

theorem stripBraces_of_notMem {l : List Char} (h : ∀ c ∈ l, (c == Char.ofNat 123 || c == Char.ofNat 125) = false) :
    stripBraces l = l := by
  have hdrop : ∀ m : List Char, (∀ c ∈ m, (c == Char.ofNat 123 || c == Char.ofNat 125) = false) →
      m.dropWhile (fun c => c == Char.ofNat 123 || c == Char.ofNat 125) = m := by
    intro m hm
    cases m with
    | nil => rfl
    | cons c m => rw [List.dropWhile_cons, hm c List.mem_cons_self, if_neg Bool.false_ne_true]
  rw [stripBraces]
  simp only [hdrop l h, hdrop l.reverse (fun c hc => h c (List.mem_reverse.mp hc)), List.reverse_reverse]

namespace Uuid

/-- The digits of a text without its dashes. -/
theorem filter_text (u : Uuid) : u.text.toList.filter (· != '-') = Nat.hexPadded 32 u.int := by
  have hkeep : ∀ l : List Char, (∀ c ∈ l, c ∈ Nat.hexPadded 32 u.int) → l.filter (· != '-') = l := by
    intro l hl
    refine List.filter_eq_self.mpr fun c hc => ?_
    obtain ⟨d, hd, rfl⟩ := Nat.mem_hexPadded (hl c hc)
    exact (show ∀ d < 16, (Nat.digitChar d != '-') = true by decide) d hd
  have htake : ∀ n m, ∀ c ∈ ((Nat.hexPadded 32 u.int).drop n).take m, c ∈ Nat.hexPadded 32 u.int :=
    fun n m c hc => List.mem_of_mem_drop (List.mem_of_mem_take hc)
  have hdash : ∀ l : List Char, ('-' :: l).filter (· != '-') = l.filter (· != '-') :=
    fun l => List.filter_cons_of_neg (by decide)
  rw [text, String.toList_ofList]
  simp only [List.filter_append, hdash]
  rw [hkeep _ (fun c hc => List.mem_of_mem_take hc), hkeep _ (htake 8 4), hkeep _ (htake 12 4), hkeep _ (htake 16 4),
    hkeep _ (fun c hc => List.mem_of_mem_drop hc)]
  have hsplit : ∀ n m, ((Nat.hexPadded 32 u.int).drop n).take m ++ (Nat.hexPadded 32 u.int).drop (n + m) =
      (Nat.hexPadded 32 u.int).drop n := by
    intro n m
    rw [← List.drop_drop, List.take_append_drop]
  rw [hsplit 16 4, hsplit 12 4, hsplit 8 4, List.take_append_drop]

theorem mem_text {u : Uuid} {c : Char} (h : c ∈ u.text.toList) : c = '-' ∨ ∃ d < 16, c = Nat.digitChar d := by
  by_cases hc : c = '-'
  · exact .inl hc
  · have hmem : c ∈ u.text.toList.filter (· != '-') := List.mem_filter.mpr ⟨h, by simpa using hc⟩
    rw [filter_text] at hmem
    exact .inr (Nat.mem_hexPadded hmem)

/-- The parser reads the text of an identifier. -/
theorem parse_text (u : Uuid) : parse u.text = some u := by
  have hclear : ∀ c ∈ u.text.toList, c ≠ 'u' ∧ (c == Char.ofNat 123 || c == Char.ofNat 125) = false := by
    intro c hc
    obtain rfl | ⟨d, hd, rfl⟩ := mem_text hc
    · decide
    · exact (show ∀ d < 16, Nat.digitChar d ≠ 'u' ∧
        (Nat.digitChar d == Char.ofNat 123 || Nat.digitChar d == Char.ofNat 125) = false by decide) d hd
  have hu : 'u' ∉ u.text.toList := fun h => (hclear _ h).1 rfl
  have hurn : removeAll "urn:".toList 0 u.text.toList = u.text.toList := removeAll_of_notMem hu
  have huuid : removeAll "uuid:".toList 0 u.text.toList = u.text.toList := removeAll_of_notMem hu
  have hlt : u.int % 16 ^ 32 = u.int := Nat.mod_eq_of_lt (by
    have := u.lt
    norm_num at this ⊢
    exact this)
  simp only [parse, hurn, huuid, stripBraces_of_notMem (fun c hc => (hclear c hc).2), filter_text, Nat.length_hexPadded,
    if_true, Nat.ofHexChars_hexPadded, hlt, u.lt, dif_pos]

end Uuid

namespace RunId

theorem fromString_text (r : RunId) : fromString r.text = .ok r := by
  simp only [fromString, text, Uuid.parse_text, if_true, dif_pos r.nonNil]

theorem text_of_fromString {s : String} {r : RunId} (h : fromString s = .ok r) : r.text = s := by
  unfold fromString at h
  split at h
  · cases h
  · split_ifs at h with htext
    · cases h
      exact htext
    all_goals cases h

theorem text_injective : Function.Injective text := by
  intro r s h
  have hr := fromString_text r
  rw [h, fromString_text] at hr
  exact (Except.ok.inj hr).symm

end RunId

/-! ### Plain texts -/

theorem plainChar_of_isDigit {c : Char} (h : c.isDigit = true) : Json.PlainChar c := by
  obtain ⟨hlow, hhigh⟩ := Nat.digit_bounds h
  refine ⟨by omega, by omega, ?_, ?_⟩
  · rintro rfl
    exact absurd hlow (by decide)
  · rintro rfl
    exact absurd hhigh (by decide)

theorem plainChar_digitChar {d : Nat} (h : d < 16) : Json.PlainChar (Nat.digitChar d) := by
  interval_cases d <;> decide

/-- A text of plain characters has no NUL and one byte for each character. -/
theorem plain_of_all {s : String} (h : s.toList.all (fun c => decide (Json.PlainChar c)) = true) :
    ∀ c ∈ s.toList, Json.PlainChar c := fun c hc => of_decide_eq_true (List.all_eq_true.mp h c hc)

theorem plain_size {s : String} (h : ∀ c ∈ s.toList, Json.PlainChar c) :
    hasNul s = false ∧ s.utf8ByteSize = s.length := by
  constructor
  · rw [hasNul, ← Bool.not_eq_true, List.contains_iff_mem]
    intro hmem
    exact absurd (h _ hmem).1 (by decide)
  · refine Json.utf8ByteSize_of_ascii fun c hc => ?_
    have hlt : c.toNat ≤ 127 := (h c hc).2.1.le
    exact UInt32.le_iff_toNat_le.mpr hlt

theorem RunId.plain_text (r : RunId) : ∀ c ∈ r.text.toList, Json.PlainChar c := by
  intro c hc
  obtain rfl | ⟨d, hd, rfl⟩ := Uuid.mem_text hc
  · decide
  · exact plainChar_digitChar hd

theorem RunId.length_text (r : RunId) : r.text.length = 36 := by
  rw [← String.length_toList, RunId.text, Uuid.text, String.toList_ofList]
  simp

/-! ### Digits of instants -/

/-- A text of digits is padded from its number. -/
theorem zeroPad_ofDigitChars {l : List Char} {w : Nat} (h : Nat.AllDigits l) (hlen : l.length = w) (hw : w ≠ 0) :
    zeroPad w (Nat.ofDigitChars 10 l 0) = String.ofList l := by
  subst hlen
  rw [← String.toList_inj, toList_zeroPad, String.toList_ofList]
  exact Nat.padded_ofDigitChars h (List.length_pos_iff.mp (Nat.pos_of_ne_zero hw))

namespace MarketData

theorem number_of_allDigits {l : List Char} (h : Nat.AllDigits l) : number l = Nat.ofDigitChars 10 l 0 := by
  have hvalue : ∀ c : Char, c.isDigit = true → (decimalValue c).getD 0 = c.toNat - '0'.toNat := by
    intro c hc
    have hbounds := Nat.digit_bounds hc
    rw [decimalValue, zeroDigits, List.find?_cons_of_pos (by simp; omega)]
    rfl
  have hfold : ∀ (l : List Char) (n : Nat), Nat.AllDigits l →
      l.foldl (fun n c => 10 * n + (decimalValue c).getD 0) n = Nat.ofDigitChars 10 l n := by
    intro l
    induction l with
    | nil => exact fun n _ => rfl
    | cons c l ih =>
      intro n hl
      obtain ⟨hc, hl⟩ := Nat.allDigits_cons.mp hl
      rw [List.foldl_cons, ih _ hl, Nat.ofDigitChars_cons, hvalue c hc]
  exact hfold l 0 h

@[simp] theorem number_padded (w n : Nat) : number (Nat.padded w n) = n := by
  rw [number_of_allDigits (Nat.allDigits_padded w n), Nat.ofDigitChars_padded]

/-- A group of digits is read off the front of a text. -/
theorem readLayout_cons {p : Char → Bool} {n : Nat} {digits text s : List Char} {layout : Layout}
    {groups : List (List Char)} {r : List Char} (hlen : digits.length = n) (hp : ∀ c ∈ digits, p c = true)
    (h : readLayout p layout s = some (groups, r)) :
    readLayout p ((n, text) :: layout) (digits ++ (text ++ s)) = some (digits :: groups, r) := by
  subst hlen
  have hgroup : group p digits.length (digits ++ (text ++ s)) = some (digits, text ++ s) := by
    rw [group, List.take_left, List.drop_left, if_pos ⟨rfl, List.all_eq_true.mpr hp⟩]
  have hliteral : literal text (text ++ s) = some s := by
    rw [literal, List.take_left, List.drop_left, if_pos rfl]
  simp only [readLayout, hgroup, hliteral, h, Option.bind_eq_bind, Option.bind_some, Option.pure_def]

/-- A text that was read is its groups of digits with the fixed texts between them. -/
theorem readLayout_spec {p : Char → Bool} {layout : Layout} {s r : List Char} {groups : List (List Char)}
    (h : readLayout p layout s = some (groups, r)) :
    List.Forall₂ (fun g (e : Nat × List Char) => g.length = e.1 ∧ ∀ c ∈ g, p c = true) groups layout ∧
      s = (List.zipWith (fun g (e : Nat × List Char) => g ++ e.2) groups layout).flatten ++ r := by
  induction layout generalizing s groups with
  | nil =>
    cases h
    exact ⟨.nil, rfl⟩
  | cons e layout ih =>
    obtain ⟨n, text⟩ := e
    simp only [readLayout, Option.bind_eq_bind, Option.bind_eq_some_iff, Prod.exists, Option.pure_def, Option.some.injEq,
      Prod.mk.injEq] at h
    obtain ⟨digits, s1, hg, s2, ht, rest, s3, hr, rfl, rfl⟩ := h
    obtain ⟨rfl, hn, hp⟩ := group_some hg
    obtain rfl := literal_some ht
    obtain ⟨hall, rfl⟩ := ih hr
    exact ⟨.cons ⟨hn, hp⟩ hall, by simp⟩

end MarketData

/-! ### Dates of instants -/

namespace UtcTimestamp

open MarketData

/-- The mean length of a year finds the year of a day, up to one. -/
theorem daysBeforeYear_guess {d q : Nat} (hle : q * 146097 ≤ d * 400) (hlt : d * 400 < (q + 1) * 146097) :
    daysBeforeYear q ≤ d ∧ d < daysBeforeYear (q + 3) := by
  unfold daysBeforeYear
  constructor
  · cases q with
    | zero => exact Nat.zero_le _
    | succ n =>
      rw [Nat.add_sub_cancel]
      omega
  · rw [show q + 3 - 1 = q + 2 from rfl]
    omega

theorem year_eq (t : UtcTimestamp) : t.year = yearOf t.day := by
  obtain ⟨hle, hlt⟩ := @daysBeforeYear_guess t.day (t.day * 400 / 146097) (by omega) (by omega)
  simp only [year]
  split_ifs with hlow hhigh
  · exact (yearOf_eq hle hlow).symm
  · exact (yearOf_eq hhigh hlt).symm
  · exact (yearOf_eq (not_lt.mp hlow) (not_le.mp hhigh)).symm

theorem month_eq (t : UtcTimestamp) : t.month = monthOf (yearOf t.day) (t.day - daysBeforeYear (yearOf t.day)) := by
  obtain ⟨hone, htwelve, hle, hlt⟩ := monthOf_spec (dayOfYear_lt t.day)
  rw [month, year_eq]
  generalize hk : monthOf (yearOf t.day) (t.day - daysBeforeYear (yearOf t.day)) = k at *
  -- the months that have begun are those up to the month
  have hbegun : ∀ m ∈ (List.range 13).drop 1,
      (daysBeforeMonth (yearOf t.day) m ≤ t.day - daysBeforeYear (yearOf t.day) ↔ m ≤ k) := by
    intro m hm
    have hpos : 1 ≤ m := by
      revert m
      decide
    constructor
    · intro hbegan
      by_contra hgt
      have := daysBeforeMonth_mono (yearOf t.day) (Nat.le_add_left 1 k) (show k + 1 ≤ m by omega)
      omega
    · exact fun hmk => (daysBeforeMonth_mono _ hpos hmk).trans hle
  rw [List.countP_congr (q := fun m => decide (m ≤ k)) (fun m hm => by simpa using hbegun m hm)]
  clear hk hle hlt hbegun
  interval_cases k <;> rfl

/-- The text of an instant, from its date. -/
theorem text_eq (t : UtcTimestamp) : t.text =
    zeroPad 4 (dateOf t).year ++ "-" ++ zeroPad 2 (dateOf t).month ++ "-" ++ zeroPad 2 (dateOf t).day ++ "T" ++
      zeroPad 2 (t.micros % dayMicros / hourMicros) ++ ":" ++ zeroPad 2 (t.micros % dayMicros / 60000000 % 60) ++ ":" ++
      zeroPad 2 (t.micros % dayMicros / 1000000 % 60) ++ "." ++ zeroPad 6 (t.micros % dayMicros % 1000000) ++ "Z" := by
  simp only [text, year_eq, month_eq]
  rfl

/-- `YYYY-MM-DDTHH:MM:SS.ffffffZ` -/
def canonicalLayout : Layout :=
  [(4, ['-']), (2, ['-']), (2, ['T']), (2, [':']), (2, [':']), (2, ['.']), (6, ['Z'])]

/-- `UtcTimestamp.from_isoformat` -/
def fromIsoformat (s : String) : Except Failure UtcTimestamp :=
  match readLayout isDigit canonicalLayout s.toList with
  | some ([year, month, day, hour, minute, second, fraction], []) =>
    match strptime ⟨[year, month, day, hour, minute, second], fraction⟩ with
    | some t => .ok t
    | none => refuse "UtcTimestamp text must be a valid canonical UTC timestamp"
  | _ => refuse "UtcTimestamp text must use YYYY-MM-DDTHH:MM:SS.ffffffZ"

/-- Two digits of a field pass the directive of the field. -/
theorem directives_padded {y m d h mi sec : Nat} (hm : 1 ≤ m ∧ m ≤ 12) (hd : 1 ≤ d ∧ d ≤ 31) (hh : h < 24) (hmi : mi < 60)
    (hs : sec < 60) : directives [Nat.padded 4 y, Nat.padded 2 m, Nat.padded 2 d, Nat.padded 2 h, Nat.padded 2 mi,
      Nat.padded 2 sec] = true := by
  have hmonth : monthText (Nat.padded 2 m) = true :=
    (show ∀ m < 13, 1 ≤ m → monthText (Nat.padded 2 m) = true by decide) m (by omega) hm.1
  have hday : dayText (Nat.padded 2 d) = true :=
    (show ∀ d < 32, 1 ≤ d → dayText (Nat.padded 2 d) = true by decide) d (by omega) hd.1
  have hhour : hourText (Nat.padded 2 h) = true := (show ∀ h < 24, hourText (Nat.padded 2 h) = true by decide) h hh
  have hminute : minuteText (Nat.padded 2 mi) = true :=
    (show ∀ n < 60, minuteText (Nat.padded 2 n) = true by decide) mi hmi
  have hsecond : secondText (Nat.padded 2 sec) = true :=
    (show ∀ n < 60, secondText (Nat.padded 2 n) = true by decide) sec hs
  simp only [directives, hmonth, hday, hhour, hminute, hsecond, Bool.and_self]

theorem daysInMonth_le (y m : Nat) : daysInMonth y m ≤ 31 := by
  unfold daysInMonth
  split_ifs <;> omega

/-- The parser reads the text of an instant. -/
theorem fromIsoformat_text (t : UtcTimestamp) : fromIsoformat t.text = .ok t := by
  have hyear := (dateOf t).year_ok
  have hmonth := (dateOf t).month_ok
  have hday : 1 ≤ (dateOf t).day ∧ (dateOf t).day ≤ 31 := ⟨(dateOf t).day_ok.1, (dateOf t).day_ok.2.trans (daysInMonth_le _ _)⟩
  obtain ⟨rest, hrest⟩ : ∃ rest, t.micros % dayMicros = rest := ⟨_, rfl⟩
  have hlt : rest < dayMicros := hrest ▸ Nat.mod_lt _ (by decide)
  simp only [dayMicros, hourMicros] at hlt
  have hdigits : ∀ w n, ∀ c ∈ Nat.padded w n, isDigit c = true := fun w n => Nat.allDigits_padded w n
  have hread : readLayout isDigit canonicalLayout t.text.toList = some ([Nat.padded 4 (dateOf t).year,
      Nat.padded 2 (dateOf t).month, Nat.padded 2 (dateOf t).day, Nat.padded 2 (rest / hourMicros),
      Nat.padded 2 (rest / 60000000 % 60), Nat.padded 2 (rest / 1000000 % 60), Nat.padded 6 (rest % 1000000)], []) := by
    rw [text_eq, hrest]
    simp only [String.toList_append, toList_zeroPad, List.append_assoc]
    refine readLayout_cons (Nat.length_padded (by decide) (by omega)) (hdigits _ _) ?_
    refine readLayout_cons (Nat.length_padded (by decide) (by omega)) (hdigits _ _) ?_
    refine readLayout_cons (Nat.length_padded (by decide) (by omega)) (hdigits _ _) ?_
    refine readLayout_cons (Nat.length_padded (by decide) (by simp only [hourMicros]; omega)) (hdigits _ _) ?_
    refine readLayout_cons (Nat.length_padded (by decide) (by omega)) (hdigits _ _) ?_
    refine readLayout_cons (Nat.length_padded (by decide) (by omega)) (hdigits _ _) ?_
    exact readLayout_cons (s := []) (Nat.length_padded (by decide) (by omega)) (hdigits _ _) rfl
  have hhour : rest / hourMicros < 24 := by
    simp only [hourMicros]
    omega
  have hfraction : truncated (Nat.padded 6 (rest % 1000000)) = Nat.padded 6 (rest % 1000000) := by
    have hlen : (Nat.padded 6 (rest % 1000000)).length = 6 := Nat.length_padded (by decide) (by omega)
    rw [truncated, List.take_left' hlen]
  have hall : (Nat.padded 6 (rest % 1000000)).all isDigit = true := List.all_eq_true.mpr (hdigits _ _)
  have hcivil : civilTime ⟨[Nat.padded 4 (dateOf t).year, Nat.padded 2 (dateOf t).month, Nat.padded 2 (dateOf t).day,
      Nat.padded 2 (rest / hourMicros), Nat.padded 2 (rest / 60000000 % 60), Nat.padded 2 (rest / 1000000 % 60)],
      Nat.padded 6 (rest % 1000000)⟩ = some ⟨dateOf t, rest / hourMicros, rest / 60000000 % 60, rest / 1000000 % 60,
        ⟨hhour, Nat.mod_lt _ (by decide), Nat.mod_lt _ (by decide)⟩⟩ := by
    simp only [civilTime, List.map_cons, List.map_nil, number_padded]
    rw [dif_pos ⟨hyear, hmonth, (dateOf t).day_ok, hhour, Nat.mod_lt _ (by decide), Nat.mod_lt _ (by decide)⟩]
  have hstrptime : strptime ⟨[Nat.padded 4 (dateOf t).year, Nat.padded 2 (dateOf t).month, Nat.padded 2 (dateOf t).day,
      Nat.padded 2 (rest / hourMicros), Nat.padded 2 (rest / 60000000 % 60), Nat.padded 2 (rest / 1000000 % 60)],
      Nat.padded 6 (rest % 1000000)⟩ = some t := by
    simp only [strptime, hfraction, hall, hcivil, number_padded, Bool.and_true, Option.bind_eq_bind, Option.bind_some,
      Option.pure_def, directives_padded hmonth hday hhour (Nat.mod_lt (rest / 60000000) (show 0 < 60 by decide))
        (Nat.mod_lt (rest / 1000000) (show 0 < 60 by decide)), if_true, Option.some.injEq]
    refine micros_injective ?_
    have hwhole := Nat.div_add_mod t.micros dayMicros
    have hdays := days_dateOf t
    rw [UtcTimestamp.day] at hdays
    rw [hrest] at hwhole
    simp only [CivilTime.instant, CivilTime.micros, TradingDate.startMicros, hdays, hourMicros]
    rw [mul_comm] at hwhole
    omega
  rw [fromIsoformat, hread]
  simp only [hstrptime]

theorem plain_text (t : UtcTimestamp) : ∀ c ∈ t.text.toList, Json.PlainChar c := by
  have hpad : ∀ w n, ∀ c ∈ Nat.padded w n, Json.PlainChar c := fun w n c hc =>
    plainChar_of_isDigit (Nat.allDigits_padded w n c hc)
  rw [text_eq]
  intro c hc
  simp only [String.toList_append, toList_zeroPad, List.mem_append, or_assoc] at hc
  have hmark : ∀ s ∈ ["-", "T", ":", ".", "Z"], c ∈ s.toList → Json.PlainChar c := fun s hs =>
    plain_of_all ((show ∀ s ∈ ["-", "T", ":", ".", "Z"], s.toList.all (fun c => decide (Json.PlainChar c)) = true by decide) s hs) c
  obtain h | h | h | h | h | h | h | h | h | h | h | h | h | h := hc
  all_goals first
    | exact hpad _ _ c h
    | exact hmark _ (by decide) h

theorem length_text (t : UtcTimestamp) : t.text.length = 27 := by
  have hyear := (dateOf t).year_ok
  have hmonth := (dateOf t).month_ok
  have hday := (dateOf t).day_ok.2.trans (daysInMonth_le _ _)
  have hrest : t.micros % dayMicros < 86400000000 := Nat.mod_lt _ (by decide)
  have hpad : ∀ {w n : Nat}, 0 < w → n < 10 ^ w → (zeroPad w n).length = w := by
    intro w n hw hn
    rw [← String.length_toList, toList_zeroPad, Nat.length_padded hw hn]
  rw [text_eq]
  simp only [String.length_append]
  rw [hpad (by decide) (by omega), hpad (by decide) (by omega), hpad (by decide) (by omega),
    hpad (by decide) (by simp only [hourMicros]; omega), hpad (by decide) (by omega), hpad (by decide) (by omega),
    hpad (by decide) (by omega)]
  rfl

theorem text_injective : Function.Injective text := by
  intro t u h
  have ht := fromIsoformat_text t
  rw [h, fromIsoformat_text] at ht
  exact (Except.ok.inj ht).symm

/-- What `strptime` reads, field by field. -/
theorem strptime_some {year month day hour minute second fraction : List Char} {t : UtcTimestamp}
    (h : strptime ⟨[year, month, day, hour, minute, second], fraction⟩ = some t) :
    ∃ (c : CivilTime) (hlt : number (truncated fraction) < 1000000), c.date.year = number year ∧
      c.date.month = number month ∧ c.date.day = number day ∧ c.hour = number hour ∧ c.minute = number minute ∧
      c.second = number second ∧ t = c.instant (number (truncated fraction)) hlt := by
  simp only [strptime] at h
  split_ifs at h
  obtain ⟨c, hc, ht⟩ := Option.bind_eq_some_iff.mp h
  simp only [civilTime, List.map_cons, List.map_nil] at hc
  split_ifs at hc with hok
  cases hc
  cases ht
  exact ⟨_, number_truncated_lt fraction, rfl, rfl, rfl, rfl, rfl, rfl, rfl⟩

/-- A text that is accepted is the text of its instant. -/
theorem text_of_fromIsoformat {s : String} {t : UtcTimestamp} (h : fromIsoformat s = .ok t) : t.text = s := by
  unfold fromIsoformat at h
  split at h
  case h_2 => cases h
  case h_1 year month day hour minute second fraction hread =>
    split at h
    case h_2 => cases h
    case h_1 t' hstrptime =>
      cases h
      obtain ⟨c, hlt, hyear, hmonth, hday, hhour, hminute, hsecond, rfl⟩ := strptime_some hstrptime
      obtain ⟨hall, hs⟩ := readLayout_spec hread
      simp only [canonicalLayout, List.forall₂_cons, List.forall₂_nil_left_iff, and_true] at hall
      obtain ⟨⟨hy, hyd⟩, ⟨hm, hmd⟩, ⟨hd, hdd⟩, ⟨hh, hhd⟩, ⟨hmi, hmid⟩, ⟨hse, hsed⟩, hf, hfd⟩ := hall
      have hpad : ∀ {w : Nat} {l : List Char}, l.length = w → (∀ d ∈ l, isDigit d = true) → w ≠ 0 →
          zeroPad w (number l) = String.ofList l := by
        intro w l hlen hdigits hw
        rw [number_of_allDigits (l := l) hdigits]
        exact zeroPad_ofDigitChars hdigits hlen hw
      have hfraction : truncated fraction = fraction := by rw [truncated, List.take_left' hf]
      obtain ⟨hok1, hok2, hok3⟩ := c.ok
      -- the day of the instant and the parts of the time of day
      have hstart : (c.instant (number (truncated fraction)) hlt).micros =
          c.date.days * dayMicros + (c.hour * hourMicros + c.minute * 60000000 + c.second * 1000000 +
            number (truncated fraction)) := by
        simp only [CivilTime.instant, CivilTime.micros, TradingDate.startMicros]
        omega
      have hrest : c.hour * hourMicros + c.minute * 60000000 + c.second * 1000000 + number (truncated fraction) <
          dayMicros := by
        simp only [hourMicros, dayMicros]
        omega
      have hdate : dateOf (c.instant (number (truncated fraction)) hlt) = c.date := by
        refine dateOf_eq ?_
        rw [UtcTimestamp.day, hstart, mul_comm, Nat.mul_add_div (by decide), Nat.div_eq_of_lt hrest, Nat.add_zero]
      have hmod : (c.instant (number (truncated fraction)) hlt).micros % dayMicros =
          c.hour * hourMicros + c.minute * 60000000 + c.second * 1000000 + number (truncated fraction) := by
        rw [hstart, mul_comm, Nat.mul_add_mod, Nat.mod_eq_of_lt hrest]
      have htime : (c.hour * hourMicros + c.minute * 60000000 + c.second * 1000000 + number (truncated fraction)) /
            hourMicros = c.hour ∧
          (c.hour * hourMicros + c.minute * 60000000 + c.second * 1000000 + number (truncated fraction)) / 60000000 % 60 =
            c.minute ∧
          (c.hour * hourMicros + c.minute * 60000000 + c.second * 1000000 + number (truncated fraction)) / 1000000 % 60 =
            c.second ∧
          (c.hour * hourMicros + c.minute * 60000000 + c.second * 1000000 + number (truncated fraction)) % 1000000 =
            number (truncated fraction) := by
        simp only [hourMicros]
        omega
      rw [text_eq, hdate, hmod, htime.1, htime.2.1, htime.2.2.1, htime.2.2.2, hyear, hmonth, hday, hhour, hminute, hsecond,
        hfraction, hpad hy hyd (by decide), hpad hm hmd (by decide), hpad hd hdd (by decide), hpad hh hhd (by decide),
        hpad hmi hmid (by decide), hpad hse hsed (by decide), hpad hf hfd (by decide), ← String.toList_inj, hs]
      simp [canonicalLayout]

end UtcTimestamp

end SevenLens
