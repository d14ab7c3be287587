import Mathlib.Tactic.IntervalCases
import SevenLens.Orders

/-! # Order keys

The client order id joins the components of an intent with `-`, and the alphabets of strategy and window have
`-` and digits themselves.  From the right the id can be taken apart (`Components.parts_inj`), so that version,
symbol and side are determined; a date inside a strategy or a window can be taken for the trading date, and
`compose_injective_iff` says when two tuples share an id.

`compose_ok_iff` says which validated tuples have an id at all. -/

namespace SevenLens

/-! ### Taking texts apart -/

/-- A text begins with a run of one class, which its length determines. -/
theorem run_inj {p : Char → Bool} {u v r s : List Char} {c d : Char} (hu : ∀ x ∈ u, p x = true) (hv : ∀ x ∈ v, p x = true)
    (hc : p c = false) (hd : p d = false) (h : u ++ c :: r = v ++ d :: s) : u = v ∧ c = d ∧ r = s := by
  induction u generalizing v with
  | nil =>
    cases v with
    | nil => exact ⟨rfl, List.cons.inj h⟩
    | cons y v =>
      obtain ⟨rfl, -⟩ := List.cons.inj h
      rw [hv c List.mem_cons_self] at hc
      cases hc
  | cons x u ih =>
    cases v with
    | nil =>
      obtain ⟨rfl, -⟩ := List.cons.inj h
      rw [hu x List.mem_cons_self] at hd
      cases hd
    | cons y v =>
      obtain ⟨rfl, htail⟩ := List.cons.inj h
      obtain ⟨rfl, hrest⟩ := ih (fun z hz => hu z (List.mem_cons_of_mem x hz)) (fun z hz => hv z (List.mem_cons_of_mem x hz)) htail
      exact ⟨rfl, hrest⟩

/-- A text ends with a run of one class. -/
theorem run_inj_right {p : Char → Bool} {u v r s : List Char} {c d : Char} (hu : ∀ x ∈ u, p x = true)
    (hv : ∀ x ∈ v, p x = true) (hc : p c = false) (hd : p d = false) (h : r ++ c :: u = s ++ d :: v) :
    r = s ∧ c = d ∧ u = v := by
  have hrev := congrArg List.reverse h
  simp only [List.reverse_append, List.reverse_cons, List.append_assoc, List.singleton_append] at hrev
  obtain ⟨hrun, hchar, hrest⟩ := run_inj (fun x hx => hu x (List.mem_reverse.mp hx)) (fun x hx => hv x (List.mem_reverse.mp hx))
    hc hd hrev
  exact ⟨List.reverse_inj.mp hrest, hchar, List.reverse_inj.mp hrun⟩

/-! ### Dates as texts -/

/-- The ten characters of a date. -/
structure DateText (l : List Char) : Prop where
  shape : ∃ a b c d e f g h, l = [a, b, c, d, '-', e, f, '-', g, h] ∧ Nat.AllDigits [a, b, c, d, e, f, g, h]

theorem DateText.length {l : List Char} (h : DateText l) : l.length = 10 := by
  obtain ⟨a, b, c, d, e, f, g, h, rfl, -⟩ := h
  rfl

theorem daysInMonth_lt (y m : Nat) : daysInMonth y m < 32 := by
  unfold daysInMonth
  split_ifs <;> decide

theorem TradingDate.toList_isoformat (t : TradingDate) :
    t.isoformat.toList = Nat.padded 4 t.year ++ '-' :: (Nat.padded 2 t.month ++ '-' :: Nat.padded 2 t.day) := by
  simp only [isoformat, String.toList_append, toList_zeroPad, List.append_assoc]
  rfl

/-- The digits of the parts of a date. -/
theorem TradingDate.padded_lengths (t : TradingDate) : (Nat.padded 4 t.year).length = 4 ∧
    (Nat.padded 2 t.month).length = 2 ∧ (Nat.padded 2 t.day).length = 2 := by
  have hyear := t.year_ok
  have hmonth := t.month_ok
  have hday := t.day_ok.2.trans_lt (daysInMonth_lt _ _)
  exact ⟨Nat.length_padded (by omega) (by omega), Nat.length_padded (by omega) (by omega),
    Nat.length_padded (by omega) (by omega)⟩

theorem TradingDate.dateText (t : TradingDate) : DateText t.isoformat.toList := by
  obtain ⟨hy, hm, hd⟩ := t.padded_lengths
  obtain ⟨a, b, c, d, hyear⟩ := List.length_eq_four.mp hy
  obtain ⟨e, f, hmonth⟩ := List.length_eq_two.mp hm
  obtain ⟨g, h, hday⟩ := List.length_eq_two.mp hd
  refine ⟨a, b, c, d, e, f, g, h, ?_, ?_⟩
  · rw [t.toList_isoformat, hyear, hmonth, hday]
    rfl
  · have hall : Nat.AllDigits (Nat.padded 4 t.year ++ (Nat.padded 2 t.month ++ Nat.padded 2 t.day)) := by
      intro x hx
      obtain hx | hx := List.mem_append.mp hx
      · exact Nat.allDigits_padded _ _ x hx
      obtain hx | hx := List.mem_append.mp hx
      · exact Nat.allDigits_padded _ _ x hx
      · exact Nat.allDigits_padded _ _ x hx
    rwa [hyear, hmonth, hday] at hall

theorem TradingDate.isoformat_inj {t u : TradingDate} (h : t.isoformat.toList = u.isoformat.toList) : t = u := by
  rw [t.toList_isoformat, u.toList_isoformat] at h
  obtain ⟨hty, htm, -⟩ := t.padded_lengths
  obtain ⟨huy, hum, -⟩ := u.padded_lengths
  obtain ⟨hyear, h⟩ := List.append_inj h (hty.trans huy.symm)
  obtain ⟨hmonth, h⟩ := List.append_inj (List.cons.inj h).2 (htm.trans hum.symm)
  have hday := (List.cons.inj h).2
  have hvalue : ∀ {w m n : Nat}, Nat.padded w m = Nat.padded w n → m = n := by
    intro w m n h
    have := congrArg (Nat.ofDigitChars 10 · 0) h
    simpa using this
  obtain ⟨y, m, d, _, _, _⟩ := t
  obtain ⟨y', m', d', _, _, _⟩ := u
  obtain rfl : y = y' := hvalue hyear
  obtain rfl : m = m' := hvalue hmonth
  obtain rfl : d = d' := hvalue hday
  rfl

/-- Two dates that are set off by `-` in one text do not overlap. -/
theorem dates_apart {d d' w w' g : List Char} (hd : DateText d) (hd' : DateText d') (hg : g ≠ [])
    (h : '-' :: (d ++ '-' :: w) = g ++ '-' :: (d' ++ '-' :: w')) : ∃ g', g = '-' :: (d ++ g') ∧ '-' :: w = g' ++ '-' :: (d' ++ '-' :: w') := by
  obtain hlen | hlen := Nat.lt_or_ge g.length 11
  · obtain ⟨a, b, c, e, f, i, j, k, rfl, hall⟩ := hd
    obtain ⟨a', b', c', e', f', i', j', k', rfl, hall'⟩ := hd'
    have hpos := List.length_pos_iff.mpr hg
    have hat : ∀ n, ('-' :: ([a, b, c, e, '-', f, i, '-', j, k] ++ '-' :: w))[g.length + n]? =
        ('-' :: ([a', b', c', e', '-', f', i', '-', j', k'] ++ '-' :: w'))[n]? := by
      intro n
      rw [h, List.getElem?_append_right (Nat.le_add_right _ _), Nat.add_sub_cancel_left]
    have hmark := hat 0
    have hdigit := hat 3
    simp only [Nat.AllDigits, List.forall_mem_cons] at hall hall'
    generalize g.length = n at hlen hpos hmark hdigit
    -- the mark before the second date is one of the marks of the first, and so is one of its digits
    interval_cases n <;> simp at hmark hdigit <;> subst_vars <;> simp_all
  · refine ⟨g.drop 11, ?_, ?_⟩
    · have htake := congrArg (List.take 11) h
      rw [List.take_append_of_le_length hlen] at htake
      have hleft : List.take 11 ('-' :: (d ++ '-' :: w)) = '-' :: d := by
        rw [List.take_succ_cons, List.take_append_of_le_length (Nat.le_of_eq hd.length.symm),
          List.take_of_length_le (Nat.le_of_eq hd.length)]
      rw [hleft] at htake
      rw [← List.cons_append, htake, List.take_append_drop]
    · have hdrop := congrArg (List.drop 11) h
      rw [List.drop_append_of_le_length hlen] at hdrop
      rw [← hdrop, List.drop_succ_cons, List.drop_append_of_le_length (Nat.le_of_eq hd.length.symm),
        List.drop_of_length_le (Nat.le_of_eq hd.length)]
      rfl

/-! ### Components -/

/-- Components of a client order id that pass their own checks. -/
structure Components where
  strategy : String
  tradingDate : TradingDate
  window : String
  targetVersion : Nat
  symbol : Symbol
  side : OrderSide
  strategy_ok : strategyPattern.fullmatch strategy = true
  window_ok : windowPattern.fullmatch window = true
  version_ok : 1 ≤ targetVersion ∧ targetVersion ≤ maxTargetVersion

/-- A character of a name or a date, but not of the beginning of a symbol. -/
def isFrontChar (c : Char) : Bool := !isUpper c

theorem isFrontChar_of_isNameChar {c : Char} (h : isNameChar c = true) : isFrontChar c = true := by
  simp only [isFrontChar, isNameChar, isLowerOrDigit, isUpper, Bool.or_eq_true, Bool.and_eq_true, decide_eq_true_eq,
    Bool.not_eq_true', Bool.and_eq_false_iff, decide_eq_false_iff_not, beq_iff_eq, Char.le_def, UInt32.le_iff_toNat_le] at h ⊢
  obtain ((h | h) | rfl) | rfl := h
  · right
    simp at h ⊢
    omega
  · left
    simp at h ⊢
    omega
  · decide
  · decide

theorem isNameChar_of_isLowerOrDigit {c : Char} (h : isLowerOrDigit c = true) : isNameChar c = true := by
  simp [isNameChar, h]

theorem isLowerOrDigit_of_isDigit {c : Char} (h : c.isDigit = true) : isLowerOrDigit c = true := by
  rw [isLowerOrDigit, Bool.or_eq_true]
  exact Or.inr h

namespace Components

variable (t u : Components)

/-- The id of the components, whether or not it is admissible. -/
def text : String :=
  "slv1-" ++ t.strategy ++ "-" ++ t.tradingDate.isoformat ++ "-" ++ t.window ++ "-t" ++ toString t.targetVersion ++ "-" ++
    t.symbol.value ++ "-" ++ t.side.lower

def compose : Except PyError ClientOrderId :=
  ClientOrderId.compose t.strategy t.tradingDate t.window t.targetVersion t.symbol t.side

/-- Strategy, date and window as they stand in the id. -/
def front : List Char := t.strategy.toList ++ '-' :: (t.tradingDate.isoformat.toList ++ '-' :: t.window.toList)

theorem compose_eq : t.compose = ClientOrderId.ofText t.text := by
  have hversion : ¬ (t.targetVersion < 1 ∨ maxTargetVersion < t.targetVersion) := by
    have := t.version_ok
    omega
  rw [compose, ClientOrderId.compose, t.strategy_ok, t.window_ok, if_neg (by simp), if_neg (by simp), if_neg hversion]
  rfl

theorem toList_text : t.text.toList = "slv1-".toList ++ (t.front ++ '-' :: 't' :: (Nat.toDigits 10 t.targetVersion ++
    '-' :: (t.symbol.value.toList ++ '-' :: t.side.lower.toList))) := by
  have hdash : "-".toList = ['-'] := rfl
  have hversion : "-t".toList = ['-', 't'] := rfl
  simp only [text, front, String.toList_append, Nat.toString_eq_repr, Nat.toList_repr, List.append_assoc, hdash, hversion,
    List.cons_append, List.nil_append]

theorem symbol_head : ∃ c l, t.symbol.value.toList = c :: l ∧ isUpper c = true := by
  obtain ⟨c, l, hsymbol, hc, -⟩ := Pattern.fullmatch_cls_upTo.mp t.symbol.ok
  exact ⟨c, l, hsymbol, hc⟩

theorem within_name {n : Nat} : (Pattern.cat [.cls isLowerOrDigit, .upTo n isNameChar]).Within (isFrontChar · = true) :=
  ⟨fun _ hc => isFrontChar_of_isNameChar (isNameChar_of_isLowerOrDigit hc), fun _ hc => isFrontChar_of_isNameChar hc, trivial⟩

theorem isFrontChar_of_name {n : Nat} {s : String}
    (h : (Pattern.cat [.cls isLowerOrDigit, .upTo n isNameChar]).fullmatch s = true) : ∀ x ∈ s.toList, isFrontChar x = true :=
  Pattern.all_of_fullmatch within_name h

theorem isFrontChar_of_digit {c : Char} (h : c.isDigit = true) : isFrontChar c = true :=
  isFrontChar_of_isNameChar (isNameChar_of_isLowerOrDigit (isLowerOrDigit_of_isDigit h))

theorem isFrontChar_date (d : TradingDate) : ∀ x ∈ d.isoformat.toList, isFrontChar x = true := by
  intro x hx
  rw [d.toList_isoformat, List.mem_append, List.mem_cons, List.mem_append, List.mem_cons] at hx
  obtain hx | rfl | hx | rfl | hx := hx
  · exact isFrontChar_of_digit (Nat.allDigits_padded _ _ x hx)
  · decide
  · exact isFrontChar_of_digit (Nat.allDigits_padded _ _ x hx)
  · decide
  · exact isFrontChar_of_digit (Nat.allDigits_padded _ _ x hx)

theorem isFrontChar_joined {f g h : List Char} (hf : ∀ x ∈ f, isFrontChar x = true) (hg : ∀ x ∈ g, isFrontChar x = true)
    (hh : ∀ x ∈ h, isFrontChar x = true) : ∀ x ∈ f ++ '-' :: (g ++ '-' :: h), isFrontChar x = true := by
  intro x hx
  rw [List.mem_append, List.mem_cons, List.mem_append, List.mem_cons] at hx
  obtain hx | rfl | hx | rfl | hx := hx
  · exact hf x hx
  · decide
  · exact hg x hx
  · decide
  · exact hh x hx

theorem isFrontChar_front : ∀ x ∈ t.front, isFrontChar x = true :=
  isFrontChar_joined (isFrontChar_of_name t.strategy_ok) (isFrontChar_date t.tradingDate) (isFrontChar_of_name t.window_ok)

end Components

/-- The side at the end of a text. -/
theorem side_inj {u v : List Char} {s s' : OrderSide} (h : u ++ '-' :: s.lower.toList = v ++ '-' :: s'.lower.toList) :
    u = v ∧ s = s' := by
  have hbuy : OrderSide.buy.lower.toList = ['b', 'u', 'y'] := rfl
  have hsell : OrderSide.sell.lower.toList = ['s', 'e', 'l', 'l'] := rfl
  obtain rfl | hne := eq_or_ne s s'
  · exact ⟨List.append_cancel_right h, rfl⟩
  · have hlast := congrArg List.getLast? h
    cases s with
    | buy =>
      obtain rfl : s' = .sell := by cases s' <;> simp_all
      rw [hbuy, hsell] at hlast
      simp at hlast
    | sell =>
      obtain rfl : s' = .buy := by cases s' <;> simp_all
      rw [hbuy, hsell] at hlast
      simp at hlast

/-- Front, version, symbol and side are read off an id from its end. -/
theorem parts_inj {f f' n n' y y' : List Char} {c c' : Char} {s s' : OrderSide} (hf : ∀ x ∈ f, isFrontChar x = true)
    (hf' : ∀ x ∈ f', isFrontChar x = true) (hn : Nat.AllDigits n) (hn' : Nat.AllDigits n') (hc : isUpper c = true)
    (hc' : isUpper c' = true)
    (h : f ++ '-' :: 't' :: (n ++ '-' :: (c :: y ++ '-' :: s.lower.toList)) =
      f' ++ '-' :: 't' :: (n' ++ '-' :: (c' :: y' ++ '-' :: s'.lower.toList))) :
    f = f' ∧ n = n' ∧ c :: y = c' :: y' ∧ s = s' := by
  have hfront : ∀ {f n : List Char}, (∀ x ∈ f, isFrontChar x = true) → Nat.AllDigits n →
      ∀ x ∈ f ++ '-' :: 't' :: (n ++ ['-']), isFrontChar x = true := by
    intro f n hf hn x hx
    simp only [List.mem_append, List.mem_cons, List.not_mem_nil, or_false] at hx
    obtain hx | rfl | rfl | hx | rfl := hx
    · exact hf x hx
    · decide
    · decide
    · exact Components.isFrontChar_of_digit (hn x hx)
    · decide
  have hregroup : ∀ {f n y : List Char} {c : Char}, f ++ '-' :: 't' :: (n ++ '-' :: (c :: y)) =
      (f ++ '-' :: 't' :: (n ++ ['-'])) ++ c :: y := by simp
  have hupper : ∀ {c : Char}, isUpper c = true → isFrontChar c = false := by simp [isFrontChar]
  rw [List.cons_append, List.cons_append, hregroup, hregroup] at h
  -- the symbol begins with the first letter in upper case
  obtain ⟨hleft, rfl, hright⟩ := run_inj (hfront hf hn) (hfront hf' hn') (hupper hc) (hupper hc') h
  obtain ⟨rfl, rfl⟩ := side_inj hright
  have hleft : (f ++ ['-']) ++ 't' :: n = (f' ++ ['-']) ++ 't' :: n' := by
    have hdrop := congrArg List.dropLast hleft
    simpa [List.dropLast_append, List.dropLast_cons_of_ne_nil] using hdrop
  obtain ⟨hf, -, rfl⟩ := run_inj_right hn hn' (by decide) (by decide) hleft
  exact ⟨List.append_cancel_right hf, rfl, rfl, rfl⟩

/-! ### Which components have an id -/

theorem isDigit_of_isNonZeroDigit {c : Char} (h : isNonZeroDigit c = true) : c.isDigit = true := by
  simp only [isNonZeroDigit, Bool.and_eq_true, decide_eq_true_eq, Char.le_def, UInt32.le_iff_toNat_le] at h
  simp only [← isDigit_eq, isDigit, Bool.and_eq_true, decide_eq_true_eq, Char.le_def, UInt32.le_iff_toNat_le]
  exact ⟨Nat.le_of_succ_le h.1, h.2⟩

theorem leading_digit_ne {n : Nat} (hn : 1 ≤ n) {c : Char} {l : List Char} (h : Nat.toDigits 10 n = c :: l) : c ≠ '0' := by
  rintro rfl
  have hdigits : Nat.AllDigits l := (Nat.allDigits_cons.mp (h ▸ Nat.allDigits_toDigits n)).2
  have hvalue : Nat.ofDigitChars 10 l 0 = n := by
    have hall := Nat.ofDigitChars_ten_toDigits (n := n)
    rwa [h, Nat.ofDigitChars_cons_zero, show '0'.toNat - 48 = 0 from rfl, Nat.mul_zero, Nat.zero_add] at hall
  have hlt : n < 10 ^ l.length := hvalue ▸ Nat.ofDigitChars_lt hdigits
  have hpos : 0 < l.length := by
    by_contra hnil
    rw [Nat.eq_zero_of_not_pos hnil] at hlt
    omega
  have hshort := (Nat.length_toDigits_le_iff (by decide) hpos).mpr hlt
  rw [h, List.length_cons] at hshort
  omega

namespace Components

variable (t u : Components)

/-- The components an id has room for: a version of ten digits at the most, and at the most 107 characters
beside the tag, the date and the separators. -/
structure Fits : Prop where
  version : t.targetVersion < 10000000000
  room : t.strategy.length + t.window.length + (toString t.targetVersion).length + t.symbol.value.length +
    t.side.lower.length ≤ 107

theorem length_text : t.text.length = 21 + (t.strategy.length + t.window.length + (toString t.targetVersion).length +
    t.symbol.value.length + t.side.lower.length) := by
  have hdate : t.tradingDate.isoformat.length = 10 := by
    rw [← String.length_toList]
    exact t.tradingDate.dateText.length
  have htag : "slv1-".length = 5 := rfl
  have hdash : "-".length = 1 := rfl
  have hversion : "-t".length = 2 := rfl
  simp only [text, String.length_append, hdate, htag, hdash, hversion]
  omega

/-- The digits of a version are those of the pattern up to ten of them. -/
theorem version_digits (h : t.targetVersion < 10000000000) : ∃ c l, Nat.toDigits 10 t.targetVersion = c :: l ∧
    isNonZeroDigit c = true ∧ l.length ≤ 9 ∧ Nat.AllDigits l := by
  have hlen := (Nat.length_toDigits_le_iff (b := 10) (k := 10) (by decide) (by decide)).mpr h
  cases hdigits : Nat.toDigits 10 t.targetVersion with
  | nil => exact absurd hdigits (List.length_pos_iff.mp Nat.length_toDigits_pos)
  | cons c l =>
    rw [hdigits, List.length_cons] at hlen
    have hall := Nat.allDigits_cons.mp (hdigits ▸ Nat.allDigits_toDigits t.targetVersion)
    refine ⟨c, l, rfl, ?_, by omega, hall.2⟩
    have hne := leading_digit_ne t.version_ok.1 hdigits
    have hbounds := Nat.digit_bounds hall.1
    have hnat : c.toNat ≠ 48 := fun h => hne (Char.toNat_inj.mp h)
    simp only [isNonZeroDigit, Bool.and_eq_true, decide_eq_true_eq, Char.le_def, UInt32.le_iff_toNat_le]
    constructor
    · change 49 ≤ c.toNat
      omega
    · exact hbounds.2

theorem matches_digit {c : Char} (h : c.isDigit = true) : (Pattern.cls isDigit).Matches [c] := ⟨c, rfl, h⟩

/-- With a version of ten digits the id has the canonical form. -/
theorem fullmatch_text (h : t.targetVersion < 10000000000) : clientOrderIdPattern.fullmatch t.text = true := by
  obtain ⟨c, l, hdigits, hc, hlen, hl⟩ := t.version_digits h
  obtain ⟨a, b, e, f, i, j, k, m, hdate, hall⟩ := t.tradingDate.dateText.shape
  simp only [Nat.AllDigits, List.forall_mem_cons] at hall
  obtain ⟨ha, hb, he, hf, hi, hj, hk, hm, -⟩ := hall
  have hside : (Pattern.alt (.lit "buy") (.lit "sell")).Matches t.side.lower.toList := by
    cases t.side with
    | buy => exact Or.inl (Pattern.matches_lit.mpr rfl)
    | sell => exact Or.inr (Pattern.matches_lit.mpr rfl)
  have hlit : ∀ s : String, (Pattern.lit s).Matches s.toList := fun s => Pattern.matches_lit.mpr rfl
  rw [Pattern.fullmatch_iff, clientOrderIdPattern, Pattern.matches_cat]
  refine ⟨["slv1-".toList, t.strategy.toList, "-".toList, [a], [b], [e], [f], "-".toList, [i], [j], "-".toList, [k], [m],
    "-".toList, t.window.toList, "-t".toList, [c], l, "-".toList, t.symbol.value.toList, "-".toList, t.side.lower.toList], ?_, ?_⟩
  · exact .cons (hlit _) (.cons (Pattern.fullmatch_iff.mp t.strategy_ok) (.cons (hlit _) (.cons (matches_digit ha)
      (.cons (matches_digit hb) (.cons (matches_digit he) (.cons (matches_digit hf) (.cons (hlit _) (.cons (matches_digit hi)
      (.cons (matches_digit hj) (.cons (hlit _) (.cons (matches_digit hk) (.cons (matches_digit hm) (.cons (hlit _)
      (.cons (Pattern.fullmatch_iff.mp t.window_ok) (.cons (hlit _) (.cons ⟨c, rfl, hc⟩ (.cons ⟨hlen, hl⟩ (.cons (hlit _)
      (.cons (Pattern.fullmatch_iff.mp t.symbol.ok) (.cons (hlit _) (.cons hside .nil)))))))))))))))))))))
  · rw [t.toList_text, front, hdate, hdigits]
    have hdash : "-".toList = ['-'] := rfl
    have hversion : "-t".toList = ['-', 't'] := rfl
    simp only [hdash, hversion, List.flatten_cons, List.flatten_nil, List.cons_append, List.nil_append, List.append_assoc,
      List.append_nil]

theorem side_of_matches {v : List Char} (h : (Pattern.alt (.lit "buy") (.lit "sell")).Matches v) :
    ∃ s : OrderSide, v = s.lower.toList := by
  obtain h | h := h
  · exact ⟨.buy, Pattern.matches_lit.mp h⟩
  · exact ⟨.sell, Pattern.matches_lit.mp h⟩

/-- An id of the canonical form has a version of at most ten digits. -/
theorem version_lt_of_fullmatch (h : clientOrderIdPattern.fullmatch t.text = true) : t.targetVersion < 10000000000 := by
  rw [Pattern.fullmatch_iff, clientOrderIdPattern, Pattern.matches_cat] at h
  obtain ⟨us, hus, htext⟩ := h
  obtain _ | ⟨htag, _ | ⟨hstrategy, _ | ⟨hdash₁, _ | ⟨⟨a, rfl, ha⟩, _ | ⟨⟨b, rfl, hb⟩, _ | ⟨⟨c, rfl, hc⟩, _ | ⟨⟨d, rfl, hd⟩,
    _ | ⟨hdash₂, _ | ⟨⟨e, rfl, he⟩, _ | ⟨⟨f, rfl, hf⟩, _ | ⟨hdash₃, _ | ⟨⟨g, rfl, hg⟩, _ | ⟨⟨i, rfl, hi⟩, _ | ⟨hdash₄,
    _ | ⟨hwindow, _ | ⟨hmark, _ | ⟨⟨j, rfl, hj⟩, _ | ⟨⟨hlen, hdigits⟩, _ | ⟨hdash₅, _ | ⟨hsymbol, _ | ⟨hdash₆,
    _ | ⟨hside, ⟨⟩⟩⟩⟩⟩⟩⟩⟩⟩⟩⟩⟩⟩⟩⟩⟩⟩⟩⟩⟩⟩⟩⟩ := hus
  rw [Pattern.matches_lit] at htag hdash₁ hdash₂ hdash₃ hdash₄ hmark hdash₅ hdash₆
  obtain ⟨s, rfl⟩ := side_of_matches hside
  obtain ⟨_, l, rfl, ⟨k, rfl, hk⟩, -⟩ := hsymbol
  obtain ⟨x, y, hupper, hx⟩ := t.symbol_head
  have hdash : "-".toList = ['-'] := rfl
  have hversion : "-t".toList = ['-', 't'] := rfl
  simp only [htag, hdash₁, hdash₂, hdash₃, hdash₄, hmark, hdash₅, hdash₆, hdash, hversion, t.toList_text, hupper, List.flatten_cons,
    List.flatten_nil, List.append_nil, List.append_cancel_left_eq] at htext
  rename_i v _ _ _ _ w _ n _ _
  have hfront : ∀ z ∈ v ++ '-' :: ([a, b, c, d, '-', e, f, '-', g, i] ++ '-' :: w), isFrontChar z = true := by
    have hdate : ∀ z ∈ [a, b, c, d, '-', e, f, '-', g, i], isFrontChar z = true := by
      have hmark : isFrontChar '-' = true := by decide
      have hof : ∀ {z : Char}, isDigit z = true → isFrontChar z = true := isFrontChar_of_digit
      simp [hmark, hof ha, hof hb, hof hc, hof hd, hof he, hof hf, hof hg, hof hi]
    exact isFrontChar_joined (hstrategy.all within_name) hdate (hwindow.all within_name)
  have hparts : t.front ++ '-' :: 't' :: (Nat.toDigits 10 t.targetVersion ++ '-' :: (x :: y ++ '-' :: t.side.lower.toList)) =
      v ++ '-' :: ([a, b, c, d, '-', e, f, '-', g, i] ++ '-' :: w) ++ '-' :: 't' :: (j :: n ++ '-' :: (k :: l ++ '-' :: s.lower.toList)) :=
    htext.trans (by simp)
  obtain ⟨-, hn, -, -⟩ := parts_inj t.isFrontChar_front hfront (Nat.allDigits_toDigits _)
    (Nat.allDigits_cons.mpr ⟨isDigit_of_isNonZeroDigit hj, hdigits⟩) hx hk hparts
  have hlength : (Nat.toDigits 10 t.targetVersion).length ≤ 10 := by
    rw [hn, List.length_cons]
    exact Nat.succ_le_succ hlen
  exact (Nat.length_toDigits_le_iff (by decide) (by decide)).mp hlength

theorem Fits.compose {t : Components} (h : t.Fits) : ∃ id, t.compose = .ok id := by
  have hroom := h.room
  have hlen := t.length_text
  have hok : t.text.length ≤ 128 ∧ clientOrderIdPattern.fullmatch t.text = true := ⟨by omega, t.fullmatch_text h.version⟩
  refine ⟨⟨t.text, hok⟩, ?_⟩
  rw [t.compose_eq, ClientOrderId.ofText, dif_pos hok]

variable {t u : Components}

theorem fits_of_compose {id : ClientOrderId} (h : t.compose = .ok id) : t.Fits ∧ id.value = t.text := by
  rw [t.compose_eq, ClientOrderId.ofText] at h
  split at h
  · rename_i hok
    cases h
    have hlen := t.length_text
    exact ⟨⟨t.version_lt_of_fullmatch hok.2, by omega⟩, rfl⟩
  · cases h

/-- Validated components have an id exactly if they fit into one. -/
theorem compose_ok_iff (t : Components) : (∃ id, t.compose = .ok id) ↔ t.Fits :=
  ⟨fun ⟨_, h⟩ => (fits_of_compose h).1, Fits.compose⟩

/-- The largest target version that passes its check has no id. -/
theorem largest_version_refused : ¬ ∀ t : Components, ∃ id, t.compose = .ok id := by
  intro h
  obtain ⟨id, hid⟩ := h ⟨"a", ⟨2026, 1, 1, by decide, by decide, by decide⟩, "b", 10000000000, ⟨"X", rfl⟩, .buy, rfl, rfl, by decide⟩
  exact absurd (fits_of_compose hid).1.version (by decide)

/-! ### When two tuples share an id -/

/-- The date of `t` stands in the strategy of `u`, and the date of `u` in the window of `t`. -/
def Shifted (t u : Components) : Prop := ∃ between : List Char,
  u.strategy.toList = t.strategy.toList ++ '-' :: (t.tradingDate.isoformat.toList ++ between) ∧
    '-' :: t.window.toList = between ++ '-' :: (u.tradingDate.isoformat.toList ++ '-' :: u.window.toList)

/-- Two tuples with one id that are not the same. -/
structure Collides (t u : Components) : Prop where
  targetVersion : t.targetVersion = u.targetVersion
  symbol : t.symbol = u.symbol
  side : t.side = u.side
  shifted : t.Shifted u

theorem Shifted.front_eq (h : t.Shifted u) : t.front = u.front := by
  obtain ⟨between, hstrategy, hwindow⟩ := h
  simp [front, hstrategy, hwindow]

theorem Shifted.ne (h : t.Shifted u) : t ≠ u := by
  rintro rfl
  obtain ⟨between, hstrategy, -⟩ := h
  have hlen := congrArg List.length hstrategy
  rw [List.length_append, List.length_cons] at hlen
  omega

theorem Collides.text_eq (h : t.Collides u) : t.text = u.text := by
  refine String.toList_injective ?_
  rw [t.toList_text, u.toList_text, h.targetVersion, h.symbol, h.side, h.shifted.front_eq]

/-- What stands before the version determines the first three components, unless a date can be taken for another. -/
theorem front_inj (h : t.front = u.front) :
    (t.strategy = u.strategy ∧ t.tradingDate = u.tradingDate ∧ t.window = u.window) ∨ t.Shifted u ∨ u.Shifted t := by
  have hcase : ∀ {t u : Components} {g : List Char}, u.strategy.toList = t.strategy.toList ++ g →
      '-' :: (t.tradingDate.isoformat.toList ++ '-' :: t.window.toList) =
        g ++ '-' :: (u.tradingDate.isoformat.toList ++ '-' :: u.window.toList) →
      (t.strategy = u.strategy ∧ t.tradingDate = u.tradingDate ∧ t.window = u.window) ∨ t.Shifted u := by
    intro t u g hstrategy hrest
    obtain rfl | hg := eq_or_ne g []
    · left
      obtain ⟨hdate, hwindow⟩ := List.append_inj (List.cons.inj hrest).2
        (t.tradingDate.dateText.length.trans u.tradingDate.dateText.length.symm)
      rw [List.append_nil] at hstrategy
      exact ⟨(String.toList_injective hstrategy).symm, TradingDate.isoformat_inj hdate,
        String.toList_injective (List.cons.inj hwindow).2⟩
    · right
      obtain ⟨between, rfl, hwindow⟩ := dates_apart t.tradingDate.dateText u.tradingDate.dateText hg hrest
      exact ⟨between, hstrategy, hwindow⟩
  obtain ⟨g, hstrategy, hrest⟩ | ⟨g, hstrategy, hrest⟩ := List.append_eq_append_iff.mp h
  · exact (hcase hstrategy hrest).imp_right Or.inl
  · obtain ⟨hs, hd, hw⟩ | hshifted := hcase hstrategy hrest
    · exact Or.inl ⟨hs.symm, hd.symm, hw.symm⟩
    · exact Or.inr (Or.inr hshifted)

/-- Two tuples of one text are equal, or they collide. -/
theorem eq_or_collides (h : t.text = u.text) : t = u ∨ t.Collides u ∨ u.Collides t := by
  have hlist := congrArg String.toList h
  rw [t.toList_text, u.toList_text] at hlist
  obtain ⟨c, l, hsymbol, hc⟩ := t.symbol_head
  obtain ⟨d, m, hsymbol', hd⟩ := u.symbol_head
  rw [hsymbol, hsymbol'] at hlist
  obtain ⟨hfront, hdigits, hname, hside⟩ := parts_inj t.isFrontChar_front u.isFrontChar_front (Nat.allDigits_toDigits _)
    (Nat.allDigits_toDigits _) hc hd (List.append_cancel_left hlist)
  have hversion : t.targetVersion = u.targetVersion := by
    have := congrArg (Nat.ofDigitChars 10 · 0) hdigits
    simpa using this
  have hsymbols : t.symbol = u.symbol := by
    have hvalue : t.symbol.value = u.symbol.value := String.toList_injective (by rw [hsymbol, hsymbol', hname])
    cases ht : t.symbol
    cases hu : u.symbol
    simp_all
  obtain ⟨hstrategy, hdate, hwindow⟩ | hshifted | hshifted := front_inj hfront
  · left
    cases t
    cases u
    simp_all
  · exact Or.inr (Or.inl ⟨hversion, hsymbols, hside, hshifted⟩)
  · exact Or.inr (Or.inr ⟨hversion.symm, hsymbols.symm, hside.symm, hshifted⟩)

/-- Equal ids have equal components, unless two tuples collide in a text that fits. -/
theorem compose_injective_iff (t u : Components) : (∀ id, t.compose = .ok id → u.compose = .ok id → t = u) ↔
    ¬ (t.Fits ∧ (t.Collides u ∨ u.Collides t)) := by
  constructor
  · rintro h ⟨hfits, hcollides⟩
    have htext : t.text = u.text := hcollides.elim Collides.text_eq fun hc => hc.text_eq.symm
    have hne : t ≠ u := hcollides.elim (fun hc => hc.shifted.ne) fun hc => hc.shifted.ne.symm
    obtain ⟨id, hid⟩ := hfits.compose
    exact hne (h id hid (by rw [← hid, compose_eq, compose_eq, htext]))
  · intro h id ht hu
    obtain ⟨hfits, hvalue⟩ := fits_of_compose ht
    have htext : t.text = u.text := hvalue.symm.trans (fits_of_compose hu).2
    exact (eq_or_collides htext).resolve_right fun hc => h ⟨hfits, hc⟩

/-- One id of two tuples: the second date of the first tuple's window is the trading date of the other one. -/
theorem two_intents_one_id : ¬ ∀ (t u : Components) id, t.compose = .ok id → u.compose = .ok id → t = u := by
  intro h
  have hne := congrArg Components.strategy (h
    ⟨"a", ⟨2026, 1, 1, by decide, by decide, by decide⟩, "b-2026-01-02-c", 1, ⟨"X", rfl⟩, .buy, rfl, rfl, by decide⟩
    ⟨"a-2026-01-01-b", ⟨2026, 1, 2, by decide, by decide, by decide⟩, "c", 1, ⟨"X", rfl⟩, .buy, rfl, rfl, by decide⟩
    ⟨"slv1-a-2026-01-01-b-2026-01-02-c-t1-X-buy", by decide, rfl⟩ rfl rfl)
  exact absurd hne (by decide)

end Components

end SevenLens
