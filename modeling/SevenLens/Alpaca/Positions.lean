import SevenLens.Alpaca.Adapter
import SevenLens.ConsumerStream
import SevenLens.Ledger

/-! # The positions of a faithful broker

The broker lists every open position with the average price of its shares.  The prices of the ledger are
whole cents and an average of them need not be, but `list_positions` reads the average as a price of an
order.  `listPositions_iff`: the list is read back exactly when every average is sent as a whole number of
cents. -/

namespace SevenLens.Alpaca

open MarketData

/-! ### Whole cents -/

/-- A number of dollars that is a whole number of cents. -/
def IsWholeCents (x : ℚ) : Prop := ∃ k : ℤ, x = k / 100

theorem coefficientAt_two {d : Decimal} {k : Nat} (h : d.magnitude = k / 100) : Analysis.coefficientAt 2 d = k := by
  unfold Analysis.coefficientAt
  split_ifs with hexp
  · have hmul : (d.coefficient : ℚ) * 10 ^ (d.exponent + 2) = k := by
      rw [zpow_add₀ (by norm_num), ← mul_assoc]
      change d.magnitude * 10 ^ (2 : ℤ) = k
      rw [h]
      norm_num
    have hnat : ((d.coefficient * 10 ^ (d.exponent + 2).toNat : Nat) : ℚ) = k := by
      rw [← hmul, Nat.cast_mul, Nat.cast_pow, ← zpow_natCast, Int.toNat_of_nonneg (by omega)]
      norm_num
    exact Nat.cast_injective hnat
  · have hdiv : (d.coefficient : ℚ) / 10 ^ (-d.exponent - (2 : Nat)).toNat = k := by
      have hpow : (10 : ℚ) ^ (-d.exponent - (2 : Nat)).toNat = (10 ^ (d.exponent + 2))⁻¹ := by
        rw [← zpow_natCast, Int.toNat_of_nonneg (by omega), ← zpow_neg]
        congr 1
        push_cast
        ring
      rw [hpow, div_inv_eq_mul, zpow_add₀ (by norm_num), ← mul_assoc]
      change d.magnitude * 10 ^ (2 : ℤ) = k
      rw [h]
      norm_num
    rw [hdiv, halfEven_natCast]

theorem twoDecimalDecimal_eq {value : String} {d : Decimal}
    (hd : Decimal.readFinite decimalValue isSpace value.toList = some d) : twoDecimalDecimal value =
      if Analysis.coefficientAt 2 d < 10 ^ contextDigits ∧ (Decimal.mk d.negative (Analysis.coefficientAt 2 d) (-2)).value = d.value then
        some ⟨d.negative, Analysis.coefficientAt 2 d, -2⟩
      else none := by
  simp only [twoDecimalDecimal, hd]
  rfl

theorem cents_value (k : Nat) : (Decimal.mk false k (-2)).value = k / 100 := by
  simp only [Decimal.value, Decimal.magnitude, Bool.false_eq_true, if_false]
  norm_num
  ring

/-- A number is read as a price exactly when it is a positive whole number of cents in range. -/
theorem exists_price {payload : Json} {field value : String} {d : Decimal} (hv : requiredText payload field = .ok value)
    (hd : Decimal.readFinite decimalValue isSpace value.toList = some d) :
    (∃ p, price payload field = .ok p) ↔ ∃ k : Nat, 1 ≤ k ∧ k ≤ 1000000000 ∧ d.value = k / 100 := by
  simp only [price, hv, bind, Except.bind, twoDecimalDecimal_eq hd]
  constructor
  · rintro ⟨p, hp⟩
    split_ifs at hp with hexact
    · simp only at hp
      split_ifs at hp with hrange hnegative
      have hsign : d.negative = false := by simpa using hnegative
      refine ⟨Analysis.coefficientAt 2 d, hrange.1, hrange.2, ?_⟩
      rw [← hexact.2, hsign, cents_value]
  · rintro ⟨k, hone, hmax, hk⟩
    have hpos : 0 < d.value := by
      rw [hk]
      have : (0 : ℚ) < k := by exact_mod_cast hone
      exact div_pos this (by norm_num)
    have hsign : d.negative = false := by
      by_contra hnegative
      rw [Decimal.value, if_pos (by simpa using hnegative)] at hpos
      have := d.magnitude_nonneg
      linarith
    have hmagnitude : d.magnitude = k / 100 := by
      rw [← hk, Decimal.value, hsign]
      rfl
    have hcents := coefficientAt_two hmagnitude
    have hdigits : k < 10 ^ contextDigits := lt_of_le_of_lt hmax (by decide)
    rw [hcents, hsign, if_pos ⟨hdigits, by rw [cents_value, hk]⟩]
    simp only [Bool.false_eq_true, if_false]
    exact ⟨_, dif_pos ⟨hone, hmax⟩⟩

/-! ### Averages -/

/-- The price of the shares of a symbol in open lots. -/
def cost (lots : List OpenLot) (s : Symbol) : Nat :=
  (lots.map (fun l => if l.symbol = s then l.quantity * l.price.cents else 0)).sum

/-- `x` is `q`, or `q` rounded to two or more decimal places, up or down. -/
def IsQuotient (q x : ℚ) : Prop := x = q ∨ ∃ places ≥ 2, (∃ k : ℤ, x = k / 10 ^ places) ∧ |x - q| < 1 / 10 ^ places

/-- The average price in dollars. -/
def averagePrice (lots : List OpenLot) (q : Symbol × Nat) : ℚ := cost lots q.1 / (100 * q.2)

/-- How a broker lists a position over these lots. -/
structure Listed (lots : List OpenLot) (q : Symbol × Nat) where
  fields : List (String × Json)
  averageText : String
  average : Decimal
  symbol_eq : fields.lookup "symbol" = some (.str q.1.value)
  qty_eq : fields.lookup "qty" = some (.str (toString q.2))
  average_eq : fields.lookup "avg_entry_price" = some (.str averageText)
  reads : Decimal.readFinite decimalValue isSpace averageText.toList = some average
  quotient : IsQuotient (averagePrice lots q) average.value

theorem cost_bounds (lots : List OpenLot) (s : Symbol) : held lots s ≤ cost lots s ∧ cost lots s ≤ held lots s * 1000000000 := by
  unfold held cost
  induction lots with
  | nil => simp
  | cons l lots ih =>
    simp only [List.map_cons, List.sum_cons]
    obtain ⟨hlow, hhigh⟩ := ih
    split_ifs
    · have h1 : l.quantity * 1 ≤ l.quantity * l.price.cents := Nat.mul_le_mul_left _ l.price.ok.1
      have h2 : l.quantity * l.price.cents ≤ l.quantity * 1000000000 := Nat.mul_le_mul_left _ l.price.ok.2
      rw [Nat.add_mul]
      omega
    · omega

/-- Whole cents next to the average are a price. -/
theorem exists_cents {lots : List OpenLot} {q : Symbol × Nat} (hq : q.2 = held lots q.1) (hpos : 1 ≤ q.2) {x : ℚ}
    (hx : IsQuotient (averagePrice lots q) x) :
    IsWholeCents x ↔ ∃ k : Nat, 1 ≤ k ∧ k ≤ 1000000000 ∧ x = k / 100 := by
  constructor
  · rintro ⟨k, rfl⟩
    obtain ⟨hlow, hhigh⟩ := cost_bounds lots q.1
    rw [← hq] at hlow hhigh
    have hn : (0 : ℚ) < q.2 := by exact_mod_cast hpos
    -- the average is between one cent and the largest price, and `k` less than a cent away from it
    have hcents : averagePrice lots q * 100 = cost lots q.1 / q.2 := by
      unfold averagePrice
      field_simp
    have haverage : 1 ≤ averagePrice lots q * 100 ∧ averagePrice lots q * 100 ≤ 1000000000 := by
      rw [hcents, le_div_iff₀ hn, div_le_iff₀ hn]
      constructor
      · rw [one_mul]
        exact_mod_cast hlow
      · rw [mul_comm]
        exact_mod_cast hhigh
    have hnear : |(k : ℚ) / 100 - averagePrice lots q| < 1 / 100 := by
      obtain hx | ⟨places, hplaces, -, hx⟩ := hx
      · rw [hx, sub_self, abs_zero]
        norm_num
      · refine hx.trans_le (one_div_le_one_div_of_le (by norm_num) ?_)
        calc (100 : ℚ) = 10 ^ 2 := by norm_num
          _ ≤ 10 ^ places := pow_le_pow_right₀ (by norm_num) hplaces
    obtain ⟨hbelow, habove⟩ := abs_lt.mp hnear
    have hk : (0 : ℚ) < k ∧ (k : ℚ) < 1000000001 := by
      constructor
      · linarith [haverage.1]
      · linarith [haverage.2]
    have hk' : 0 < k ∧ k < 1000000001 := by exact_mod_cast hk
    obtain ⟨m, rfl⟩ := Int.eq_ofNat_of_zero_le hk'.1.le
    refine ⟨m, ?_, ?_, rfl⟩
    · omega
    · omega
  · rintro ⟨k, -, -, hk⟩
    exact ⟨k, hk⟩

/-- An average that is sent as it is is a whole number of cents when the shares divide the cost. -/
theorem wholeCents_average_iff {lots : List OpenLot} {q : Symbol × Nat} (hpos : 1 ≤ q.2) :
    IsWholeCents (averagePrice lots q) ↔ q.2 ∣ cost lots q.1 := by
  have hn : (q.2 : ℚ) ≠ 0 := by exact_mod_cast Nat.ne_of_gt hpos
  have hcents : ∀ k : ℤ, averagePrice lots q = k / 100 ↔ (cost lots q.1 : ℤ) = q.2 * k := by
    intro k
    unfold averagePrice
    rw [div_eq_div_iff (by simpa using hn) (by norm_num)]
    constructor
    · intro h
      have : (cost lots q.1 : ℚ) = q.2 * k := by linarith
      exact_mod_cast this
    · intro h
      have : (cost lots q.1 : ℚ) = q.2 * k := by exact_mod_cast h
      rw [this]
      ring
  rw [← Int.natCast_dvd_natCast]
  exact exists_congr hcents

/-! ### Reading the list -/

theorem isBlank_eq_false {s : String} {c : Char} (hc : c ∈ s.toList) (h : isSpace c = false) : isBlank s = false := by
  rw [isBlank, List.all_eq_false]
  exact ⟨c, hc, by simp [h]⟩

theorem isSpace_of_isDigit {c : Char} (h : c.isDigit = true) : isSpace c = false := by
  have hbounds := Nat.digit_bounds h
  simp only [isSpace, Bool.or_eq_false_iff, Bool.and_eq_false_iff, decide_eq_false_iff_not, beq_eq_false_iff_ne]
  omega

theorem isBlank_symbol (s : Symbol) : isBlank s.value = false := by
  obtain ⟨c, l, hs, hc, -⟩ := Pattern.fullmatch_cls_upTo.mp s.ok
  refine isBlank_eq_false (hs ▸ List.mem_cons_self) ?_
  simp only [isUpper, Bool.and_eq_true, decide_eq_true_eq, Char.le_def, UInt32.le_iff_toNat_le] at hc
  have hbounds : 65 ≤ c.toNat ∧ c.toNat ≤ 90 := hc
  simp only [isSpace, Bool.or_eq_false_iff, Bool.and_eq_false_iff, decide_eq_false_iff_not, beq_eq_false_iff_ne]
  omega

theorem requiredText_ok {fields : List (String × Json)} {field s : String} (h : fields.lookup field = some (.str s))
    (hs : isBlank s = false) : requiredText (.obj fields) field = .ok s := by
  simp only [requiredText, h, hs]
  rfl

/-- A text with nothing but blanks is no number. -/
theorem isBlank_of_readFinite {s : String} {d : Decimal} (h : Decimal.readFinite decimalValue isSpace s.toList = some d) :
    isBlank s = false := by
  by_contra hblank
  have hall : ∀ c ∈ s.toList, isSpace c = true := by simpa [isBlank] using hblank
  have hdrop : s.toList.dropWhile isSpace = [] := List.dropWhile_eq_nil_iff.mpr hall
  rw [Decimal.readFinite, hdrop] at h
  exact nomatch h

theorem toList_toString (n : Nat) : (toString n).toList = Nat.toDigits 10 n := by
  rw [Nat.toString_eq_repr, Nat.toList_repr]

theorem number_toString (n : Nat) : number (toString n).toList = n := by
  rw [toList_toString, number_of_allDigits (Nat.allDigits_toDigits n), Nat.ofDigitChars_ten_toDigits]

/-- The text of a quantity is read as the quantity, unless it has too many digits. -/
theorem positiveInt_toString {fields : List (String × Json)} {field : String} {n : Nat}
    (h : fields.lookup field = some (.str (toString n))) (hn : 1 ≤ n) :
    positiveInt (.obj fields) field = (intOfText (toString n)).map fun _ => ⟨n, hn⟩ := by
  have hdigits : ∀ c ∈ (toString n).toList, c.isDigit = true := by
    rw [toList_toString]
    exact Nat.allDigits_toDigits n
  have hdecimal : (toString n).toList.all isDecimal = true :=
    List.all_eq_true.mpr fun c hc => isDecimal_of_isDigit (hdigits c hc)
  obtain ⟨c, l, hcl⟩ : ∃ c l, (toString n).toList = c :: l := by
    rw [toList_toString]
    exact List.exists_cons_of_ne_nil Nat.toDigits_ne_nil
  have hblank : isBlank (toString n) = false :=
    isBlank_eq_false (hcl ▸ List.mem_cons_self) (isSpace_of_isDigit (hdigits c (hcl ▸ List.mem_cons_self)))
  unfold positiveInt
  rw [requiredText_ok h hblank]
  simp only [Except.bind, bind, hdecimal, if_true]
  unfold intOfText
  split_ifs with hlong
  · rfl
  · simp only [number_toString]
    exact dif_pos hn

theorem exists_intOfText (s : String) : (∃ n, intOfText s = .ok n) ↔ s.length ≤ maxIntDigits := by
  unfold intOfText
  split_ifs with hlong
  · simpa using hlong
  · simpa using hlong

/-- A position is read back exactly when its average is whole cents and its quantity is not too long. -/
theorem exists_parsePosition {lots : List OpenLot} {q : Symbol × Nat} (item : Listed lots q) (hq : q.2 = held lots q.1)
    (hpos : 1 ≤ q.2) : (∃ p, parsePosition (.obj item.fields) = .ok p) ↔
      IsWholeCents item.average.value ∧ (toString q.2).length ≤ maxIntDigits := by
  have haverage := requiredText_ok item.average_eq (isBlank_of_readFinite item.reads)
  rw [exists_cents hq hpos item.quotient, ← exists_price haverage item.reads, ← exists_intOfText]
  have hsymbol : symbolOfText q.1.value = .ok q.1 := dif_pos q.1.ok
  unfold parsePosition
  rw [requiredText_ok item.symbol_eq (isBlank_symbol q.1), positiveInt_toString item.qty_eq hpos]
  simp only [Except.bind, bind, hsymbol]
  cases intOfText (toString q.2) with
  | error e => simp [Except.map]
  | ok n =>
    cases price (.obj item.fields) "avg_entry_price" with
    | error e => simp [Except.map]
    | ok p => simp [Except.map, pure, Except.pure]

/-- It is read back as it is. -/
theorem parsePosition_ok {lots : List OpenLot} {q : Symbol × Nat} (item : Listed lots q) (hpos : 1 ≤ q.2)
    {p : PaperPosition} (h : parsePosition (.obj item.fields) = .ok p) : (p.symbol, p.quantity) = q := by
  have hsymbol : symbolOfText q.1.value = .ok q.1 := dif_pos q.1.ok
  unfold parsePosition at h
  rw [requiredText_ok item.symbol_eq (isBlank_symbol q.1), positiveInt_toString item.qty_eq hpos] at h
  simp only [Except.bind, bind, hsymbol] at h
  cases hn : intOfText (toString q.2) with
  | error e =>
    rw [hn] at h
    cases h
  | ok n =>
    rw [hn] at h
    cases hprice : price (.obj item.fields) "avg_entry_price" with
    | error e =>
      simp only [Except.map, hprice] at h
      cases h
    | ok x =>
      simp only [Except.map, hprice] at h
      cases h
      rfl

/-! ### The list of positions -/

open Calls Prog

theorem quantityOf_of_mem {l : List (Symbol × Nat)} (hl : (l.map Prod.fst).Nodup) {q : Symbol × Nat} (h : q ∈ l) :
    quantityOf l q.1 = some q.2 := by
  induction l with
  | nil => cases h
  | cons a l ih =>
    rw [List.map_cons, List.nodup_cons] at hl
    rw [quantityOf_cons]
    obtain rfl | h := List.mem_cons.mp h
    · exact if_pos rfl
    · rw [if_neg fun (he : a.1 = q.1) => hl.1 (he ▸ List.mem_map_of_mem h)]
      exact ih hl.2 h

theorem addPosition_pos {s : Symbol} {n : Nat} (hn : 1 ≤ n) {l : List (Symbol × Nat)} (hl : ∀ q ∈ l, 1 ≤ q.2) :
    ∀ q ∈ addPosition s n l, 1 ≤ q.2 := by
  intro q hq
  unfold addPosition at hq
  split_ifs at hq
  · obtain ⟨a, ha, rfl⟩ := List.mem_map.mp hq
    have := hl a ha
    split_ifs
    · exact le_add_left hn
    · exact this
  · obtain hq | hq := List.mem_append.mp hq
    · exact hl q hq
    · rw [List.mem_singleton.mp hq]
      exact hn

/-- A position has at least one share, and its shares are those in open lots. -/
theorem mem_positions {p : LedgerProjection} {q : Symbol × Nat} (h : q ∈ p.positions) : q.2 = held p.lots q.1 ∧ 1 ≤ q.2 := by
  have hfold : ∀ (lots : List OpenLot) (l : List (Symbol × Nat)), (∀ q ∈ l, 1 ≤ q.2) →
      ∀ q ∈ lots.foldl (fun l lot => addPosition lot.symbol lot.quantity l) l, 1 ≤ q.2 := by
    intro lots
    induction lots with
    | nil => exact fun l hl => hl
    | cons lot lots ih => exact fun l hl => ih _ (addPosition_pos lot.pos hl)
  refine ⟨?_, hfold p.lots [] (by simp) q h⟩
  rw [← p.quantityOf_positions, quantityOf_of_mem p.positions_nodup h]
  rfl

theorem eval_getJson {r : AlpacaResponse} (hstatus : r.status / 100 = 2) (path : String) (params : List (String × String)) :
    eval (fun _ => .ok r) (getJson path params) = .ok r.body := by
  have hne : r.status ≠ 404 := by
    intro h
    rw [h] at hstatus
    omega
  have htimeout : r.status ∉ timeoutStatusCodes := by
    intro h
    simp only [timeoutStatusCodes, List.mem_cons, List.not_mem_nil, or_false] at h
    omega
  have hrequest : ∀ q, eval (fun _ => .ok r) (request q) = .ok r := fun q => eval_perform (S := transport) q
  unfold getJson requestJson
  rw [bind_eq, eval_bind_ok (hrequest _)]
  simp only [hne, htimeout, hstatus, if_false, ne_eq, not_true]
  rfl

theorem eval_listPositions {r : AlpacaResponse} {items : List Json} (hstatus : r.status / 100 = 2) (hbody : r.body = .arr items) :
    eval (fun _ => .ok r) listPositions = items.mapM parsePosition := by
  unfold listPositions
  rw [bind_eq, eval_bind_ok (eval_getJson hstatus _ _), hbody]
  simp only [itemsOf, bind_eq]
  rw [eval_bind_ok (eval_ofExcept _), eval_ofExcept]

/-- The body of a list of positions. -/
def positionsBody {lots : List OpenLot} (l : List (Sigma (Listed lots))) : List Json := l.map fun x => .obj x.2.fields

/-- The positions that are read are those of the list. -/
theorem positions_read {lots : List OpenLot} {l : List (Sigma (Listed lots))} (hl : ∀ x ∈ l, 1 ≤ x.1.2)
    {ps : List PaperPosition} (h : (positionsBody l).mapM parsePosition = .ok ps) :
    ps.map (fun p => (p.symbol, p.quantity)) = l.map Sigma.fst := by
  induction l generalizing ps with
  | nil =>
    cases h
    rfl
  | cons x l ih =>
    obtain ⟨p, t, hp, ht, rfl⟩ := Dict.mapM_cons_ok h
    rw [List.map_cons, List.map_cons, parsePosition_ok x.2 (hl x List.mem_cons_self) hp,
      ih (fun x hx => hl x (List.mem_cons_of_mem _ hx)) ht]

/-- **The list of a faithful broker is read back exactly when every average is sent as a whole number of
cents** and no quantity has more digits than `int` reads. -/
theorem listPositions_iff (orders : String → Option BrokerOrder) (fills : List Fill) (p : LedgerProjection)
    (l : List (Sigma (Listed p.lots))) (r : AlpacaResponse) :
    projectLedger fills orders = .ok p → p.positions.Perm (l.map Sigma.fst) → r.status / 100 = 2 →
      r.body = .arr (positionsBody l) →
        ((∃ ps, eval (fun _ => .ok r) listPositions = .ok ps ∧
            ps.map (fun x => (x.symbol, x.quantity)) = l.map Sigma.fst) ↔
          ∀ x ∈ l, IsWholeCents x.2.average.value ∧ (toString x.1.2).length ≤ maxIntDigits) := by
  intro _ hl hstatus hbody
  have hposition : ∀ x ∈ l, x.1.2 = held p.lots x.1.1 ∧ 1 ≤ x.1.2 :=
    fun x hx => mem_positions (hl.mem_iff.mpr (List.mem_map_of_mem hx))
  have hread : ∀ x ∈ l, (∃ y, parsePosition (.obj x.2.fields) = .ok y) ↔
      IsWholeCents x.2.average.value ∧ (toString x.1.2).length ≤ maxIntDigits :=
    fun x hx => exists_parsePosition x.2 (hposition x hx).1 (hposition x hx).2
  rw [eval_listPositions hstatus hbody]
  constructor
  · rintro ⟨ps, hps, -⟩ x hx
    have hforall := List.forall₂_map_left_iff.mp (Dict.forall₂_of_mapM hps)
    obtain ⟨y, -, hy⟩ := Dict.exists_of_forall₂ hforall hx
    exact (hread x hx).mp ⟨y, hy⟩
  · intro h
    obtain ⟨ps, hps⟩ : ∃ ps, (positionsBody l).mapM parsePosition = .ok ps := by
      refine Dict.exists_mapM fun j hj => ?_
      obtain ⟨x, hx, rfl⟩ := List.mem_map.mp hj
      exact (hread x hx).mpr (h x hx)
    exact ⟨ps, hps, positions_read (fun x hx => (hposition x hx).2) hps⟩

/-! ### Two shares at different prices -/

def mixedOrders (b : String) : Option BrokerOrder := if b = "b-1" then some (sampleOrder .partiallyFilled 2 5) else none

/-- A share for 100.00 dollars and one for 100.01. -/
def mixedFills : List Fill :=
  [sampleFill "x-1" ⟨1, by decide⟩ 3 (by decide),
    { sampleFill "x-2" ⟨1, by decide⟩ 4 (by decide) with price := ⟨10001, by decide⟩ }]

def mixedProjection : LedgerProjection where
  cashDeltaCents := -20001
  lots := [⟨sampleSymbol, 1, samplePrice, instant 3, by decide⟩, ⟨sampleSymbol, 1, ⟨10001, by decide⟩, instant 4, by decide⟩]
  cash_ok := by decide

theorem mixedFills_project : projectLedger mixedFills mixedOrders = .ok mixedProjection :=
  Dict.ok_of_toOption (by decide +kernel)

theorem mixedAverage : averagePrice mixedProjection.lots (sampleSymbol, 2) = 20001 / 200 := by
  have hcost : cost mixedProjection.lots sampleSymbol = 20001 := by decide +kernel
  simp only [averagePrice, hcost]
  norm_num

/-- The two shares, listed with the text of an average. -/
def mixedListed (text : String) (d : Decimal) (hd : Decimal.readFinite decimalValue isSpace text.toList = some d)
    (hq : IsQuotient (averagePrice mixedProjection.lots (sampleSymbol, 2)) d.value) :
    Listed mixedProjection.lots (sampleSymbol, 2) where
  fields := [("symbol", .str "AAPL"), ("qty", .str (toString 2)), ("avg_entry_price", .str text)]
  averageText := text
  average := d
  symbol_eq := rfl
  qty_eq := rfl
  average_eq := rfl
  reads := hd
  quotient := hq

/-- The average as it is. -/
def exactAverage : Listed mixedProjection.lots (sampleSymbol, 2) :=
  mixedListed "100.005" ⟨false, 100005, -3⟩ (by decide +kernel) (by
    rw [mixedAverage]
    left
    simp only [Decimal.value, Decimal.magnitude, Bool.false_eq_true, if_false]
    norm_num)

/-- The average, rounded to two decimal places. -/
def roundedAverage : Listed mixedProjection.lots (sampleSymbol, 2) :=
  mixedListed "100.01" ⟨false, 10001, -2⟩ (by decide +kernel) (by
    rw [mixedAverage, cents_value]
    refine .inr ⟨2, le_rfl, ⟨10001, by norm_num⟩, ?_⟩
    norm_num [abs_lt])

def okResponse (body : Json) : AlpacaResponse := ⟨200, body, by decide⟩

/-- The list with the two shares. -/
def mixedList (x : Listed mixedProjection.lots (sampleSymbol, 2)) : List (Sigma (Listed mixedProjection.lots)) := [⟨_, x⟩]

theorem mixedPositions (x : Listed mixedProjection.lots (sampleSymbol, 2)) :
    mixedProjection.positions.Perm ((mixedList x).map Sigma.fst) := by
  have h : mixedProjection.positions = [(sampleSymbol, 2)] := by decide +kernel
  rw [h]
  exact List.Perm.refl _

/-- Rounded to cents, the average of the two shares is read. -/
theorem listPositions_rounded : ∃ ps,
    eval (fun _ => .ok (okResponse (.arr (positionsBody (mixedList roundedAverage))))) listPositions = .ok ps ∧
      ps.map (fun x => (x.symbol, x.quantity)) = [(sampleSymbol, 2)] := by
  refine (listPositions_iff mixedOrders mixedFills mixedProjection (mixedList roundedAverage) _ mixedFills_project
    (mixedPositions _) (by decide) rfl).mpr fun x hx => ?_
  rw [List.mem_singleton.mp hx]
  refine ⟨⟨10001, ?_⟩, by decide +kernel⟩
  show (Decimal.mk false 10001 (-2)).value = _
  rw [cents_value]
  norm_num

/-- The exact average of the two shares is 100.005 dollars, and the list of positions raises. -/
theorem listPositions_half_cent : projectLedger mixedFills mixedOrders = .ok mixedProjection ∧
    mixedProjection.positions.Perm ((mixedList exactAverage).map Sigma.fst) ∧
      ¬ ∃ ps, eval (fun _ => .ok (okResponse (.arr (positionsBody (mixedList exactAverage))))) listPositions = .ok ps := by
  refine ⟨mixedFills_project, mixedPositions _, ?_⟩
  rintro ⟨ps, hps⟩
  rw [eval_listPositions (by decide) rfl] at hps
  obtain ⟨p, -, hp, -, -⟩ := Dict.mapM_cons_ok hps
  obtain ⟨⟨k, hk⟩, -⟩ := (exists_parsePosition exactAverage (by decide +kernel) (by decide)).mp ⟨p, hp⟩
  have hvalue : exactAverage.average.value = 100005 / 1000 := by
    show (Decimal.mk false 100005 (-3)).value = _
    simp only [Decimal.value, Decimal.magnitude, Bool.false_eq_true, if_false]
    norm_num
  rw [hvalue, div_eq_div_iff (by norm_num) (by norm_num)] at hk
  have hint : (100005 * 100 : ℤ) = k * 1000 := by exact_mod_cast hk
  omega

end SevenLens.Alpaca
