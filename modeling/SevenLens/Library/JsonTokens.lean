import SevenLens.Library.JsonDecoder

/-! # Texts and numbers in JSON

What is written for a text or a number is read as this text or number: escapes are read back one by one, and the
digits of a float have its value wherever the point stands. -/

namespace Json

/-! ### Texts that are written -/

theorem encode_codePoints (s : String) : encode (codePoints s) = some s := by
  have hchars : ∀ l : List Char, (l.map Char.toNat).mapM (fun n : Nat => if n.isValidChar then some (Char.ofNat n) else none) = some l := by
    intro l
    induction l with
    | nil => rfl
    | cons c l ih =>
      have hvalid : c.toNat.isValidChar := c.valid
      rw [List.map_cons, List.mapM_cons, ih, if_pos hvalid, Char.ofNat_toNat]
      rfl
  rw [encode, codePoints, hchars, Option.map_some, String.ofList_toList]

theorem toNat_ofNat {n : Nat} (h : n.isValidChar) : (Char.ofNat n).toNat = n := by
  rw [Char.ofNat, dif_pos h]
  rfl

theorem codePoints_of_encode {s : CodePoints} {t : String} (h : encode s = some t) : s = codePoints t := by
  obtain ⟨l, hl, rfl⟩ := Option.map_eq_some_iff.mp h
  rw [codePoints, String.toList_ofList]
  clear h
  induction s generalizing l with
  | nil => cases hl; rfl
  | cons n s ih =>
    rw [List.mapM_cons] at hl
    obtain ⟨c, hc, hl⟩ := Option.bind_eq_some_iff.mp hl
    obtain ⟨l', hl', hl⟩ := Option.bind_eq_some_iff.mp hl
    cases hl
    split_ifs at hc with hvalid
    cases hc
    rw [List.map_cons, ← ih l' hl', toNat_ofNat hvalid]

theorem encode_eq_some {s : CodePoints} {t : String} : encode s = some t ↔ s = codePoints t :=
  ⟨codePoints_of_encode, fun h => h ▸ encode_codePoints t⟩

theorem codePoints_injective : Function.Injective codePoints := by
  intro s t h
  have h := congrArg encode h
  rw [encode_codePoints, encode_codePoints] at h
  exact Option.some.inj h

theorem hexValue_hexDigit : ∀ n < 16, hexValue (hexDigit n) = some n := by decide

/-- What is written for a character is read as the character. -/
theorem scanUnit_escapeChar (c : Char) (text : List Char) : scanUnit (escapeChar c ++ text) = some (c.toNat, text) := by
  unfold escapeChar
  split_ifs with hquote hbackslash h8 h9 h10 h12 h13 hcontrol
  · subst hquote
    rfl
  · subst hbackslash
    rfl
  · subst h8
    rfl
  · subst h9
    rfl
  · subst h10
    rfl
  · subst h12
    rfl
  · subst h13
    rfl
  · have hhigh := hexValue_hexDigit (c.toNat / 16) (by omega)
    have hlow := hexValue_hexDigit (c.toNat % 16) (by omega)
    have hzero : hexValue '0' = some 0 := by decide
    show (do return ((← hexValue '0') * 4096 + (← hexValue '0') * 256 + (← hexValue (hexDigit (c.toNat / 16))) * 16 +
      (← hexValue (hexDigit (c.toNat % 16))), text) : Option (Nat × List Char)) = _
    rw [hhigh, hlow, hzero]
    show some (_, text) = _
    congr 2
    omega
  · rw [List.singleton_append, scanUnit, if_neg hbackslash, if_neg hcontrol]

theorem head_escapeChar (c : Char) (text : List Char) : (escapeChar c ++ text).head? ≠ some quoteMark := by
  unfold escapeChar
  split_ifs with hquote
  all_goals first
    | exact fun h => absurd (Option.some.inj h) (by decide)
    | exact fun h => hquote (Option.some.inj h)

theorem scanUnits_escape (chars rest : List Char) {fuel : Nat} (h : chars.length < fuel) :
    scanUnits fuel (chars.flatMap escapeChar ++ quoteMark :: rest) = some (chars.map Char.toNat, rest) := by
  induction chars generalizing fuel with
  | nil =>
    obtain ⟨n, rfl⟩ := Nat.exists_eq_add_of_lt h
    rfl
  | cons c chars ih =>
    obtain ⟨n, rfl⟩ : ∃ n, fuel = n + 1 := ⟨fuel - 1, by omega⟩
    rw [List.flatMap_cons, List.append_assoc, scanUnits, if_neg (head_escapeChar c _), scanUnit_escapeChar]
    have hrest := @ih n (by simpa using h)
    simp only [hrest, Option.bind_eq_bind, Option.bind_some, Option.pure_def, List.map_cons]

theorem joinSurrogates_of_chars (chars : List Char) : joinSurrogates (chars.map Char.toNat) = chars.map Char.toNat := by
  induction chars with
  | nil => rfl
  | cons c chars ih =>
    cases chars with
    | nil => rfl
    | cons d chars =>
      have hc : ¬ (0xD800 ≤ c.toNat ∧ c.toNat < 0xDC00) := by
        rcases c.valid with h | h
        · exact fun hs => absurd h (Nat.not_lt.mpr hs.1)
        · exact fun hs => absurd h.1 (by have := hs.2; simp only [Char.toNat] at this ⊢; omega)
      rw [List.map_cons] at ih
      rw [List.map_cons, List.map_cons, joinSurrogates, if_neg (fun hs => hc ⟨hs.1, hs.2.1⟩), ih]

theorem toList_quote (s : String) : (quote s).toList = quoteMark :: (s.toList.flatMap escapeChar ++ [quoteMark]) := by
  simp only [quote, escape, String.toList_append, String.toList_ofList]
  exact List.append_assoc [quoteMark] _ _

/-- A text in quotes is read as the text. -/
theorem scanString_quote (s : String) (rest : List Char) :
    scanString (s.toList.flatMap escapeChar ++ quoteMark :: rest) = some (codePoints s, rest) := by
  have hlength : s.toList.length ≤ (s.toList.flatMap escapeChar).length := by
    rw [List.length_flatMap, ← List.length_map fun c => (escapeChar c).length]
    refine List.length_le_sum_of_one_le _ ?_
    intro n hn
    obtain ⟨c, -, rfl⟩ := List.mem_map.mp hn
    exact List.length_pos_iff.mpr (by unfold escapeChar; split_ifs <;> simp)
  unfold scanString
  rw [scanUnits_escape s.toList rest (by rw [List.length_append]; omega)]
  simp only [Option.bind_eq_bind, Option.bind_some, Option.pure_def, joinSurrogates_of_chars, codePoints]

/-! ### Numbers that are written -/

/-- A text that does not start like the rest of a number. -/
def Stops (rest : List Char) : Prop := ∀ c, rest.head? = some c → c = ',' ∨ c = ']' ∨ c = closeBrace

theorem Stops.head {rest : List Char} (h : Stops rest) {c : Char} (hc : rest.head? = some c) :
    c.isDigit = false ∧ c ≠ '.' ∧ c ≠ 'e' ∧ c ≠ 'E' := by
  obtain rfl | rfl | rfl := h c hc <;> decide

theorem takeWhile_isDigit {ds rest : List Char} (hds : Nat.AllDigits ds) (hrest : ∀ c, rest.head? = some c → c.isDigit = false) :
    (ds ++ rest).takeWhile Char.isDigit = ds ∧ (ds ++ rest).dropWhile Char.isDigit = rest := by
  have hend : rest.takeWhile Char.isDigit = [] ∧ rest.dropWhile Char.isDigit = rest := by
    cases rest with
    | nil => exact ⟨rfl, rfl⟩
    | cons c rest =>
      have hc := hrest c rfl
      exact ⟨by rw [List.takeWhile_cons, hc]; rfl, by rw [List.dropWhile_cons, hc]; rfl⟩
  rw [List.takeWhile_append_of_pos hds, List.dropWhile_append_of_pos hds, hend.1, hend.2, List.append_nil]
  exact ⟨rfl, rfl⟩

/-- The digits before a point. -/
def Whole (ds : List Char) : Prop := Nat.AllDigits ds ∧ (ds = ['0'] ∨ ∃ c l, ds = c :: l ∧ c ≠ '0')

theorem scanWhole_digits {ds rest : List Char} (hds : Whole ds) (hrest : ∀ c, rest.head? = some c → c.isDigit = false) :
    scanWhole (ds ++ rest) = some (ds, rest) := by
  obtain ⟨hall, rfl | ⟨c, l, rfl, hc⟩⟩ := hds
  · rfl
  · obtain ⟨hdigit, hl⟩ := Nat.allDigits_cons.mp hall
    obtain ⟨htake, hdrop⟩ := takeWhile_isDigit hl hrest
    rw [List.cons_append, scanWhole, if_neg hc, if_pos hdigit, htake, hdrop]

/-- The digits after a point and the point, if there are such digits. -/
def pointed (fraction : List Char) : List Char := if fraction = [] then [] else '.' :: fraction

theorem scanFraction_pointed {ds rest : List Char} (hds : Nat.AllDigits ds)
    (hrest : ∀ c, rest.head? = some c → c.isDigit = false ∧ c ≠ '.') : scanFraction (pointed ds ++ rest) = (ds, rest) := by
  unfold pointed scanFraction
  split_ifs with hnil h h
  · exact absurd rfl (hrest '.' h.1).2
  · rw [hnil]
    rfl
  · obtain ⟨htake, hdrop⟩ := takeWhile_isDigit hds fun c hc => (hrest c hc).1
    rw [List.cons_append, List.tail_cons, htake, hdrop]
  · refine absurd ⟨rfl, ?_⟩ h
    rw [List.cons_append, List.tail_cons, (takeWhile_isDigit hds fun c hc => (hrest c hc).1).1]
    exact hnil

theorem scanExponent_none {rest : List Char} (h : Stops rest) : scanExponent rest = (none, rest) := by
  unfold scanExponent
  rw [if_neg]
  rintro ⟨he | he, -⟩
  · exact (h.head he).2.2.1 rfl
  · exact (h.head he).2.2.2 rfl

theorem scanExponent_digits (negative : Bool) {ds rest : List Char} (hds : Nat.AllDigits ds) (hne : ds ≠ []) (h : Stops rest) :
    scanExponent ('e' :: (if negative then '-' else '+') :: ds ++ rest) = (some (negateIf negative (Nat.ofDigitChars 10 ds 0)), rest) := by
  have hsign : readSign ((if negative then '-' else '+') :: (ds ++ rest)) = (negative, ds ++ rest) := by
    cases negative <;> rfl
  obtain ⟨htake, hdrop⟩ := takeWhile_isDigit hds fun c hc => (h.head hc).1
  unfold scanExponent
  simp only [List.cons_append, List.tail_cons, hsign, htake, hdrop]
  rw [if_pos ⟨.inl rfl, hne⟩]

/-- A number is read from its sign, the digits before and after the point, and its exponent. -/
theorem scanNumber_spelled (negative : Bool) {whole fraction exponent rest : List Char} {e : Option Int} (hwhole : Whole whole)
    (hfraction : Nat.AllDigits fraction) (hexponent : scanExponent (exponent ++ rest) = (e, rest))
    (hstart : ∀ c, (exponent ++ rest).head? = some c → c.isDigit = false ∧ c ≠ '.') :
    scanNumber ((if negative then ['-'] else []) ++ (whole ++ (pointed fraction ++ (exponent ++ rest)))) =
      if fraction = [] ∧ e = none then
        if intMaxStrDigits < whole.length then none else some (.int (negateIf negative (Nat.ofDigitChars 10 whole 0)), rest)
      else some (.float (readDecimal negative (Nat.ofDigitChars 10 (whole ++ fraction) 0) (e.getD 0 - fraction.length)), rest) := by
  have hminus : ∀ text, (∃ c l, text = c :: l ∧ c ≠ '-') → readMinus ((if negative then ['-'] else []) ++ text) = (negative, text) := by
    rintro text ⟨c, l, rfl, hc⟩
    cases negative with
    | true => rfl
    | false => exact if_neg fun h => hc (Option.some.inj h)
  have hfirst : ∃ c l, whole ++ (pointed fraction ++ (exponent ++ rest)) = c :: l ∧ c ≠ '-' := by
    obtain ⟨hall, hwhole⟩ := hwhole
    obtain ⟨c, l, rfl⟩ : ∃ c l, whole = c :: l := by
      obtain rfl | ⟨c, l, rfl, -⟩ := hwhole
      · exact ⟨_, _, rfl⟩
      · exact ⟨_, _, rfl⟩
    refine ⟨c, _, rfl, ?_⟩
    rintro rfl
    exact absurd (Nat.allDigits_cons.mp hall).1 (by decide)
  have hafter : ∀ c, (pointed fraction ++ (exponent ++ rest)).head? = some c → c.isDigit = false := by
    intro c hc
    unfold pointed at hc
    split_ifs at hc
    · exact (hstart c hc).1
    · cases hc
      decide
  unfold scanNumber
  simp only [hminus _ hfirst, scanWhole_digits hwhole hafter, scanFraction_pointed hfraction hstart, hexponent,
    Option.bind_eq_bind, Option.bind_some, Option.pure_def]

theorem whole_toDigits (n : Nat) : Whole (Nat.toDigits 10 n) := by
  refine ⟨Nat.allDigits_toDigits n, ?_⟩
  by_cases hn : n = 0
  · subst hn
    exact .inl (Nat.toDigits_zero 10)
  · obtain ⟨c, l, hcl⟩ := List.exists_cons_of_ne_nil (Nat.toDigits_ne_nil (n := n) (b := 10))
    refine .inr ⟨c, l, hcl, ?_⟩
    rintro rfl
    exact head_toDigits hn (by rw [hcl]; rfl)

theorem toList_toString_int (n : Int) : (toString n).toList = (if decide (n < 0) then ['-'] else []) ++ Nat.toDigits 10 n.natAbs := by
  cases n with
  | ofNat n =>
    show (toString n).toList = _
    rw [Nat.toString_eq_repr, Nat.toList_repr]
    rfl
  | negSucc n =>
    show ("-" ++ toString (n + 1)).toList = _
    rw [Nat.toString_eq_repr, String.toList_append, Nat.toList_repr, if_pos (decide_eq_true (Int.negSucc_lt_zero n))]
    exact congrArg (· ++ Nat.toDigits 10 (n + 1)) (show "-".toList = ['-'] from String.toList_ofList)

theorem scanNumber_int {n : Int} {rest : List Char} (hn : (Nat.toDigits 10 n.natAbs).length ≤ intMaxStrDigits) (h : Stops rest) :
    scanNumber ((toString n).toList ++ rest) = some (.int n, rest) := by
  have hread := scanNumber_spelled (decide (n < 0)) (whole_toDigits n.natAbs) (List.forall_mem_nil _)
    (scanExponent_none h : scanExponent ([] ++ rest) = _) fun c hc => ⟨(h.head hc).1, (h.head hc).2.1⟩
  have hvalue : negateIf (decide (n < 0)) n.natAbs = n := by
    unfold negateIf
    split_ifs with hneg
    · have hlt := of_decide_eq_true hneg
      omega
    · have hge := of_decide_eq_false (Bool.not_eq_true _ ▸ hneg)
      omega
  rw [toList_toString_int, List.append_assoc]
  refine hread.trans ?_
  rw [if_pos ⟨rfl, rfl⟩, if_neg (Nat.not_lt.mpr hn), Nat.ofDigitChars_ten_toDigits, hvalue]

/-! ### Floats -/

namespace Double

/-- The text of a float around the middle of the scale. -/
theorem positional_parts (d : Double) : ∃ whole fraction, d.positional = whole ++ pointed fraction ∧ Whole whole ∧
    Nat.AllDigits fraction ∧ fraction ≠ [] ∧
    (Nat.ofDigitChars 10 (whole ++ fraction) 0 : ℚ) * 10 ^ (0 - fraction.length : Int) = d.magnitude := by
  have hdigits : Nat.AllDigits d.digits := List.all_eq_true.mp d.digits_ok.2
  have hzeros : ∀ n, Nat.AllDigits (List.replicate n '0') := fun n c hc => by rw [List.eq_of_mem_replicate hc]; rfl
  have hhead : d.digits.head? = some '0' ∨ ∃ c l, d.digits = c :: l ∧ c ≠ '0' := by
    obtain ⟨c, l, hcl⟩ := List.exists_cons_of_ne_nil d.digits_ok.1
    by_cases hc : c = '0'
    · exact .inl (by rw [hcl, hc]; rfl)
    · exact .inr ⟨c, l, hcl, hc⟩
  unfold positional
  split_ifs with hlow hmiddle
  · refine ⟨['0'], List.replicate (-d.point).toNat '0' ++ d.digits, ?_, ⟨hzeros 1, .inl rfl⟩, ?_, ?_, ?_⟩
    · rw [pointed, if_neg (by simp [d.digits_ok.1])]
      rfl
    · exact List.forall_mem_append.mpr ⟨hzeros _, hdigits⟩
    · simp [d.digits_ok.1]
    · have hvalue : Nat.ofDigitChars 10 (['0'] ++ (List.replicate (-d.point).toNat '0' ++ d.digits)) 0 = d.coefficient := by
        rw [Nat.ofDigitChars_append, Nat.ofDigitChars_append, Nat.ofDigitChars_replicate_zero]
        rfl
      rw [hvalue, magnitude, exponent, List.length_append, List.length_replicate]
      congr 2
      push_cast
      omega
  · have hnonzero : ∃ c l, d.digits = c :: l ∧ c ≠ '0' := by
      refine hhead.resolve_left fun h0 => ?_
      have hone := d.normal h0
      rw [hone.1, hone.2] at hmiddle
      exact absurd hmiddle (by decide)
    refine ⟨d.digits.take d.point.toNat, d.digits.drop d.point.toNat, ?_, ?_, ?_, ?_, ?_⟩
    · rw [pointed, if_neg (List.drop_eq_nil_iff.not.mpr (Nat.not_le.mpr hmiddle))]
    · refine ⟨fun c hc => hdigits c (List.mem_of_mem_take hc), .inr ?_⟩
      obtain ⟨c, l, hcl, hc⟩ := hnonzero
      obtain ⟨n, hn⟩ : ∃ n, d.point.toNat = n + 1 := ⟨d.point.toNat - 1, by omega⟩
      exact ⟨c, l.take n, by rw [hcl, hn, List.take_succ_cons], hc⟩
    · exact fun c hc => hdigits c (List.mem_of_mem_drop hc)
    · exact List.drop_eq_nil_iff.not.mpr (Nat.not_le.mpr hmiddle)
    · rw [List.take_append_drop, magnitude, coefficient, exponent, List.length_drop]
      congr 2
      omega
  · refine ⟨d.digits ++ List.replicate (d.point.toNat - d.digits.length) '0', ['0'], ?_, ?_, hzeros 1, List.cons_ne_nil _ _, ?_⟩
    · rw [pointed, if_neg (by decide)]
    · refine ⟨List.forall_mem_append.mpr ⟨hdigits, hzeros _⟩, ?_⟩
      rcases hhead with h0 | ⟨c, l, hcl, hc⟩
      · obtain ⟨hone, hpoint⟩ := d.normal h0
        rw [hone, hpoint]
        exact .inl rfl
      · exact .inr ⟨c, l ++ List.replicate (d.point.toNat - d.digits.length) '0', by rw [hcl]; rfl, hc⟩
    · obtain ⟨n, hn⟩ : ∃ n, d.point.toNat - d.digits.length = n := ⟨_, rfl⟩
      have hvalue : Nat.ofDigitChars 10 (d.digits ++ List.replicate n '0' ++ ['0']) 0 = d.coefficient * 10 ^ (n + 1) := by
        rw [Nat.ofDigitChars_append, Nat.ofDigitChars_append, Nat.ofDigitChars_replicate_zero, coefficient, pow_succ]
        show 10 * (10 ^ n * _) + 0 = _
        ring
      have hexponent : d.exponent = (n + 1 : Nat) + (0 - (1 : Nat) : Int) := by
        rw [exponent]
        omega
      rw [hn, hvalue, magnitude, hexponent, zpow_add₀ (by norm_num), zpow_natCast, Nat.cast_mul, mul_assoc]
      push_cast
      rfl

/-- The text of a float far from it. -/
theorem scientific_parts {d : Double} (h : ¬ d.Plain) : ∃ whole fraction negative ds,
    d.scientific = whole ++ (pointed fraction ++ 'e' :: (if negative then '-' else '+') :: ds) ∧ Whole whole ∧
    Nat.AllDigits fraction ∧ Nat.AllDigits ds ∧ ds ≠ [] ∧
    (Nat.ofDigitChars 10 (whole ++ fraction) 0 : ℚ) * 10 ^ (negateIf negative (Nat.ofDigitChars 10 ds 0) - fraction.length) = d.magnitude := by
  have hdigits : Nat.AllDigits d.digits := List.all_eq_true.mp d.digits_ok.2
  obtain ⟨c, l, hcl⟩ := List.exists_cons_of_ne_nil d.digits_ok.1
  obtain ⟨ds, hds⟩ : ∃ ds, (let exponent := (toString (d.point - 1).natAbs).toList
    if exponent.length < 2 then '0' :: exponent else exponent) = ds := ⟨_, rfl⟩
  have htext : (toString (d.point - 1).natAbs).toList = Nat.toDigits 10 (d.point - 1).natAbs := by
    rw [Nat.toString_eq_repr, Nat.toList_repr]
  have hexponent : Nat.AllDigits ds ∧ ds ≠ [] ∧ Nat.ofDigitChars 10 ds 0 = (d.point - 1).natAbs := by
    rw [htext] at hds
    dsimp only at hds
    split_ifs at hds with hshort
    · subst hds
      exact ⟨Nat.allDigits_cons.mpr ⟨rfl, Nat.allDigits_toDigits _⟩, List.cons_ne_nil _ _, Nat.ofDigitChars_ten_toDigits⟩
    · subst hds
      exact ⟨Nat.allDigits_toDigits _, Nat.toDigits_ne_nil, Nat.ofDigitChars_ten_toDigits⟩
  have hfraction : Nat.AllDigits (d.digits.drop 1) := fun c hc => hdigits c (List.mem_of_mem_drop hc)
  refine ⟨d.digits.take 1, d.digits.drop 1, decide (¬ 0 < d.point), ds, ?_, ?_, hfraction, hexponent.1, hexponent.2.1, ?_⟩
  · have hpointed : (if d.digits.length = 1 then [] else '.' :: d.digits.drop 1) = pointed (d.digits.drop 1) := by
      rw [pointed, hcl]
      simp
    unfold scientific
    dsimp only at hds ⊢
    rw [hds, hpointed, List.append_assoc]
    congr 4
    by_cases hpos : 0 < d.point
    · simp [hpos]
    · simp [hpos]
  · rw [hcl]
    refine ⟨fun x hx => hdigits x (by rw [hcl]; exact List.mem_of_mem_take hx), ?_⟩
    by_cases hc : c = '0'
    · exact .inl (by rw [hc]; rfl)
    · exact .inr ⟨c, [], rfl, hc⟩
  · have hfar : d.point ≤ -4 ∨ 16 < d.point := by
      simp only [Plain, not_and_or, not_lt, not_le] at h
      exact h
    have hlength : (d.digits.drop 1).length + 1 = d.digits.length := by
      rw [hcl]
      rfl
    rw [List.take_append_drop, hexponent.2.2, magnitude, coefficient, exponent]
    congr 2
    unfold negateIf
    split_ifs with hneg
    · have hle : ¬ 0 < d.point := of_decide_eq_true hneg
      omega
    · have hlt : 0 < d.point := by simpa using hneg
      omega

/-- The text of a float is read as the float. -/
theorem scanNumber_repr {d : Double} (hd : d.Genuine) {rest : List Char} (h : Stops rest) :
    scanNumber (d.repr.toList ++ rest) = some (.float (.finite d), rest) := by
  rw [repr, String.toList_ofList, List.append_assoc]
  by_cases hplain : d.Plain
  · obtain ⟨whole, fraction, htext, hwhole, hfraction, hne, hvalue⟩ := d.positional_parts
    have hread := scanNumber_spelled d.negative hwhole hfraction (scanExponent_none h : scanExponent ([] ++ rest) = _)
      fun c hc => ⟨(h.head hc).1, (h.head hc).2.1⟩
    rw [if_pos hplain, htext, List.append_assoc]
    refine hread.trans ?_
    rw [if_neg fun hno => hne hno.1, Option.getD_none, readDecimal_of_magnitude hd hvalue]
  · obtain ⟨whole, fraction, negative, ds, htext, hwhole, hfraction, hds, hne, hvalue⟩ := scientific_parts hplain
    have hread := scanNumber_spelled d.negative hwhole hfraction (scanExponent_digits negative hds hne h)
      fun c hc => by cases hc; decide
    rw [if_neg hplain, htext, List.append_assoc, List.append_assoc]
    refine hread.trans ?_
    rw [if_neg fun hno => Option.some_ne_none _ hno.2, Option.getD_some, readDecimal_of_magnitude hd hvalue]

end Double

end Json
