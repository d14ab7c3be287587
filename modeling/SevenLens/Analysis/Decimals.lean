import Mathlib.Data.List.TakeWhile
import SevenLens.Library.Decimal
import SevenLens.Library.Digits
import SevenLens.Library.Json
import SevenLens.Securities.Contracts

/-! # Decimals of a fixed scale on the wire

A decimal is written with a fixed number of digits after the point and read back from exactly such
a text.  The reader accepts the text of a decimal when its scale and its range are the ones asked
for, and no other text (`decimal_ok`). -/

namespace SevenLens.Analysis

open Securities

/-- The coefficient with `scale` digits after the point, rounded half-even if digits are lost. -/
def coefficientAt (scale : Nat) (d : Decimal) : Nat :=
  if -(scale : Int) ≤ d.exponent then d.coefficient * 10 ^ (d.exponent + scale).toNat
  else halfEven (d.coefficient / 10 ^ (-d.exponent - scale).toNat)

/-- `_decimal_text` -/
def decimalText (scale : Nat) (d : Decimal) : String :=
  String.ofList ((if d.negative then ['-'] else []) ++ (Nat.toDigits 10 (coefficientAt scale d / 10 ^ scale) ++
    '.' :: Nat.padded scale (coefficientAt scale d % 10 ^ scale)))

/-- `value.is_zero() and value.is_signed()` -/
def NegativeZero (d : Decimal) : Prop := d.coefficient = 0 ∧ d.negative = true

instance (d : Decimal) : Decidable (NegativeZero d) := inferInstanceAs (Decidable (_ ∧ _))

/-- The digits before the point and those after it, if there is one, of a text that matches
`(?:0|[1-9][0-9]*)(?:\.[0-9]+)?`. -/
def unsignedParts (s : List Char) : Option (List Char × Option (List Char)) :=
  if s.takeWhile Char.isDigit = ['0'] ∨ (s.takeWhile Char.isDigit ≠ [] ∧ (s.takeWhile Char.isDigit).head? ≠ some '0') then
    match s.dropWhile Char.isDigit with
    | [] => some (s.takeWhile Char.isDigit, none)
    | '.' :: fraction =>
      if fraction ≠ [] ∧ Nat.AllDigits fraction then some (s.takeWhile Char.isDigit, some fraction) else none
    | _ => none
  else none

/-- The sign and the parts of a text that matches `_DECIMAL` or `_SIGNED_DECIMAL`. -/
def decimalParts (signed : Bool) : List Char → Option (Bool × List Char × Option (List Char))
  | '-' :: s => if signed then (unsignedParts s).map (true, ·) else none
  | s => (unsignedParts s).map (false, ·)

/-- `_decimal` -/
def decimal (field : String) (scale : Nat) (minimum maximum : ℚ) : Json → Except Failure Decimal
  | .str s =>
    match decimalParts (decide (minimum < 0)) s.toList with
    | some (negative, whole, some fraction) => do
      require (fraction.length = scale) (field ++ " must use exactly " ++ toString scale ++ " decimal places")
      let parsed : Decimal := ⟨negative, Nat.ofDigitChars 10 (whole ++ fraction) 0, -scale⟩
      require (¬ NegativeZero parsed) (field ++ " must not use negative zero")
      require (minimum ≤ parsed.value ∧ parsed.value ≤ maximum) (field ++ " is outside its bounded range")
      return parsed
    | some (_, _, none) => refuse (field ++ " must use exactly " ++ toString scale ++ " decimal places")
    | none => refuse (field ++ " must be a canonical decimal string")
  | _ => refuse (field ++ " must be a canonical decimal string")

/-! ### The parts of a text -/

theorem unsignedParts_some {s whole fraction : List Char} :
    unsignedParts s = some (whole, some fraction) ↔ s = whole ++ '.' :: fraction ∧ Nat.AllDigits whole ∧
      Nat.AllDigits fraction ∧ fraction ≠ [] ∧ (whole = ['0'] ∨ ∃ c m, whole = c :: m ∧ c ≠ '0') := by
  have hlead : ∀ l : List Char, (l = ['0'] ∨ (l ≠ [] ∧ l.head? ≠ some '0')) ↔
      (l = ['0'] ∨ ∃ c m, l = c :: m ∧ c ≠ '0') := by
    intro l
    cases l with
    | nil => simp
    | cons c m => simp
  constructor
  · intro h
    unfold unsignedParts at h
    split_ifs at h with hshape
    split at h
    · cases h
    · rename_i rest hrest
      split_ifs at h with hfraction
      cases h
      refine ⟨?_, fun c hc => List.mem_takeWhile_imp hc, hfraction.2, hfraction.1, (hlead _).mp hshape⟩
      rw [← hrest, List.takeWhile_append_dropWhile]
    · cases h
  · rintro ⟨rfl, hwhole, hfraction, hne, hshape⟩
    have htake : (whole ++ '.' :: fraction).takeWhile Char.isDigit = whole := by
      rw [List.takeWhile_append_of_pos hwhole, List.takeWhile_cons_of_neg (by decide), List.append_nil]
    have hdrop : (whole ++ '.' :: fraction).dropWhile Char.isDigit = '.' :: fraction := by
      rw [List.dropWhile_append_of_pos hwhole, List.dropWhile_cons_of_neg (by decide)]
    simp only [unsignedParts, htake, hdrop]
    rw [if_pos ((hlead whole).mpr hshape), if_pos ⟨hne, hfraction⟩]

/-- A number in digits opens with a digit, so that it has no sign. -/
theorem decimalParts_of_digits {signed : Bool} {c : Char} {l : List Char} (hc : c.isDigit = true) :
    decimalParts signed (c :: l) = (unsignedParts (c :: l)).map (false, ·) := by
  unfold decimalParts
  split
  · rename_i s heq
    cases heq
    cases hc
  · rfl

theorem decimalParts_some {signed negative : Bool} {s whole fraction : List Char} :
    decimalParts signed s = some (negative, whole, some fraction) ↔
      (negative = true → signed = true) ∧ s = (if negative then ['-'] else []) ++ (whole ++ '.' :: fraction) ∧
        unsignedParts (whole ++ '.' :: fraction) = some (whole, some fraction) := by
  constructor
  · intro h
    unfold decimalParts at h
    split at h
    · split_ifs at h with hsigned
      obtain ⟨p, hp, heq⟩ := Option.map_eq_some_iff.mp h
      cases heq
      obtain ⟨rfl, -⟩ := unsignedParts_some.mp hp
      exact ⟨fun _ => hsigned, rfl, hp⟩
    · obtain ⟨p, hp, heq⟩ := Option.map_eq_some_iff.mp h
      cases heq
      obtain ⟨rfl, -⟩ := unsignedParts_some.mp hp
      exact ⟨fun hf => (Bool.false_ne_true hf).elim, rfl, hp⟩
  · rintro ⟨hsigned, rfl, hp⟩
    cases negative with
    | true =>
      simp only [if_true, List.singleton_append, decimalParts, hsigned rfl, hp, Option.map_some]
    | false =>
      obtain ⟨-, hwhole, -, -, hshape⟩ := unsignedParts_some.mp hp
      obtain ⟨c, m, rfl⟩ : ∃ c m, whole = c :: m := by
        obtain rfl | ⟨c, m, rfl, -⟩ := hshape
        · exact ⟨_, _, rfl⟩
        · exact ⟨_, _, rfl⟩
      have hc := (Nat.allDigits_cons.mp hwhole).1
      simp only [Bool.false_eq_true, if_false, List.nil_append, List.cons_append] at hp ⊢
      rw [decimalParts_of_digits hc, hp]
      rfl

/-! ### Reading what was written -/

theorem coefficientAt_self {scale : Nat} {d : Decimal} (h : d.exponent = -scale) : coefficientAt scale d = d.coefficient := by
  simp [coefficientAt, h]

/-- The digits on both sides of the point make up the coefficient. -/
theorem ofDigitChars_parts {scale n : Nat} (hs : 0 < scale) :
    Nat.ofDigitChars 10 (Nat.toDigits 10 (n / 10 ^ scale) ++ Nat.padded scale (n % 10 ^ scale)) 0 = n := by
  have hmod : n % 10 ^ scale < 10 ^ scale := Nat.mod_lt _ (Nat.pow_pos (by decide))
  rw [Nat.ofDigitChars_append, Nat.ofDigitChars_ten_toDigits, Nat.ofDigitChars_eq_ofDigitChars_zero,
    Nat.ofDigitChars_padded, Nat.length_padded hs hmod, Nat.div_add_mod]

theorem decimalText_parts {scale : Nat} (hs : 0 < scale) {whole fraction : List Char} {negative : Bool}
    (h : unsignedParts (whole ++ '.' :: fraction) = some (whole, some fraction)) (hlen : fraction.length = scale) :
    decimalText scale ⟨negative, Nat.ofDigitChars 10 (whole ++ fraction) 0, -scale⟩ =
      String.ofList ((if negative then ['-'] else []) ++ (whole ++ '.' :: fraction)) := by
  obtain ⟨-, hwhole, hfraction, hne, hshape⟩ := unsignedParts_some.mp h
  have hvalue : Nat.ofDigitChars 10 (whole ++ fraction) 0 =
      10 ^ scale * Nat.ofDigitChars 10 whole 0 + Nat.ofDigitChars 10 fraction 0 := by
    rw [Nat.ofDigitChars_append, Nat.ofDigitChars_eq_ofDigitChars_zero, hlen]
  have hlt : Nat.ofDigitChars 10 fraction 0 < 10 ^ scale := hlen ▸ Nat.ofDigitChars_lt hfraction
  have hpos : 0 < 10 ^ scale := Nat.pow_pos (by decide)
  rw [decimalText, coefficientAt_self rfl]
  simp only [hvalue]
  rw [Nat.mul_add_div hpos, Nat.div_eq_of_lt hlt, Nat.add_zero, Nat.mul_add_mod, Nat.mod_eq_of_lt hlt,
    Nat.toDigits_ofDigitChars hwhole hshape]
  subst hlen
  rw [Nat.padded_ofDigitChars hfraction hne]

/-- A number below zero that is no negative zero. -/
theorem value_neg {d : Decimal} (hneg : d.negative = true) (hz : ¬ NegativeZero d) : d.value < 0 := by
  have hne : d.coefficient ≠ 0 := fun h => hz ⟨h, hneg⟩
  have hpos : (0 : ℚ) < d.magnitude :=
    mul_pos (Nat.cast_pos.mpr (Nat.pos_of_ne_zero hne)) (Decimal.ten_zpow_pos _)
  rw [Decimal.value, if_pos hneg]
  linarith

/-- Decimals of a scale are told apart by their texts. -/
theorem decimalText_inj {scale : Nat} (hs : 0 < scale) {d e : Decimal} (hd : d.exponent = -scale) (he : e.exponent = -scale)
    (h : decimalText scale d = decimalText scale e) : d = e := by
  have hchars : ∀ x : Decimal, x.exponent = -scale → (decimalText scale x).toList =
      (if x.negative then ['-'] else []) ++ (Nat.toDigits 10 (x.coefficient / 10 ^ scale) ++
        '.' :: Nat.padded scale (x.coefficient % 10 ^ scale)) := by
    intro x hx
    rw [decimalText, String.toList_ofList, coefficientAt_self hx]
  have hlists := congrArg String.toList h
  rw [hchars d hd, hchars e he] at hlists
  -- the sign is the first character, as a digit is no minus
  have hhead : ∀ n : Nat, ∃ c l, Nat.toDigits 10 n = c :: l ∧ c ≠ '-' := by
    intro n
    cases hn : Nat.toDigits 10 n with
    | nil => exact absurd hn (Nat.toDigits_ne_nil)
    | cons c l =>
      refine ⟨c, l, rfl, ?_⟩
      rintro rfl
      have hall := Nat.allDigits_toDigits n
      rw [hn] at hall
      exact absurd (Nat.allDigits_cons.mp hall).1 (by decide)
  obtain ⟨c, l, hc, hcne⟩ := hhead (d.coefficient / 10 ^ scale)
  obtain ⟨c', l', hc', hcne'⟩ := hhead (e.coefficient / 10 ^ scale)
  have hsign : d.negative = e.negative := by
    cases hdn : d.negative with
    | true =>
      cases hen : e.negative with
      | true => rfl
      | false =>
        simp only [hdn, hen, hc', if_true, Bool.false_eq_true, if_false, List.nil_append, List.cons_append,
          List.cons.injEq] at hlists
        exact absurd hlists.1.symm hcne'
    | false =>
      cases hen : e.negative with
      | false => rfl
      | true =>
        simp only [hdn, hen, hc, if_true, Bool.false_eq_true, if_false, List.nil_append, List.cons_append,
          List.cons.injEq] at hlists
        exact absurd hlists.1 hcne
  rw [hsign] at hlists
  have hparts := List.append_cancel_left hlists
  have hcoefficient : d.coefficient = e.coefficient := by
    have hvalue := congrArg (fun s => Nat.ofDigitChars 10 (s.filter Char.isDigit) 0) hparts
    have hfilter : ∀ n : Nat, (Nat.toDigits 10 (n / 10 ^ scale) ++ '.' :: Nat.padded scale (n % 10 ^ scale)).filter
        Char.isDigit = Nat.toDigits 10 (n / 10 ^ scale) ++ Nat.padded scale (n % 10 ^ scale) := by
      intro n
      rw [List.filter_append, List.filter_cons_of_neg (by decide), List.filter_eq_self.mpr (Nat.allDigits_toDigits _),
        List.filter_eq_self.mpr (Nat.allDigits_padded _ _)]
    simpa only [hfilter, ofDigitChars_parts hs] using hvalue
  cases d
  cases e
  simp only at hsign hcoefficient hd he
  rw [hsign, hcoefficient, hd, he]

/-- A decimal is read from its text, within the range, and from nothing else. -/
theorem decimal_ok {field : String} {scale : Nat} {minimum maximum : ℚ} (hs : 0 < scale) {j : Json} {d : Decimal} :
    decimal field scale minimum maximum j = .ok d ↔ j = .str (decimalText scale d) ∧ d.exponent = -scale ∧
      ¬ NegativeZero d ∧ minimum ≤ d.value ∧ d.value ≤ maximum := by
  constructor
  · intro h
    unfold decimal at h
    split at h
    case h_2 => cases h
    case h_1 s =>
      split at h
      · rename_i negative whole fraction hparts
        obtain ⟨_, hlen, h⟩ := bind_ok.mp h
        obtain ⟨_, hz, h⟩ := bind_ok.mp h
        obtain ⟨_, hrange, h⟩ := bind_ok.mp h
        cases h
        obtain ⟨-, hsplit, hunsigned⟩ := decimalParts_some.mp hparts
        rw [decimalText_parts hs hunsigned (require_ok.mp hlen), ← hsplit, String.ofList_toList]
        exact ⟨rfl, rfl, require_ok.mp hz, require_ok.mp hrange⟩
      · cases h
      · cases h
  · rintro ⟨rfl, hexp, hz, hrange⟩
    have hmod : d.coefficient % 10 ^ scale < 10 ^ scale := Nat.mod_lt _ (Nat.pow_pos (by decide))
    have hlead : ∀ n, Nat.toDigits 10 n = ['0'] ∨ ∃ c m, Nat.toDigits 10 n = c :: m ∧ c ≠ '0' := by
      intro n
      induction n using Nat.base_induction 10 (by decide) with
      | single m hm =>
        rw [Nat.toDigits_of_lt_base hm]
        interval_cases m
        · exact .inl rfl
        all_goals exact .inr ⟨_, _, rfl, by decide⟩
      | digit m k hk hm ih =>
        rw [← Nat.toDigits_append_toDigits (by decide) hm hk]
        obtain heq | ⟨c, l, heq, hc⟩ := ih
        · have hzero := congrArg (fun l => Nat.ofDigitChars 10 l 0) heq
          simp only [Nat.ofDigitChars_ten_toDigits] at hzero
          exact absurd hzero (by intro h0; rw [h0] at hm; exact absurd hm (by decide))
        · exact .inr ⟨c, _, by rw [heq]; rfl, hc⟩
    have hunsigned : unsignedParts (Nat.toDigits 10 (d.coefficient / 10 ^ scale) ++
        '.' :: Nat.padded scale (d.coefficient % 10 ^ scale)) =
        some (Nat.toDigits 10 (d.coefficient / 10 ^ scale), some (Nat.padded scale (d.coefficient % 10 ^ scale))) := by
      refine unsignedParts_some.mpr ⟨rfl, Nat.allDigits_toDigits _, Nat.allDigits_padded _ _, ?_, hlead _⟩
      exact List.ne_nil_of_length_pos (by rw [Nat.length_padded hs hmod]; exact hs)
    have hparts : decimalParts (decide (minimum < 0)) (decimalText scale d).toList = some (d.negative,
        Nat.toDigits 10 (d.coefficient / 10 ^ scale), some (Nat.padded scale (d.coefficient % 10 ^ scale))) := by
      refine decimalParts_some.mpr ⟨fun hneg => ?_, ?_, hunsigned⟩
      · rw [decide_eq_true_eq]
        exact hrange.1.trans_lt (value_neg hneg hz)
      · rw [decimalText, String.toList_ofList, coefficientAt_self hexp]
    have hself : (⟨d.negative, Nat.ofDigitChars 10 (Nat.toDigits 10 (d.coefficient / 10 ^ scale) ++
        Nat.padded scale (d.coefficient % 10 ^ scale)) 0, -scale⟩ : Decimal) = d := by
      rw [ofDigitChars_parts hs, ← hexp]
    simp only [decimal, hparts, hself, require, requireOr, if_pos (Nat.length_padded hs hmod), if_pos hz, if_pos hrange,
      bind, Except.bind, pure, Except.pure]

end SevenLens.Analysis
