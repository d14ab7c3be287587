import SevenLens.Library.JsonTokens
import SevenLens.Library.Wire

/-! # The round trip of JSON

The text of a value is read as this value.  The keys of a dictionary are written in their order, so that of the
values in this form the text determines the value. -/

namespace Json

/-! ### Values that are written -/

mutual

/-- What a decoder can give and a writer can write: integers that are not too long, digits of floats, and keys as
they have to be in every dictionary. -/
def Sound (keys : List String → Prop) : Json → Prop
  | .int n => (Nat.toDigits 10 n.natAbs).length ≤ intMaxStrDigits
  | .float d => d.Genuine
  | .arr items => SoundItems keys items
  | .obj fields => keys (fields.map Prod.fst) ∧ SoundFields keys fields
  | _ => True

def SoundItems (keys : List String → Prop) : List Json → Prop
  | [] => True
  | j :: items => Sound keys j ∧ SoundItems keys items

def SoundFields (keys : List String → Prop) : List (String × Json) → Prop
  | [] => True
  | (_, j) :: fields => Sound keys j ∧ SoundFields keys fields

end

/-- The text of a number starts with its sign and the digits before the point. -/
def Numeral (text : List Char) : Prop := ∃ (negative : Bool) (whole tail : List Char),
  text = (if negative then ['-'] else []) ++ (whole ++ tail) ∧ Whole whole

theorem Whole.cons {whole : List Char} (h : Whole whole) : ∃ c l, whole = c :: l ∧ c.isDigit = true := by
  obtain ⟨hall, rfl | ⟨c, l, rfl, -⟩⟩ := h
  · exact ⟨_, _, rfl, rfl⟩
  · exact ⟨_, _, rfl, (Nat.allDigits_cons.mp hall).1⟩

theorem Numeral.cons {text : List Char} (h : Numeral text) : ∃ c l, text = c :: l ∧
    (c.isDigit = true ∨ c = '-' ∧ ∃ d m, l = d :: m ∧ d.isDigit = true) := by
  obtain ⟨negative, whole, tail, rfl, hwhole⟩ := h
  obtain ⟨c, l, rfl, hc⟩ := hwhole.cons
  cases negative with
  | true => exact ⟨_, _, rfl, .inr ⟨rfl, _, _, rfl, hc⟩⟩
  | false => exact ⟨_, _, rfl, .inl hc⟩

theorem Numeral.append {text : List Char} (h : Numeral text) (rest : List Char) : Numeral (text ++ rest) := by
  obtain ⟨negative, whole, tail, rfl, hwhole⟩ := h
  exact ⟨negative, whole, tail ++ rest, by simp only [List.append_assoc], hwhole⟩

theorem numeral_int (n : Int) : Numeral (toString n).toList :=
  ⟨decide (n < 0), Nat.toDigits 10 n.natAbs, [], by rw [toList_toString_int, List.append_nil], whole_toDigits _⟩

theorem numeral_repr (d : Double) : Numeral d.repr.toList := by
  rw [Double.repr, String.toList_ofList]
  by_cases hplain : d.Plain
  · obtain ⟨whole, fraction, htext, hwhole, -⟩ := d.positional_parts
    exact ⟨d.negative, whole, _, by rw [if_pos hplain, htext], hwhole⟩
  · obtain ⟨whole, fraction, negative, ds, htext, hwhole, -⟩ := Double.scientific_parts hplain
    exact ⟨d.negative, whole, _, by rw [if_neg hplain, htext], hwhole⟩

theorem ne_of_isDigit {c d : Char} (hc : c.isDigit = true) (hd : d.isDigit = false) : c ≠ d := by
  rintro rfl
  rw [hc] at hd
  cases hd

/-- A number is not read as a word. -/
theorem scanWord_numeral (constants : Bool) {text : List Char} (h : Numeral text) : scanWord constants text = none := by
  have hnone : ∀ p ∈ words constants, p.1.isPrefixOf text = false := by
    obtain ⟨c, l, rfl, hc⟩ := h.cons
    intro p hp
    have hword : ∃ w x, p.1 = w :: x ∧ w.isDigit = false ∧ (w = '-' → ∃ y, x = 'I' :: y) := by
      cases constants with
      | true =>
        simp only [words, if_true, List.cons_append, List.nil_append, List.mem_cons, List.not_mem_nil, or_false] at hp
        obtain rfl | rfl | rfl | rfl | rfl | rfl := hp
        all_goals exact ⟨_, _, rfl, rfl, by simp⟩
      | false =>
        simp only [words, Bool.false_eq_true, if_false, List.append_nil, List.mem_cons, List.not_mem_nil, or_false] at hp
        obtain rfl | rfl | rfl := hp
        all_goals exact ⟨_, _, rfl, rfl, by simp⟩
    obtain ⟨w, x, hwx, hw, hminus⟩ := hword
    rw [hwx, List.isPrefixOf]
    rcases hc with hc | ⟨rfl, d, m, rfl, hd⟩
    · rw [beq_false_of_ne (ne_of_isDigit hc hw).symm, Bool.false_and]
    · by_cases hw' : w = '-'
      · obtain ⟨y, rfl⟩ := hminus hw'
        rw [List.isPrefixOf, beq_false_of_ne (ne_of_isDigit hd rfl).symm, Bool.false_and, Bool.and_false]
      · rw [beq_false_of_ne hw', Bool.false_and]
  unfold scanWord
  rw [List.findSome?_eq_none_iff]
  intro p hp
  dsimp only
  rw [hnone p hp]
  rfl

theorem scanValue_numeral (hooks : Hooks) {text : List Char} (h : Numeral text) (fuel : Nat) :
    scanValue hooks (fuel + 1) text = scanNumber text := by
  have hword := scanWord_numeral hooks.constants h
  obtain ⟨c, l, rfl, hc⟩ := h.cons
  have hne : ∀ d : Char, d.isDigit = false → d ≠ '-' → c ≠ d := by
    intro d hd hminus
    rcases hc with hc | ⟨rfl, -⟩
    · exact ne_of_isDigit hc hd
    · exact hminus.symm
  rw [scanValue, if_neg (hne _ (by decide) (by decide)), if_neg (hne _ (by decide) (by decide)),
    if_neg (hne _ (by decide) (by decide)), hword]
  rfl

/-- No blank and no end of a list stands at the beginning of a value. -/
theorem dumps_cons (j : Json) : ∃ c l, j.dumps.toList = c :: l ∧ isBlank c = false ∧ c ≠ ']' := by
  have hnumeral : ∀ {text : List Char}, Numeral text → ∃ c l, text = c :: l ∧ isBlank c = false ∧ c ≠ ']' := by
    intro text h
    obtain ⟨c, l, rfl, hc⟩ := h.cons
    refine ⟨c, l, rfl, ?_⟩
    rcases hc with hc | ⟨rfl, -⟩
    · refine ⟨?_, ne_of_isDigit hc rfl⟩
      unfold isBlank
      simp only [decide_eq_false (ne_of_isDigit hc (rfl : ' '.isDigit = false)), decide_eq_false (ne_of_isDigit hc (rfl : '\t'.isDigit = false)),
        decide_eq_false (ne_of_isDigit hc (rfl : '\n'.isDigit = false)), decide_eq_false (ne_of_isDigit hc (rfl : '\r'.isDigit = false)), Bool.or_false]
    · decide
  cases j with
  | null => exact ⟨_, _, String.toList_ofList, by decide, by decide⟩
  | bool b =>
    cases b with
    | true => exact ⟨_, _, String.toList_ofList, by decide, by decide⟩
    | false => exact ⟨_, _, String.toList_ofList, by decide, by decide⟩
  | int n => exact hnumeral (numeral_int n)
  | float d => exact hnumeral (numeral_repr d)
  | str s => exact ⟨_, _, toList_quote s, by decide, by decide⟩
  | arr items =>
    rw [dumps, String.toList_append, String.toList_append]
    exact ⟨'[', _, congrArg (· ++ _ ++ _) (String.toList_ofList (l := ['['])), by decide, by decide⟩
  | obj fields =>
    rw [dumps, String.toList_append, String.toList_append]
    exact ⟨openBrace, _, congrArg (· ++ _ ++ _) (String.toList_ofList (l := [openBrace])), by decide, by decide⟩

/-! ### Lists and dictionaries -/

def toMembers (fields : List (String × Json)) : List (CodePoints × Value) := fields.map fun p => (codePoints p.1, toValue p.2)

theorem nodup_keys_toMembers {fields : List (String × Json)} (h : (fields.map Prod.fst).Nodup) :
    ((toMembers fields).map Prod.fst).Nodup := by
  rw [toMembers, List.map_map]
  have hmap := h.map codePoints_injective
  rwa [List.map_map] at hmap

theorem entriesOf_toMembers {fields : List (String × Json)} (h : (fields.map Prod.fst).Nodup) :
    entriesOf (toMembers fields) = toEntries fields := by
  rw [entriesOf, dictOf, Dict.foldl_insert (by simpa using nodup_keys_toMembers h), List.nil_append]
  clear h
  induction fields with
  | nil => rfl
  | cons p fields ih => exact congrArg (_ :: ·) ih

/-- Distinct keys are read with all hooks. -/
theorem entries_toMembers (hooks : Hooks) {fields : List (String × Json)} (h : (fields.map Prod.fst).Nodup) :
    hooks.entries (toMembers fields) = some (toEntries fields) := by
  rw [Hooks.entries, if_pos (.inr (nodup_keys_toMembers h)), entriesOf_toMembers h]

theorem skipBlanks_cons {c : Char} {l : List Char} (h : isBlank c = false) : skipBlanks (c :: l) = c :: l := by
  rw [skipBlanks, List.dropWhile_cons_of_neg (by rw [h]; exact Bool.false_ne_true)]

theorem toList_commaJoin_cons (s t : String) (l : List String) :
    (commaJoin (s :: t :: l)).toList = s.toList ++ ',' :: (commaJoin (t :: l)).toList := by
  rw [commaJoin, String.toList_append, String.toList_append, List.append_assoc]
  exact congrArg (s.toList ++ ·) (congrArg (· ++ _) (String.toList_ofList (l := [','])))

theorem toList_commaJoin_head (s : String) (l : List String) : ∃ tail, (commaJoin (s :: l)).toList = s.toList ++ tail := by
  cases l with
  | nil => exact ⟨[], (List.append_nil _).symm⟩
  | cons t l => exact ⟨_, toList_commaJoin_cons s t l⟩

theorem toList_dumps_arr (items : List Json) : (dumps (.arr items)).toList = '[' :: (commaJoin (dumpsItems items)).toList ++ [']'] := by
  simp only [dumps, String.toList_append]
  rfl

/-- The texts of the entries. -/
def memberTexts (fields : List (String × Json)) : List String := fields.map fun p => quote p.1 ++ ":" ++ p.2.dumps

theorem dumpsFields_eq_members (fields : List (String × Json)) :
    dumpsFields fields = fields.map fun p => (p.1, quote p.1 ++ ":" ++ p.2.dumps) := by
  induction fields with
  | nil => rfl
  | cons p fields ih => rw [dumpsFields, ih]; rfl

theorem toList_dumps_obj {fields : List (String × Json)} (h : (fields.map Prod.fst).Pairwise (· < ·)) :
    (dumps (.obj fields)).toList = openBrace :: (commaJoin (memberTexts fields)).toList ++ [closeBrace] := by
  have hsorted : (dumpsFields fields).sortOn Prod.fst = dumpsFields fields := by
    refine List.sortOn_of_pairwise ?_
    rw [dumpsFields_eq_members, List.pairwise_map]
    exact (List.pairwise_map.mp h).imp fun hlt => le_of_lt hlt
  have htexts : (dumpsFields fields).map Prod.snd = memberTexts fields := by
    rw [dumpsFields_eq_members, List.map_map]
    rfl
  simp only [dumps, hsorted, htexts, String.toList_append]
  rfl

theorem toList_member (k : String) (j : Json) (rest : List Char) :
    (quote k ++ ":" ++ j.dumps).toList ++ rest = quoteMark :: (k.toList.flatMap escapeChar ++ quoteMark :: (':' :: (j.dumps.toList ++ rest))) := by
  have hcolon : ":".toList = [':'] := String.toList_ofList
  simp only [String.toList_append, hcolon, toList_quote, List.append_assoc, List.cons_append, List.nil_append]

theorem stops_comma (rest : List Char) : Stops (',' :: rest) := fun _ hc => .inl (Option.some.inj hc).symm

theorem stops_bracket (rest : List Char) : Stops (']' :: rest) := fun _ hc => .inr (.inl (Option.some.inj hc).symm)

theorem stops_brace (rest : List Char) : Stops (closeBrace :: rest) := fun _ hc => .inr (.inr (Option.some.inj hc).symm)

theorem items_cons (j : Json) (items : List Json) :
    ∃ c l, (commaJoin (dumpsItems (j :: items))).toList = c :: l ∧ isBlank c = false ∧ c ≠ ']' := by
  obtain ⟨c, l, hcl, hc⟩ := dumps_cons j
  obtain ⟨tail, htail⟩ := toList_commaJoin_head j.dumps (dumpsItems items)
  exact ⟨c, l ++ tail, by rw [dumpsItems, htail, hcl, List.cons_append], hc⟩

theorem members_cons (p : String × Json) (fields : List (String × Json)) :
    ∃ l, (commaJoin (memberTexts (p :: fields))).toList = quoteMark :: l := by
  obtain ⟨tail, htail⟩ := toList_commaJoin_head (quote p.1 ++ ":" ++ p.2.dumps) (memberTexts fields)
  exact ⟨_, htail.trans (toList_member p.1 p.2 tail)⟩

/-- One entry of a dictionary, before the last character or before the next entry. -/
theorem scanMembers_member {hooks : Hooks} {n : Nat} {k : String} {j : Json} {c : Char} {text : List Char}
    (hj : scanValue hooks n (j.dumps.toList ++ c :: text) = some (toValue j, c :: text)) (hc : isBlank c = false) :
    scanMembers hooks (n + 1) ((quote k ++ ":" ++ j.dumps).toList ++ c :: text) =
      if c = closeBrace then some ([(codePoints k, toValue j)], text)
      else if c = ',' then
        (scanMembers hooks n (skipBlanks text)).bind fun r => some ((codePoints k, toValue j) :: r.1, r.2)
      else none := by
  obtain ⟨d, l, hdl, hblank, -⟩ := dumps_cons j
  rw [hdl, List.cons_append] at hj
  rw [toList_member, scanMembers, List.head?_cons, if_pos rfl, List.tail_cons, scanString_quote, hdl, List.cons_append]
  simp only [Option.bind_eq_bind, Option.bind_some, skipBlanks_cons (rfl : isBlank ':' = false), List.head?_cons, if_true,
    List.tail_cons, skipBlanks_cons hblank, hj, skipBlanks_cons hc]
  rfl

theorem length_member (k : String) (j : Json) : j.dumps.toList.length ≤ (quote k ++ ":" ++ j.dumps).toList.length := by
  rw [String.toList_append, List.length_append]
  exact Nat.le_add_left _ _

theorem memberTexts_cons (k : String) (j : Json) (fields : List (String × Json)) :
    memberTexts ((k, j) :: fields) = (quote k ++ ":" ++ j.dumps) :: memberTexts fields := rfl

theorem commaJoin_singleton (s : String) : commaJoin [s] = s := rfl

mutual

/-- The text of a value whose keys are in order is read as the value. -/
theorem scanValue_dumps (hooks : Hooks) {fuel : Nat} {rest : List Char} (j : Json) (h : Sound (List.Pairwise (· < ·)) j)
    (hrest : Stops rest) (hfuel : 2 * j.dumps.toList.length ≤ fuel) :
    scanValue hooks fuel (j.dumps.toList ++ rest) = some (toValue j, rest) := by
  obtain ⟨n, rfl⟩ : ∃ n, fuel = n + 1 := by
    obtain ⟨c, l, hcl, -⟩ := dumps_cons j
    rw [hcl, List.length_cons] at hfuel
    exact ⟨fuel - 1, by omega⟩
  cases j with
  | null =>
    have htext : (dumps .null).toList = ['n', 'u', 'l', 'l'] := String.toList_ofList
    rw [htext]
    rfl
  | bool b =>
    cases b with
    | true =>
      have htext : (dumps (.bool true)).toList = ['t', 'r', 'u', 'e'] := String.toList_ofList
      rw [htext]
      rfl
    | false =>
      have htext : (dumps (.bool false)).toList = ['f', 'a', 'l', 's', 'e'] := String.toList_ofList
      rw [htext]
      rfl
  | int i => rw [dumps, scanValue_numeral hooks ((numeral_int i).append rest), scanNumber_int h hrest, toValue]
  | float d => rw [dumps, scanValue_numeral hooks ((numeral_repr d).append rest), Double.scanNumber_repr h hrest, toValue]
  | str s =>
    rw [dumps, toList_quote, List.cons_append, List.append_assoc, scanValue, if_pos rfl, List.singleton_append, scanString_quote]
    rfl
  | arr items =>
    rw [toList_dumps_arr, List.length_append, List.length_cons] at hfuel
    rw [toList_dumps_arr, List.append_assoc, List.cons_append, scanValue, if_neg (by decide), if_pos rfl]
    cases items with
    | nil => rfl
    | cons j items =>
      have hitems := @scanItems_dumps hooks n rest (j :: items) h (List.cons_ne_nil _ _)
        (by rw [List.length_singleton] at hfuel; omega)
      obtain ⟨c, l, hcl, hblank, hend⟩ := items_cons j items
      rw [hcl, List.cons_append] at hitems
      rw [hcl, List.cons_append, List.singleton_append, skipBlanks_cons hblank, List.head?_cons,
        if_neg fun hc => hend (Option.some.inj hc), hitems]
      rfl
  | obj fields =>
    rw [toList_dumps_obj h.1, List.length_append, List.length_cons] at hfuel
    rw [toList_dumps_obj h.1, List.append_assoc, List.cons_append, scanValue, if_neg (by decide), if_neg (by decide), if_pos rfl]
    cases fields with
    | nil => rfl
    | cons p fields =>
      have hmembers := @scanMembers_dumps hooks n rest (p :: fields) h.2 (List.cons_ne_nil _ _)
        (by rw [List.length_singleton] at hfuel; omega)
      have hkeys : (((p :: fields).map Prod.fst)).Nodup := h.1.imp fun hlt => ne_of_lt hlt
      obtain ⟨l, hl⟩ := members_cons p fields
      rw [hl, List.cons_append] at hmembers
      rw [hl, List.cons_append, List.singleton_append, skipBlanks_cons (rfl : isBlank quoteMark = false), List.head?_cons,
        if_neg (by decide : ¬ some quoteMark = some closeBrace), hmembers]
      rw [Option.bind_eq_bind, Option.bind_some]
      simp only [entries_toMembers hooks hkeys, Option.bind_eq_bind, Option.bind_some]
      rfl

theorem scanItems_dumps (hooks : Hooks) {fuel : Nat} {rest : List Char} (items : List Json) (h : SoundItems (List.Pairwise (· < ·)) items)
    (hne : items ≠ []) (hfuel : 2 * (commaJoin (dumpsItems items)).toList.length + 1 ≤ fuel) :
    scanItems hooks fuel ((commaJoin (dumpsItems items)).toList ++ ']' :: rest) = some (toItems items, rest) := by
  obtain ⟨n, rfl⟩ : ∃ n, fuel = n + 1 := ⟨fuel - 1, by omega⟩
  cases items with
  | nil => exact absurd rfl hne
  | cons j items =>
    cases items with
    | nil =>
      have hj := @scanValue_dumps hooks n _ j h.1 (stops_bracket rest)
        (by rw [dumpsItems, dumpsItems, commaJoin] at hfuel; omega)
      rw [dumpsItems, dumpsItems, commaJoin, scanItems, hj]
      rfl
    | cons i items =>
      rw [dumpsItems, dumpsItems, toList_commaJoin_cons, List.length_append, List.length_cons] at hfuel
      have hj := @scanValue_dumps hooks n _ j h.1
        (stops_comma ((commaJoin (dumpsItems (i :: items))).toList ++ ']' :: rest)) (by omega)
      have hitems := @scanItems_dumps hooks n rest (i :: items) h.2 (List.cons_ne_nil _ _)
        (by rw [dumpsItems]; omega)
      obtain ⟨c, l, hcl, hblank, -⟩ := items_cons i items
      rw [hcl, List.cons_append] at hj hitems
      rw [dumpsItems, dumpsItems, toList_commaJoin_cons, ← dumpsItems, hcl, List.append_assoc, List.cons_append, scanItems,
        List.cons_append, hj]
      simp only [Option.bind_eq_bind, Option.bind_some, skipBlanks_cons (rfl : isBlank ',' = false), skipBlanks_cons hblank, hitems]
      rfl

theorem scanMembers_dumps (hooks : Hooks) {fuel : Nat} {rest : List Char} (fields : List (String × Json))
    (h : SoundFields (List.Pairwise (· < ·)) fields) (hne : fields ≠ [])
    (hfuel : 2 * (commaJoin (memberTexts fields)).toList.length + 1 ≤ fuel) :
    scanMembers hooks fuel ((commaJoin (memberTexts fields)).toList ++ closeBrace :: rest) = some (toMembers fields, rest) := by
  obtain ⟨n, rfl⟩ : ∃ n, fuel = n + 1 := ⟨fuel - 1, by omega⟩
  cases fields with
  | nil => exact absurd rfl hne
  | cons field fields =>
    obtain ⟨k, j⟩ := field
    have hlength := length_member k j
    cases fields with
    | nil =>
      rw [memberTexts_cons, memberTexts, List.map_nil, commaJoin_singleton] at hfuel
      have hj := @scanValue_dumps hooks n _ j h.1 (stops_brace rest) (by omega)
      rw [memberTexts_cons, memberTexts, List.map_nil, commaJoin_singleton, scanMembers_member hj rfl, if_pos rfl]
      rfl
    | cons p fields =>
      obtain ⟨t, texts, htexts⟩ : ∃ t texts, memberTexts (p :: fields) = t :: texts := ⟨_, _, rfl⟩
      have hfields := @scanMembers_dumps hooks n rest (p :: fields) h.2 (List.cons_ne_nil _ _)
      obtain ⟨l, hl⟩ := members_cons p fields
      rw [htexts] at hfields hl
      rw [memberTexts_cons, htexts, toList_commaJoin_cons, List.length_append, List.length_cons] at hfuel
      have hj := @scanValue_dumps hooks n _ j h.1
        (stops_comma ((commaJoin (t :: texts)).toList ++ closeBrace :: rest)) (by omega)
      rw [memberTexts_cons, htexts, toList_commaJoin_cons, List.append_assoc, List.cons_append, scanMembers_member hj rfl,
        if_neg (by decide : ¬ ',' = closeBrace), if_pos rfl]
      have hskip : skipBlanks ((commaJoin (t :: texts)).toList ++ closeBrace :: rest) =
          (commaJoin (t :: texts)).toList ++ closeBrace :: rest := by
        rw [hl, List.cons_append, skipBlanks_cons rfl]
      rw [hskip, hfields (by omega)]
      rfl

end

/-- The text of a value whose keys are in order is the text of this value only. -/
theorem loads_dumps (hooks : Hooks) {j : Json} (h : Sound (List.Pairwise (· < ·)) j) :
    loads hooks j.dumps = some (toValue j) := by
  obtain ⟨c, l, hcl, hblank, -⟩ := dumps_cons j
  have hskip : skipBlanks j.dumps.toList = j.dumps.toList := by rw [hcl, skipBlanks_cons hblank]
  have hscan := @scanValue_dumps hooks (2 * j.dumps.toList.length + 2) [] j h (by simp [Stops]) (by omega)
  rw [List.append_nil] at hscan
  rw [loads, hskip, hscan]
  rfl

/-! ### Canonical values -/

section Canon

/-- Sorting by a key commutes with a map that keeps the key. -/
theorem map_sortOn_fst {α β : Type} (f : String × α → String × β) (hf : ∀ p, (f p).1 = p.1) (l : List (String × α)) :
    (l.map f).sortOn Prod.fst = (l.sortOn Prod.fst).map f :=
  (List.map_insertionSort (r := fun a b : String × α => a.1 ≤ b.1) (s := fun a b : String × β => a.1 ≤ b.1) f l
    (fun a _ b _ => by rw [hf, hf])).symm

theorem sortOn_dumpsFields (fields : List (String × Json)) :
    (dumpsFields (fields.sortOn Prod.fst)).sortOn Prod.fst = (dumpsFields fields).sortOn Prod.fst := by
  have hmap := fun l : List (String × Json) => map_sortOn_fst (fun p => (p.1, quote p.1 ++ ":" ++ p.2.dumps)) (fun _ => rfl) l
  rw [dumpsFields_eq_members, dumpsFields_eq_members, hmap, hmap,
    List.sortOn_of_pairwise (List.pairwise_sortOn Prod.fst fields)]

mutual

/-- The text does not depend on the order of the entries. -/
theorem dumps_canon (j : Json) : j.canon.dumps = j.dumps := by
  cases j with
  | arr items => rw [canon, dumps, dumps, dumpsItems_canon items]
  | obj fields =>
    rw [canon, dict, dumps, dumps, sortOn_dumpsFields, dumpsFields_canon fields]
  | _ => rfl

theorem dumpsItems_canon (items : List Json) : dumpsItems (canonItems items) = dumpsItems items := by
  cases items with
  | nil => rfl
  | cons j items => rw [canonItems, dumpsItems, dumpsItems, dumps_canon j, dumpsItems_canon items]

theorem dumpsFields_canon (fields : List (String × Json)) : dumpsFields (canonFields fields) = dumpsFields fields := by
  cases fields with
  | nil => rfl
  | cons p fields => rw [canonFields, dumpsFields, dumpsFields, dumps_canon p.2, dumpsFields_canon fields]

end

theorem soundItems_iff {keys : List String → Prop} {items : List Json} : SoundItems keys items ↔ ∀ j ∈ items, Sound keys j := by
  induction items with
  | nil => simp [SoundItems]
  | cons j items ih => rw [SoundItems, ih, List.forall_mem_cons]

theorem soundFields_iff {keys : List String → Prop} {fields : List (String × Json)} :
    SoundFields keys fields ↔ ∀ p ∈ fields, Sound keys p.2 := by
  induction fields with
  | nil => simp [SoundFields]
  | cons p fields ih => rw [SoundFields, ih, List.forall_mem_cons]

mutual

theorem sound_canon (j : Json) (h : Sound List.Nodup j) : Sound (List.Pairwise (· < ·)) j.canon := by
  cases j with
  | arr items => exact soundItems_canon items h
  | obj fields =>
    have hkeys : (canonFields fields).map Prod.fst = fields.map Prod.fst := by
      rw [canonFields_eq_map, List.map_map]
      rfl
    refine ⟨List.pairwise_map.mpr (List.pairwise_lt_sortOn (hkeys ▸ h.1)), ?_⟩
    have hall := soundFields_iff.mp (soundFields_canon fields h.2)
    exact soundFields_iff.mpr fun p hp => hall p (List.mem_sortOn.mp hp)
  | _ => exact h

theorem soundItems_canon (items : List Json) (h : SoundItems List.Nodup items) :
    SoundItems (List.Pairwise (· < ·)) (canonItems items) := by
  cases items with
  | nil => trivial
  | cons j items => exact ⟨sound_canon j h.1, soundItems_canon items h.2⟩

theorem soundFields_canon (fields : List (String × Json)) (h : SoundFields List.Nodup fields) :
    SoundFields (List.Pairwise (· < ·)) (canonFields fields) := by
  cases fields with
  | nil => trivial
  | cons p fields => exact ⟨sound_canon p.2 h.1, soundFields_canon fields h.2⟩

end

mutual

theorem toValue_injective {i j : Json} (h : toValue i = toValue j) : i = j := by
  cases i with
  | str s =>
    cases j <;> simp only [toValue, Value.str.injEq, reduceCtorEq] at h
    rw [codePoints_injective h]
  | arr items =>
    cases j <;> simp only [toValue, Value.list.injEq, reduceCtorEq] at h
    rw [toItems_injective h]
  | obj fields =>
    cases j <;> simp only [toValue, Value.dict.injEq, reduceCtorEq] at h
    rw [toEntries_injective h]
  | _ =>
    cases j
    all_goals simp only [toValue, Value.bool.injEq, Value.int.injEq, Value.float.injEq, Float64.finite.injEq, reduceCtorEq] at h
    all_goals first | rfl | rw [h]

theorem toItems_injective {l m : List Json} (h : toItems l = toItems m) : l = m := by
  cases l with
  | nil => cases m <;> simp only [toItems, reduceCtorEq] at h; rfl
  | cons i l =>
    cases m with
    | nil => simp only [toItems, reduceCtorEq] at h
    | cons j m =>
      obtain ⟨hhead, htail⟩ := List.cons.inj h
      rw [toValue_injective hhead, toItems_injective htail]

theorem toEntries_injective {l m : List (String × Json)} (h : toEntries l = toEntries m) : l = m := by
  cases l with
  | nil => cases m <;> simp only [toEntries, reduceCtorEq] at h; rfl
  | cons p l =>
    cases m with
    | nil => simp only [toEntries, reduceCtorEq] at h
    | cons q m =>
      obtain ⟨k, i⟩ := p
      obtain ⟨k', j⟩ := q
      obtain ⟨hhead, htail⟩ := List.cons.inj h
      obtain ⟨hkey, hvalue⟩ := Prod.mk.inj hhead
      rw [codePoints_injective (Option.some.inj hkey), toValue_injective hvalue, toEntries_injective htail]

end

/-- What is read of the text of a value is the value, its entries sorted. -/
theorem loads_dumps_canon (hooks : Hooks) {j : Json} (h : Sound List.Nodup j) :
    loads hooks j.dumps = some (toValue j.canon) := by
  rw [← dumps_canon, loads_dumps hooks (sound_canon j h)]

/-- Values with the same text differ in the order of entries only. -/
theorem canon_eq_of_dumps_eq {i j : Json} (hi : Sound List.Nodup i) (hj : Sound List.Nodup j) (h : i.dumps = j.dumps) :
    i.canon = j.canon := by
  have hloads := loads_dumps_canon .finite hi
  rw [h, loads_dumps_canon .finite hj] at hloads
  exact (toValue_injective (Option.some.inj hloads)).symm

end Canon

/-! ### Values that are read -/

section Read

theorem properItems_iff {items : List Value} : Value.ProperItems items ↔ ∀ v ∈ items, v.Proper := by
  induction items with
  | nil => simp [Value.ProperItems]
  | cons v items ih => rw [Value.ProperItems, ih, List.forall_mem_cons]

theorem properEntries_iff {entries : List (Option CodePoints × Value)} :
    Value.ProperEntries entries ↔ ∀ p ∈ entries, p.2.Proper := by
  induction entries with
  | nil => simp [Value.ProperEntries]
  | cons p entries ih => rw [Value.ProperEntries, ih, List.forall_mem_cons]

theorem negative_of_readDecimal {negative : Bool} {c : Nat} {k : Int} {d : Double} (h : readDecimal negative c k = .finite d) :
    d.negative = negative := by
  unfold readDecimal at h
  dsimp only at h
  split_ifs at h
  · cases h
    exact Double.negative_ofDecimal negative 0 0
  · cases h
    exact Double.negative_ofDecimal negative _ _

theorem proper_readDecimal (negative : Bool) (c : Nat) (k : Int) : (Value.float (readDecimal negative c k)).Proper := by
  cases h : readDecimal negative c k with
  | finite d => exact ⟨c, k, by rw [negative_of_readDecimal h, h]⟩
  | inf negative => trivial
  | nan => trivial

theorem scanNumber_proper {text rest : List Char} {v : Value} (h : scanNumber text = some (v, rest)) : v.Proper := by
  simp only [scanNumber, Option.bind_eq_bind, Option.bind_eq_some_iff, Option.pure_def] at h
  obtain ⟨r, -, h⟩ := h
  split_ifs at h
  · cases h
    trivial
  · cases h
    exact proper_readDecimal _ _ _

theorem scanWord_proper {constants : Bool} {text rest : List Char} {v : Value} (h : scanWord constants text = some (v, rest)) :
    v.Proper := by
  obtain ⟨p, hp, hv⟩ := List.exists_of_findSome?_eq_some h
  dsimp only at hv
  split_ifs at hv
  cases hv
  have hall : ∀ p ∈ words true, p.2.Proper := by
    simp only [words, if_true, List.cons_append, List.nil_append, List.forall_mem_cons]
    simp [Value.Proper]
  refine hall p ?_
  cases constants with
  | true => exact hp
  | false =>
    simp only [words, if_true, Bool.false_eq_true, if_false, List.append_nil] at hp ⊢
    exact List.mem_append_left _ hp

theorem mem_dictOf {members : List (CodePoints × Value)} {p : CodePoints × Value} (h : p ∈ dictOf members) :
    ∃ q ∈ members, q.2 = p.2 := by
  have hstep : ∀ (l d : List (CodePoints × Value)), p ∈ l.foldl (fun d q => Dict.insert d q.1 q.2) d →
      p ∈ d ∨ ∃ q ∈ l, q.2 = p.2 := by
    intro l
    induction l with
    | nil => exact fun d hp => .inl hp
    | cons q l ih =>
      intro d hp
      rcases ih _ hp with hp | ⟨r, hr, he⟩
      · simp only [Dict.insert] at hp
        split_ifs at hp
        · obtain ⟨r, hr, rfl⟩ := List.mem_map.mp hp
          split_ifs with hk
          · exact .inr ⟨q, List.mem_cons_self, rfl⟩
          · exact .inl hr
        · rcases List.mem_append.mp hp with hp | hp
          · exact .inl hp
          · obtain rfl := List.mem_singleton.mp hp
            exact .inr ⟨q, List.mem_cons_self, rfl⟩
      · exact .inr ⟨r, List.mem_cons_of_mem _ hr, he⟩
  rcases hstep members [] h with h | h
  · cases h
  · exact h

theorem nodup_dictOf (members : List (CodePoints × Value)) : ((dictOf members).map Prod.fst).Nodup := by
  have hstep : ∀ (l d : List (CodePoints × Value)), (d.map Prod.fst).Nodup →
      ((l.foldl (fun d q => Dict.insert d q.1 q.2) d).map Prod.fst).Nodup := by
    intro l
    induction l with
    | nil => exact fun d hd => hd
    | cons q l ih => exact fun d hd => ih _ (Dict.nodup_keys_insert hd q.1 q.2)
  exact hstep members [] List.nodup_nil

theorem proper_entriesOf {members : List (CodePoints × Value)} (h : ∀ p ∈ members, p.2.Proper) :
    (Value.dict (entriesOf members)).Proper := by
  constructor
  · rw [entriesOf, List.map_map]
    have hmap := (nodup_dictOf members).map (f := some) (Option.some_injective _)
    rwa [List.map_map] at hmap
  · refine properEntries_iff.mpr fun p hp => ?_
    obtain ⟨q, hq, rfl⟩ := List.mem_map.mp hp
    obtain ⟨r, hr, he⟩ := mem_dictOf hq
    exact he ▸ h r hr

/-- What is read is a value that Python has. -/
theorem scan_proper (hooks : Hooks) (fuel : Nat) :
    (∀ text v rest, scanValue hooks fuel text = some (v, rest) → v.Proper) ∧
    (∀ text items rest, scanItems hooks fuel text = some (items, rest) → ∀ v ∈ items, v.Proper) ∧
    ∀ text members rest, scanMembers hooks fuel text = some (members, rest) → ∀ p ∈ members, p.2.Proper := by
  induction fuel with
  | zero => exact ⟨by simp [scanValue], by simp [scanItems], by simp [scanMembers]⟩
  | succ fuel ih =>
    obtain ⟨ihvalue, ihitems, ihmembers⟩ := ih
    refine ⟨fun text v rest h => ?_, fun text items rest h => ?_, fun text members rest h => ?_⟩
    · cases text with
      | nil => cases h
      | cons c text =>
        rw [scanValue] at h
        split_ifs at h
        · obtain ⟨r, -, hr⟩ := Option.map_eq_some_iff.mp h
          cases hr
          trivial
        · cases h
          trivial
        · obtain ⟨r, hr, hv⟩ := Option.map_eq_some_iff.mp h
          cases hv
          exact properItems_iff.mpr (ihitems _ _ _ hr)
        · cases h
          exact ⟨List.nodup_nil, trivial⟩
        · simp only [Option.bind_eq_bind, Option.bind_eq_some_iff] at h
          obtain ⟨r, hr, entries, hentries, h⟩ := h
          cases h
          rw [Hooks.entries] at hentries
          split_ifs at hentries
          cases hentries
          exact proper_entriesOf (ihmembers _ _ _ hr)
        · rcases Option.or_eq_some_iff.mp h with hword | ⟨-, hnumber⟩
          · exact scanWord_proper hword
          · exact scanNumber_proper hnumber
    · simp only [scanItems, Option.bind_eq_bind, Option.bind_eq_some_iff] at h
      obtain ⟨r, hr, h⟩ := h
      have hhead := ihvalue _ _ _ hr
      split at h
      · cases h
      · split_ifs at h
        · cases h
          exact fun v hv => List.mem_singleton.mp hv ▸ hhead
        · simp only [Option.bind_eq_some_iff] at h
          obtain ⟨q, hq, h⟩ := h
          cases h
          exact List.forall_mem_cons.mpr ⟨hhead, ihitems _ _ _ hq⟩
    · rw [scanMembers] at h
      split_ifs at h
      simp only [Option.bind_eq_bind, Option.bind_eq_some_iff] at h
      obtain ⟨r, -, h⟩ := h
      split_ifs at h
      simp only [Option.bind_eq_some_iff] at h
      obtain ⟨q, hq, h⟩ := h
      have hhead := ihvalue _ _ _ hq
      split at h
      · cases h
      · split_ifs at h
        · cases h
          exact fun p hp => List.mem_singleton.mp hp ▸ hhead
        · simp only [Option.bind_eq_some_iff] at h
          obtain ⟨x, hx, h⟩ := h
          cases h
          exact List.forall_mem_cons.mpr ⟨hhead, ihmembers _ _ _ hx⟩

theorem proper_of_loads {hooks : Hooks} {s : String} {v : Value} (h : loads hooks s = some v) : v.Proper := by
  simp only [loads, Option.bind_eq_bind, Option.bind_eq_some_iff] at h
  obtain ⟨r, hr, h⟩ := h
  split_ifs at h
  cases h
  exact (scan_proper hooks _).1 _ _ _ hr

end Read

end Json
