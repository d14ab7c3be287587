import SevenLens.Memory.Contracts
import SevenLens.Security.Tickers

/-! # Closure of texts under facts

The scanner reads dates, numbers and words in upper case from a text, each of which must be cited.
What stands in none of these tokens is not looked at, so that a text may have numbers that nobody
cites: that it has none is a property of what the scanner reads (`numbers_cited_iff`). -/

namespace SevenLens.Memory

open Securities Security

/-! ### Tokens -/

/-- The class `[A-Za-z0-9_.-]`. -/
def isNumberWord (c : Char) : Bool := isAlnum c || c == '_' || c == '.' || c == '-'

/-- The class `[A-Za-z0-9.\-]`. -/
def isTickerWord (c : Char) : Bool := isAlnum c || c == '.' || c == '-'

/-- `-?(?:0|[1-9][0-9]*)(?:\.[0-9]+)?` -/
def decimalNumber : Regex :=
  .cat [.optional (char '-'), .alt (char '0') (.seq (.cls isNonZeroDigit) (.many (.cls isDigit))),
    .optional (.cat [char '.', .plus (.cls isDigit)])]

/-- `_NUMBER_TOKEN` -/
def numberToken : Regex := .cat [.notAfter isNumberWord, decimalNumber, .notBefore isNumberWord]

/-- `_SCIENTIFIC_TOKEN` -/
def scientificToken : Regex :=
  .cat [.notAfter isNumberWord, decimalNumber, .cls (fun c => c == 'e' || c == 'E'),
    .optional (.cls fun c => c == '+' || c == '-'), .plus (.cls isDigit), .notBefore isNumberWord]

/-- `_DATE_TOKEN` -/
def dateToken : Regex :=
  .cat ([.notAfter isDigit] ++ List.replicate 4 (.cls isDigit) ++ [char '-'] ++ List.replicate 2 (.cls isDigit) ++ [char '-'] ++
    List.replicate 2 (.cls isDigit) ++ [.notBefore isDigit])

/-- `_UPPER_TOKEN` -/
def upperToken : Regex :=
  .cat [.notAfter isTickerWord, .cls isUpper, .upTo 9 (.cls isSymbolChar), .notBefore isTickerWord]

/-- A value as a word of its own, in the case it is given in. -/
def spelled (value : List Char) : Regex :=
  .cat [.notAfter isTickerWord, .cat (value.map char), .notBefore isTickerWord]

/-- `"\n".join(texts)` -/
def joinedTexts (texts : List String) : List Char := [Char.ofNat 10].intercalate (texts.map String.toList)

/-- The places of a match. -/
def spanOf (m : Nat × List Char) : Nat × Nat := (m.1, m.1 + m.2.length)

def insideDate (text : List Char) (m : Nat × List Char) : Bool :=
  (dateToken.finditer text).any fun d => decide ((spanOf d).1 ≤ (spanOf m).1 ∧ (spanOf m).2 ≤ (spanOf d).2)

/-- The tokens of a text that must be cited as facts of a kind. -/
def tokensOf (text : List Char) : FactKind → List (List Char)
  | .text => []
  | .date => (dateToken.finditer text).map Prod.snd
  | .number => ((numberToken.finditer text).filter fun m => !insideDate text m).map Prod.snd
  | .symbol | .riskReason => (upperToken.finditer text).map Prod.snd

/-! ### The closure -/

/-- `values_by_kind[kind]` -/
def valuesOf (available : List (String × FactRef)) (cited : List String) (kind : FactKind) : List String :=
  cited.filterMap fun id => (available.lookup id).bind fun fact => if fact.kind = kind then some fact.value else none

/-- `validate_text_fact_closure` -/
def validateTextFactClosure (U : Unicode) (texts : List String) (available : List (String × FactRef)) (cited : List String)
    (riskReasons : Option (List String)) : Except Failure Unit := do
  require (∀ item ∈ available, item.1 = item.2.factId) "fact closure requires exact keyed fact contracts"
  require (∀ id ∈ cited, id ∈ available.map Prod.fst) "fact closure contains a foreign fact id"
  let text := joinedTexts texts
  let values := valuesOf available cited
  (dateToken.finditer text).forM fun m =>
    require (String.ofList m.2 ∈ values .date) "fact closure found an unreferenced date"
  require (scientificToken.search text = false) "fact closure found a non-canonical numeric token"
  (numberToken.finditer text).forM fun m =>
    require (insideDate text m = true ∨ String.ofList m.2 ∈ values .number) "fact closure found an unreferenced number"
  require (∀ reasons ∈ riskReasons, ∀ reason ∈ reasons, reason ∈ values .riskReason)
    "fact closure found a non-risk fact used as a risk reason"
  let typedUpper := values .symbol ++ riskReasons.getD (values .riskReason)
  (upperToken.finditer text).forM fun m =>
    require (String.ofList m.2 ∈ typedUpper) "fact closure found an unreferenced symbol or risk reason"
  (values .symbol ++ values .riskReason).forM fun value =>
    require (value.toList <:+: text ∨ (spelled (U.casefold value.toList)).search (U.casefold text) = false)
      "fact closure found a non-canonical symbol or risk reason"

variable {U : Unicode} {texts : List String} {available : List (String × FactRef)} {cited : List String}
  {riskReasons : Option (List String)}

theorem mem_valuesOf {kind : FactKind} {value : String} : value ∈ valuesOf available cited kind ↔
    ∃ id ∈ cited, ∃ fact, available.lookup id = some fact ∧ fact.kind = kind ∧ fact.value = value := by
  simp only [valuesOf, List.mem_filterMap, Option.bind_eq_some_iff, Option.ite_none_right_eq_some, Option.some.injEq]

/-- What an accepted text fulfils. -/
structure Accepted (U : Unicode) (text : List Char) (available : List (String × FactRef)) (cited : List String)
    (riskReasons : Option (List String)) : Prop where
  keyed : ∀ item ∈ available, item.1 = item.2.factId
  known : ∀ id ∈ cited, id ∈ available.map Prod.fst
  dates : ∀ token ∈ tokensOf text .date, String.ofList token ∈ valuesOf available cited .date
  plain : scientificToken.search text = false
  numbers : ∀ token ∈ tokensOf text .number, String.ofList token ∈ valuesOf available cited .number
  reasons : ∀ reasons ∈ riskReasons, ∀ reason ∈ reasons, reason ∈ valuesOf available cited .riskReason
  uppers : ∀ token ∈ tokensOf text .symbol, String.ofList token ∈ valuesOf available cited .symbol ++
    riskReasons.getD (valuesOf available cited .riskReason)
  spelling : ∀ value ∈ valuesOf available cited .symbol ++ valuesOf available cited .riskReason,
    value.toList <:+: text ∨ (spelled (U.casefold value.toList)).search (U.casefold text) = false

theorem forall_numbers {text : List Char} {p : List Char → Prop} : (∀ token ∈ tokensOf text .number, p token) ↔
    ∀ m ∈ numberToken.finditer text, insideDate text m = true ∨ p m.2 := by
  rw [tokensOf, List.forall_mem_map]
  refine forall_congr' fun m => ?_
  rw [List.mem_filter, Bool.not_eq_true', ← Bool.not_eq_true]
  tauto

theorem accepted_iff : validateTextFactClosure U texts available cited riskReasons = .ok () ↔
    Accepted U (joinedTexts texts) available cited riskReasons := by
  simp only [validateTextFactClosure, bind_ok, require_ok, Dict.forM_ok, exists_const]
  constructor
  · rintro ⟨hkeyed, hknown, hdates, hplain, hnumbers, hreasons, huppers, hspelling⟩
    exact ⟨hkeyed, hknown, List.forall_mem_map.mpr hdates, hplain, forall_numbers.mpr hnumbers, hreasons,
      List.forall_mem_map.mpr huppers, hspelling⟩
  · rintro ⟨hkeyed, hknown, hdates, hplain, hnumbers, hreasons, huppers, hspelling⟩
    exact ⟨hkeyed, hknown, fun m hm => hdates m.2 (List.mem_map_of_mem hm), hplain, forall_numbers.mp hnumbers, hreasons,
      fun m hm => huppers m.2 (List.mem_map_of_mem hm), hspelling⟩

/-! ### Numbers and citations -/

/-- A text stands between two places of another one. -/
def OccursAt (token text : List Char) (k l : Nat) : Prop :=
  ∃ before after, text = before ++ (token ++ after) ∧ k = before.length ∧ l = k + token.length

/-- The digits between two places, as far as they go. -/
def DigitRun (text : List Char) (i j : Nat) : Prop :=
  ∃ before digits after, text = before ++ (digits ++ after) ∧ i = before.length ∧ j = i + digits.length ∧ digits ≠ [] ∧
    (∀ c ∈ digits, isDigit c = true) ∧ (∀ c ∈ before.getLast?, isDigit c = false) ∧ ∀ c ∈ after.head?, isDigit c = false

/-- The places are within an occurrence of one of the tokens. -/
def InsideOf (tokens : List (List Char)) (text : List Char) (i j : Nat) : Prop :=
  ∃ token ∈ tokens, ∃ k l, OccursAt token text k l ∧ k ≤ i ∧ j ≤ l

def hasLetter (value : String) : Bool := value.toList.any fun c => isUpper c || isLower c

/-- The cited values that a number may be part of. -/
def citedTokens (available : List (String × FactRef)) (cited : List String) : List (List Char) :=
  (valuesOf available cited .date ++ valuesOf available cited .number ++
    (valuesOf available cited .symbol ++ valuesOf available cited .riskReason).filter hasLetter).map String.toList

/-- What the scanner reads. -/
def scannedTokens (text : List Char) : List (List Char) := tokensOf text .date ++ tokensOf text .number ++ tokensOf text .symbol

/-- Every number of the text is part of a cited value. -/
def NumbersCited (available : List (String × FactRef)) (cited : List String) (text : List Char) : Prop :=
  ∀ i j, DigitRun text i j → InsideOf (citedTokens available cited) text i j

/-- A word in upper case begins with a letter. -/
theorem hasLetter_of_upper {text token : List Char} (h : token ∈ tokensOf text .symbol) : hasLetter (String.ofList token) = true := by
  obtain ⟨⟨i, _⟩, hm, rfl⟩ := List.mem_map.mp h
  obtain ⟨before, after, -, -, hmatch⟩ := Regex.mem_finditer hm
  obtain ⟨_, _, htoken, hedge, hmatch⟩ := Regex.matches_seq.mp hmatch
  obtain ⟨rfl, -⟩ := Regex.matches_test.mp hedge
  obtain ⟨_, _, rfl, hfirst, -⟩ := Regex.matches_seq.mp hmatch
  obtain ⟨c, rfl, hc⟩ := Regex.matches_cls.mp hfirst
  rw [htoken, hasLetter, String.toList_ofList, List.any_eq_true]
  exact ⟨c, by simp, by simp [hc]⟩

/-- A token of the scanner stands in the text. -/
theorem infix_of_mem_tokensOf {text token : List Char} {kind : FactKind} (h : token ∈ tokensOf text kind) : token <:+: text := by
  have hmatch : ∀ r : Regex, ∀ m ∈ r.finditer text, m.2 <:+: text := by
    rintro r ⟨i, token⟩ hm
    obtain ⟨before, after, htext, -, -⟩ := Regex.mem_finditer hm
    exact ⟨before.reverse, after, by rw [htext, List.append_assoc]⟩
  cases kind with
  | text => cases h
  | number =>
    obtain ⟨m, hm, rfl⟩ := List.mem_map.mp h
    exact hmatch _ m (List.mem_of_mem_filter hm)
  | date | symbol | riskReason =>
    obtain ⟨m, hm, rfl⟩ := List.mem_map.mp h
    exact hmatch _ m hm

/-- The risk reasons that are asked for are cited. -/
theorem Accepted.upper_cited {text : List Char} (h : Accepted U text available cited riskReasons) {token : List Char}
    (htoken : token ∈ tokensOf text .symbol) :
    String.ofList token ∈ valuesOf available cited .symbol ++ valuesOf available cited .riskReason := by
  refine List.mem_append.mpr ((List.mem_append.mp (h.uppers token htoken)).imp_right fun hreason => ?_)
  cases hreasons : riskReasons with
  | none => rwa [hreasons] at hreason
  | some reasons =>
    rw [hreasons] at hreason
    exact h.reasons reasons hreasons _ hreason

/-- The tokens of an accepted text are cited. -/
theorem Accepted.scanned {text : List Char} (h : Accepted U text available cited riskReasons) :
    ∀ token ∈ scannedTokens text, token ∈ citedTokens available cited := by
  intro token htoken
  refine List.mem_map.mpr ⟨String.ofList token, ?_, String.toList_ofList⟩
  rcases List.mem_append.mp htoken with htoken | htoken
  · rcases List.mem_append.mp htoken with htoken | htoken
    · exact List.mem_append_left _ (List.mem_append_left _ (h.dates token htoken))
    · exact List.mem_append_left _ (List.mem_append_right _ (h.numbers token htoken))
  · exact List.mem_append_right _ (List.mem_filter.mpr ⟨h.upper_cited htoken, hasLetter_of_upper htoken⟩)

/-! ### As few citations as the scanner asks for -/

/-- The citations of facts that are tokens of the text. -/
def neededCitations (text : List Char) (available : List (String × FactRef)) (cited : List String) : List String :=
  cited.filter fun id => (available.lookup id).any fun fact => (tokensOf text fact.kind).contains fact.value.toList

theorem mem_valuesOf_needed {text : List Char} {kind : FactKind} {value : String} :
    value ∈ valuesOf available (neededCitations text available cited) kind ↔
      value ∈ valuesOf available cited kind ∧ value.toList ∈ tokensOf text kind := by
  simp only [mem_valuesOf, neededCitations, List.mem_filter]
  constructor
  · rintro ⟨id, ⟨hid, hneeded⟩, fact, hfact, rfl, rfl⟩
    rw [hfact] at hneeded
    exact ⟨⟨id, hid, fact, hfact, rfl, rfl⟩, List.contains_iff_mem.mp hneeded⟩
  · rintro ⟨⟨id, hid, fact, hfact, rfl, rfl⟩, htoken⟩
    refine ⟨id, ⟨hid, ?_⟩, fact, hfact, rfl, rfl⟩
    rw [hfact]
    exact List.contains_iff_mem.mpr htoken

/-- With these citations alone the text is accepted as well. -/
theorem Accepted.needed {text : List Char} (h : Accepted U text available cited riskReasons) :
    Accepted U text available (neededCitations text available cited) none where
  keyed := h.keyed
  known id hid := h.known id (List.mem_of_mem_filter hid)
  dates token htoken := mem_valuesOf_needed.mpr ⟨h.dates token htoken, by rwa [String.toList_ofList]⟩
  plain := h.plain
  numbers token htoken := mem_valuesOf_needed.mpr ⟨h.numbers token htoken, by rwa [String.toList_ofList]⟩
  reasons _ hreasons := nomatch hreasons
  uppers token htoken := List.mem_append.mpr ((List.mem_append.mp (h.upper_cited htoken)).imp
    (fun hvalue => mem_valuesOf_needed.mpr ⟨hvalue, by rwa [String.toList_ofList]⟩)
    fun hvalue => mem_valuesOf_needed.mpr ⟨hvalue, by rwa [String.toList_ofList]⟩)
  spelling value hvalue := .inl <| by
    rcases List.mem_append.mp hvalue with hvalue | hvalue
    · exact infix_of_mem_tokensOf (mem_valuesOf_needed.mp hvalue).2
    · exact infix_of_mem_tokensOf (mem_valuesOf_needed.mp hvalue).2

theorem citedTokens_needed {text token : List Char}
    (h : token ∈ citedTokens available (neededCitations text available cited)) : token ∈ scannedTokens text := by
  obtain ⟨value, hvalue, rfl⟩ := List.mem_map.mp h
  rcases List.mem_append.mp hvalue with hvalue | hvalue
  · refine List.mem_append_left _ (List.mem_append.mpr ((List.mem_append.mp hvalue).imp ?_ ?_))
    · exact fun hvalue => (mem_valuesOf_needed.mp hvalue).2
    · exact fun hvalue => (mem_valuesOf_needed.mp hvalue).2
  · refine List.mem_append_right _ ?_
    rcases List.mem_append.mp (List.mem_of_mem_filter hvalue) with hvalue | hvalue
    · exact (mem_valuesOf_needed.mp hvalue).2
    · exact (mem_valuesOf_needed.mp hvalue).2

/-- Whatever is cited, every number of an accepted text is part of a cited value: this is so exactly if the text is not
accepted at all, or has every number in a text that the scanner reads somewhere. -/
theorem numbers_cited_iff (U : Unicode) (texts : List String) (available : List (String × FactRef)) :
    (∀ cited riskReasons, validateTextFactClosure U texts available cited riskReasons = .ok () →
      NumbersCited available cited (joinedTexts texts)) ↔
    ((∃ cited riskReasons, validateTextFactClosure U texts available cited riskReasons = .ok ()) →
      ∀ i j, DigitRun (joinedTexts texts) i j → InsideOf (scannedTokens (joinedTexts texts)) (joinedTexts texts) i j) := by
  constructor
  · rintro h ⟨cited, riskReasons, haccepted⟩ i j hrun
    obtain ⟨token, htoken, hinside⟩ := h _ none (accepted_iff.mpr (accepted_iff.mp haccepted).needed) i j hrun
    exact ⟨token, citedTokens_needed htoken, hinside⟩
  · intro h cited riskReasons haccepted i j hrun
    obtain ⟨token, htoken, hinside⟩ := h ⟨cited, riskReasons, haccepted⟩ i j hrun
    exact ⟨token, (accepted_iff.mp haccepted).scanned token htoken, hinside⟩

/-- Numbers before a period, a unit, a hyphen or an underscore, or after a zero, need no citation. -/
theorem loose_numbers_accepted :
    validateTextFactClosure asciiTables ["5.", "007", "5kg", "3-4", "1_000"] [] [] none = .ok () ∧
      ¬ NumbersCited [] [] (joinedTexts ["5.", "007", "5kg", "3-4", "1_000"]) := by
  refine ⟨by decide +kernel, fun hcited => ?_⟩
  have hhead : (joinedTexts [".", "007", "5kg", "3-4", "1_000"]).head? = some '.' := by decide +kernel
  have hperiod : ∀ c ∈ (joinedTexts [".", "007", "5kg", "3-4", "1_000"]).head?, isDigit c = false := by
    intro c hc
    rw [hhead, Option.mem_some_iff] at hc
    rw [← hc]
    decide
  obtain ⟨token, htoken, -⟩ := hcited 0 1 ⟨[], ['5'], joinedTexts [".", "007", "5kg", "3-4", "1_000"], by decide +kernel, rfl, rfl,
    List.cons_ne_nil _ _, List.forall_mem_singleton.mpr (by decide), fun c hc => absurd hc (Option.not_mem_none c), hperiod⟩
  cases htoken

end SevenLens.Memory
