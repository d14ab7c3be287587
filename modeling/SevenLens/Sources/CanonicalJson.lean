import SevenLens.Securities.Eligibility
import SevenLens.Sources.Records

/-! # Two writers of canonical JSON

The hash of a record is taken of the text that `json.dumps` writes; the database takes it of the
text that `p3d_canonical_json` writes of the same value, after `jsonb` has stored it.  `jsonb` keeps
a number as an exact decimal and writes it without an exponent, where Python's text of a float has
one as soon as the point is far from the digits, and it has no negative zero.  Elsewhere the two
texts are the same, and where a float is written in two ways the texts part
(`canonicalJson_agrees_iff`). -/

/-! ### Texts that part -/

/-- Two lists that differ at a place both have. -/
def Parts {α : Type} (s t : List α) : Prop :=
  ∃ pre c d s' t', c ≠ d ∧ s = pre ++ c :: s' ∧ t = pre ++ d :: t'

namespace Parts

variable {α : Type} {s t : List α}

theorem ne (h : Parts s t) : s ≠ t := by
  obtain ⟨pre, c, d, s', t', hne, rfl, rfl⟩ := h
  intro heq
  exact hne (List.cons.inj (List.append_cancel_left heq)).1

theorem append_left (h : Parts s t) (u : List α) : Parts (u ++ s) (u ++ t) := by
  obtain ⟨pre, c, d, s', t', hne, rfl, rfl⟩ := h
  exact ⟨u ++ pre, c, d, s', t', hne, (List.append_assoc _ _ _).symm, (List.append_assoc _ _ _).symm⟩

theorem append_right (h : Parts s t) (u v : List α) : Parts (s ++ u) (t ++ v) := by
  obtain ⟨pre, c, d, s', t', hne, rfl, rfl⟩ := h
  exact ⟨pre, c, d, s' ++ u, t' ++ v, hne, by simp, by simp⟩

theorem of_heads {c d : α} (h : c ≠ d) (s t : List α) : Parts (c :: s) (d :: t) := ⟨[], c, d, s, t, h, rfl, rfl⟩

end Parts

namespace Json

/-! ### Numbers -/

namespace Double

def IsZero (d : Double) : Prop := d.digits = ['0']

instance (d : Double) : Decidable d.IsZero := inferInstanceAs (Decidable (_ = _))

/-- The digits with a point among them, if there are digits after it. -/
def whole (d : Double) : List Char :=
  if d.point ≤ 0 then '0' :: '.' :: (List.replicate (-d.point).toNat '0' ++ d.digits)
  else if d.point.toNat < d.digits.length then
    d.digits.take d.point.toNat ++ '.' :: d.digits.drop d.point.toNat
  else d.digits ++ List.replicate (d.point.toNat - d.digits.length) '0'

/-- The text of the exact decimal.  It has as many digits after the point as the text it was read
from: only one with an exponent may have none. -/
def numeric (d : Double) : String :=
  String.ofList ((if d.negative ∧ ¬ d.IsZero then ['-'] else []) ++ if d.Plain then d.positional else d.whole)

/-- Python's text has no exponent and is not that of the negative zero. -/
def Shared (d : Double) : Prop := d.Plain ∧ ¬ (d.negative = true ∧ d.IsZero)

instance (d : Double) : Decidable d.Shared := inferInstanceAs (Decidable (_ ∧ _))

theorem numeric_of_shared {d : Double} (h : d.Shared) : d.numeric = d.repr := by
  obtain ⟨hplain, hzero⟩ := h
  have hsign : (d.negative = true ∧ ¬ d.IsZero) ↔ d.negative = true := by tauto
  simp only [numeric, repr, hsign, hplain, if_true]

theorem plain_of_isZero {d : Double} (h : d.IsZero) : d.Plain := by
  have hpoint : d.point = 1 := (d.normal (by rw [h]; rfl)).2
  rw [Plain, hpoint]
  decide

/-- With an exponent, a point or the exponent follows the first digit. -/
theorem scientific_shape {d : Double} {c : Char} {rest : List Char} (h : d.digits = c :: rest) :
    ∃ x tail, d.scientific = c :: x :: tail ∧ (x = '.' ∨ x = 'e' ∧ rest = []) := by
  unfold scientific
  rw [h]
  cases rest with
  | nil => exact ⟨'e', _, rfl, .inr ⟨rfl, rfl⟩⟩
  | cons c' rest => exact ⟨'.', _, rfl, .inl rfl⟩

/-- Without an exponent, a large number has its second digit after the first one, or a zero. -/
theorem whole_shape {d : Double} {c : Char} {rest : List Char} (h : d.digits = c :: rest) (hpoint : 2 ≤ d.point) :
    ∃ tail, d.whole = c :: (rest.head?.getD '0') :: tail := by
  obtain ⟨n, hn⟩ : ∃ n, d.point.toNat = n + 2 := ⟨d.point.toNat - 2, by omega⟩
  unfold whole
  rw [if_neg (by omega), h, hn]
  cases rest with
  | nil =>
    rw [if_neg (by simp)]
    exact ⟨List.replicate n '0', rfl⟩
  | cons c' rest =>
    split_ifs
    · exact ⟨_, rfl⟩
    · exact ⟨_, rfl⟩

theorem scientific_parts_whole {d : Double} (h : ¬ d.Plain) : Parts d.scientific d.whole := by
  obtain ⟨c, rest, hdigits⟩ := List.exists_cons_of_ne_nil d.digits_ok.1
  obtain ⟨x, tail, hscientific, hx⟩ := scientific_shape hdigits
  rw [hscientific]
  by_cases hpoint : d.point ≤ 0
  · have hnonzero : c ≠ '0' := by
      rintro rfl
      exact h (plain_of_isZero (d.normal (by rw [hdigits]; rfl)).1)
    rw [whole, if_pos hpoint]
    exact Parts.of_heads hnonzero _ _
  · have hlarge : 2 ≤ d.point := by
      simp only [Plain, not_and, not_le] at h
      omega
    obtain ⟨tail', hwhole⟩ := whole_shape hdigits hlarge
    have hne : x ≠ rest.head?.getD '0' := by
      rcases hx with rfl | ⟨rfl, rfl⟩
      · cases rest with
        | nil => decide
        | cons c' rest =>
          rintro rfl
          have hall := d.digits_ok.2
          rw [hdigits] at hall
          simp at hall
      · decide
    rw [hwhole]
    exact (Parts.of_heads hne _ _).append_left [c]

/-- A float that is written in two ways: the texts part. -/
theorem repr_parts_numeric {d : Double} (h : ¬ d.Shared) : Parts d.repr.toList d.numeric.toList := by
  simp only [repr, numeric, String.toList_ofList]
  by_cases hplain : d.Plain
  · have hzero : d.negative = true ∧ d.IsZero := by
      by_contra hno
      exact h ⟨hplain, hno⟩
    have hdigits : d.digits = ['0'] := hzero.2
    have hpoint : d.point = 1 := (d.normal (by rw [hdigits]; rfl)).2
    have hpositional : d.positional = ['0', '.', '0'] := by
      rw [positional, hdigits, hpoint]
      rfl
    have hsign : ¬ (d.negative = true ∧ ¬ d.IsZero) := fun hno => hno.2 hzero.2
    simp only [if_pos hzero.1, if_neg hsign, if_pos hplain, hpositional]
    exact Parts.of_heads (show '-' ≠ '0' by decide) _ _
  · have hzero : ¬ d.IsZero := fun hz => hplain (plain_of_isZero hz)
    simp only [hzero, not_false_eq_true, and_true, if_neg hplain]
    exact (scientific_parts_whole hplain).append_left _

end Double

/-! ### Values -/

mutual

/-- The floats of a value. -/
def floats : Json → List Double
  | .float d => [d]
  | .arr items => floatsItems items
  | .obj fields => floatsFields fields
  | _ => []

def floatsItems : List Json → List Double
  | [] => []
  | j :: items => j.floats ++ floatsItems items

def floatsFields : List (String × Json) → List Double
  | [] => []
  | (_, j) :: fields => j.floats ++ floatsFields fields

end

mutual

/-- `p3d_canonical_json` of the value as `jsonb` has stored it.  Keys are sorted with the collation
"C", which is the order of their code points; strings are escaped as in `dumps`. -/
def canonicalJson : Json → String
  | .null => "null"
  | .bool b => if b then "true" else "false"
  | .int n => toString n
  | .float d => d.numeric
  | .str s => quote s
  | .arr items => "[" ++ commaJoin (canonicalItems items) ++ "]"
  | .obj fields => "\x7b" ++ commaJoin (((canonicalFields fields).sortOn Prod.fst).map Prod.snd) ++ "\x7d"

def canonicalItems : List Json → List String
  | [] => []
  | j :: items => j.canonicalJson :: canonicalItems items

def canonicalFields : List (String × Json) → List (String × String)
  | [] => []
  | (k, j) :: fields => (k, quote k ++ ":" ++ j.canonicalJson) :: canonicalFields fields

end

/-- All floats of a value have one text. -/
def Shared (j : Json) : Prop := ∀ d ∈ j.floats, d.Shared

/-- The two texts of a value are the same, or a float has two and then they part. -/
def Compared (j : Json) : Prop :=
  (j.Shared ∧ j.canonicalJson = j.dumps) ∨ ¬ j.Shared ∧ Parts j.dumps.toList j.canonicalJson.toList

theorem canonicalItems_eq_map (items : List Json) : canonicalItems items = items.map canonicalJson := by
  induction items with
  | nil => rfl
  | cons j items ih => rw [canonicalItems, ih, List.map_cons]

theorem dumpsItems_eq_map (items : List Json) : dumpsItems items = items.map dumps := by
  induction items with
  | nil => rfl
  | cons j items ih => rw [dumpsItems, ih, List.map_cons]

theorem mem_floatsItems {items : List Json} {d : Double} : d ∈ floatsItems items ↔ ∃ j ∈ items, d ∈ j.floats := by
  induction items with
  | nil => simp [floatsItems]
  | cons j items ih => simp [floatsItems, ih]

theorem mem_floatsFields {fields : List (String × Json)} {d : Double} :
    d ∈ floatsFields fields ↔ ∃ p ∈ fields, d ∈ p.2.floats := by
  induction fields with
  | nil => simp [floatsFields]
  | cons p fields ih => simp [floatsFields, ih]

/-- The fields sorted before they are written, under any writer of values. -/
theorem sorted_fields (write : Json → String) (fields : List (String × Json)) :
    ((fields.map (fun p => (p.1, quote p.1 ++ ":" ++ write p.2))).sortOn Prod.fst).map Prod.snd =
      (fields.sortOn Prod.fst).map (fun p => quote p.1 ++ ":" ++ write p.2) := by
  have hsort := List.map_insertionSort (r := fun a b : String × Json => a.1 ≤ b.1)
    (s := fun a b : String × String => a.1 ≤ b.1) (fun p => (p.1, quote p.1 ++ ":" ++ write p.2)) fields
    (fun a _ b _ => Iff.rfl)
  rw [List.sortOn, ← hsort, List.map_map]
  rfl

theorem dumpsFields_eq_map (fields : List (String × Json)) :
    dumpsFields fields = fields.map (fun p => (p.1, quote p.1 ++ ":" ++ p.2.dumps)) := by
  induction fields with
  | nil => rfl
  | cons p fields ih => rw [dumpsFields, ih, List.map_cons]

theorem canonicalFields_eq_map (fields : List (String × Json)) :
    canonicalFields fields = fields.map (fun p => (p.1, quote p.1 ++ ":" ++ p.2.canonicalJson)) := by
  induction fields with
  | nil => rfl
  | cons p fields ih => rw [canonicalFields, ih, List.map_cons]

/-- Joined texts are the same when all are, and part at the first one that parts. -/
theorem commaJoin_compared {α : Type} {f g : α → String} {p : α → Prop} {l : List α}
    (h : ∀ a ∈ l, p a ∧ g a = f a ∨ ¬ p a ∧ Parts (f a).toList (g a).toList) :
    ((∀ a ∈ l, p a) ∧ commaJoin (l.map g) = commaJoin (l.map f)) ∨
      (¬ ∀ a ∈ l, p a) ∧ Parts (commaJoin (l.map f)).toList (commaJoin (l.map g)).toList := by
  induction l with
  | nil => exact .inl ⟨by simp, rfl⟩
  | cons a l ih =>
    obtain ⟨ha, hl⟩ := List.forall_mem_cons.mp h
    rcases ha with ⟨hpa, heq⟩ | ⟨hpa, hparts⟩
    · rcases ih hl with ⟨hall, hjoin⟩ | ⟨hnot, hparts⟩
      · refine .inl ⟨List.forall_mem_cons.mpr ⟨hpa, hall⟩, ?_⟩
        cases l with
        | nil => exact heq
        | cons b l => simp only [List.map_cons, commaJoin, heq] at hjoin ⊢; rw [hjoin]
      · refine .inr ⟨fun hall => hnot (List.forall_mem_cons.mp hall).2, ?_⟩
        cases l with
        | nil => exact absurd (by simp) hnot
        | cons b l =>
          simp only [List.map_cons, commaJoin, heq, String.toList_append] at hparts ⊢
          exact hparts.append_left _
    · refine .inr ⟨fun hall => hpa (List.forall_mem_cons.mp hall).1, ?_⟩
      cases l with
      | nil => exact hparts
      | cons b l =>
        simp only [List.map_cons, commaJoin, String.toList_append, List.append_assoc]
        exact hparts.append_right _ _

mutual

theorem compared (j : Json) : j.Compared := by
  cases j with
  | null => exact .inl ⟨fun d hd => (List.not_mem_nil hd).elim, rfl⟩
  | bool b => exact .inl ⟨fun d hd => (List.not_mem_nil hd).elim, rfl⟩
  | int n => exact .inl ⟨fun d hd => (List.not_mem_nil hd).elim, rfl⟩
  | str s => exact .inl ⟨fun d hd => (List.not_mem_nil hd).elim, rfl⟩
  | float d =>
    have hshared : (Json.float d).Shared ↔ d.Shared := by simp [Shared, floats]
    by_cases h : d.Shared
    · exact .inl ⟨hshared.mpr h, Double.numeric_of_shared h⟩
    · exact .inr ⟨fun hs => h (hshared.mp hs), Double.repr_parts_numeric h⟩
  | arr items =>
    have hshared : (Json.arr items).Shared ↔ ∀ j ∈ items, j.Shared := by
      simp only [Shared, floats, mem_floatsItems, forall_exists_index, and_imp]
      exact ⟨fun h j hj d hd => h d j hj hd, fun h d j hj hd => h j hj d hd⟩
    rcases commaJoin_compared (comparedItems items) with ⟨hall, hjoin⟩ | ⟨hnot, hparts⟩
    · refine .inl ⟨hshared.mpr hall, ?_⟩
      rw [canonicalJson, dumps, canonicalItems_eq_map, dumpsItems_eq_map, hjoin]
    · refine .inr ⟨fun hs => hnot (hshared.mp hs), ?_⟩
      rw [canonicalJson, dumps, canonicalItems_eq_map, dumpsItems_eq_map]
      simp only [String.toList_append]
      exact (hparts.append_left _).append_right _ _
  | obj fields =>
    have hshared : (Json.obj fields).Shared ↔ ∀ p ∈ fields.sortOn Prod.fst, p.2.Shared := by
      simp only [Shared, floats, mem_floatsFields, forall_exists_index, and_imp, List.mem_sortOn]
      exact ⟨fun h p hp d hd => h d p hp hd, fun h d p hp hd => h p hp d hd⟩
    have hfields : ∀ p ∈ fields.sortOn Prod.fst,
        p.2.Shared ∧ quote p.1 ++ ":" ++ p.2.canonicalJson = quote p.1 ++ ":" ++ p.2.dumps ∨
          ¬ p.2.Shared ∧ Parts (quote p.1 ++ ":" ++ p.2.dumps).toList (quote p.1 ++ ":" ++ p.2.canonicalJson).toList := by
      intro p hp
      refine (comparedFields fields p (List.mem_sortOn.mp hp)).imp (And.imp_right fun h => by rw [h])
        (And.imp_right fun h => ?_)
      simp only [String.toList_append]
      exact h.append_left _
    rcases commaJoin_compared hfields with ⟨hall, hjoin⟩ | ⟨hnot, hparts⟩
    · refine .inl ⟨hshared.mpr hall, ?_⟩
      rw [canonicalJson, dumps, canonicalFields_eq_map, dumpsFields_eq_map, sorted_fields, sorted_fields, hjoin]
    · refine .inr ⟨fun hs => hnot (hshared.mp hs), ?_⟩
      rw [canonicalJson, dumps, canonicalFields_eq_map, dumpsFields_eq_map, sorted_fields, sorted_fields]
      simp only [String.toList_append]
      exact (hparts.append_left _).append_right _ _

theorem comparedItems (items : List Json) : ∀ j ∈ items, j.Compared := by
  cases items with
  | nil => exact fun j hj => nomatch hj
  | cons j items => exact List.forall_mem_cons.mpr ⟨compared j, comparedItems items⟩

theorem comparedFields (fields : List (String × Json)) : ∀ p ∈ fields, p.2.Compared := by
  cases fields with
  | nil => exact fun p hp => nomatch hp
  | cons p fields =>
    obtain ⟨k, j⟩ := p
    exact List.forall_mem_cons.mpr ⟨compared j, comparedFields fields⟩

end

/-- The two writers agree on a value exactly when each of its floats has one text. -/
theorem canonicalJson_eq_dumps_iff (j : Json) : j.canonicalJson = j.dumps ↔ j.Shared := by
  rcases j.compared with ⟨hshared, heq⟩ | ⟨hnot, hparts⟩
  · exact iff_of_true heq hshared
  · refine iff_of_false (fun heq => hparts.ne ?_) hnot
    rw [heq]

end Json

namespace SevenLens.Sources

open Securities MarketData

/-! ### Search results, whose scores are floats -/

/-- The score lies between 0 and 1; the negative zero does. -/
def InUnit (d : Json.Double) : Prop :=
  d.IsZero ∨ d.negative = false ∧ (d.point ≤ 0 ∨ d.point = 1 ∧ d.digits = ['1'])

instance (d : Json.Double) : Decidable (InUnit d) := inferInstanceAs (Decidable (_ ∨ _))

/-- The score of a result; an integer from about `2 ^ 1024` on is no float. -/
def scoreOf : Json → Except Failure Json
  | .int n => do
    requireOr .overflowError (n.natAbs < 2 ^ 1024 - 2 ^ 970) "int too large to convert to float"
    expect (0 ≤ n ∧ n ≤ 1) "result score must be normalized"
    return .int n
  | .float d => do
    expect (InUnit d) "result score must be normalized"
    return .float d
  | _ => drift "result score must be a number"

/-- The repetitions have no bound of their own, but the text has one. -/
def httpsUrlPattern : Pattern :=
  .cat [.lit "https://", .cls isAlnum, .upTo 2048 (fun c => isAlnum c || c == '.' || c == '-'), .cls isAlnum,
    .alt .eps (.cat [.lit ":", .between 2 5 isDecimal]), .alt .eps (.cat [.lit "/", .upTo 2048 (fun c => !isSpace c)])]

/-- A text of one to `bound` characters. -/
def boundedTextOr (bound : Nat) (message : String) : Json → Except Failure String
  | .str s => do
    expect (1 ≤ s.length ∧ s.length ≤ bound) message
    return s
  | _ => drift message

def resultKeys : List String := ["title", "url", "content", "score"]

section

variable (C : Codec) (contentHash : Hash) (retrievedAt : UtcTimestamp)

def searchBody (index : Nat) (query title url snippet : String) (score : Json) : RecordBody where
  recordId := "tavily-discovery-" ++ slice 16 contentHash.text ++ "-" ++ toString index
  family := .tavily
  endpointId := "tavily_search"
  contentHash := contentHash
  retrievedAt := retrievedAt
  payload := [("query", .str query), ("title", .str title), ("url", .str url), ("snippet", .str snippet),
    ("score", score)]
  materialClaim := false

/-- One pass of the loop over the results. -/
def searchRecord (query : String) : Json × Nat → Except Failure NormalizedSourceRecord
  | (.obj result, index) => do
    requireKeys result resultKeys resultKeys
    let title ← boundedTextOr 512 "result title must be bounded text" (member result "title")
    let url ← boundedTextOr 2048 "result url must be canonical HTTPS" (member result "url")
    expect (httpsUrlPattern.fullmatch url = true) "result url must be canonical HTTPS"
    let snippet ← boundedTextOr 4096 "result snippet must be bounded text" (member result "content")
    let score ← scoreOf (member result "score")
    buildNormalizedRecord C (searchBody contentHash retrievedAt index query title url snippet score)
  | _ => drift "result entries must be objects"

/-- `parse_search_results`, of the decoded payload. -/
def searchResultsOf (query : String) : Json → Except Failure (List NormalizedSourceRecord)
  | .obj fields => do
    requireKeys fields ["query", "results"] ["query", "results", "response_time"]
    let given ← boundedTextOr 512 "search query does not match the request" (member fields "query")
    expect (given = query) "search query does not match the request"
    match member fields "results" with
    | .arr results => do
      expect (results.length ≤ 100) "results must be a bounded array"
      results.zipIdx.mapM (searchRecord C contentHash retrievedAt query)
    | _ => drift "results has an unexpected type"
  | _ => drift "tavily payload must be an object"

end

/-- `parse_search_results` -/
def parseSearchResults (C : Codec) (payload : ByteArray) (retrievedAt : UtcTimestamp) (query : String) :
    Except Failure (List NormalizedSourceRecord) := do
  expect (1 ≤ query.length ∧ query.length ≤ 512) "search query must be bounded text"
  let decoded ← strictJsonLoads C payload
  searchResultsOf C (contentHashOf C payload) retrievedAt query decoded

/-! ### The hash of a record -/

/-- The hash that `append_p4_source_record` compares with the record's. -/
def recomputedHash (C : Codec) (b : RecordBody) : Hash :=
  C.sha256 (RecordBody.hashDomain ++ b.wire.canonicalJson).toUTF8

/-- The only floats of a record are those of its payload. -/
theorem floats_wire (b : RecordBody) : b.wire.floats = Json.floats (.obj b.payload) := by
  have hinstant : ∀ t : Option UtcTimestamp, (RecordBody.instant t).floats = [] := by
    intro t
    cases t <;> rfl
  have hoptional : ∀ s : Option String, (Screening.optional s).floats = [] := by
    intro s
    cases s <;> rfl
  have hvintage : (b.vintage.elim Json.null (fun v => .arr [.str v.1, .str v.2])).floats = [] := by
    cases b.vintage <;> rfl
  simp only [RecordBody.wire, Json.floats, Json.floatsFields, hinstant, hoptional, hvintage, List.nil_append,
    List.append_nil]

/-- The text that is hashed is the one the database writes exactly when no float of the payload has
an exponent in Python's text or is the negative zero, and then the hashes are the same. -/
theorem canonicalJson_agrees_iff (C : Codec) (b : RecordBody) :
    (b.wire.canonicalJson = b.wire.dumps ↔ ∀ d ∈ Json.floats (.obj b.payload), d.Shared) ∧
      ((∀ d ∈ Json.floats (.obj b.payload), d.Shared) → recomputedHash C b = b.computeHash C) := by
  have hiff : b.wire.canonicalJson = b.wire.dumps ↔ ∀ d ∈ Json.floats (.obj b.payload), d.Shared := by
    rw [Json.canonicalJson_eq_dumps_iff, Json.Shared, floats_wire]
  refine ⟨hiff, fun h => ?_⟩
  rw [recomputedHash, hiff.mpr h, RecordBody.computeHash]

/-! ### A result with a small score -/

section Sample

/-- The float `1e-07`. -/
def smallScore : Json.Double := ⟨false, ['1'], -6, by decide, by decide⟩

def sampleResults : Json :=
  .obj [("query", .str "apple"),
    ("results", .arr [.obj [("title", .str "Apple"), ("url", .str "https://example.com/a"),
      ("content", .str "Quarterly report"), ("score", .float smallScore)]])]

def sampleResultsHash : Hash := ⟨"3dd819b5a47ae59090b24f4f17f2e6a263876a2400d9efc97ef1d2fc5590e3c4", by decide⟩

def sampleSearchRetrieved : UtcTimestamp :=
  TradingDate.start ⟨2025, 11, 3, TradingDate.year_2025, TradingDate.november, third_of_november⟩

def sampleResult : RecordBody :=
  searchBody sampleResultsHash sampleSearchRetrieved 0 "apple" "Apple" "https://example.com/a" "Quarterly report"
    (.float smallScore)

/-- SHA-256 of the payload and of the two texts of the record. -/
def searchSha256 (bytes : ByteArray) : Hash :=
  if bytes = documentBytes sampleResults then sampleResultsHash
  else if bytes = (RecordBody.hashDomain ++ sampleResult.wire.dumps).toUTF8 then
    ⟨"e9c06db867978c475af30aaa0ab41b30d6b154570f18cc6d9d5086de24d193e5", by decide⟩
  else ⟨"dc221876d29963631873269c48761d20c14559e27aeea4fe9c7a3852cd4736de", by decide⟩

def sampleSearchCodec : Codec := documentCodec sampleResults searchSha256

end Sample

/-- The record of a result with the score `1e-07` has two texts, and the database refuses it. -/
theorem small_score_refused :
    ∃ record, parseSearchResults sampleSearchCodec (documentBytes sampleResults) sampleSearchRetrieved "apple" =
        .ok [record] ∧
      record.payload = sampleResult.wire.dumps ∧ record.recordHash = sampleResult.computeHash sampleSearchCodec ∧
        sampleResult.wire.canonicalJson ≠ sampleResult.wire.dumps ∧
          recomputedHash sampleSearchCodec sampleResult ≠ record.recordHash := by
  have hload : strictJsonLoads sampleSearchCodec (documentBytes sampleResults) = .ok sampleResults :=
    documentCodec_loads _ (by decide +kernel) (.inl ⟨_, rfl⟩) rfl
  have hhash : contentHashOf sampleSearchCodec (documentBytes sampleResults) = sampleResultsHash := by
    simp only [contentHashOf, sampleSearchCodec, documentCodec, searchSha256, if_true]
  have hdiffer : sampleResult.wire.canonicalJson ≠ sampleResult.wire.dumps := by
    rw [ne_eq, Json.canonicalJson_eq_dumps_iff, Json.Shared, floats_wire]
    exact fun h => absurd (h smallScore List.mem_cons_self) (by decide)
  -- The hashed texts begin with the domain, the payload with a brace.
  have hdomain : ∀ text, (RecordBody.hashDomain ++ text).toUTF8 ≠ documentBytes sampleResults := by
    intro text heq
    have htexts := congrArg String.toList (String.toByteArray_inj.mp heq)
    have hhead : RecordBody.hashDomain.toList = 's' :: RecordBody.hashDomain.toList.tail := by decide
    rw [String.toList_append, hhead, sampleResults, Json.dumps, String.toList_append, String.toList_append] at htexts
    exact absurd (List.cons.inj htexts).1 (by decide)
  have hpython : (sampleResult.computeHash sampleSearchCodec).text =
      "e9c06db867978c475af30aaa0ab41b30d6b154570f18cc6d9d5086de24d193e5" := by
    simp only [RecordBody.computeHash, sampleSearchCodec, documentCodec, searchSha256, if_neg (hdomain _), if_true]
  have hdatabase : (recomputedHash sampleSearchCodec sampleResult).text =
      "dc221876d29963631873269c48761d20c14559e27aeea4fe9c7a3852cd4736de" := by
    have hother : (RecordBody.hashDomain ++ sampleResult.wire.canonicalJson).toUTF8 ≠
        (RecordBody.hashDomain ++ sampleResult.wire.dumps).toUTF8 := by
      intro heq
      have htexts := congrArg String.toList (String.toByteArray_inj.mp heq)
      rw [String.toList_append, String.toList_append] at htexts
      exact hdiffer (String.toList_inj.mp (List.append_cancel_left htexts))
    simp only [recomputedHash, sampleSearchCodec, documentCodec, searchSha256, if_neg (hdomain _), if_neg hother]
  have hread : searchResultsOf sampleSearchCodec sampleResultsHash sampleSearchRetrieved "apple" sampleResults =
      (buildNormalizedRecord sampleSearchCodec sampleResult).map (fun record => [record]) := by
    rfl
  obtain ⟨record, hrecord⟩ : ∃ record, buildNormalizedRecord sampleSearchCodec sampleResult = .ok record :=
    buildNormalizedRecord_ok_iff.mpr ⟨by decide +kernel, by decide +kernel⟩
  obtain ⟨hpayload, hrecordHash, -⟩ := buildNormalizedRecord_fields hrecord
  refine ⟨record, bind_ok.mpr ⟨(), rfl, bind_ok.mpr ⟨_, hload, ?_⟩⟩, hpayload, hrecordHash, hdiffer, ?_⟩
  · rw [hhash, hread, hrecord]
    rfl
  · rw [hrecordHash]
    intro heq
    rw [heq, hpython] at hdatabase
    exact absurd hdatabase (by decide)

end SevenLens.Sources
