import SevenLens.Library.Regex
import Mathlib.Data.Bool.AllAny
import SevenLens.Analysis.Readers

/-! # Sanitized texts

The guard for the texts of providers and models: its search patterns, and the rules for texts that
they make (`Unicode.rules`).  The tables of Unicode are a parameter, of which only the part for
ASCII is laid down: a text of ASCII characters is its own compatibility form, is folded to lower
case, and has the word characters and the blanks that everyone expects. -/

namespace SevenLens.Security

open Securities MarketData

def IsAscii (c : Char) : Prop := c.toNat < 128

instance (c : Char) : Decidable (IsAscii c) := inferInstanceAs (Decidable (_ < _))

def isLower (c : Char) : Bool := 'a' ≤ c && c ≤ 'z'

def lowered (l : List Char) : List Char := l.map Char.toLower

/-- Tabs, line ends, separators and the blank. -/
def isAsciiSpace (c : Char) : Bool := (9 ≤ c.toNat && c.toNat ≤ 13) || (28 ≤ c.toNat && c.toNat ≤ 32)

/-- The tables of Unicode that the guard uses. -/
structure Unicode where
  /-- `unicodedata.normalize("NFKC", value)` -/
  normalize : List Char → List Char
  /-- `value.casefold()` -/
  casefold : List Char → List Char
  /-- `unicodedata.category(character) == "Cf"` -/
  isFormat : Char → Bool
  /-- `\w` -/
  isWord : Char → Bool
  /-- `\s` -/
  isSpace : Char → Bool
  normalize_ascii : ∀ l, (∀ c ∈ l, IsAscii c) → normalize l = l
  casefold_ascii : ∀ l, (∀ c ∈ l, IsAscii c) → casefold l = lowered l
  isFormat_ascii : ∀ c, IsAscii c → isFormat c = false
  isWord_ascii : ∀ c, IsAscii c → isWord c = (isAlnum c || c == '_')
  isSpace_ascii : ∀ c, IsAscii c → isSpace c = isAsciiSpace c

/-! ### Patterns without case -/

/-- The ASCII letter that a character stands for where case is ignored, which has four other
characters stand for a letter. -/
def foldChar (c : Char) : Char :=
  if c = Char.ofNat 0x130 ∨ c = Char.ofNat 0x131 then 'i'
  else if c = Char.ofNat 0x17F then 's'
  else if c = Char.ofNat 0x212A then 'k'
  else c.toLower

/-- A class of lower case characters where case is ignored. -/
def ignoring (p : Char → Bool) : Regex := .cls fun c => p (foldChar c)

/-- A text in lower case where case is ignored. -/
def word (s : String) : Regex := .cat (s.toList.map fun l => ignoring (· == l))

def char (c : Char) : Regex := .cls (· == c)

/-- The class `[a-z0-9-]`. -/
def isLabelChar (c : Char) : Bool := isLowerOrDigit c || c == '-'

/-- The class `[a-z0-9._:-]`. -/
def isReferenceChar (c : Char) : Bool := isLowerOrDigit c || c == '.' || c == '_' || c == ':' || c == '-'

/-- The class of the local part in `_EMAIL`. -/
def isMailChar (c : Char) : Bool := isLowerOrDigit c || ".!#$%&'*+/=?^_`\x7b|\x7d~-".toList.contains c

/-- `(?::[0-9]{1,5})?` -/
def port : Regex := .optional (.cat [char ':', .between 1 4 (.cls isDigit)])

/-- `_CANONICAL_REFERENCE`: the identifiers of the project, which may have dots. -/
def canonicalReference : Regex :=
  let tail : List Regex := [char '.', ignoring isLowerOrDigit, .upTo 94 (ignoring isReferenceChar)]
  .cat [.notAfter (fun c => isLowerOrDigit (foldChar c) || c == '_' || c == '-'),
    .alt
      (.cat (.oneOf (["claim", "evidence", "source", "fact", "decision", "reflection", "memory", "market", "outside",
          "foreign"].map word ++ [.cat [word "p3", ignoring (fun c => 'a' ≤ c && c ≤ 'f')]]) :: tail))
      (.cat (word "seven-lens" :: tail)),
    .notBefore (fun c => isReferenceChar (foldChar c))]

namespace Unicode

variable (U : Unicode)

/-! ### The patterns -/

def edge : Regex := .edge U.isWord

def blanks : Regex := .plus (.cls U.isSpace)

def nonBlank (p : Char → Bool) : Regex := .cls fun c => !U.isSpace c && p c

/-- `_URI` -/
def uri : Regex :=
  .oneOf [
    .cat [U.edge, ignoring isLower, .between 1 30 (ignoring fun c => isLowerOrDigit c || c == '+' || c == '.' || c == '-'),
      word "://"],
    .cat [U.edge, .oneOf ([word "data", word "file", word "javascript", word "mailto",
      .cat [word "postgres", .optional (word "ql")], word "ssh", word "tel", word "urn"]), char ':'],
    .cat [.notAfter (· == ':'), word "//", .plus (U.nonBlank (· != '/'))]]

/-- A label of a host and the dot behind it. -/
def hostLabel : Regex :=
  .cat [U.edge, ignoring isLowerOrDigit, .optional (.cat [.upTo 61 (ignoring isLabelChar), ignoring isLowerOrDigit]), char '.']

/-- `(?![a-z0-9-]|\.(?=[a-z0-9.-]))` -/
def hostEnd : Regex := .test fun _ after =>
  match after with
  | [] => true
  | c :: rest => !isLabelChar (foldChar c) && !(c == '.' && rest.head?.any (fun d => isLabelChar (foldChar d) || d == '.'))

/-- `_BARE_HOST` -/
def bareHost : Regex :=
  .cat [.plus U.hostLabel, ignoring isLower, .upTo 61 (ignoring isLabelChar), ignoring isLowerOrDigit, port,
    .optional (.cat [char '/', .many (U.nonBlank fun _ => true)]), hostEnd]

/-- `_EMAIL` -/
def email : Regex :=
  .cat [U.edge, .plus (ignoring isMailChar), char '@', .plus (ignoring fun c => isLabelChar c || c == '.'), char '.',
    .seq (.cat [ignoring isLower, ignoring isLower]) (.many (ignoring isLower)), U.edge]

/-- `_ABSOLUTE_PATH` -/
def absolutePath : Regex :=
  .cat [.alt .start (.cls U.isSpace),
    .alt (.cat [char '/', .plus (.cls fun c => isAlnum c || c == '.' || c == '_' || c == '-'), char '/'])
      (.cat [.cls (fun c => isUpper c || isLower c), char ':', char Json.backslash])]

/-- `_RELATIVE_PATH` -/
def relativePath : Regex :=
  .cat [.alt .start (.cls fun c => U.isSpace c || "([\x7b'\"".toList.contains c), char '.', .optional (char '.'), char '/',
    .plus (U.nonBlank fun c => !")]\x7d'\"".toList.contains c)]

/-- `_IP_HOST_PATH` -/
def ipHostPath : Regex :=
  .alt
    (.cat [U.edge, .cat (List.replicate 3 (.cat [.between 1 2 (.cls isDigit), char '.'])), .between 1 2 (.cls isDigit), port,
      char '/', .many (U.nonBlank fun _ => true)])
    (.cat [char '[', .plus (ignoring fun c => isDigit c || ('a' ≤ c && c ≤ 'f') || c == ':' || c == '.'), char ']', port,
      char '/', .many (U.nonBlank fun _ => true)])

/-- `_SENSITIVE_MARKER` -/
def sensitiveMarker : Regex :=
  let after (s : String) : Regex := .cat [U.blanks, word s]
  .cat [U.edge,
    .oneOf [
      .cat [word "api", after "key"],
      .cat [word "secret", .optional (.alt (after "key") (after "ref"))],
      word "credential", word "password", word "token", word "dsn", word "bearer",
      .cat [word "authorization", .optional (after "header")],
      .cat [.optional (.cat [word "request", U.blanks]), word "header"],
      .cat [word "account", U.blanks, .oneOf [word "id", word "number", word "name"]],
      .cat [word "broker", after "order", after "id"],
      .cat [word "client", after "order", after "id"],
      .cat [.oneOf [word "customer", word "client", word "user", .cat [word "portfolio", after "owner"]], U.blanks,
        .alt (word "id") (word "name")],
      word "email", word "phone", word "address"],
    U.edge]

/-! ### The guard -/

/-- `re.sub(r"[_\-]+", " ", folded)` -/
def labelView : Bool → List Char → List Char
  | _, [] => []
  | inside, c :: l =>
    if c = '_' ∨ c = '-' then (if inside then labelView true l else ' ' :: labelView true l) else c :: labelView false l

/-- One of the patterns for identity, secret or capability material is found. -/
def capability (allowBareHost : Bool) (normalized : List Char) : Bool :=
  let folded := U.casefold normalized
  U.uri.search folded || (!allowBareHost && U.bareHost.search folded && !canonicalReference.search folded) ||
    U.email.search folded || U.absolutePath.search normalized || U.relativePath.search normalized ||
    U.ipHostPath.search folded || U.sensitiveMarker.search (labelView false folded)

/-- What `validate_sanitized_text` finds in a text of good length. -/
def prohibited (allowBareHost : Bool) (value : String) : Option String :=
  let normalized := U.normalize value.toList
  if normalized.any U.isFormat then some "invisible format controls"
  else if U.capability allowBareHost normalized then some "identity, secret, or capability material"
  else none

end Unicode

/-! ### Alphabets without a match -/

section Alphabet

variable {A : Char → Prop}

theorem needs_char {c : Char} (h : ¬ A c) : (char c).Needs (fun c => ¬ A c) := by
  intro d hd
  rwa [beq_iff_eq.mp hd]

theorem needs_class {p : Char → Bool} (h : ∀ c, p c = true → ¬ A c) : (Regex.cls p).Needs (fun c => ¬ A c) := h

namespace Unicode

variable (U : Unicode)

theorem needs_email (h : ¬ A '@') : U.email.Needs (fun c => ¬ A c) :=
  Regex.needs_cat.mpr ⟨char '@', by simp, needs_char h⟩

theorem needs_absolutePath (hslash : ¬ A '/') (hback : ¬ A Json.backslash) : U.absolutePath.Needs (fun c => ¬ A c) :=
  .inr (.inl ⟨.inl (needs_char hslash), .inr (.inr (.inl (needs_char hback)))⟩)

theorem needs_relativePath (h : ¬ A '/') : U.relativePath.Needs (fun c => ¬ A c) :=
  .inr (.inr (.inr (.inl (needs_char h))))

theorem needs_ipHostPath (h : ¬ A '/') : U.ipHostPath.Needs (fun c => ¬ A c) :=
  ⟨.inr (.inr (.inr (.inr (.inl (needs_char h))))), .inr (.inr (.inr (.inr (.inl (needs_char h)))))⟩

theorem needs_bareHost_letter : U.bareHost.Needs (fun c => isLower (foldChar c) = true) := .inr (.inl fun _ hc => hc)

theorem needs_bareHost (h : ¬ A '.') : U.bareHost.Needs (fun c => ¬ A c) :=
  .inl (Regex.needs_plus (.inr (.inr (.inr (.inl (needs_char h))))))

end Unicode

variable (hfold : ∀ c, A c → foldChar c = c)

include hfold

theorem needs_ignoring {p : Char → Bool} (h : ∀ c, p c = true → ¬ A c) : (ignoring p).Needs (fun c => ¬ A c) := by
  intro c hc hA
  exact h _ hc (by rwa [hfold c hA])

theorem needs_word {s : String} (h : ∃ c ∈ s.toList, ¬ A c) : (word s).Needs (fun c => ¬ A c) := by
  obtain ⟨c, hc, hA⟩ := h
  refine Regex.needs_cat.mpr ⟨_, List.mem_map_of_mem hc, needs_ignoring hfold fun d hd => ?_⟩
  rwa [beq_iff_eq.mp hd]

namespace Unicode

variable (U : Unicode)

theorem needs_uri (hslash : ¬ A '/') (hscheme : ¬ A ':' ∨ ∀ c ∈ "dfjmpseu".toList, ¬ A c) : U.uri.Needs (fun c => ¬ A c) := by
  have hword : ∀ s : String, (∃ c ∈ s.toList, ¬ A c) → (word s).Needs (fun c => ¬ A c) := fun s => needs_word hfold
  refine Regex.needs_oneOf.mpr (List.forall_mem_cons.mpr ⟨?_, List.forall_mem_cons.mpr ⟨?_, List.forall_mem_singleton.mpr ?_⟩⟩)
  · exact Regex.needs_cat.mpr ⟨word "://", by simp, hword _ ⟨'/', by decide, hslash⟩⟩
  · rcases hscheme with hcolon | hletters
    · exact Regex.needs_cat.mpr ⟨char ':', by simp, needs_char hcolon⟩
    · refine Regex.needs_cat.mpr ⟨_, List.mem_cons_of_mem _ List.mem_cons_self, Regex.needs_oneOf.mpr ?_⟩
      have hletter : ∀ s : String, s.toList.any (· ∈ "dfjmpseu".toList) = true → (word s).Needs (fun c => ¬ A c) := by
        intro s hs
        obtain ⟨c, hc, hmem⟩ := List.any_iff_exists_prop.mp hs
        exact hword s ⟨c, hc, hletters c hmem⟩
      simp only [List.forall_mem_cons]
      exact ⟨hletter _ (by decide), hletter _ (by decide), hletter _ (by decide), hletter _ (by decide),
        .inl (hletter _ (by decide)), hletter _ (by decide), hletter _ (by decide), hletter _ (by decide), List.forall_mem_nil _⟩
  · exact Regex.needs_cat.mpr ⟨word "//", by simp, hword _ ⟨'/', by decide, hslash⟩⟩

theorem needs_sensitiveMarker (hletters : ∀ c ∈ "klmors".toList, ¬ A c) : U.sensitiveMarker.Needs (fun c => ¬ A c) := by
  have hword : ∀ s : String, s.toList.any (· ∈ "klmors".toList) = true → (word s).Needs (fun c => ¬ A c) := by
    intro s hs
    obtain ⟨c, hc, hmem⟩ := List.any_iff_exists_prop.mp hs
    exact needs_word hfold ⟨c, hc, hletters c hmem⟩
  refine Regex.needs_cat.mpr ⟨_, List.mem_cons_of_mem _ List.mem_cons_self, Regex.needs_oneOf.mpr ?_⟩
  simp only [List.forall_mem_cons]
  have hparty : (Regex.oneOf [word "customer", word "client", word "user",
      .cat [word "portfolio", .cat [U.blanks, word "owner"]]]).Needs (fun c => ¬ A c) := by
    refine Regex.needs_oneOf.mpr ?_
    simp only [List.forall_mem_cons]
    exact ⟨hword _ (by decide), hword _ (by decide), hword _ (by decide), .inl (hword _ (by decide)), List.forall_mem_nil _⟩
  exact ⟨.inr (.inl (.inr (.inl (hword _ (by decide))))), .inl (hword _ (by decide)), hword _ (by decide), hword _ (by decide),
    hword _ (by decide), hword _ (by decide), hword _ (by decide), .inl (hword _ (by decide)), .inr (.inl (hword _ (by decide))),
    .inl (hword _ (by decide)), .inl (hword _ (by decide)), .inl (hword _ (by decide)), .inl hparty, hword _ (by decide),
    hword _ (by decide), hword _ (by decide), List.forall_mem_nil _⟩

end Unicode

end Alphabet

/-! ### ASCII texts -/

theorem mem_labelView {inside : Bool} {l : List Char} {c : Char} (h : c ∈ Unicode.labelView inside l) : c ∈ l ∨ c = ' ' := by
  induction l generalizing inside with
  | nil => cases h
  | cons d l ih =>
    rw [Unicode.labelView] at h
    split_ifs at h
    · exact (ih h).imp_left (List.mem_cons_of_mem d)
    · rcases List.mem_cons.mp h with rfl | h
      · exact .inr rfl
      · exact (ih h).imp_left (List.mem_cons_of_mem d)
    · rcases List.mem_cons.mp h with rfl | h
      · exact .inl List.mem_cons_self
      · exact (ih h).imp_left (List.mem_cons_of_mem d)

namespace Unicode

variable (U : Unicode)

theorem prohibited_ascii {allowBareHost : Bool} {s : String} (h : ∀ c ∈ s.toList, IsAscii c) :
    U.prohibited allowBareHost s = none ↔ U.capability allowBareHost s.toList = false := by
  have hformat : ¬ s.toList.any U.isFormat = true := by
    rw [List.any_eq_true]
    rintro ⟨c, hc, hformat⟩
    rw [U.isFormat_ascii c (h c hc)] at hformat
    cases hformat
  rw [prohibited, U.normalize_ascii _ h, if_neg hformat]
  cases U.capability allowBareHost s.toList <;> simp

/-- Before the last label of a host stands a dot, and a letter begins it. -/
theorem dot_of_bareHost {text : List Char} (h : U.bareHost.search text = true) :
    ∃ x c y, text = x ++ '.' :: c :: y ∧ isLower (foldChar c) = true := by
  obtain ⟨_, _, before, u, after, rfl, -, -, hmatch⟩ := Regex.search_iff.mp h
  obtain ⟨labels, rest, rfl, hlabels, hrest⟩ := Regex.matches_seq.mp hmatch
  obtain ⟨first, rest, rfl, hletter, -⟩ := Regex.matches_seq.mp hrest
  obtain ⟨c, rfl, hc⟩ := Regex.matches_cls.mp hletter
  obtain ⟨x, y, rfl, hlast⟩ := hlabels.last
  obtain ⟨boundary, y, rfl, -, hlast⟩ := Regex.matches_seq.mp hlast
  obtain ⟨initial, y, rfl, -, hlast⟩ := Regex.matches_seq.mp hlast
  obtain ⟨middle, y, rfl, -, hlast⟩ := Regex.matches_seq.mp hlast
  obtain ⟨dot, y, rfl, hdot, hend⟩ := Regex.matches_seq.mp hlast
  obtain ⟨d, rfl, hd⟩ := Regex.matches_cls.mp hdot
  obtain ⟨rfl, -⟩ := Regex.matches_test.mp hend
  obtain rfl := beq_iff_eq.mp hd
  exact ⟨before.reverse ++ (x ++ (boundary ++ (initial ++ middle))), c, rest ++ after, by simp, hc⟩

/-- An ASCII text without the marks of a capability is refused for a host in it or a sensitive marker only. -/
theorem capability_eq_false {A : Char → Prop} (hfold : ∀ c, A c → foldChar c = c)
    (hmarks : ∀ c ∈ ['/', '@', Json.backslash], ¬ A c) (hscheme : ¬ A ':' ∨ ∀ c ∈ "dfjmpseu".toList, ¬ A c)
    {text : List Char} (htext : ∀ c ∈ text, IsAscii c ∧ A c.toLower) {allowBareHost : Bool} :
    U.capability allowBareHost text = false ↔
      (allowBareHost = true ∨ U.bareHost.search (lowered text) = false ∨ canonicalReference.search (lowered text) = true) ∧
        U.sensitiveMarker.search (labelView false (lowered text)) = false := by
  have hlowered : ∀ c ∈ lowered text, ¬ ¬ A c := by
    intro c hc
    obtain ⟨d, hd, rfl⟩ := List.mem_map.mp hc
    exact not_not_intro (htext d hd).2
  have hupper : ∀ c ∈ text, ¬ ¬ A c.toLower := fun c hc => not_not_intro (htext c hc).2
  have hslash : ¬ A '/' := hmarks _ (by simp)
  have huri := Regex.search_eq_false_of_needs (U.needs_uri hfold hslash hscheme) hlowered
  have hemail := Regex.search_eq_false_of_needs (U.needs_email (hmarks _ (by simp))) hlowered
  have habsolute := Regex.search_eq_false_of_needs (U.needs_absolutePath (A := fun c => A c.toLower) hslash
    (hmarks Json.backslash (by simp))) hupper
  have hrelative := Regex.search_eq_false_of_needs (U.needs_relativePath (A := fun c => A c.toLower) hslash) hupper
  have hip := Regex.search_eq_false_of_needs (U.needs_ipHostPath hslash) hlowered
  rw [capability, U.casefold_ascii text fun c hc => (htext c hc).1]
  simp only [huri, hemail, habsolute, hrelative, hip, Bool.false_or, Bool.or_false, Bool.or_eq_false_iff]
  refine and_congr_left fun _ => ?_
  cases allowBareHost <;> cases U.bareHost.search (lowered text) <;> cases canonicalReference.search (lowered text) <;> simp

end Unicode

/-! ### The rules for texts -/

/-- Lower case characters that no mark, scheme or sensitive word can be written with. -/
structure Harmless (alphabet : List Char) : Prop where
  fold : ∀ c ∈ alphabet, foldChar c = c
  marks : ∀ c ∈ ['/', '@', Json.backslash], c ∉ alphabet
  schemes : ':' ∉ alphabet ∨ ∀ c ∈ "dfjmpseu".toList, c ∉ alphabet
  letters : ∀ c ∈ "klmors".toList, c ∉ alphabet
  blank : ' ' ∈ alphabet

namespace Unicode

variable (U : Unicode)

/-- A text of harmless characters in which no host is found is not refused. -/
theorem prohibited_harmless {alphabet : List Char} (halphabet : Harmless alphabet) {s : String}
    (h : ∀ c ∈ s.toList, IsAscii c ∧ c.toLower ∈ alphabet) (hhost : U.bareHost.search (lowered s.toList) = false) :
    U.prohibited false s = none := by
  have hview : ∀ c ∈ labelView false (lowered s.toList), ¬ c ∉ alphabet := by
    intro c hc
    rcases mem_labelView hc with hc | rfl
    · obtain ⟨d, hd, rfl⟩ := List.mem_map.mp hc
      exact not_not_intro (h d hd).2
    · exact not_not_intro halphabet.blank
  refine (U.prohibited_ascii fun c hc => (h c hc).1).mpr
    ((U.capability_eq_false halphabet.fold halphabet.marks halphabet.schemes h).mpr ⟨.inr (.inl hhost), ?_⟩)
  exact Regex.search_eq_false_of_needs (U.needs_sensitiveMarker halphabet.fold halphabet.letters) hview

theorem prohibited_runId (r : RunId) : U.prohibited false r.text = none := by
  have halphabet : Harmless "0123456789abcdef- ".toList :=
    ⟨List.all_iff_forall_prop.mp (by decide), List.all_iff_forall_prop.mp (by decide), .inl (by decide),
      List.all_iff_forall_prop.mp (by decide), by decide⟩
  have hchar : ∀ c ∈ r.text.toList, IsAscii c ∧ c.toLower ∈ "0123456789abcdef- ".toList := by
    intro c hc
    obtain rfl | ⟨d, hd, rfl⟩ := Uuid.mem_text hc
    · decide
    · interval_cases d <;> decide
  refine U.prohibited_harmless halphabet hchar (Regex.search_eq_false_of_needs
    (U.needs_bareHost (A := (· ∈ "0123456789abcdef- ".toList)) (by decide)) fun c hc => ?_)
  obtain ⟨d, hd, rfl⟩ := List.mem_map.mp hc
  exact not_not_intro (hchar d hd).2

theorem prohibited_schema : U.prohibited false "1.0.0" = none := by
  have halphabet : Harmless "01. ".toList :=
    ⟨List.all_iff_forall_prop.mp (by decide), List.all_iff_forall_prop.mp (by decide), .inl (by decide),
      List.all_iff_forall_prop.mp (by decide), by decide⟩
  have hchar : ∀ c ∈ "1.0.0".toList, IsAscii c ∧ c.toLower ∈ "01. ".toList :=
    List.all_iff_forall_prop.mp (by decide)
  exact U.prohibited_harmless halphabet hchar
    (Regex.search_eq_false_of_needs U.needs_bareHost_letter (List.all_iff_forall_prop.mp (by decide)))

/-- Before the dot of an instant stand digits and marks, and digits and a `Z` follow. -/
theorem timestamp_text (t : UtcTimestamp) : ∃ before first after, t.text.toList = before ++ '.' :: first :: after ∧
    (∀ c ∈ before ++ after, c ∈ "0123456789-:TZ".toList) ∧ first ∈ "0123456789".toList := by
  have hdigit : ∀ {w n : Nat}, ∀ c ∈ Nat.padded w n, c ∈ "0123456789".toList := by
    intro w n c hc
    obtain ⟨hlow, hhigh⟩ := Nat.digit_bounds (Nat.allDigits_padded w n c hc)
    rw [← Char.ofNat_toNat c]
    generalize c.toNat = m at hlow hhigh
    interval_cases m <;> decide
  have hdigits : ∀ c ∈ "0123456789".toList, c ∈ "0123456789-:TZ".toList :=
    List.all_iff_forall_prop.mp (by decide)
  have hmark : ∀ s ∈ ["-", "T", ":", "Z"], ∀ c ∈ s.toList, c ∈ "0123456789-:TZ".toList := fun s hs =>
    List.all_iff_forall_prop.mp ((show ∀ s ∈ ["-", "T", ":", "Z"], s.toList.all (· ∈ "0123456789-:TZ".toList) = true by
      decide) s hs)
  have hlength : (Nat.padded 6 (t.micros % dayMicros % 1000000)).length = 6 :=
    Nat.length_padded (by decide) (Nat.mod_lt _ (by decide))
  obtain ⟨first, fraction, hfraction⟩ := List.exists_cons_of_length_eq_add_one hlength
  refine ⟨(zeroPad 4 (dateOf t).year ++ "-" ++ zeroPad 2 (dateOf t).month ++ "-" ++ zeroPad 2 (dateOf t).day ++ "T" ++
    zeroPad 2 (t.micros % dayMicros / hourMicros) ++ ":" ++ zeroPad 2 (t.micros % dayMicros / 60000000 % 60) ++ ":" ++
    zeroPad 2 (t.micros % dayMicros / 1000000 % 60)).toList, first, fraction ++ ['Z'], ?_, fun c hc => ?_, ?_⟩
  · have hdot : ".".toList = ['.'] := rfl
    have hz : "Z".toList = ['Z'] := rfl
    rw [UtcTimestamp.text_eq, String.toList_append, String.toList_append, String.toList_append, toList_zeroPad 6, hfraction,
      hdot, hz, List.append_assoc, List.append_assoc, List.singleton_append, List.cons_append]
  · have hrest : ∀ c ∈ fraction, c ∈ "0123456789".toList := fun c hc => hdigit c (hfraction ▸ List.mem_cons_of_mem first hc)
    simp only [String.toList_append, toList_zeroPad, List.mem_append, or_assoc] at hc
    obtain h | h | h | h | h | h | h | h | h | h | h | h | h := hc
    all_goals first
      | exact hdigits c (hdigit c h)
      | exact hmark _ (by decide) c h
      | exact hdigits c (hrest c h)
      | exact hmark "Z" (by decide) c h
  · exact hdigit first (hfraction ▸ List.mem_cons_self)

/-- The only dot of an instant stands before a digit. -/
theorem prohibited_timestamp (t : UtcTimestamp) : U.prohibited false t.text = none := by
  have halphabet : Harmless "0123456789-:.tz ".toList :=
    ⟨List.all_iff_forall_prop.mp (by decide), List.all_iff_forall_prop.mp (by decide),
      .inr (List.all_iff_forall_prop.mp (by decide)), List.all_iff_forall_prop.mp (by decide), by decide⟩
  have hmarked : ∀ c ∈ "0123456789-:TZ".toList, IsAscii c ∧ c.toLower ∈ "0123456789-:.tz ".toList ∧ c.toLower ≠ '.' :=
    List.all_iff_forall_prop.mp (by decide)
  have hdigits : ∀ c ∈ "0123456789".toList, c ∈ "0123456789-:TZ".toList ∧ isLower (foldChar c.toLower) = false :=
    List.all_iff_forall_prop.mp (by decide)
  obtain ⟨before, first, after, htext, hrest, hfirst⟩ := timestamp_text t
  have hnodot : ∀ l : List Char, (∀ c ∈ l, c ∈ "0123456789-:TZ".toList) → '.' ∉ lowered l := by
    intro l hl hmem
    obtain ⟨c, hc, hdot⟩ := List.mem_map.mp hmem
    exact (hmarked c (hl c hc)).2.2 hdot
  have hbefore : ∀ c ∈ before, c ∈ "0123456789-:TZ".toList := fun c hc => hrest c (List.mem_append_left after hc)
  have hafter : ∀ c ∈ first :: after, c ∈ "0123456789-:TZ".toList :=
    List.forall_mem_cons.mpr ⟨(hdigits first hfirst).1, fun c hc => hrest c (List.mem_append_right before hc)⟩
  refine U.prohibited_harmless halphabet (fun c hc => ?_) ?_
  · rw [htext] at hc
    rcases List.mem_append.mp hc with hc | hc
    · exact ⟨(hmarked c (hbefore c hc)).1, (hmarked c (hbefore c hc)).2.1⟩
    · rcases List.mem_cons.mp hc with rfl | hc
      · decide
      · exact ⟨(hmarked c (hafter c hc)).1, (hmarked c (hafter c hc)).2.1⟩
  · rw [Bool.eq_false_iff]
    intro h
    obtain ⟨x, c, y, hx, hc⟩ := U.dot_of_bareHost h
    have hdot : lowered before ++ '.' :: lowered (first :: after) = x ++ '.' :: c :: y := by
      rw [← hx, htext, lowered, lowered, lowered, List.map_append, List.map_cons]
      rfl
    obtain ⟨-, -, hletter⟩ := (List.append_cons_inj_of_notMem (hnodot _ hbefore) (hnodot _ hafter)).mp hdot
    obtain ⟨rfl, -⟩ := List.cons.inj hletter
    rw [(hdigits first hfirst).2] at hc
    cases hc

/-- The rules for texts that the guard makes, with a digest and a parser. -/
def rules (sha256 : String → Hash) (loads : String → Except Failure Json) : Analysis.Rules where
  prohibited := U.prohibited
  sha256 := sha256
  loads := loads
  prohibited_runId := U.prohibited_runId
  prohibited_timestamp := U.prohibited_timestamp
  prohibited_schema := U.prohibited_schema

end Unicode

end SevenLens.Security
