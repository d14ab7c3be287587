import SevenLens.Security.SanitizedText

/-! # Tickers and the guard

The contracts of the analysis ask the guard for texts before they look at the form of a ticker.  Of
its patterns only those for bare hosts and for sensitive markers can find something in the alphabet
of tickers, and they do: `BF.AB` reads like a host, and `TOKEN` is a marker. -/

namespace SevenLens.Security

open Securities

/-! ### The alphabet of tickers -/

theorem symbol_chars (s : Symbol) : 1 ≤ s.value.length ∧ s.value.length ≤ 10 ∧ ∀ c ∈ s.value.toList, isSymbolChar c = true := by
  obtain ⟨c, l, htext, hc, hlength, hl⟩ := Pattern.fullmatch_cls_upTo.mp s.ok
  rw [← String.length_toList, htext, List.length_cons]
  refine ⟨Nat.le_add_left 1 _, Nat.succ_le_succ hlength, List.forall_mem_cons.mpr ⟨?_, hl⟩⟩
  simp [isSymbolChar, hc]

/-- What the characters of tickers are in lower case. -/
def tickerAlphabet : List Char := "abcdefghijklmnopqrstuvwxyz0123456789.-".toList

theorem mem_tickerAlphabet {c : Char} (h : isSymbolChar c = true) : IsAscii c ∧ c.toLower ∈ tickerAlphabet ∧ Json.PlainChar c := by
  have hbound : c.toNat < 91 := by
    simp only [isSymbolChar, isUpper, isDigit, Bool.or_eq_true, Bool.and_eq_true, decide_eq_true_eq, beq_iff_eq] at h
    rcases h with ((⟨-, h⟩ | ⟨-, h⟩) | rfl) | rfl
    · exact Nat.lt_succ_of_le h
    · exact lt_of_le_of_lt (show c.toNat ≤ 57 from h) (by decide)
    · decide
    · decide
  have hall : ∀ n < 91, isSymbolChar (Char.ofNat n) = true →
      IsAscii (Char.ofNat n) ∧ (Char.ofNat n).toLower ∈ tickerAlphabet ∧ Json.PlainChar (Char.ofNat n) := by decide
  have hc := hall c.toNat hbound
  rw [Char.ofNat_toNat] at hc
  exact hc h

/-! ### Acceptance -/

namespace Unicode

variable (U : Unicode)

theorem prohibited_symbol (s : Symbol) : U.prohibited false s.value = none ↔
    (U.bareHost.search (lowered s.value.toList) = false ∨ canonicalReference.search (lowered s.value.toList) = true) ∧
      U.sensitiveMarker.search (labelView false (lowered s.value.toList)) = false := by
  obtain ⟨-, -, hchars⟩ := symbol_chars s
  have hfold : ∀ c ∈ tickerAlphabet, foldChar c = c := List.all_iff_forall_prop.mp (by decide)
  have hmarks : ∀ c ∈ ['/', '@', Json.backslash], c ∉ tickerAlphabet := List.all_iff_forall_prop.mp (by decide)
  have hcolon : ':' ∉ tickerAlphabet := by decide
  rw [U.prohibited_ascii fun c hc => (mem_tickerAlphabet (hchars c hc)).1,
    U.capability_eq_false (A := (· ∈ tickerAlphabet)) hfold hmarks (.inl hcolon) fun c hc =>
      ⟨(mem_tickerAlphabet (hchars c hc)).1, (mem_tickerAlphabet (hchars c hc)).2.1⟩]
  simp only [Bool.false_eq_true, false_or]

/-- The contracts of the analysis accept a ticker of the execution side exactly if its lower case has no bare host, or a
reference of the project, and no sensitive marker. -/
theorem symbol_accepted_iff (sha256 : String → Hash) (loads : String → Except Failure Json) (s : Symbol) :
    (U.rules sha256 loads).symbol s.value = .ok () ↔
      (U.bareHost.search (lowered s.value.toList) = false ∨ canonicalReference.search (lowered s.value.toList) = true) ∧
        U.sensitiveMarker.search (labelView false (lowered s.value.toList)) = false := by
  obtain ⟨hpositive, hlength, hchars⟩ := symbol_chars s
  obtain ⟨hnul, hsize⟩ := plain_size fun c hc => (mem_tickerAlphabet (hchars c hc)).2.2
  have hnonempty : s.value ≠ "" := by
    intro hempty
    rw [hempty] at hpositive
    exact absurd hpositive (by decide)
  rw [← U.prohibited_symbol s]
  simp only [Analysis.Rules.symbol, Analysis.Rules.text, Analysis.Rules.validateSanitizedText, Analysis.check_ok]
  constructor
  · rintro ⟨⟨-, -, hguard⟩, -⟩
    cases hfound : U.prohibited false s.value with
    | none => rfl
    | some found =>
      rw [show (U.rules sha256 loads).prohibited = U.prohibited from rfl, hfound] at hguard
      cases hguard
  · intro hguard
    refine ⟨⟨require_ok.mpr hnul, require_ok.mpr ⟨hsize ▸ hlength, hnonempty⟩, ?_⟩, require_ok.mpr s.ok⟩
    rw [show (U.rules sha256 loads).prohibited = U.prohibited from rfl, hguard]
    rfl

end Unicode

/-! ### Two tickers -/

section Sample

/-- The tables for ASCII texts. -/
def asciiTables : Unicode where
  normalize := id
  casefold := lowered
  isFormat _ := false
  isWord c := isAlnum c || c == '_'
  isSpace := isAsciiSpace
  normalize_ascii _ _ := rfl
  casefold_ascii _ _ := rfl
  isFormat_ascii _ _ := rfl
  isWord_ascii _ _ := rfl
  isSpace_ascii _ _ := rfl

def asciiRules : Analysis.Rules :=
  asciiTables.rules (fun _ => ⟨String.ofList (List.replicate 64 '0'), Securities.Hash.zeros_ok⟩) (fun _ => refuse "invalid JSON")

end Sample

/-- A ticker that reads like a host and one that is a marker can be traded, but not analysed. -/
theorem tradable_tickers_refused :
    (∃ s : Symbol, s.value = "BF.AB" ∧
      asciiRules.symbol s.value = refuse "symbol contains prohibited identity, secret, or capability material") ∧
    ∃ s : Symbol, s.value = "TOKEN" ∧
      asciiRules.symbol s.value = refuse "symbol contains prohibited identity, secret, or capability material" :=
  ⟨⟨⟨"BF.AB", by decide +kernel⟩, rfl, by decide +kernel⟩, ⟨⟨"TOKEN", by decide +kernel⟩, rfl, by decide +kernel⟩⟩

end SevenLens.Security
