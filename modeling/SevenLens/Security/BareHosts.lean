import SevenLens.Security.Tickers

/-! # Hosts beside references

The guard refuses a text for a bare host, unless a reference of the project is found in it.  The
reference may stand anywhere in the text: with one of them, every host passes. -/

namespace SevenLens.Security

open Securities

/-! ### References in a text -/

theorem reference_chars : canonicalReference.Within (fun c => isReferenceChar (foldChar c) = true) := by
  have hignoring : ∀ {p : Char → Bool}, (∀ c, p c = true → isReferenceChar c = true) →
      (ignoring p).Within (fun c => isReferenceChar (foldChar c) = true) := fun hp c hc => hp _ hc
  have hword : ∀ {s : String}, (∀ c ∈ s.toList, isReferenceChar c = true) →
      (word s).Within (fun c => isReferenceChar (foldChar c) = true) := by
    intro s hs
    refine Regex.within_cat.mpr fun r hr => ?_
    obtain ⟨l, hl, rfl⟩ := List.mem_map.mp hr
    exact hignoring fun c hc => by rw [beq_iff_eq.mp hc]; exact hs l hl
  have hdot : (char '.').Within (fun c => isReferenceChar (foldChar c) = true) := by
    intro c hc
    rw [beq_iff_eq.mp hc]
    decide
  have halnum : ∀ c, isLowerOrDigit c = true → isReferenceChar c = true := fun c hc => by simp [isReferenceChar, hc]
  have hhex : ∀ c : Char, (decide ('a' ≤ c) && decide (c ≤ 'f')) = true → isReferenceChar c = true := by
    intro c hc
    rw [Bool.and_eq_true, decide_eq_true_eq, decide_eq_true_eq] at hc
    refine halnum c ?_
    simp only [isLowerOrDigit, Bool.or_eq_true, Bool.and_eq_true, decide_eq_true_eq]
    exact .inl ⟨hc.1, hc.2.trans (by decide)⟩
  have htail : ∀ r ∈ [char '.', ignoring isLowerOrDigit, .upTo 94 (ignoring isReferenceChar)],
      r.Within (fun c => isReferenceChar (foldChar c) = true) := by
    simp only [List.forall_mem_cons]
    exact ⟨hdot, hignoring halnum, hignoring fun c hc => hc, List.forall_mem_nil _⟩
  have hnamespaces : ∀ r ∈ ["claim", "evidence", "source", "fact", "decision", "reflection", "memory", "market", "outside",
      "foreign"].map word ++ [.cat [word "p3", ignoring (fun c => 'a' ≤ c && c ≤ 'f')]],
      r.Within (fun c => isReferenceChar (foldChar c) = true) := by
    intro r hr
    rcases List.mem_append.mp hr with hr | hr
    · obtain ⟨s, hs, rfl⟩ := List.mem_map.mp hr
      exact hword (List.all_eq_true.mp ((show ∀ s ∈ ["claim", "evidence", "source", "fact", "decision", "reflection", "memory",
        "market", "outside", "foreign"], s.toList.all isReferenceChar = true by decide) s hs))
    · rw [List.mem_singleton.mp hr]
      exact ⟨hword (List.all_eq_true.mp (by decide)), hignoring hhex, trivial⟩
  refine ⟨trivial, ⟨Regex.within_cat.mpr (List.forall_mem_cons.mpr ⟨Regex.within_oneOf.mpr hnamespaces, htail⟩),
    Regex.within_cat.mpr (List.forall_mem_cons.mpr ⟨hword (List.all_eq_true.mp (by decide)), htail⟩)⟩, trivial, trivial⟩

/-- A reference does not end before a character of references. -/
theorem reference_ends {before u after : List Char} (h : canonicalReference.Matches before u after) {c : Char}
    {rest : List Char} (hafter : after = c :: rest) : isReferenceChar (foldChar c) = false := by
  obtain ⟨_, _, -, -, h⟩ := Regex.matches_seq.mp h
  obtain ⟨_, _, -, -, h⟩ := Regex.matches_seq.mp h
  obtain ⟨_, _, hu, hend, h⟩ := Regex.matches_seq.mp h
  obtain ⟨rfl, -⟩ := Regex.matches_test.mp h
  obtain ⟨-, hend⟩ := Regex.matches_test.mp hend
  rw [hafter] at hend
  simpa using hend

/-- The text is written with characters of references from the one place to the other. -/
def ReferenceRun (text : List Char) (k j : Nat) : Prop :=
  ∀ c ∈ (text.drop k).take (j - k), isReferenceChar (foldChar c) = true

/-- A reference goes on as far as it can. -/
theorem in_reference_iff {text : List Char} {i j : Nat} (hj : j ≤ text.length) :
    (∃ k l, canonicalReference.Found text k l ∧ k ≤ i ∧ j ≤ l) ↔
      ∃ k l, canonicalReference.Found text k l ∧ k ≤ i ∧ ReferenceRun text k j := by
  refine exists_congr fun k => exists_congr fun l => and_congr_right fun hfound => and_congr_right fun _ => ?_
  obtain ⟨before, u, after, rfl, rfl, rfl, hmatch⟩ := hfound
  have hdrop : (before.reverse ++ (u ++ after)).drop before.length = u ++ after :=
    List.drop_left' (List.length_reverse)
  rw [ReferenceRun, hdrop]
  constructor
  · intro hle c hc
    rw [List.take_append_of_le_length (by omega)] at hc
    exact hmatch.all reference_chars c (List.mem_of_mem_take hc)
  · intro hrun
    by_contra hlt
    cases after with
    | nil => simp only [List.length_append, List.length_reverse, List.length_nil] at hj; omega
    | cons c rest =>
      have hmem : c ∈ (u ++ c :: rest).take (j - before.length) := by
        rw [List.take_append]
        refine List.mem_append_right _ ?_
        obtain ⟨n, hn⟩ := Nat.exists_eq_add_of_le' (show 1 ≤ j - before.length - u.length by omega)
        rw [hn, List.take_succ_cons]
        exact List.mem_cons_self
      have hreference := hrun c hmem
      rw [reference_ends hmatch rfl] at hreference
      cases hreference

namespace Unicode

variable (U : Unicode)

/-- `validate_sanitized_text` -/
def validateSanitizedText (field : String) (maximum : Nat) (empty allowBareHost : Bool) (value : String) :
    Except Failure Unit := do
  require (hasNul value = false) (field ++ " must not contain NUL")
  require (value.utf8ByteSize ≤ maximum ∧ (empty = true ∨ value ≠ "")) (field ++ " is outside its bounded length")
  match U.prohibited allowBareHost value with
  | some found => refuse (field ++ " contains prohibited " ++ found)
  | none => return ()

/-- The rules of the analysis do not take empty texts. -/
theorem validateSanitizedText_rules (sha256 : String → Hash) (loads : String → Except Failure Json) (field : String)
    (maximum : Nat) (allowBareHost : Bool) (value : String) :
    (U.rules sha256 loads).validateSanitizedText field maximum allowBareHost value =
      U.validateSanitizedText field maximum false allowBareHost value := by
  simp only [Analysis.Rules.validateSanitizedText, validateSanitizedText, Bool.false_eq_true, false_or]
  rfl

/-- The text in which hosts and references are searched. -/
def folded (value : String) : List Char := U.casefold (U.normalize value.toList)

/-! ### Acceptance -/

variable {field : String} {maximum : Nat} {empty : Bool} {value : String}

theorem prohibited_eq_none {allowBareHost : Bool} : U.prohibited allowBareHost value = none ↔
    (U.normalize value.toList).any U.isFormat = false ∧ U.capability allowBareHost (U.normalize value.toList) = false := by
  rw [prohibited]
  cases (U.normalize value.toList).any U.isFormat <;>
    cases U.capability allowBareHost (U.normalize value.toList) <;> simp

theorem capability_false_iff {normalized : List Char} : U.capability false normalized = false ↔
    U.capability true normalized = false ∧ (U.bareHost.search (U.casefold normalized) = false ∨
      canonicalReference.search (U.casefold normalized) = true) := by
  simp only [capability, Bool.not_false, Bool.not_true, Bool.true_and, Bool.false_and, Bool.or_false, Bool.or_eq_false_iff,
    Bool.and_eq_false_iff, Bool.not_eq_false']
  tauto

theorem validateSanitizedText_ok {allowBareHost : Bool} :
    U.validateSanitizedText field maximum empty allowBareHost value = .ok () ↔
      hasNul value = false ∧ (value.utf8ByteSize ≤ maximum ∧ (empty = true ∨ value ≠ "")) ∧
        U.prohibited allowBareHost value = none := by
  rw [validateSanitizedText, Analysis.check_ok, Analysis.check_ok, require_ok, require_ok]
  cases U.prohibited allowBareHost value with
  | none => simp [pure, Except.pure]
  | some found => simp [refuse, throwing]

/-- A text is accepted if it is accepted with hosts, and has none, or a reference as well. -/
theorem accepted_iff : U.validateSanitizedText field maximum empty false value = .ok () ↔
    U.validateSanitizedText field maximum empty true value = .ok () ∧
      (U.bareHost.search (U.folded value) = false ∨ canonicalReference.search (U.folded value) = true) := by
  rw [U.validateSanitizedText_ok, U.validateSanitizedText_ok, U.prohibited_eq_none, U.prohibited_eq_none,
    U.capability_false_iff, folded]
  tauto

/-- The hosts of an accepted text lie in references, exactly if it has no reference, or is not accepted with hosts either,
or has in front of each host, or in its beginning, a reference from which on it is written with characters of references. -/
theorem hosts_covered_iff (field : String) (maximum : Nat) (empty : Bool) (value : String) :
    (U.validateSanitizedText field maximum empty false value = .ok () →
      U.bareHost.CoveredBy canonicalReference (U.folded value)) ↔
    (canonicalReference.search (U.folded value) = true → U.validateSanitizedText field maximum empty true value = .ok () →
      ∀ i j, U.bareHost.Found (U.folded value) i j →
        ∃ k l, canonicalReference.Found (U.folded value) k l ∧ k ≤ i ∧ ReferenceRun (U.folded value) k j) := by
  have hcovered : U.bareHost.CoveredBy canonicalReference (U.folded value) ↔
      ∀ i j, U.bareHost.Found (U.folded value) i j →
        ∃ k l, canonicalReference.Found (U.folded value) k l ∧ k ≤ i ∧ ReferenceRun (U.folded value) k j :=
    forall_congr' fun i => forall_congr' fun j => imp_congr_right fun hfound => in_reference_iff hfound.le_length.2
  rw [← hcovered]
  constructor
  · intro h hreference haccepted
    exact h (U.accepted_iff.mpr ⟨haccepted, .inr hreference⟩)
  · intro h haccepted
    obtain ⟨haccepted, hhost | hreference⟩ := U.accepted_iff.mp haccepted
    · exact Regex.coveredBy_of_search hhost
    · exact h hreference haccepted

end Unicode

/-- A host is refused, and passes behind a reference. -/
theorem host_beside_reference : asciiTables.validateSanitizedText "text" 2048 false false "example.com" =
      refuse "text contains prohibited identity, secret, or capability material" ∧
    asciiTables.validateSanitizedText "text" 2048 false false "claim.abc example.com" = .ok () ∧
    ¬ asciiTables.bareHost.CoveredBy canonicalReference (asciiTables.folded "claim.abc example.com") := by
  decide +kernel

end SevenLens.Security
