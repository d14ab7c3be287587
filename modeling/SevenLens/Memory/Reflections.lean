import Mathlib.Data.List.Dedup
import SevenLens.Library.Linked
import SevenLens.Memory.Validation

/-! # The repository of reflection records

Records are appended and never changed.  A correction names the one record it supersedes, which
must be there and available by its cutoff and must not have been corrected before.  So the records
make up chains (`Corrected`), and what is visible at an instant is the last available record of each
chain (`visible_heads`).  The validator asks for the record that a correction supersedes among the
same visible records, where it never is (`curated_iff`). -/

namespace SevenLens.Memory

open Securities

/-! ### Records -/

inductive CorrectionReason where
  | sourceCorrection | factualError | lineageRepair
deriving DecidableEq, Repr

/-- A record with its hash and what its constructor checks of its corrections. -/
structure ReflectionRecord extends DailyReflectionRecord where
  contentHash : Hash
  correctionReason : Option CorrectionReason
  links_ok : ∀ o ∈ observations, o.kind = .correction ↔ o.supersedesRecordId ≠ none
  unmixed_ok : (∃ o ∈ observations, o.kind = .correction) → ∀ o ∈ observations, o.kind = .correction
  self_ok : ∀ o ∈ observations, o.kind = .correction → o.supersedesRecordId ≠ some recordId
  single_ok : ∀ o ∈ observations, o.kind = .correction → ∀ p ∈ observations, p.kind = .correction →
    o.supersedesRecordId = p.supersedesRecordId
  reason_ok : (∃ o ∈ observations, o.kind = .correction) ↔ correctionReason ≠ none
deriving DecidableEq

/-- The identifiers that the corrections of a record supersede, as a set. -/
def DailyReflectionRecord.correctionTargets (r : DailyReflectionRecord) : List (Option String) :=
  ((r.observations.filter (fun o => decide (o.kind = .correction))).map ReflectionObservation.supersedesRecordId).dedup

/-! ### The repository -/

/-- `_records`, in the order in which they were appended. -/
abbrev ReflectionRepository := List ReflectionRecord

namespace ReflectionRepository

variable (s : ReflectionRepository)

/-- `self._records.get(record_id)` -/
def get (id : String) : Option ReflectionRecord := s.find? (fun r => decide (r.recordId = id))

/-- The walk from a target back along the corrections.  It ends at a record that supersedes nothing
or is not there, and fails at one it has seen or at the new one.  Each step but the last is at a
stored record that was not seen before, so a walk that outlasts the fuel has met one twice. -/
def walk (id : String) : Nat → List String → Option String → Except Failure Unit
  | _, _, none => .ok ()
  | 0, _, some _ => throwing .runtimeError "correction supersedes lineage contains a cycle"
  | fuel + 1, visited, some cursor =>
    if cursor = id ∨ cursor ∈ visited then throwing .runtimeError "correction supersedes lineage contains a cycle"
    else
      match s.get cursor with
      | none => .ok ()
      | some prior => walk id fuel (cursor :: visited) (prior.correctionTargets.head?.join)

/-- The checks on one target of a new record. -/
def checkTarget (r : ReflectionRecord) : Option String → Except Failure Unit
  | none => throwing .runtimeError "correction supersedes target is unknown"
  | some target =>
    match s.get target with
    | none => .error (.keyError target)
    | some prior => do
      requireOr .runtimeError
        (¬ (r.cutoffAt < prior.availableAt ∨ r.cutoffAt < prior.cutoffAt ∨ r.createdAt < prior.createdAt))
        "correction supersedes target chronology is invalid"
      walk s r.recordId (s.length + 1) [] (some target)
      requireOr .runtimeError (∀ existing ∈ s, some target ∉ existing.correctionTargets)
        "correction supersedes target already has a correction head"

/-- `append` -/
def append (r : ReflectionRecord) : Except Failure ReflectionRepository :=
  match s.get r.recordId with
  | some existing => do
    requireOr .runtimeError (existing.contentHash = r.contentHash ∧ existing.correctionReason = r.correctionReason)
      "reflection identity collision"
    return s
  | none => do
    requireOr .runtimeError
      (none ∉ r.correctionTargets ∧ ∀ target ∈ r.correctionTargets, ∃ id ∈ target, (s.get id).isSome = true)
      "correction supersedes target is unknown"
    r.correctionTargets.forM (checkTarget s r)
    return s ++ [r]

/-- The repository after calls of `append`; a call that fails changes nothing. -/
def appendAll (records : List ReflectionRecord) : ReflectionRepository :=
  records.foldl (fun s r => ((append s r).toOption).getD s) s

/-- A record is available at an instant. -/
def Available (asOf : UtcTimestamp) (r : ReflectionRecord) : Prop := r.availableAt ≤ asOf

instance (asOf : UtcTimestamp) : DecidablePred (Available asOf) := fun r => inferInstanceAs (Decidable (r.availableAt ≤ asOf))

/-- The identifiers of the available records that an available one supersedes. -/
def supersededIds (available : List ReflectionRecord) : List (Option String) :=
  (available.flatMap (fun r => r.correctionTargets)).filter (fun target => decide (target ∈ available.map (fun r => some r.recordId)))

/-- `records_as_of` -/
def recordsAsOf (asOf : UtcTimestamp) : List ReflectionRecord :=
  let available := s.filter (fun r => decide (Available asOf r))
  (available.filter (fun r => decide (some r.recordId ∉ supersededIds available))).sortOn
    (fun r => toLex (r.availableAt, r.recordId))

end ReflectionRepository

/-! ### The chains of corrections -/

/-- The record that a correction supersedes. -/
def ReflectionRecord.target (r : ReflectionRecord) : Option String := r.correctionTargets.head?.join

/-- A record supersedes one other record at most. -/
theorem ReflectionRecord.correctionTargets_eq (r : ReflectionRecord) :
    r.correctionTargets = (r.target.map some).toList := by
  have hall : ∀ x ∈ (r.observations.filter (fun o => decide (o.kind = .correction))).map
      ReflectionObservation.supersedesRecordId, ∃ o ∈ r.observations, o.kind = .correction ∧ o.supersedesRecordId = x := by
    intro x hx
    obtain ⟨o, ho, rfl⟩ := List.mem_map.mp hx
    obtain ⟨hmem, hkind⟩ := List.mem_filter.mp ho
    exact ⟨o, hmem, of_decide_eq_true hkind, rfl⟩
  unfold ReflectionRecord.target DailyReflectionRecord.correctionTargets
  cases hlist : (r.observations.filter (fun o => decide (o.kind = .correction))).map
      ReflectionObservation.supersedesRecordId with
  | nil => rfl
  | cons x rest =>
    rw [hlist] at hall
    obtain ⟨o, ho, hkind, hox⟩ := hall x List.mem_cons_self
    have hsame : ∀ y ∈ rest, y = x := by
      intro y hy
      obtain ⟨p, hp, hpkind, rfl⟩ := hall y (List.mem_cons_of_mem x hy)
      exact (r.single_ok p hp hpkind o ho hkind).trans hox
    have hrest : rest = List.replicate rest.length x := List.eq_replicate_of_mem hsame
    have hdedup : (x :: rest).dedup = [x] := by
      rw [hrest]
      exact List.replicate_dedup (Nat.succ_ne_zero rest.length)
    obtain ⟨id, hid⟩ := Option.ne_none_iff_exists'.mp ((r.links_ok o ho).mp hkind)
    rw [hdedup, ← hox, hid]
    rfl

theorem ReflectionRecord.mem_correctionTargets {r : ReflectionRecord} {id : String} :
    some id ∈ r.correctionTargets ↔ r.target = some id := by
  rw [r.correctionTargets_eq]
  cases r.target with
  | none => simp
  | some k => simp [eq_comm]

namespace ReflectionRepository

variable {s t : ReflectionRepository} {r : ReflectionRecord} {asOf : UtcTimestamp}

theorem get_eq_none {id : String} : s.get id = none ↔ ∀ r ∈ s, r.recordId ≠ id := by
  simp [get, List.find?_eq_none]

theorem get_eq_some {id : String} (h : s.get id = some r) : r ∈ s ∧ r.recordId = id :=
  ⟨List.mem_of_find?_eq_some h, by simpa using List.find?_some h⟩

/-- A call of `append` that went through: the record was there, or it is new and the record it
supersedes is available by its cutoff and not yet superseded. -/
theorem append_cases (h : s.append r = .ok t) :
    t = s ∨
      t = s ++ [r] ∧ (∀ e ∈ s, e.recordId ≠ r.recordId) ∧ ∀ id, r.target = some id →
        ∃ prior ∈ s, prior.recordId = id ∧ prior.availableAt ≤ r.cutoffAt ∧ ∀ e ∈ s, e.target ≠ some id := by
  unfold append at h
  split at h
  · obtain ⟨_, -, h⟩ := bind_ok.mp h
    cases h
    exact .inl rfl
  · rename_i hnew
    obtain ⟨_, -, h⟩ := bind_ok.mp h
    obtain ⟨_, htargets, h⟩ := bind_ok.mp h
    cases h
    refine .inr ⟨rfl, get_eq_none.mp hnew, fun id hid => ?_⟩
    have hcheck := Dict.forM_ok.mp htargets (some id) (ReflectionRecord.mem_correctionTargets.mpr hid)
    unfold checkTarget at hcheck
    dsimp only at hcheck
    split at hcheck
    · cases hcheck
    · rename_i prior hprior
      obtain ⟨_, htimes, hcheck⟩ := bind_ok.mp hcheck
      obtain ⟨_, -, hhead⟩ := bind_ok.mp hcheck
      obtain ⟨hmem, hpriorId⟩ := get_eq_some hprior
      refine ⟨prior, hmem, hpriorId, not_lt.mp fun hlt => requireOr_ok.mp htimes (.inl hlt), fun e he htarget => ?_⟩
      exact requireOr_ok.mp hhead e he (ReflectionRecord.mem_correctionTargets.mpr htarget)

/-- The records make up chains in which the target of a correction was available by its cutoff. -/
structure Corrected (s : ReflectionRepository) : Prop where
  distinct : (s.map (fun r => r.recordId)).Nodup
  chains : ∃ chains, Linked.Chains (fun r => r.recordId) ReflectionRecord.target s chains
  ordered : ∀ r ∈ s, ∀ id, r.target = some id → ∃ prior ∈ s, prior.recordId = id ∧ prior.availableAt ≤ r.cutoffAt

theorem corrected_append (hs : s.Corrected) (h : s.append r = .ok t) : t.Corrected := by
  obtain rfl | ⟨rfl, hnew, htarget⟩ := append_cases h
  · exact hs
  · refine ⟨?_, ?_, ?_⟩
    · rw [List.map_append]
      refine List.nodup_append.mpr ⟨hs.distinct, List.nodup_singleton _, ?_⟩
      intro id hid id' hid' heq
      obtain ⟨e, he, rfl⟩ := List.mem_map.mp hid
      exact hnew e he (heq.trans (List.mem_singleton.mp hid'))
    · obtain ⟨chains, hchains⟩ := hs.chains
      cases hr : r.target with
      | none => exact ⟨_, hchains.start hr⟩
      | some id =>
        obtain ⟨prior, hprior, hid, -, hhead⟩ := htarget id hr
        subst hid
        exact hchains.extend hprior hr hhead
    · intro e he id hid
      rcases List.mem_append.mp he with he | he
      · obtain ⟨prior, hprior, hordered⟩ := hs.ordered e he id hid
        exact ⟨prior, List.mem_append_left _ hprior, hordered⟩
      · rw [List.mem_singleton.mp he] at hid ⊢
        obtain ⟨prior, hprior, hpriorId, havailable, -⟩ := htarget id hid
        exact ⟨prior, List.mem_append_left _ hprior, hpriorId, havailable⟩

/-- The rule for calls: what one call keeps, all of them keep. -/
theorem appendAll_keeps {keep : ReflectionRepository → Prop} {records : List ReflectionRecord}
    (hkeep : ∀ r ∈ records, ∀ s t, append s r = .ok t → keep s → keep t) (hs : keep s) : keep (s.appendAll records) := by
  induction records generalizing s with
  | nil => exact hs
  | cons r records ih =>
    obtain ⟨hr, hrecords⟩ := List.forall_mem_cons.mp hkeep
    change keep (appendAll ((s.append r).toOption.getD s) records)
    cases happend : s.append r with
    | error e => exact ih hrecords hs
    | ok t => exact ih hrecords (hr s t happend hs)

theorem corrected_appendAll (records : List ReflectionRecord) : (appendAll [] records).Corrected :=
  appendAll_keeps (fun _ _ _ _ happend hs => corrected_append hs happend) ⟨List.nodup_nil, ⟨[], .nil⟩, nofun⟩

/-! ### What is visible -/

/-- Along the links the records become available one after the other. -/
theorem Corrected.available_le (hs : s.Corrected) {a b : ReflectionRecord} (ha : a ∈ s) (hb : b ∈ s)
    (htarget : b.target = some a.recordId) : a.availableAt ≤ b.availableAt := by
  obtain ⟨prior, hprior, hid, havailable⟩ := hs.ordered b hb _ htarget
  have hsame : prior = a := List.inj_on_of_nodup_map hs.distinct hprior ha hid
  rw [← hsame]
  exact havailable.trans (b.times_ok.1.trans b.times_ok.2)

/-- The visible records, before they are sorted. -/
theorem visible_eq :
    (s.filter (fun r => decide (Available asOf r))).filter
        (fun r => decide (some r.recordId ∉ supersededIds (s.filter (fun r => decide (Available asOf r))))) =
      s.filter (fun r => decide (Available asOf r ∧ Linked.Chains.Unfollowed ReflectionRecord.target (Available asOf)
        (fun r => r.recordId) s r)) := by
  rw [List.filter_filter]
  refine List.filter_congr fun r hr => ?_
  rw [← Bool.decide_and]
  refine decide_eq_decide.mpr ?_
  rw [and_comm]
  refine and_congr_right fun havailable => ?_
  have hmem : ∀ b, b ∈ s.filter (fun r => decide (Available asOf r)) ↔ b ∈ s ∧ Available asOf b := by simp
  have hvisible : some r.recordId ∈ (s.filter (fun r => decide (Available asOf r))).map (fun r => some r.recordId) :=
    List.mem_map.mpr ⟨r, (hmem r).mpr ⟨hr, havailable⟩, rfl⟩
  simp only [supersededIds, List.mem_filter, List.mem_flatMap, hvisible, decide_true, and_true, not_exists, not_and,
    ReflectionRecord.mem_correctionTargets, decide_eq_true_eq, Linked.Chains.Unfollowed, and_imp, ne_eq]

/-- The visible records are the last available ones of the chains. -/
theorem Corrected.visible_heads (hs : s.Corrected) {chains : List (List ReflectionRecord)}
    (hchains : Linked.Chains (fun r => r.recordId) ReflectionRecord.target s chains) :
    (s.recordsAsOf asOf).Perm (chains.filterMap (fun c => (c.filter (fun r => decide (Available asOf r))).getLast?)) := by
  unfold recordsAsOf
  dsimp only
  rw [visible_eq]
  refine (List.sortOn_perm _ _).trans (hchains.heads hs.distinct ?_)
  intro a ha b hb htarget havailable
  exact (hs.available_le ha hb htarget).trans havailable

theorem mem_recordsAsOf :
    r ∈ s.recordsAsOf asOf ↔ r ∈ s ∧ Available asOf r ∧
      ∀ b ∈ s, Available asOf b → b.target ≠ some r.recordId := by
  unfold recordsAsOf
  dsimp only
  rw [visible_eq, List.mem_sortOn, List.mem_filter, decide_eq_true_eq]
  rfl

/-- Only the records that are available are read. -/
theorem recordsAsOf_filter : recordsAsOf (s.filter (fun r => decide (Available asOf r))) asOf = s.recordsAsOf asOf := by
  have hfilter : (s.filter (fun r => decide (Available asOf r))).filter (fun r => decide (Available asOf r)) =
      s.filter (fun r => decide (Available asOf r)) := by simp [List.filter_filter]
  unfold recordsAsOf
  rw [hfilter]

theorem recordsAsOf_append (hs : ¬ Available asOf r) (h : s.append r = .ok t) : t.recordsAsOf asOf = s.recordsAsOf asOf := by
  obtain rfl | ⟨rfl, -⟩ := append_cases h
  · rfl
  · have hfilter : (s ++ [r]).filter (fun r => decide (Available asOf r)) = s.filter (fun r => decide (Available asOf r)) := by
      simp [List.filter_append, hs]
    rw [← recordsAsOf_filter, hfilter, recordsAsOf_filter]

/-- After any calls the records make up chains of corrections, each with its target available by
its cutoff.  At an instant the last available record of each chain is visible and no other, and
records that become available later make no difference. -/
theorem corrections_are_chains (records : List ReflectionRecord) :
    ((appendAll [] records).map (fun r => r.recordId)).Nodup ∧
      (∀ r ∈ appendAll [] records, ∀ id, r.target = some id →
        ∃ prior ∈ appendAll [] records, prior.recordId = id ∧ prior.availableAt ≤ r.cutoffAt) ∧
      ∃ chains, Linked.Chains (fun r => r.recordId) ReflectionRecord.target (appendAll [] records) chains ∧
        (∀ c ∈ chains, c.Pairwise (fun a b => a.availableAt ≤ b.availableAt)) ∧
        ∀ asOf,
          (recordsAsOf (appendAll [] records) asOf).Perm
              (chains.filterMap (fun c => (c.filter (fun r => decide (Available asOf r))).getLast?)) ∧
            recordsAsOf ((appendAll [] records).filter (fun r => decide (Available asOf r))) asOf =
              recordsAsOf (appendAll [] records) asOf ∧
            ∀ later : List ReflectionRecord, (∀ r ∈ later, ¬ Available asOf r) →
              recordsAsOf (appendAll (appendAll [] records) later) asOf = recordsAsOf (appendAll [] records) asOf := by
  have hs := corrected_appendAll records
  obtain ⟨chains, hchains⟩ := hs.chains
  refine ⟨hs.distinct, hs.ordered, chains, hchains, fun c hc => ?_,
    fun asOf => ⟨hs.visible_heads hchains, recordsAsOf_filter, ?_⟩⟩
  · have hsub : ∀ a ∈ c, a ∈ appendAll [] records := fun a ha => hchains.mem_iff.mpr ⟨c, hc, ha⟩
    refine (hchains.linked c hc).pairwise (fun a b c (hab : a.availableAt ≤ b.availableAt) => hab.trans) ?_
    intro a ha b hb htarget
    exact hs.available_le (hsub a ha) (hsub b hb) htarget
  · intro later hlater
    exact @appendAll_keeps _ (fun t => recordsAsOf t asOf = recordsAsOf (appendAll [] records) asOf) later
      (fun r hr s t happend heq => (recordsAsOf_append (hlater r hr) happend).trans heq) rfl

end ReflectionRepository

/-! ### The validator on visible records -/

variable {R : Rules}

/-- A check reports only issues with a property. -/
def Reports (p : ValidationIssue → Prop) {α : Type} (x : Checked α) : Prop := ∀ issue, x = .error (.inr issue) → p issue

namespace Reports

variable {p : ValidationIssue → Prop} {α β : Type}

theorem of_ok {x : Checked α} {a : α} (h : x = .ok a) : Reports p x := by
  intro issue hissue
  rw [h] at hissue
  cases hissue

theorem bind {x : Checked α} {f : α → Checked β} (hx : Reports p x) (hf : ∀ a, Reports p (f a)) : Reports p (x >>= f) := by
  intro issue hissue
  cases hcase : x with
  | error e =>
    rw [hcase] at hissue
    cases hissue
    exact hx issue hcase
  | ok a =>
    rw [hcase] at hissue
    exact hf a issue hissue

theorem invalid {stage code : String} (h : p ⟨stage, code⟩) : Reports p (invalid stage code : Checked α) := by
  intro issue hissue
  cases hissue
  exact h

theorem report {q : Prop} [Decidable q] {stage code : String} (h : p ⟨stage, code⟩) : Reports p (report q stage code) := by
  unfold Memory.report
  split_ifs
  · exact of_ok rfl
  · exact invalid h

theorem uncaught (x : Except Failure α) : Reports p (uncaught x) := by
  intro issue hissue
  cases x <;> cases hissue

theorem caught {stage code : String} (h : p ⟨stage, code⟩) (x : Except Failure α) : Reports p (caught stage code x) := by
  cases x with
  | ok a => exact of_ok rfl
  | error e => exact invalid h

theorem foldlM {f : α → β → Checked α} (h : ∀ a b, Reports p (f a b)) (l : List β) (a : α) : Reports p (l.foldlM f a) := by
  induction l generalizing a with
  | nil => exact of_ok rfl
  | cons b l ih =>
    rw [List.foldlM_cons]
    exact (h a b).bind (fun a' => ih a')

theorem forM {f : α → Checked Unit} (h : ∀ a, Reports p (f a)) (l : List α) : Reports p (l.forM f) := by
  induction l with
  | nil => exact of_ok rfl
  | cons a l ih => exact (h a).bind (fun _ => ih)

end Reports

theorem reports_entryCheck {p : ValidationIssue → Prop} (hp : ∀ stage code, stage ≠ "correction_lineage" → p ⟨stage, code⟩)
    (K : ClosureRules) (m : SourceMap) (e : MemoryEntry R) : Reports p (entryCheck K m e) := by
  refine (Reports.uncaught _).bind fun _ => (Reports.report (hp _ _ (by decide))).bind fun _ => ?_
  split
  · exact Reports.invalid (hp _ _ (by decide))
  · refine (Reports.report (hp _ _ (by decide))).bind fun _ => (Reports.uncaught _).bind fun _ => ?_
    refine (Reports.report (hp _ _ (by decide))).bind fun _ => (Reports.uncaught _).bind fun _ => ?_
    exact Reports.report (hp _ _ (by decide))

/-- The stage of the corrections is reported only for a fault in their graph. -/
theorem reports_checks (K : ClosureRules) {m : SourceMap} (hgraph : validateCorrectionGraph m = none)
    (a : MemoryArtifact R) (requestedCutoff : UtcTimestamp) :
    Reports (fun issue => issue.stage ≠ "correction_lineage") (checks K m a requestedCutoff) := by
  have hp : ∀ stage code : String, stage ≠ "correction_lineage" → (⟨stage, code⟩ : ValidationIssue).stage ≠ "correction_lineage" :=
    fun _ _ h => h
  unfold checks
  rw [hgraph]
  refine (Reports.caught (by decide) _).bind fun _ => (Reports.report (by decide)).bind fun _ => ?_
  refine (Reports.foldlM (fun seen item => ?_) _ _).bind fun _ => (Reports.of_ok rfl).bind fun _ => ?_
  · refine (Reports.report (by decide)).bind fun _ => Reports.foldlM (fun seen fact => ?_) _ _
    exact (Reports.report (by decide)).bind fun _ => Reports.of_ok rfl
  refine (Reports.report (by decide)).bind fun _ => (Reports.report (by decide)).bind fun _ => ?_
  refine (Reports.report (by decide)).bind fun _ => (Reports.report (by decide)).bind fun _ => ?_
  exact (Reports.forM (reports_entryCheck hp K m) _).bind fun _ => Reports.caught (by decide) _

/-- Records under their identifiers, with distinct facts, pass the checks of their lineage. -/
theorem lineage_ok {items : List (String × StoredRecord)} {seen : List String}
    (hkeys : ∀ item ∈ items, item.1 = item.2.record.recordId)
    (hfacts : (seen ++ items.flatMap (fun item => item.2.record.facts.map FactRef.factId)).Nodup) :
    ∃ seen', items.foldlM lineageStep seen = .ok seen' := by
  have hinner : ∀ (facts : List FactRef) (seen : List String), (seen ++ facts.map FactRef.factId).Nodup →
      ∃ seen', facts.foldlM (fun seen fact => do
        report (fact.factId ∉ seen) "source_lineage" "duplicate_fact_id"
        return fact.factId :: seen) seen = .ok seen' ∧ seen'.Perm (seen ++ facts.map FactRef.factId) := by
    intro facts
    induction facts with
    | nil => exact fun seen _ => ⟨seen, rfl, by simp⟩
    | cons fact facts ih =>
      intro seen hnodup
      have hperm : (fact.factId :: seen ++ facts.map FactRef.factId).Perm (seen ++ (fact :: facts).map FactRef.factId) :=
        List.perm_middle.symm
      have hnew : fact.factId ∉ seen := by
        have := hperm.nodup_iff.mpr hnodup
        rw [List.cons_append, List.nodup_cons] at this
        exact fun h => this.1 (List.mem_append_left _ h)
      obtain ⟨seen', hfold, hseen⟩ := ih (fact.factId :: seen) (hperm.nodup_iff.mpr hnodup)
      refine ⟨seen', ?_, hseen.trans hperm⟩
      have hreport : report (fact.factId ∉ seen) "source_lineage" "duplicate_fact_id" = .ok () := report_ok.mpr hnew
      rw [List.foldlM_cons]
      simp only [hreport, bind, Except.bind, pure, Except.pure]
      exact hfold
  induction items generalizing seen with
  | nil => exact ⟨seen, rfl⟩
  | cons item items ih =>
    obtain ⟨hkey, hkeys⟩ := List.forall_mem_cons.mp hkeys
    rw [List.flatMap_cons, ← List.append_assoc] at hfacts
    obtain ⟨seen', hfold, hperm⟩ := hinner item.2.record.facts seen (hfacts.of_append_left)
    have hrest : (seen' ++ items.flatMap (fun item => item.2.record.facts.map FactRef.factId)).Nodup :=
      (hperm.append_right _).nodup_iff.mpr hfacts
    obtain ⟨last, hlast⟩ := ih hkeys hrest
    refine ⟨last, ?_⟩
    have hreport : report (item.1 = item.2.record.recordId) "source_lineage" "source_key_mismatch" = .ok () :=
      report_ok.mpr hkey
    have hstep : lineageStep seen item = .ok seen' := by
      simp only [lineageStep, hreport, bind, Except.bind]
      exact hfold
    rw [List.foldlM_cons, hstep]
    exact hlast

namespace ReflectionRepository

/-- The map gives the visible records under their identifiers. -/
def Shows (s : ReflectionRepository) (asOf : UtcTimestamp) (m : SourceMap) : Prop :=
  (m.items.map (fun item => (item.1, item.2.record))).Perm
    ((s.recordsAsOf asOf).map (fun r => (r.recordId, r.toDailyReflectionRecord)))

variable {s : ReflectionRepository} {asOf : UtcTimestamp} {m : SourceMap}

theorem Shows.exists_of_mem (h : s.Shows asOf m) {item : String × StoredRecord} (hitem : item ∈ m.items) :
    ∃ r ∈ s.recordsAsOf asOf, r.recordId = item.1 ∧ r.toDailyReflectionRecord = item.2.record := by
  obtain ⟨r, hr, heq⟩ := List.mem_map.mp (h.mem_iff.mp (List.mem_map_of_mem hitem))
  exact ⟨r, hr, congrArg Prod.fst heq, congrArg Prod.snd heq⟩

theorem Shows.exists_item (h : s.Shows asOf m) {r : ReflectionRecord} (hr : r ∈ s.recordsAsOf asOf) :
    ∃ item ∈ m.items, item.1 = r.recordId ∧ item.2.record = r.toDailyReflectionRecord := by
  obtain ⟨item, hitem, heq⟩ := List.mem_map.mp (h.mem_iff.mpr (List.mem_map_of_mem hr))
  exact ⟨item, hitem, congrArg Prod.fst heq, congrArg Prod.snd heq⟩

/-- A correction that is available leads to a visible one. -/
theorem Corrected.exists_visible_correction (hs : s.Corrected) {r : ReflectionRecord} (hr : r ∈ s)
    (havailable : Available asOf r) (htarget : r.target ≠ none) : ∃ v ∈ s.recordsAsOf asOf, v.target ≠ none := by
  obtain ⟨chains, hchains⟩ := hs.chains
  obtain ⟨c, hc, hrc⟩ := hchains.mem_iff.mp hr
  cases c with
  | nil => cases hrc
  | cons first rest =>
    obtain ⟨hfirst, hrest⟩ := hchains.linked _ hc
    have hmem : r ∈ rest := by
      rcases List.mem_cons.mp hrc with rfl | hmem
      · exact absurd hfirst htarget
      · exact hmem
    cases hlast : (rest.filter (fun r => decide (Available asOf r))).getLast? with
    | none =>
      have hnil := List.filter_eq_nil_iff.mp (List.getLast?_eq_none_iff.mp hlast) r hmem
      exact absurd havailable (by simpa using hnil)
    | some v =>
      -- the last available record comes after the first, so it has a target
      have hv : ((first :: rest).filter (fun r => decide (Available asOf r))).getLast? = some v := by
        rw [List.filter_cons]
        split_ifs
        · rw [List.getLast?_cons, hlast]
          rfl
        · exact hlast
      refine ⟨v, (hs.visible_heads hchains).mem_iff.mpr (List.mem_filterMap.mpr ⟨_, hc, hv⟩), ?_⟩
      exact hrest.previous_ne_none v (List.mem_of_mem_filter (List.mem_of_getLast? hlast))

/-- What a visible correction supersedes is not visible. -/
theorem Shows.target_unknown (h : s.Shows asOf m) {v : ReflectionRecord} (hv : v ∈ s.recordsAsOf asOf) {id : String}
    (htarget : v.target = some id) : m.get id = none := by
  cases hget : m.get id with
  | none => rfl
  | some stored =>
    obtain ⟨r, hr, hid, -⟩ := h.exists_of_mem (Dict.mem_of_lookup hget)
    obtain ⟨hmem, havailable, -⟩ := mem_recordsAsOf.mp hv
    refine absurd ?_ ((mem_recordsAsOf.mp hr).2.2 v hmem havailable)
    rw [htarget, hid]

theorem correctionTarget_error {v : ReflectionRecord} {id key : String} (htarget : v.target = some id)
    (hget : m.get id = none) : ∃ code, correctionTarget m key v.toDailyReflectionRecord = .error code := by
  have htargets : v.correctionTargets = [some id] := by rw [v.correctionTargets_eq, htarget]; rfl
  unfold DailyReflectionRecord.correctionTargets at htargets
  unfold correctionTarget
  rw [htargets]
  dsimp only
  rw [hget]
  split_ifs
  · exact ⟨_, rfl⟩
  · exact ⟨_, rfl⟩

theorem correctionTarget_none {r : ReflectionRecord} {key : String} (htarget : r.target = none) :
    correctionTarget m key r.toDailyReflectionRecord = .ok none := by
  have htargets : r.correctionTargets = [] := by rw [r.correctionTargets_eq, htarget]; rfl
  unfold DailyReflectionRecord.correctionTargets at htargets
  unfold correctionTarget
  rw [htargets]

/-- The graph of the corrections is at fault exactly when a correction is available. -/
theorem Shows.graph_iff (hs : s.Corrected) (h : s.Shows asOf m) :
    validateCorrectionGraph m = none ↔ ∀ r ∈ s, Available asOf r → r.target = none := by
  constructor
  · intro hgraph r hr havailable
    by_contra htarget
    obtain ⟨v, hv, hvtarget⟩ := hs.exists_visible_correction hr havailable htarget
    obtain ⟨id, hid⟩ := Option.ne_none_iff_exists'.mp hvtarget
    obtain ⟨item, hitem, hkey, hrecord⟩ := h.exists_item hv
    have herror : ∃ code, correctionTarget m item.1 item.2.record = .error code := by
      rw [hkey, hrecord]
      exact correctionTarget_error hid (h.target_unknown hv hid)
    obtain ⟨code, hcode⟩ := herror
    unfold validateCorrectionGraph at hgraph
    split at hgraph
    · cases hgraph
    · rename_i links hlinks
      obtain ⟨link, -, hlink⟩ := Dict.exists_of_forall₂ (Dict.forall₂_of_mapM hlinks) hitem
      rw [hcode] at hlink
      cases hlink
  · intro hnone
    have hlinks : m.items.mapM (fun item => (correctionTarget m item.1 item.2.record).map (fun target => (item.1, target))) =
        .ok (m.items.map (fun item => (item.1, none))) := by
      refine Dict.mapM_of_forall₂ ?_
      rw [List.forall₂_map_right_iff, List.forall₂_same]
      intro item hitem
      obtain ⟨r, hr, -, hrecord⟩ := h.exists_of_mem hitem
      obtain ⟨hmem, havailable, -⟩ := mem_recordsAsOf.mp hr
      rw [← hrecord, correctionTarget_none (hnone r hmem havailable)]
      rfl
    unfold validateCorrectionGraph
    rw [hlinks]
    simp [List.filterMap_map]

/-- An artifact of the visible records is not rejected for its corrections exactly when no
correction was available. -/
theorem curated_iff (K : ClosureRules) (records : List ReflectionRecord) (asOf : UtcTimestamp) (m : SourceMap)
    (hm : (appendAll [] records).Shows asOf m) (a : MemoryArtifact R) (hstate : a.state = .candidate)
    (hids : ∀ id, id ∈ a.sourceRecordIds ↔ id ∈ m.keys)
    (hfacts : ((recordsAsOf (appendAll [] records) asOf).flatMap (fun r => r.facts.map FactRef.factId)).Nodup) :
    (∀ r, validate K m a asOf = .ok r → ∀ issue ∈ r.issues, issue.stage ≠ "correction_lineage") ↔
      ∀ r ∈ appendAll [] records, r.availableAt ≤ asOf → r.target = none := by
  refine Iff.trans ?_ (hm.graph_iff (corrected_appendAll records))
  constructor
  · intro hstages
    by_contra hgraph
    obtain ⟨code, hcode⟩ := Option.ne_none_iff_exists'.mp hgraph
    have hlineage : ∃ seen, m.items.foldlM lineageStep [] = .ok seen := by
      refine lineage_ok ?_ ?_
      · intro item hitem
        obtain ⟨r, -, hid, hrecord⟩ := hm.exists_of_mem hitem
        rw [← hid, ← hrecord]
      · have hperm := List.Perm.flatMap_right (fun p => p.2.facts.map FactRef.factId) hm
        rw [List.flatMap_map, List.flatMap_map] at hperm
        exact hperm.nodup_iff.mpr hfacts
    obtain ⟨seen, hseen⟩ := hlineage
    have hreport : report ((∀ key ∈ m.keys, key ∈ a.sourceRecordIds) ∧ ∀ id ∈ a.sourceRecordIds, id ∈ m.keys)
        "source_lineage" "source_set_mismatch" = .ok () :=
      report_ok.mpr ⟨fun key hkey => (hids key).mpr hkey, fun id hid => (hids id).mp hid⟩
    have hchecks : checks K m a asOf = .error (.inr ⟨"correction_lineage", code⟩) := by
      simp only [checks, a.verifyIntegrity_ok, hreport, hseen, hcode, caught, invalid, bind, Except.bind]
    have hstart : require (a.state = .candidate) "only a candidate artifact can be validated" = .ok () :=
      require_ok.mpr hstate
    have hvalidate : validate K m a asOf = .ok ⟨{ a with state := .invalid }, [⟨"correction_lineage", code⟩]⟩ := by
      simp only [validate, hstart, hchecks, withState_of_allowed (show a.state.allowed .invalid = true by rw [hstate]; rfl),
        bind, Except.bind, pure, Except.pure]
    exact hstages _ hvalidate _ List.mem_cons_self rfl
  · intro hgraph r hr issue hissue
    obtain ⟨-, ⟨-, rfl⟩ | ⟨found, hfound, rfl⟩⟩ := validate_cases hr
    · cases hissue
    · rw [List.mem_singleton.mp hissue]
      exact reports_checks K hgraph a asOf found hfound

section Sample

/-- The record of the sample before its correction. -/
def firstRecord : ReflectionRecord where
  toDailyReflectionRecord := sampleReflection
  contentHash := ⟨String.ofList (List.replicate 64 '1'), by decide⟩
  correctionReason := none
  links_ok := by decide
  unmixed_ok := by decide
  self_ok := by decide
  single_ok := by decide
  reason_ok := by decide

/-- Its correction, or a record with the same content that corrects nothing. -/
def secondReflection (kind : ObservationKind) (supersedes : Option String) : DailyReflectionRecord where
  recordId := "reflection-2"
  createdAt := sampleDay 3
  availableAt := sampleDay 3
  cutoffAt := sampleDay 2
  sources := [⟨"market_regime", [⟨"fact-2", .text, "calm"⟩], []⟩]
  observations := [⟨kind, ["fact-2"], supersedes⟩]
  times_ok := by decide +kernel
  facts_ok := by decide
  flags_ok := by decide

def secondRecord : ReflectionRecord where
  toDailyReflectionRecord := secondReflection .correction (some "reflection-1")
  contentHash := ⟨String.ofList (List.replicate 64 '2'), by decide⟩
  correctionReason := some .factualError
  links_ok := by decide
  unmixed_ok := by decide
  self_ok := by decide
  single_ok := by decide
  reason_ok := by decide

def visibleMap : SourceMap := ⟨[("reflection-2", ⟨2, secondReflection .correction (some "reflection-1")⟩)], by decide⟩

def ordinaryMap : SourceMap := ⟨[("reflection-2", ⟨2, secondReflection .forecast none⟩)], by decide⟩

/-- An artifact of the lesson of the second record. -/
def visibleBody : ArtifactBody sampleRules where
  toArtifactFields := { sampleFields with sourceRecordIds := ["reflection-2"] }
  entries := [{ sampleEntry with
    category := .marketRegime
    importance := 66
    evidenceIds := ["fact-2"]
    sourceRecordIds := ["reflection-2"]
    importance_ok := importance_66_ok
    evidence_ok := by decide +kernel
    sources_ok := by decide +kernel }]
  lineCount := 14
  contentHash := ⟨String.ofList (List.replicate 64 '7'), sevens_ok⟩

def visibleArtifact : MemoryArtifact sampleRules := ⟨visibleBody, .candidate, by decide +kernel⟩

end Sample

/-- An artifact of the visible record is rejected because that record corrects one that is no
longer visible; with the same records and no correction it is valid. -/
theorem correction_not_curated :
    (appendAll [] [firstRecord, secondRecord]).Shows (sampleDay 3) visibleMap ∧
      (validate sampleClosure visibleMap visibleArtifact (sampleDay 3)).toOption.map ValidationResult.issues =
        some [⟨"correction_lineage", "correction_target_unknown"⟩] ∧
      (validate sampleClosure ordinaryMap visibleArtifact (sampleDay 3)).toOption.map ValidationResult.valid = some true := by
  refine ⟨?_, ?_, ?_⟩
  · unfold Shows
    decide +kernel
  · decide +kernel
  · decide +kernel

/-- The condition fails at the correction. -/
theorem correction_iff :
    (∀ r, validate sampleClosure visibleMap visibleArtifact (sampleDay 3) = .ok r →
        ∀ issue ∈ r.issues, issue.stage ≠ "correction_lineage") ↔
      ∀ r ∈ appendAll [] [firstRecord, secondRecord], r.availableAt ≤ sampleDay 3 → r.target = none :=
  curated_iff sampleClosure [firstRecord, secondRecord] (sampleDay 3) visibleMap (by unfold Shows; decide +kernel)
    visibleArtifact rfl (fun _ => Iff.rfl) (by decide +kernel)

end ReflectionRepository

end SevenLens.Memory
