import SevenLens.Memory.Chain

/-! # Memory as of an instant

`selectForAsOf` walks the history backwards to the last artifact that was promoted by an instant and
is still valid in the context it was validated in.  Promoted artifacts and their contexts stay as
they are, and later promotions are not seen, so the selection does not change once the clock has
passed the instant. -/

namespace SevenLens.Memory

open Securities

variable {R : Rules} {K : ClosureRules} {now asOf : UtcTimestamp} {s t : Repository R}

/-! ### The selection -/

structure MemoryAlert where
  code : String
  requestedAsOf : UtcTimestamp
deriving DecidableEq

structure MemorySelection (R : Rules) where
  artifact : Option (MemoryArtifact R)
  alert : Option MemoryAlert

/-- The answer of the content store under a hash. -/
inductive Content where
  | bytes (content : ByteArray)
  | missing
  | failed

/-- An artifact is cut off and created by an instant. -/
def MemoryArtifact.By (asOf : UtcTimestamp) (a : MemoryArtifact R) : Prop := a.cutoffAt ≤ asOf ∧ a.createdAt ≤ asOf

instance (a : MemoryArtifact R) : Decidable (a.By asOf) := inferInstanceAs (Decidable (_ ∧ _))

namespace Repository

/-- An event with its artifact. -/
def read (s : Repository R) (e : PromotionEvent) : Except Failure (PromotionEvent × MemoryArtifact R) :=
  match s.artifacts e.artifactId with
  | none => .error (.keyError e.artifactId)
  | some a => .ok (e, a)

/-- `safe_history` -/
def safeHistory (asOf : UtcTimestamp) (s : Repository R) : Except Failure (List (MemoryArtifact R)) := do
  let promoted ← s.history.reverse.mapM s.read
  return (promoted.filter (fun p => p.2.By asOf ∧ p.1.promotedAt ≤ asOf)).map Prod.snd

end Repository

/-- The loop of `select_for_as_of`. -/
def selectFrom (K : ClosureRules) (content : Hash → Content) (asOf : UtcTimestamp) (s : Repository R) :
    List (MemoryArtifact R) → Except Failure (MemorySelection R)
  | [] => .ok ⟨none, some ⟨"NO_SAFE_MEMORY", asOf⟩⟩
  | a :: rest =>
    match s.contexts a.artifactId with
    | none => selectFrom K content asOf s rest
    | some context =>
      match content a.contentHash with
      | .missing => selectFrom K content asOf s rest
      | .failed => throwing .runtimeError "memory selection content store failure"
      | .bytes bytes =>
        match validate K context.sourceRecords { a with state := .candidate } context.requestedCutoff with
        | .error _ => throwing .runtimeError "memory selection validation failed"
        | .ok revalidated =>
          if bytes ≠ a.canonicalContentBytes ∨ R.sha256 bytes ≠ a.contentHash then
            throwing .runtimeError "memory selection content integrity failed"
          else if revalidated.valid then .ok ⟨some a, none⟩
          else selectFrom K content asOf s rest

/-- `select_for_as_of` -/
def selectForAsOf (K : ClosureRules) (content : Hash → Content) (asOf : UtcTimestamp) (s : Repository R) :
    Except Failure (MemorySelection R) := do
  let artifacts ← s.safeHistory asOf
  selectFrom K content asOf s artifacts

/-! ### The operations -/

/-- A call on the repository. -/
inductive Operation (R : Rules) where
  | registerCandidate (a : MemoryArtifact R)
  | saveValidation (r : ValidationResult R) (context : Option ValidationContext)
  | markValidated (r : ValidationResult R) (context : Option ValidationContext)
  | markInvalid (r : ValidationResult R)
  | promote (id : String) (contentHash : Hash)

def Operation.apply (now : UtcTimestamp) : Operation R → Repository R → Except Failure (Repository R)
  | .registerCandidate a, s => s.registerCandidate a
  | .saveValidation r context, s => s.saveValidation r context
  | .markValidated r context, s => s.markValidated r context
  | .markInvalid r, s => s.markInvalid r
  | .promote id contentHash, s => s.promote id contentHash now

/-- The repository after operations, each at its time.  One that fails changes nothing. -/
def Repository.after (s : Repository R) (operations : List (UtcTimestamp × Operation R)) : Repository R :=
  operations.foldl (fun s p => ((p.2.apply p.1 s).toOption).getD s) s

/-- Every operation has one of the effects, on some body. -/
theorem Operation.exists_effect {o : Operation R} (h : o.apply now s = .ok t) : ∃ b, Effect b now s t := by
  cases o with
  | registerCandidate a => exact ⟨_, Repository.registerCandidate_effect h⟩
  | saveValidation r context => exact ⟨_, Repository.saveValidation_effect h⟩
  | markValidated r context => exact ⟨_, Repository.markValidated_effect h⟩
  | markInvalid r => exact ⟨_, Repository.markInvalid_effect h⟩
  | promote id contentHash =>
    obtain ⟨a, -⟩ := Repository.promote_cases h
    exact ⟨{ a.toArtifactBody with artifactId := id },
      @Repository.promote_effect _ _ _ { a.toArtifactBody with artifactId := id } contentHash now h⟩

/-- The rule for operations: what the effects at their times keep, they keep. -/
theorem Repository.after_keeps {keep : Repository R → Prop} {operations : List (UtcTimestamp × Operation R)}
    (hkeep : ∀ p ∈ operations, ∀ b s t, Effect b p.1 s t → keep s → keep t) (hs : keep s) : keep (s.after operations) := by
  induction operations generalizing s with
  | nil => exact hs
  | cons p operations ih =>
    obtain ⟨hp, hoperations⟩ := List.forall_mem_cons.mp hkeep
    change keep (Repository.after ((p.2.apply p.1 s).toOption.getD s) operations)
    cases happly : p.2.apply p.1 s with
    | error e => exact ih hoperations hs
    | ok t =>
      obtain ⟨b, heffect⟩ := Operation.exists_effect happly
      exact ih hoperations (hp b s t heffect hs)

/-! ### What the selection reads -/

/-- The history is a chain, and the artifacts are stored under their identifiers. -/
structure Repository.Sound (s : Repository R) : Prop where
  chained : s.Chained
  keyed : ∀ id a, s.artifacts id = some a → a.artifactId = id

theorem Effect.sound {b : ArtifactBody R} (h : Effect b now s t) (hs : s.Sound) : t.Sound := by
  refine ⟨h.chained hs.chained, ?_⟩
  have hupdate : ∀ a : MemoryArtifact R, a.artifactId = b.artifactId → ∀ id a',
      Function.update s.artifacts b.artifactId (some a) id = some a' → a'.artifactId = id := by
    intro a ha id a' hget
    by_cases hid : id = b.artifactId
    · rw [hid, Function.update_self] at hget
      cases hget
      rw [hid, ha]
    · rw [Function.update_of_ne hid] at hget
      exact hs.keyed id a' hget
  cases h with
  | same => exact hs.keyed
  | registered a hbody => exact hupdate a (by rw [hbody])
  | judged existing a context reason hbody => exact hupdate a (by rw [hbody])
  | promoted a hget => exact hupdate { a with state := .current } (hs.keyed _ a hget)

namespace Repository

/-- The artifact of an event, if it is seen at an instant. -/
def seen (asOf : UtcTimestamp) (s : Repository R) (e : PromotionEvent) : Option (MemoryArtifact R) :=
  if e.promotedAt ≤ asOf then (s.artifacts e.artifactId).filter (fun a => a.By asOf) else none

/-- In a chain the history is read without a failure. -/
theorem safeHistory_eq (hs : s.Chained) : s.safeHistory asOf = .ok (s.history.reverse.filterMap (s.seen asOf)) := by
  have hread : ∀ events : List PromotionEvent, (∀ e ∈ events, e ∈ s.history) →
      ∃ l, events.mapM s.read = .ok l ∧
        (l.filter (fun p => p.2.By asOf ∧ p.1.promotedAt ≤ asOf)).map Prod.snd = events.filterMap (s.seen asOf) := by
    intro events
    induction events with
    | nil => exact fun _ => ⟨[], rfl, rfl⟩
    | cons e events ih =>
      intro hevents
      obtain ⟨he, hevents⟩ := List.forall_mem_cons.mp hevents
      obtain ⟨a, hget, -⟩ := hs.promoted e he
      obtain ⟨l, hl, hfilter⟩ := ih hevents
      have hfirst : s.read e = .ok (e, a) := by rw [read, hget]
      refine ⟨(e, a) :: l, ?_, ?_⟩
      · rw [List.mapM_cons, hfirst, hl]
        rfl
      · by_cases hseen : a.By asOf ∧ e.promotedAt ≤ asOf
        · have hsome : s.seen asOf e = some a := by simp [seen, hget, hseen, Option.filter_some]
          rw [List.filter_cons_of_pos (by simpa using hseen), List.map_cons, List.filterMap_cons_some hsome, hfilter]
        · have hnone : s.seen asOf e = none := by
            simp only [seen, hget, Option.filter_some]
            split_ifs with htime hby
            · exact absurd ⟨of_decide_eq_true hby, htime⟩ hseen
            · rfl
            · rfl
          rw [List.filter_cons_of_neg (by simpa using hseen), List.filterMap_cons_none hnone, hfilter]
  obtain ⟨l, hl, hfilter⟩ := hread s.history.reverse (fun e he => List.mem_reverse.mp he)
  rw [safeHistory, hl, ← hfilter]
  rfl

theorem seen_some {e : PromotionEvent} {a : MemoryArtifact R} (h : s.seen asOf e = some a) :
    s.artifacts e.artifactId = some a ∧ a.By asOf ∧ e.promotedAt ≤ asOf := by
  unfold seen at h
  split_ifs at h with htime
  obtain ⟨hget, hby⟩ := Option.filter_eq_some_iff.mp h
  exact ⟨hget, of_decide_eq_true hby, htime⟩

/-- What the selection reads of a repository is the same in another, whose history is longer by
events that are not seen. -/
structure SameAt (asOf : UtcTimestamp) (s t : Repository R) : Prop where
  sound : t.Sound
  later : ∃ rest, t.history = s.history ++ rest ∧ ∀ e ∈ rest, asOf < e.promotedAt
  same : ∀ e ∈ s.history, t.artifacts e.artifactId = s.artifacts e.artifactId ∧
    t.contexts e.artifactId = s.contexts e.artifactId

end Repository

theorem Effect.sameAt {b : ArtifactBody R} {u : Repository R} (h : Effect b now t u) (hnow : asOf < now)
    (hs : s.SameAt asOf t) : s.SameAt asOf u := by
  obtain ⟨rest, hrest, hlater⟩ := hs.later
  refine ⟨h.sound hs.sound, ?_, ?_⟩
  · obtain ⟨-, hhistory⟩ | ⟨-, hhistory⟩ := h.history
    · exact ⟨rest, hhistory.trans hrest, hlater⟩
    · refine ⟨rest ++ [⟨b.artifactId, now⟩], by rw [hhistory, hrest, List.append_assoc], ?_⟩
      intro e he
      rcases List.mem_append.mp he with he | he
      · exact hlater e he
      · rw [List.mem_singleton.mp he]
        exact hnow
  · intro e he
    obtain ⟨hartifact, hcontext⟩ := hs.same e he
    obtain ⟨a, hget, hstate⟩ := hs.sound.chained.promoted e (by rw [hrest]; exact List.mem_append_left _ he)
    have hfinal := h.final hget (by rw [hstate]; exact ArtifactState.not_live_current)
    exact ⟨by rw [hfinal.1, ← hget, hartifact], hfinal.2.trans hcontext⟩

/-- The events that are seen are the same. -/
theorem Repository.SameAt.safeHistory_eq (h : s.SameAt asOf t) (hs : s.Sound) :
    t.safeHistory asOf = s.safeHistory asOf := by
  obtain ⟨rest, hrest, hlater⟩ := h.later
  have hnone : rest.reverse.filterMap (t.seen asOf) = [] := by
    rw [List.filterMap_eq_nil_iff]
    intro e he
    rw [Repository.seen, if_neg (not_le_of_gt (hlater e (List.mem_reverse.mp he)))]
  have hsame : s.history.reverse.filterMap (t.seen asOf) = s.history.reverse.filterMap (s.seen asOf) := by
    refine List.filterMap_congr fun e he => ?_
    rw [Repository.seen, Repository.seen, (h.same e (List.mem_reverse.mp he)).1]
  rw [Repository.safeHistory_eq h.sound.chained, Repository.safeHistory_eq hs.chained, hrest, List.reverse_append,
    List.filterMap_append, hnone, hsame, List.nil_append]

/-- The loop reads the contexts and the contents of the artifacts only. -/
theorem selectFrom_congr {content content' : Hash → Content} {l : List (MemoryArtifact R)}
    (h : ∀ a ∈ l, t.contexts a.artifactId = s.contexts a.artifactId ∧ content' a.contentHash = content a.contentHash) :
    selectFrom K content' asOf t l = selectFrom K content asOf s l := by
  induction l with
  | nil => rfl
  | cons a rest ih =>
    obtain ⟨⟨hcontext, hcontent⟩, hrest⟩ := List.forall_mem_cons.mp h
    rw [selectFrom, selectFrom, hcontext, hcontent, ih hrest]

/-- The loop selects one of the artifacts. -/
theorem mem_of_selectFrom {content : Hash → Content} {l : List (MemoryArtifact R)} {selection : MemorySelection R}
    {a : MemoryArtifact R} (h : selectFrom K content asOf s l = .ok selection) (ha : selection.artifact = some a) : a ∈ l := by
  induction l with
  | nil =>
    cases h
    cases ha
  | cons first rest ih =>
    have hrest : selectFrom K content asOf s rest = .ok selection → a ∈ first :: rest :=
      fun h => List.mem_cons_of_mem _ (ih h)
    rw [selectFrom] at h
    split at h
    · exact hrest h
    · split at h
      · exact hrest h
      · cases h
      · split at h
        · cases h
        · split_ifs at h
          · cases h
          · cases h
            cases ha
            exact List.mem_cons_self
          · exact hrest h

theorem mem_safeHistory {l : List (MemoryArtifact R)} {a : MemoryArtifact R} (hs : s.Chained)
    (h : s.safeHistory asOf = .ok l) (ha : a ∈ l) :
    ∃ e ∈ s.history, s.artifacts e.artifactId = some a ∧ a.By asOf ∧ e.promotedAt ≤ asOf := by
  rw [Repository.safeHistory_eq hs] at h
  cases h
  obtain ⟨e, he, hseen⟩ := List.mem_filterMap.mp ha
  exact ⟨e, List.mem_reverse.mp he, Repository.seen_some hseen⟩

/-- The selection as of an instant is that of an artifact that was cut off, created and promoted by
then.  Operations at later times do not change it, as long as the contents of the promoted artifacts
stay. -/
theorem selection_stable (K : ClosureRules) (asOf : UtcTimestamp) (earlier later : List (UtcTimestamp × Operation R))
    (hlater : ∀ p ∈ later, asOf < p.1) (content content' : Hash → Content)
    (hcontent : ∀ e ∈ (Repository.empty.after earlier).history, ∀ a,
      (Repository.empty.after earlier).artifacts e.artifactId = some a → content' a.contentHash = content a.contentHash) :
    selectForAsOf K content' asOf ((Repository.empty.after earlier).after later) =
        selectForAsOf K content asOf (Repository.empty.after earlier) ∧
      ∀ selection a, selectForAsOf K content asOf (Repository.empty.after earlier) = .ok selection →
        selection.artifact = some a →
          a.cutoffAt ≤ asOf ∧ a.createdAt ≤ asOf ∧
            ∀ e ∈ (Repository.empty.after earlier).history, e.artifactId = a.artifactId → e.promotedAt ≤ asOf := by
  have hsound : (Repository.empty.after earlier : Repository R).Sound :=
    Repository.after_keeps (fun _ _ _ _ _ heffect hs => heffect.sound hs) ⟨Repository.chained_empty, nofun⟩
  have hmem : ∀ l, (Repository.empty.after earlier).safeHistory asOf = .ok l → ∀ a ∈ l,
      ∃ e ∈ (Repository.empty.after earlier).history, (Repository.empty.after earlier).artifacts e.artifactId = some a ∧
        a.artifactId = e.artifactId ∧ a.By asOf ∧ e.promotedAt ≤ asOf := by
    intro l hl a ha
    obtain ⟨e, he, hget, hby, htime⟩ := mem_safeHistory hsound.chained hl ha
    exact ⟨e, he, hget, hsound.keyed _ a hget, hby, htime⟩
  constructor
  · have hsame : (Repository.empty.after earlier).SameAt asOf ((Repository.empty.after earlier).after later) :=
      Repository.after_keeps (fun p hp _ _ _ heffect hs => heffect.sameAt (hlater p hp) hs)
        ⟨hsound, ⟨[], by simp, nofun⟩, fun _ _ => ⟨rfl, rfl⟩⟩
    rw [selectForAsOf, selectForAsOf, hsame.safeHistory_eq hsound]
    refine Stages.bind_congr fun l hl => selectFrom_congr fun a ha => ?_
    obtain ⟨e, he, hget, hid, -⟩ := hmem l hl a ha
    exact ⟨by rw [hid]; exact (hsame.same e he).2, hcontent e he a hget⟩
  · intro selection a hselection ha
    obtain ⟨l, hl, hselection⟩ := bind_ok.mp hselection
    obtain ⟨e, he, hget, hid, hby, htime⟩ := hmem l hl a (mem_of_selectFrom hselection ha)
    refine ⟨hby.1, hby.2, fun f hf hfid => ?_⟩
    have hef : f = e := List.inj_on_of_nodup_map hsound.chained.distinct hf he (hfid.trans hid)
    rw [hef]
    exact htime

section Sample

/-- The operations of a call that goes through at one time. -/
def sampleOperations (c : Call sizedRules) (now : UtcTimestamp) : List (UtcTimestamp × Operation sizedRules) :=
  [(now, .registerCandidate c.artifact),
    (now, .markValidated ⟨{ c.artifact with state := .validated }, []⟩ (some ⟨c.sourceRecords, c.requestedCutoff⟩)),
    (now, .promote c.id c.artifact.contentHash)]

/-- The contents of the first artifact. -/
def sampleContent (hash : Hash) : Content :=
  if hash = firstBody.contentHash then .bytes firstBody.canonicalContentBytes else .missing

end Sample

/-- The second artifact is promoted after the instant, which does not change the selection. -/
theorem first_selection_stable :
    ((Repository.empty.after (sampleOperations firstCall (sampleDay 5))).after
        (sampleOperations secondCall (sampleDay 8))).currentId = some "memory-2" ∧
      selectForAsOf sampleClosure sampleContent (sampleDay 6)
          ((Repository.empty.after (sampleOperations firstCall (sampleDay 5))).after
            (sampleOperations secondCall (sampleDay 8))) =
        selectForAsOf sampleClosure sampleContent (sampleDay 6)
          (Repository.empty.after (sampleOperations firstCall (sampleDay 5))) :=
  ⟨by decide +kernel,
    (selection_stable sampleClosure (sampleDay 6) (sampleOperations firstCall (sampleDay 5))
      (sampleOperations secondCall (sampleDay 8)) (by decide +kernel) sampleContent sampleContent (fun _ _ _ _ => rfl)).1⟩

end SevenLens.Memory
