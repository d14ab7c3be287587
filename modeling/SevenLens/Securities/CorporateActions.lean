import Mathlib.Data.List.Chain
import SevenLens.Securities.Identity

/-! # Corporate-action lineages

One row of a split event repeats the facts of the event and carries a lifecycle state and a
decision time.  A lineage begins at `detected` and every row `Follows` the row before it: the
facts are equal, the state change is in the closed table and the decision time does not go
back.  `validateLineage_ok` reads that off the checks of the source. -/

namespace SevenLens.Securities

/-! ### Facts of an event -/

/-- A canonical event identifier. -/
@[ext] structure EventId where
  value : String
  ok : recordIdPattern.fullmatch value = true
deriving Repr

instance : DecidableEq EventId := fun _ _ => decidable_of_iff' _ EventId.ext_iff

theorem EventId.value_injective : Function.Injective EventId.value := by
  intro s t h
  cases s; cases t; cases h; rfl

instance : LinearOrder EventId := LinearOrder.lift' EventId.value EventId.value_injective

inductive CorporateActionType where
  | forwardSplit | reverseSplit
deriving DecidableEq, Repr

/-- An exact positive split ratio in lowest terms. -/
structure SplitRatio where
  numerator : Nat
  denominator : Nat
  positive : 0 < numerator ∧ 0 < denominator
  normalized : Nat.gcd numerator denominator = 1
deriving DecidableEq, Repr

inductive CorporateActionState where
  | detected | entryBlocked | confirmed | reviewRequired | effectivePendingReconciliation
deriving DecidableEq, Repr

namespace CorporateActionState

def value : CorporateActionState → String
  | detected => "detected"
  | entryBlocked => "entry_blocked"
  | confirmed => "confirmed"
  | reviewRequired => "review_required"
  | effectivePendingReconciliation => "effective_pending_reconciliation"

/-- `_ALLOWED_TRANSITIONS` -/
def allowed : CorporateActionState → CorporateActionState → Bool
  | detected, entryBlocked => true
  | entryBlocked, confirmed => true
  | detected, reviewRequired => true
  | entryBlocked, reviewRequired => true
  | confirmed, reviewRequired => true
  | confirmed, effectivePendingReconciliation => true
  | _, _ => false

/-- `_PRE_CONFIRMATION_STATES` -/
def isPreConfirmation : CorporateActionState → Bool
  | detected | entryBlocked => true
  | _ => false

/-- `_TERMINAL_STATES` -/
def isTerminal : CorporateActionState → Bool
  | reviewRequired | effectivePendingReconciliation => true
  | _ => false

end CorporateActionState

/-- One append-only row of a split event lineage. -/
@[ext] structure CorporateActionRecord where
  eventId : EventId
  securityId : SecurityId
  securityIdentityHash : Hash
  actionType : CorporateActionType
  ratio : SplitRatio
  declaredAt : UtcTimestamp
  exDate : TradingDate
  effectiveDate : TradingDate
  availableAt : UtcTimestamp
  state : CorporateActionState
  sourceRefs : List SourceRef
  schemaVersion : SchemaVersion
  dates_ok : declaredAt.day ≤ exDate.days ∧ exDate.days ≤ effectiveDate.days
  known_ok : declaredAt ≤ availableAt
  refs_ok : RefsOk sourceRefs

instance : DecidableEq CorporateActionRecord := fun _ _ => decidable_of_iff' _ CorporateActionRecord.ext_iff

namespace CorporateActionRecord

def knownAt (r : CorporateActionRecord) (cutoff : UtcTimestamp) : Bool := r.availableAt ≤ cutoff

/-- Two rows state the same facts of the same event. -/
structure SameEvent (a b : CorporateActionRecord) : Prop where
  eventId : a.eventId = b.eventId
  securityId : a.securityId = b.securityId
  securityIdentityHash : a.securityIdentityHash = b.securityIdentityHash
  actionType : a.actionType = b.actionType
  ratio : a.ratio = b.ratio
  declaredAt : a.declaredAt = b.declaredAt
  exDate : a.exDate = b.exDate
  effectiveDate : a.effectiveDate = b.effectiveDate

/-- A row that may come directly after another one. -/
structure Follows (previous candidate : CorporateActionRecord) : Prop where
  same : previous.SameEvent candidate
  allowed : previous.state.allowed candidate.state = true
  later : previous.availableAt ≤ candidate.availableAt

end CorporateActionRecord

open CorporateActionRecord (Follows SameEvent)

/-! ### The checks -/

/-- `raise IllegalTransitionError` unless the rows agree on a fact. -/
def sameFact {α : Type} [DecidableEq α] (a b : α) (name : String) : Except Failure Unit :=
  requireOr .illegalTransition (a = b) ("transition cannot change immutable event fact: " ++ name)

/-- `validate_transition` -/
def validateTransition (previous candidate : CorporateActionRecord) : Except Failure Unit := do
  requireOr .illegalTransition (previous.eventId = candidate.eventId)
    "transition must stay within one corporate-action event"
  sameFact previous.securityId candidate.securityId "security_id"
  sameFact previous.securityIdentityHash candidate.securityIdentityHash "security_identity_hash"
  sameFact previous.actionType candidate.actionType "action_type"
  sameFact previous.ratio candidate.ratio "ratio"
  sameFact previous.declaredAt candidate.declaredAt "declared_at"
  sameFact previous.exDate candidate.exDate "ex_date"
  sameFact previous.effectiveDate candidate.effectiveDate "effective_date"
  requireOr .illegalTransition (previous.state.allowed candidate.state = true)
    ("illegal corporate-action transition: " ++ previous.state.value ++ " -> " ++ candidate.state.value)
  requireOr .illegalTransition (previous.availableAt ≤ candidate.availableAt)
    "transition decision time cannot precede the previous head"

def maxLineageRecords : Nat := 4096

/-- Every neighbouring pair is a legal transition. -/
def validatePairs : List CorporateActionRecord → Except Failure Unit
  | earlier :: later :: rest => do
    validateTransition earlier later
    validatePairs (later :: rest)
  | _ => .ok ()

/-- `validate_lineage`: the head of a legal lineage. -/
def validateLineage : List CorporateActionRecord → Except Failure CorporateActionRecord
  | [] => refuse "lineage must be a non-empty tuple of at most 4096 CorporateActionRecord values"
  | root :: rest => do
    require ((root :: rest).length ≤ maxLineageRecords)
      "lineage must be a non-empty tuple of at most 4096 CorporateActionRecord values"
    requireOr .illegalTransition (root.state = .detected) "corporate-action lineage must begin at DETECTED"
    validatePairs (root :: rest)
    return (root :: rest).getLast (by simp)

theorem sameFact_ok {α : Type} [DecidableEq α] {a b : α} {name : String} {u : Unit} :
    sameFact a b name = .ok u ↔ a = b := requireOr_ok

theorem validateTransition_ok {previous candidate : CorporateActionRecord} {u : Unit} :
    validateTransition previous candidate = .ok u ↔ Follows previous candidate := by
  simp only [validateTransition, bind_ok, requireOr_ok, sameFact_ok, exists_const]
  constructor
  · rintro ⟨h1, h2, h3, h4, h5, h6, h7, h8, h9, h10⟩
    exact ⟨⟨h1, h2, h3, h4, h5, h6, h7, h8⟩, h9, h10⟩
  · rintro ⟨⟨h1, h2, h3, h4, h5, h6, h7, h8⟩, h9, h10⟩
    exact ⟨h1, h2, h3, h4, h5, h6, h7, h8, h9, h10⟩

theorem validatePairs_ok {rows : List CorporateActionRecord} {u : Unit} :
    validatePairs rows = .ok u ↔ rows.IsChain Follows := by
  induction rows with
  | nil => simp [validatePairs]
  | cons a rows ih =>
    cases rows with
    | nil => simp [validatePairs]
    | cons b rows =>
      rw [validatePairs, bind_ok, List.isChain_cons_cons]
      simp only [validateTransition_ok, ih, exists_const]

/-- A legal lineage: it starts at `detected` and every row follows the one before it. -/
structure Lineage (rows : List CorporateActionRecord) : Prop where
  length_le : rows.length ≤ maxLineageRecords
  detected : ∃ root, rows.head? = some root ∧ root.state = .detected
  chain : rows.IsChain Follows

theorem validateLineage_ok {rows : List CorporateActionRecord} {head : CorporateActionRecord} :
    validateLineage rows = .ok head ↔ Lineage rows ∧ rows.getLast? = some head := by
  cases rows with
  | nil =>
    constructor
    · intro h
      cases h
    · rintro ⟨-, h⟩
      cases h
  | cons root rest =>
    simp only [validateLineage, bind_ok, require_ok, requireOr_ok, validatePairs_ok, exists_const,
      List.getLast?_eq_some_getLast (List.cons_ne_nil root rest), pure, Except.pure, Except.ok.injEq,
      Option.some.injEq]
    constructor
    · rintro ⟨h1, h2, h3, h4⟩
      exact ⟨⟨h1, ⟨root, rfl, h2⟩, h3⟩, h4⟩
    · rintro ⟨⟨h1, ⟨r, hr, h2⟩, h3⟩, h4⟩
      cases hr
      exact ⟨h1, h2, h3, h4⟩

/-! ### Facts along a lineage -/

theorem CorporateActionRecord.SameEvent.refl (a : CorporateActionRecord) : a.SameEvent a :=
  ⟨rfl, rfl, rfl, rfl, rfl, rfl, rfl, rfl⟩

theorem CorporateActionRecord.SameEvent.trans {a b c : CorporateActionRecord} (h : a.SameEvent b) (k : b.SameEvent c) :
    a.SameEvent c :=
  ⟨h.eventId.trans k.eventId, h.securityId.trans k.securityId,
    h.securityIdentityHash.trans k.securityIdentityHash, h.actionType.trans k.actionType,
    h.ratio.trans k.ratio, h.declaredAt.trans k.declaredAt, h.exDate.trans k.exDate,
    h.effectiveDate.trans k.effectiveDate⟩

/-- The rows after the first one state its facts, at decision times that are no earlier. -/
theorem sameEvent_of_isChain {root : CorporateActionRecord} {rest : List CorporateActionRecord}
    (h : (root :: rest).IsChain Follows) :
    ∀ row ∈ root :: rest, root.SameEvent row ∧ root.availableAt ≤ row.availableAt := by
  induction rest generalizing root with
  | nil =>
    intro row hrow
    obtain rfl := List.mem_singleton.mp hrow
    exact ⟨SameEvent.refl row, le_rfl⟩
  | cons b rest ih =>
    obtain ⟨hf, hc⟩ := List.isChain_cons_cons.mp h
    intro row hrow
    rcases List.mem_cons.mp hrow with rfl | hrow
    · exact ⟨SameEvent.refl row, le_rfl⟩
    · obtain ⟨hs, hle⟩ := ih hc row hrow
      exact ⟨hf.same.trans hs, hf.later.trans hle⟩

/-- How far a state is along the machine. -/
def CorporateActionState.depth : CorporateActionState → Nat
  | detected => 0
  | entryBlocked => 1
  | confirmed => 2
  | reviewRequired => 3
  | effectivePendingReconciliation => 3

theorem CorporateActionState.depth_lt {a b : CorporateActionState} (h : a.allowed b = true) : a.depth < b.depth := by
  cases a <;> cases b <;> simp_all [allowed, depth]

/-- Every transition goes deeper, so there are few rows. -/
theorem length_le_of_isChain {root : CorporateActionRecord} {rest : List CorporateActionRecord}
    (h : (root :: rest).IsChain Follows) : root.state.depth + rest.length ≤ 3 := by
  induction rest generalizing root with
  | nil => cases root.state <;> simp [CorporateActionState.depth]
  | cons b rest ih =>
    obtain ⟨hf, hc⟩ := List.isChain_cons_cons.mp h
    have hd := CorporateActionState.depth_lt hf.allowed
    have hb := ih hc
    rw [List.length_cons]
    omega

/-- A chain of rows from `detected` on is a lineage. -/
theorem lineage_of_isChain {root : CorporateActionRecord} {rest : List CorporateActionRecord}
    (hd : root.state = .detected) (h : (root :: rest).IsChain Follows) : Lineage (root :: rest) := by
  refine ⟨?_, ⟨root, rfl, hd⟩, h⟩
  have hlen := length_le_of_isChain h
  rw [List.length_cons, maxLineageRecords]
  omega

/-- The rows known at an instant are a beginning of the lineage. -/
theorem filter_knownAt_eq_takeWhile {rows : List CorporateActionRecord} (h : rows.IsChain Follows)
    (cutoff : UtcTimestamp) : rows.filter (·.knownAt cutoff) = rows.takeWhile (·.knownAt cutoff) := by
  induction rows with
  | nil => rfl
  | cons a rows ih =>
    by_cases ha : a.knownAt cutoff = true
    · rw [List.filter_cons, if_pos ha, List.takeWhile_cons, ha, ih h.tail]
      rfl
    · rw [List.filter_cons, if_neg ha, List.takeWhile_cons_of_neg (by simpa using ha), List.filter_eq_nil_iff]
      intro row hrow hk
      have hle := (sameEvent_of_isChain h row (List.mem_cons_of_mem a hrow)).2
      simp only [CorporateActionRecord.knownAt, decide_eq_true_eq] at ha hk
      exact ha (hle.trans hk)

/-- The rows of a lineage that are known at an instant are a lineage, if there are any. -/
theorem Lineage.filter_knownAt {rows : List CorporateActionRecord} (h : Lineage rows) {cutoff : UtcTimestamp}
    (hne : rows.filter (·.knownAt cutoff) ≠ []) : Lineage (rows.filter (·.knownAt cutoff)) := by
  obtain ⟨root, hroot, hd⟩ := h.detected
  have hpre : rows.filter (·.knownAt cutoff) <+: rows := by
    rw [filter_knownAt_eq_takeWhile h.chain]
    exact List.takeWhile_prefix _
  refine ⟨hpre.length_le.trans h.length_le, ⟨root, ?_, hd⟩, h.chain.infix hpre.isInfix⟩
  obtain ⟨t, ht⟩ := hpre
  rw [← hroot]
  conv_rhs => rw [← ht, List.head?_append_of_ne_nil _ hne]

/-! ### New rows -/

/-- `_event_with_state`: the event in another state, with the checks of the new fields. -/
def eventWithState (event : CorporateActionRecord) (state : CorporateActionState) (availableAt : UtcTimestamp)
    (sourceRefs : List SourceRef) : Except Failure CorporateActionRecord :=
  if h1 : event.declaredAt ≤ availableAt then
    if h2 : sourceRefs ≠ [] ∧ sourceRefs.length ≤ maxSourceRefs then
      if h3 : (sourceRefs.map SourceRef.recordId).Nodup then
        .ok { event with state, availableAt, sourceRefs, known_ok := h1, refs_ok := ⟨h2.1, h2.2, h3⟩ }
      else refuse "source_refs must carry unique record identifiers"
    else refuse "source_refs must be a non-empty tuple of at most 16 SourceRef values"
  else refuse "available_at cannot precede the declaration time"

theorem eventWithState_ok {event row : CorporateActionRecord} {state : CorporateActionState}
    {availableAt : UtcTimestamp} {refs : List SourceRef} (h : eventWithState event state availableAt refs = .ok row) :
    event.SameEvent row ∧ row.state = state ∧ row.availableAt = availableAt ∧ row.sourceRefs = refs := by
  unfold eventWithState refuse throwing at h
  split_ifs at h
  cases h
  exact ⟨⟨rfl, rfl, rfl, rfl, rfl, rfl, rfl, rfl⟩, rfl, rfl, rfl⟩

end SevenLens.Securities
