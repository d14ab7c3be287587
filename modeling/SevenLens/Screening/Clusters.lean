import SevenLens.Library.Correlation
import SevenLens.Library.UnionFind
import SevenLens.MarketData.Bars

/-! # Correlation clusters

The return series that are accepted, the pairs of nodes that are judged by them, and the
components of the edges that remain.  ReturnsMapping are computed with as exact rationals. -/

namespace SevenLens.Screening

open Securities MarketData

/-! ### The calendar -/

/-- `_session_calendar` -/
def sessionCalendar (sessions : List MarketSession) : Except Failure Unit := do
  let dates := sessions.map MarketSession.tradingDate
  require dates.Nodup "sessions must not contain duplicate trading dates"
  require (dates = dates.sortOn TradingDate.days) "sessions must be ordered by trading date"
  require (∀ session ∈ sessions, 5 ≤ weekday session.tradingDate.days → session.dayKind = .closed)
    "NYSE weekends must be explicit CLOSED sessions"
  sessions.forM validateNyseSessionWindow

/-- The latest open sessions before a day, as many as are asked for or all there are. -/
def latestOpenDates (sessions : List MarketSession) (cutoff count : Nat) : List TradingDate :=
  let dates := ((sessions.filter (fun s => decide (s.tradingDate.days < cutoff) && s.isOpen)).map
    MarketSession.tradingDate).sortOn TradingDate.days
  dates.drop (dates.length - count)

/-- `_latest_open_session_dates` -/
def latestOpenSessionDates (sessions : List MarketSession) (cutoff count : Nat) : Except Failure (List TradingDate) := do
  let selected := latestOpenDates sessions cutoff count
  -- a window that is not full is left to the caller
  let start := if selected.length = count then selected.head? else none
  start.forM (fun start => requireCompleteWeekdayWindow sessions start.days cutoff)
  return selected

/-! ### Return series -/

/-- One return of a security, with the record hash and the identity hash of its authority. -/
structure ReturnObservation where
  tradingDate : TradingDate
  value : Decimal
  availableAt : UtcTimestamp
  securityId : Option SecurityId
  sourceRef : Option SourceRef
  sourceRecordHash : Option Hash
  identityHash : Option Hash
  family_ok : ∀ ref ∈ sourceRef, ref.family = .alpacaHistoricalBars
deriving DecidableEq

/-- A mapping of security ids to series of returns. -/
structure ReturnsMapping where
  items : List (String × List ReturnObservation)
  keys_nodup : (items.map Prod.fst).Nodup

/-- An accepted series: its returns in the window, by their dates, and its sources. -/
structure Series where
  observations : List (TradingDate × ℚ)
  sourceRefs : List SourceRef

namespace Series

/-- `session_dates[sid]` -/
def dates (s : Series) : List TradingDate := s.observations.map Prod.fst

/-- `return_series[sid]` -/
def values (s : Series) : List ℚ := s.observations.map Prod.snd

end Series

def clusterSessionWindow : Nat := 126

/-- The returns that are required of a series and of the overlap of two series. -/
def minReturns : Nat := 100

section

variable (sessions : List MarketSession) (asOf : UtcTimestamp)

/-- A series that is not passed over before the window is taken: its returns are bound to the node and to
their sources, there are enough of them, and they are of open sessions before the instant, in order. -/
def Acceptable (node : SecurityId) (series : List ReturnObservation) : Prop :=
  (∀ item ∈ series, item.securityId = some node ∧ item.sourceRef.map SourceRef.family = some .alpacaHistoricalBars) ∧
    (∀ item ∈ series, item.sourceRecordHash = item.sourceRef.map SourceRef.recordHash ∧ item.identityHash ≠ none) ∧
    minReturns ≤ series.length ∧
    (∀ item ∈ series, ∃ session ∈ sessionOn sessions item.tradingDate,
      session.dayKind ≠ .closed ∧ session.regularSession ≠ none) ∧
    (∀ item ∈ series, item.tradingDate.days < asOf.day) ∧
    (∀ item ∈ series, item.availableAt ≤ asOf) ∧
    series.map ReturnObservation.tradingDate = (series.map ReturnObservation.tradingDate).sortOn TradingDate.days ∧
    (series.map ReturnObservation.tradingDate).Nodup

instance (node : SecurityId) (series : List ReturnObservation) : Decidable (Acceptable sessions asOf node series) :=
  inferInstanceAs (Decidable (_ ∧ _ ∧ _ ∧ _ ∧ _ ∧ _ ∧ _ ∧ _))

/-- The returns of a series on the dates of a window. -/
def inWindow (window : List TradingDate) (series : List ReturnObservation) : List ReturnObservation :=
  series.filter (fun item => decide (item.tradingDate ∈ window))

/-- The references of a whole series, also of what lies before the window. -/
def seriesRefs (series : List ReturnObservation) : List SourceRef :=
  SourceRef.sorted (series.filterMap ReturnObservation.sourceRef).dedup

/-- One turn of the loop over the mapping. -/
def acceptSeries (node : SecurityId) (series : List ReturnObservation) : Except Failure (Option Series) := do
  if Acceptable sessions asOf node series then
    -- a window without all of its weekdays ends the build, not only this series
    let window ← latestOpenSessionDates sessions asOf.day clusterSessionWindow
    let items := inWindow window series
    if window.length = clusterSessionWindow ∧ minReturns ≤ items.length then
      return some ⟨items.map (fun item => (item.tradingDate, item.value.value)), seriesRefs series⟩
    else return none
  else return none

/-- An entry of the mapping; one that is of no node is passed over. -/
def acceptItem (nodes : List SecurityId) (item : String × List ReturnObservation) :
    Except Failure (Option (SecurityId × Series)) :=
  match nodes.find? (fun node => decide (node.value = item.1)) with
  | none => .ok none
  | some node => do return (← acceptSeries sessions asOf node item.2).map (fun s => (node, s))

/-- `return_series`, `session_dates` and `source_refs_by_security` after the loop over the mapping. -/
def acceptedSeries (nodes : List SecurityId) (returns : ReturnsMapping) : Except Failure (List (SecurityId × Series)) := do
  return (← returns.items.mapM (acceptItem sessions asOf nodes)).filterMap id

end

/-! ### Pairs -/

/-- A correlation by the parts of its quotient: `cov / (var_i * var_j).sqrt()`. -/
structure Rho where
  cov : ℚ
  product : ℚ
  pos : 0 < product

/-- `_pearson` -/
def pearson (ri rj : List ℚ) : Option Rho :=
  if ri.length ≠ rj.length ∨ ri.length < minReturns then none
  else if h : 0 < Correlation.var ri ∧ 0 < Correlation.var rj then
    some ⟨Correlation.cov ri rj, Correlation.var ri * Correlation.var rj, mul_pos h.1 h.2⟩
  else none

/-- `_pearson_meets_threshold` -/
def pearsonMeetsThreshold (ri rj : List ℚ) (threshold : ℚ) : Bool :=
  if ri.length ≠ rj.length ∨ ri.length < minReturns then false
  else
    let cov := Correlation.cov ri rj
    let varI := Correlation.var ri
    let varJ := Correlation.var rj
    if cov < 0 ∨ varI ≤ 0 ∨ varJ ≤ 0 then false
    else decide (threshold * threshold * varI * varJ ≤ cov * cov)

/-- `Decimal("0.75")` -/
def correlationThreshold : ℚ := 3 / 4

/-- `sorted(set(session_dates[first]) & set(session_dates[second]))` -/
def commonDates (s t : Series) : List TradingDate :=
  (s.dates.filter (fun d => decide (d ∈ t.dates))).sortOn TradingDate.days

/-- `[by_date[d.value] for d in common]` -/
def valuesOn (s : Series) (dates : List TradingDate) : List ℚ := dates.filterMap (fun d => s.observations.lookup d)

inductive PairVerdict where
  | unknown | edge | apart
deriving DecidableEq

/-- What the loop over the pairs makes of two series. -/
def judgePair (s t : Series) : PairVerdict :=
  let common := commonDates s t
  if common.length < minReturns then .unknown
  else
    let ri := valuesOn s common
    let rj := valuesOn t common
    match pearson ri rj with
    | none => .unknown
    | some _ => if pearsonMeetsThreshold ri rj correlationThreshold then .edge else .apart

/-- Every entry of a list with every later one. -/
def pairs {α : Type} : List α → List (α × α)
  | [] => []
  | a :: l => l.map (fun b => (a, b)) ++ pairs l

section

variable (ordered : List SecurityId) (accepted : List (SecurityId × Series))

/-- The nodes whose own series is accepted and not constant, with the series. -/
def completeSeries : List (SecurityId × Series) :=
  ordered.filterMap (fun node =>
    ((accepted.lookup node).filter (fun s => decide (0 < Correlation.var s.values))).map (fun s => (node, s)))

/-- `pair_unknown` -/
def pairUnknown : List SecurityId :=
  ((pairs (completeSeries ordered accepted)).filter (fun p => decide (judgePair p.1.2 p.2.2 = .unknown))).flatMap
    (fun p => [p.1.1, p.2.1])

/-- `edges` as the loop over the pairs leaves it. -/
def pairEdges : List (SecurityId × SecurityId) :=
  ((pairs (completeSeries ordered accepted)).filter (fun p => decide (judgePair p.1.2 p.2.2 = .edge))).map
    (fun p => (p.1.1, p.2.1))

/-- `complete_ids` after the pairs. -/
def completeIds : List SecurityId :=
  ordered.filter (fun node => decide (node ∈ (completeSeries ordered accepted).map Prod.fst) &&
    decide (node ∉ pairUnknown ordered accepted))

/-- The nodes that are reported `UNKNOWN`. -/
def unknownNodes : List SecurityId :=
  ordered.filter (fun node => decide (node ∉ (completeSeries ordered accepted).map Prod.fst) ||
    decide (node ∈ pairUnknown ordered accepted))

/-- `edges` without those at a node that became unknown. -/
def keptEdges : List (SecurityId × SecurityId) :=
  (pairEdges ordered accepted).filter (fun e =>
    decide (e.1 ∉ pairUnknown ordered accepted) && decide (e.2 ∉ pairUnknown ordered accepted))

end

/-! ### Components -/

/-- An order in which a set is passed through. -/
structure SetOrder (α : Type) where
  arrange : List α → List α
  perm : ∀ l, (arrange l).Perm l

section

open UnionFind

/-- One turn of the loop that collects the components. -/
def collectStep (state : Forest SecurityId × List (SecurityId × List SecurityId)) (sid : SecurityId) :
    Forest SecurityId × List (SecurityId × List SecurityId) :=
  let found := state.1.find sid
  (found.1, Dict.push state.2 found.2 sid)

/-- `components.values()` -/
def components (ids : List SecurityId) (edges : List (SecurityId × SecurityId)) : List (List SecurityId) :=
  (ids.foldl collectStep (Forest.discrete.unions edges, [])).2.map Prod.snd

/-- `members[0].value` -/
def firstMember (members : List SecurityId) : String := members.head?.elim "" SecurityId.value

/-- The components, each sorted, by their first members. -/
def orderedComponents (ids : List SecurityId) (edges : List (SecurityId × SecurityId)) : List (List SecurityId) :=
  ((components ids edges).map (List.sortOn SecurityId.value)).sortOn firstMember

end

/-! ### Results -/

inductive ClusterStatus where
  | assigned | unknown
deriving DecidableEq, Repr

def ClusterStatus.value : ClusterStatus → String
  | assigned => "ASSIGNED"
  | unknown => "UNKNOWN"

/-- `_cluster_id_for` -/
def clusterIdFor (auth : Authority) (policyHash : Hash) (asOf : UtcTimestamp) (members : List SecurityId) : Hash :=
  auth.sha256 ("seven-lens.p4c.cluster-id.v1\x00" ++
    (Json.obj [("policy_hash", .str policyHash.text), ("as_of", .str asOf.text),
      ("members", .arr (members.map (fun m => .str m.value)))]).dumps)

/-- The content of a cluster result. -/
structure ClusterBody where
  asOf : UtcTimestamp
  policyHash : Hash
  manifestHash : Hash
  members : List SecurityId
  status : ClusterStatus
  sourceRefs : List SourceRef
deriving DecidableEq

def maxClusterMembers : Nat := 256

def maxClusterSourceRefs : Nat := 1024

def maxClusterResultBytes : Nat := 1048576

namespace ClusterBody

def clusterId (auth : Authority) (b : ClusterBody) : Hash := clusterIdFor auth b.policyHash b.asOf b.members

def wire (auth : Authority) (b : ClusterBody) : Json :=
  .obj [("cluster_id", .str (b.clusterId auth).text),
    ("as_of", .str b.asOf.text),
    ("policy_hash", .str b.policyHash.text),
    ("manifest_hash", .str b.manifestHash.text),
    ("members", .arr (b.members.map (fun m => .str m.value))),
    ("status", .str b.status.value),
    ("source_refs", .arr (b.sourceRefs.map SourceRef.wire))]

/-- What the constructor of a cluster result checks. -/
def postInit (auth : Authority) (b : ClusterBody) : Except Failure Unit := do
  require (b.members.length ≤ maxClusterMembers) "cluster members require at most 256 values"
  require (b.sourceRefs.length ≤ maxClusterSourceRefs) "cluster source_refs require at most 1024 values"
  canonicalRefs b.sourceRefs "source_refs must use unique record identifiers" "source_refs must use canonical order"
  require (∀ ref ∈ b.sourceRefs, ref.family = .alpacaHistoricalBars)
    "cluster source_refs require the historical-bars authority"
  require (b.status = .assigned → b.sourceRefs ≠ [])
    "assigned clusters require typed historical-bars source references"
  require (b.members ≠ []) "cluster results must contain at least one member"
  require (b.status = .unknown → b.members.length = 1) "UNKNOWN cluster results must identify exactly one member"
  require (b.members = b.members.dedup.sortOn SecurityId.value) "cluster members must be sorted and unique"
  require (b.manifestHash = auth.clusterManifestHash) "cluster result requires the approved cluster manifest"
  let _ ← canonicalJson (b.wire auth) maxClusterResultBytes "cluster result"
  return ()

end ClusterBody

/-- A cluster result: its content passes the checks.  The cluster id is computed from the content. -/
structure ClusterResult (auth : Authority) extends ClusterBody where
  valid : toClusterBody.postInit auth = .ok ()

/-- `_finalize_cluster_result` -/
def finalizeClusterResult (auth : Authority) (b : ClusterBody) : Except Failure (ClusterResult auth) :=
  match h : b.postInit auth with
  | .error e => .error e
  | .ok _ => .ok { b with valid := h }

section

variable (auth : Authority) (policyHash : Hash) (asOf : UtcTimestamp) (accepted : List (SecurityId × Series))

/-- `source_refs_by_security.get(member.value, ())` -/
def refsOf (member : SecurityId) : List SourceRef := (accepted.lookup member).elim [] Series.sourceRefs

def assignedBody (members : List SecurityId) : ClusterBody where
  asOf := asOf
  policyHash := policyHash
  manifestHash := auth.clusterManifestHash
  members := members
  status := .assigned
  sourceRefs := SourceRef.sorted (members.flatMap (refsOf accepted)).dedup

def unknownBody (node : SecurityId) : ClusterBody where
  asOf := asOf
  policyHash := policyHash
  manifestHash := auth.clusterManifestHash
  members := [node]
  status := .unknown
  sourceRefs := refsOf accepted node

end

/-- `build_clusters`, with the order in which the set of the edges is passed through.  There is one
manifest, the approved one. -/
def buildClusters (auth : Authority) (order : SetOrder (SecurityId × SecurityId)) (nodes : List SecurityId)
    (returns : ReturnsMapping) (policyHash : Hash) (asOf : UtcTimestamp) (sessions : List MarketSession) :
    Except Failure (List (ClusterResult auth)) := do
  sessionCalendar sessions
  require (∃ session ∈ sessionOn sessions (dateOf asOf), session.dayKind ≠ .closed ∧ session.regularSession ≠ none)
    "cluster as_of requires an explicit open NYSE session"
  require nodes.Nodup "nodes must not repeat a security"
  let ordered := nodes.sortOn SecurityId.value
  let accepted ← acceptedSeries sessions asOf nodes returns
  let edges := order.arrange (keptEdges ordered accepted)
  let assigned ← (orderedComponents (completeIds ordered accepted) edges).mapM
    (fun members => finalizeClusterResult auth (assignedBody auth policyHash asOf accepted members))
  let unknown ← (unknownNodes ordered accepted).mapM
    (fun node => finalizeClusterResult auth (unknownBody auth policyHash asOf accepted node))
  return assigned ++ unknown

end SevenLens.Screening
