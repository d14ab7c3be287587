import SevenLens.Analysis.Texts
import SevenLens.Screening.Correlated

/-! # Clusters are connected components

What `buildClusters` returns, against the raw returns: the results partition the nodes, the
unknown nodes stand alone, and two known nodes share a result exactly if correlated pairs of
known nodes connect them.  No order matters, neither that of the nodes or of the mapping nor
the one in which the edges are united (`clusters_are_components`). -/

namespace SevenLens.Screening

open Securities MarketData

/-! ### Collecting the components -/

section

open UnionFind

theorem collectStep_run {g f : Forest SecurityId} {l : List SecurityId} {d : List (SecurityId × List SecurityId)}
    (hf : f.root = g.root) (hd : Dict.Collects g.root l d) (ids : List SecurityId) :
    Dict.Collects g.root (l ++ ids) (ids.foldl collectStep (f, d)).2 := by
  induction ids generalizing f l d with
  | nil => simpa using hd
  | cons a ids ih =>
    have hstep : Dict.Collects g.root (l ++ [a]) (collectStep (f, d) a).2 := by
      rw [collectStep, Forest.find_snd, hf]
      exact hd.push a
    have hroot : (collectStep (f, d) a).1.root = g.root := by
      rw [collectStep, Forest.root_find, hf]
    simpa using ih hroot hstep

/-- The members of the component of a node, among the nodes. -/
def componentOf (ids : List SecurityId) (edges : List (SecurityId × SecurityId)) (a : SecurityId) : List SecurityId :=
  ids.filter (fun b => decide ((Forest.discrete.unions edges).root b = (Forest.discrete.unions edges).root a))

variable {ids : List SecurityId} {edges edges' : List (SecurityId × SecurityId)} {a b : SecurityId}
  {m : List SecurityId}

theorem mem_componentOf : b ∈ componentOf ids edges a ↔
    b ∈ ids ∧ (Forest.discrete.unions edges).root b = (Forest.discrete.unions edges).root a := by
  simp [componentOf]

theorem componentOf_eq_iff (ha : a ∈ ids) : componentOf ids edges a = componentOf ids edges b ↔
    (Forest.discrete.unions edges).root a = (Forest.discrete.unions edges).root b := by
  constructor
  · intro h
    have hmem : a ∈ componentOf ids edges b := h ▸ mem_componentOf.mpr ⟨ha, rfl⟩
    exact (mem_componentOf.mp hmem).2
  · intro h
    rw [componentOf, componentOf, h]

theorem collects_components (ids : List SecurityId) (edges : List (SecurityId × SecurityId)) :
    Dict.Collects (Forest.discrete.unions edges).root ids
      (ids.foldl collectStep (Forest.discrete.unions edges, [])).2 := by
  simpa using collectStep_run rfl (Dict.Collects.nil _) ids

variable (hids : ids.Pairwise (fun a b => a.value < b.value))
include hids

theorem sortOn_componentOf (a : SecurityId) :
    (componentOf ids edges a).sortOn SecurityId.value = componentOf ids edges a :=
  List.sortOn_of_pairwise ((hids.filter _).imp le_of_lt)

/-- The first member of a component is its smallest one. -/
theorem exists_firstMember (edges : List (SecurityId × SecurityId)) (ha : a ∈ ids) : ∃ c ∈ componentOf ids edges a,
    firstMember (componentOf ids edges a) = c.value ∧ ∀ b ∈ componentOf ids edges a, c.value ≤ b.value := by
  have hmem : a ∈ componentOf ids edges a := mem_componentOf.mpr ⟨ha, rfl⟩
  have hsorted : (componentOf ids edges a).Pairwise (fun a b => a.value < b.value) := hids.filter _
  cases hm : componentOf ids edges a with
  | nil =>
    rw [hm] at hmem
    cases hmem
  | cons c l =>
    rw [hm] at hsorted
    refine ⟨c, List.mem_cons_self, rfl, fun b hb => ?_⟩
    rcases List.mem_cons.mp hb with rfl | hb
    · exact le_rfl
    · exact ((List.pairwise_cons.mp hsorted).1 b hb).le

theorem mem_orderedComponents : m ∈ orderedComponents ids edges ↔ ∃ a ∈ ids, m = componentOf ids edges a := by
  rw [orderedComponents, List.mem_sortOn, List.mem_map]
  constructor
  · rintro ⟨g, hg, rfl⟩
    obtain ⟨a, ha, rfl⟩ := (collects_components ids edges).mem_values.mp hg
    exact ⟨a, ha, sortOn_componentOf hids a⟩
  · rintro ⟨a, ha, rfl⟩
    exact ⟨componentOf ids edges a, (collects_components ids edges).mem_values.mpr ⟨a, ha, rfl⟩,
      sortOn_componentOf hids a⟩

/-- Every component is collected once, and they are in the order of their first members. -/
theorem orderedComponents_pairwise :
    (orderedComponents ids edges).Pairwise (fun m n => firstMember m < firstMember n) := by
  have hcollects := collects_components ids edges
  refine List.pairwise_lt_sortOn ?_
  rw [List.map_map]
  refine (List.nodup_map_iff_inj_on hcollects.nodup_values).mpr ?_
  intro g hg g' hg' hfirst
  obtain ⟨a, ha, rfl⟩ := hcollects.mem_values.mp hg
  obtain ⟨b, hb, rfl⟩ := hcollects.mem_values.mp hg'
  change firstMember ((componentOf ids edges a).sortOn SecurityId.value) =
    firstMember ((componentOf ids edges b).sortOn SecurityId.value) at hfirst
  change componentOf ids edges a = componentOf ids edges b
  rw [sortOn_componentOf hids, sortOn_componentOf hids] at hfirst
  obtain ⟨c, hc, hca, -⟩ := exists_firstMember hids edges ha
  obtain ⟨d, hd, hdb, -⟩ := exists_firstMember hids edges hb
  obtain rfl : c = d := SecurityId.value_injective (hca.symm.trans (hfirst.trans hdb))
  rw [componentOf_eq_iff ha, ← (mem_componentOf.mp hc).2, (mem_componentOf.mp hd).2]

theorem orderedComponents_flatten : (orderedComponents ids edges).flatten.Perm ids := by
  have hnodup : ids.Nodup := hids.imp fun h e => absurd (congrArg SecurityId.value e) h.ne
  have hflat : (orderedComponents ids edges).flatten.Nodup := by
    rw [List.nodup_flatten]
    refine ⟨fun m hm => ?_, ?_⟩
    · obtain ⟨a, -, rfl⟩ := (mem_orderedComponents hids).mp hm
      exact hnodup.filter _
    · refine (orderedComponents_pairwise hids).imp_of_mem fun {m n} hm hn hlt => ?_
      obtain ⟨a, ha, rfl⟩ := (mem_orderedComponents hids).mp hm
      obtain ⟨b, hb, rfl⟩ := (mem_orderedComponents hids).mp hn
      intro c hca hcb
      have hab : componentOf ids edges a = componentOf ids edges b := by
        rw [componentOf_eq_iff ha, ← (mem_componentOf.mp hca).2, (mem_componentOf.mp hcb).2]
      exact absurd hlt (hab ▸ lt_irrefl _)
  refine (List.perm_ext_iff_of_nodup hflat hnodup).mpr fun a => ?_
  rw [List.mem_flatten]
  constructor
  · rintro ⟨m, hm, ha⟩
    obtain ⟨b, -, rfl⟩ := (mem_orderedComponents hids).mp hm
    exact (mem_componentOf.mp ha).1
  · intro ha
    exact ⟨_, (mem_orderedComponents hids).mpr ⟨a, ha, rfl⟩, mem_componentOf.mpr ⟨ha, rfl⟩⟩

/-- The order of the edges does not matter. -/
theorem orderedComponents_congr (h : ∀ a b,
    ((Forest.discrete.unions edges).root a = (Forest.discrete.unions edges).root b ↔
      (Forest.discrete.unions edges').root a = (Forest.discrete.unions edges').root b)) :
    orderedComponents ids edges = orderedComponents ids edges' := by
  have hcomponent : ∀ a, componentOf ids edges a = componentOf ids edges' a :=
    fun a => List.filter_congr fun b _ => decide_eq_decide.mpr (h b a)
  refine List.eq_of_pairwise_lt (orderedComponents_pairwise hids) (orderedComponents_pairwise hids) fun m => ?_
  rw [mem_orderedComponents hids, mem_orderedComponents hids]
  simp only [hcomponent]

end

/-! ### The results -/

section

variable {auth : Authority} {order order' : SetOrder (SecurityId × SecurityId)} {nodes nodes' : List SecurityId}
  {returns returns' : ReturnsMapping} {policyHash : Hash} {asOf : UtcTimestamp} {sessions : List MarketSession}
  {accepted : List (SecurityId × Series)} {results : List (ClusterResult auth)} {a b : SecurityId}

/-- A node is reported `UNKNOWN`. -/
def Unknown (results : List (ClusterResult auth)) (a : SecurityId) : Prop :=
  ∃ r ∈ results, r.status = .unknown ∧ a ∈ r.members

/-- The smallest member of the one result comes before that of the other. -/
def Before (r s : ClusterResult auth) : Prop := ∃ a ∈ r.members, ∀ b ∈ s.members, a.value < b.value

/-- The graph of the correlated pairs of nodes that are not unknown. -/
def clusterGraph (nodes : List SecurityId) (returns : ReturnsMapping) (asOf : UtcTimestamp)
    (sessions : List MarketSession) (results : List (ClusterResult auth)) : SimpleGraph SecurityId :=
  SimpleGraph.fromRel (fun a b => (a ∈ nodes ∧ ¬ Unknown results a) ∧ (b ∈ nodes ∧ ¬ Unknown results b) ∧
    Correlated sessions asOf returns a b)

/-- The results are the components of the graph and the unknown nodes. -/
structure ConnectedComponents (nodes : List SecurityId) (returns : ReturnsMapping) (asOf : UtcTimestamp)
    (sessions : List MarketSession) (results : List (ClusterResult auth)) : Prop where
  partition : (results.flatMap (fun r => r.members)).Perm nodes
  singletons : ∀ r ∈ results, r.status = .unknown → ∃ a, r.members = [a]
  connected : ∀ a ∈ nodes, ∀ b ∈ nodes, ¬ Unknown results a → ¬ Unknown results b →
    ((∃ r ∈ results, r.status = .assigned ∧ a ∈ r.members ∧ b ∈ r.members) ↔
      (clusterGraph nodes returns asOf sessions results).Reachable a b)
  ordered : ∃ assigned unknown, results = assigned ++ unknown ∧ (∀ r ∈ assigned, r.status = .assigned) ∧
    (∀ r ∈ unknown, r.status = .unknown) ∧ assigned.Pairwise Before ∧ unknown.Pairwise Before

theorem finalizeClusterResult_ok {body : ClusterBody} {r : ClusterResult auth}
    (h : finalizeClusterResult auth body = .ok r) : r.toClusterBody = body := by
  unfold finalizeClusterResult at h
  split at h
  · cases h
  · cases h
    rfl

theorem map_toClusterBody {α : Type} {body : α → ClusterBody} {l : List α} {r : List (ClusterResult auth)}
    (h : l.mapM (fun x => finalizeClusterResult auth (body x)) = .ok r) :
    r.map ClusterResult.toClusterBody = l.map body := by
  have hf := Dict.forall₂_of_mapM h
  clear h
  induction hf with
  | nil => rfl
  | cons hr _ ih => rw [List.map_cons, List.map_cons, ih, finalizeClusterResult_ok hr]

/-- What a build that returns has gone through. -/
structure Built (auth : Authority) (order : SetOrder (SecurityId × SecurityId)) (nodes : List SecurityId)
    (returns : ReturnsMapping) (policyHash : Hash) (asOf : UtcTimestamp) (sessions : List MarketSession)
    (results : List (ClusterResult auth)) (accepted : List (SecurityId × Series))
    (assigned unknown : List (ClusterResult auth)) : Prop where
  calendar : sessionCalendar sessions = .ok ()
  nodup : nodes.Nodup
  accepted_ok : acceptedSeries sessions asOf nodes returns = .ok accepted
  results_eq : results = assigned ++ unknown
  assigned_eq : assigned.map ClusterResult.toClusterBody =
    (orderedComponents (completeIds (nodes.sortOn SecurityId.value) accepted)
      (order.arrange (keptEdges (nodes.sortOn SecurityId.value) accepted))).map
        (assignedBody auth policyHash asOf accepted)
  unknown_eq : unknown.map ClusterResult.toClusterBody =
    (unknownNodes (nodes.sortOn SecurityId.value) accepted).map (unknownBody auth policyHash asOf accepted)

theorem exists_built (h : buildClusters auth order nodes returns policyHash asOf sessions = .ok results) :
    ∃ accepted assigned unknown,
      Built auth order nodes returns policyHash asOf sessions results accepted assigned unknown := by
  obtain ⟨_, hcal, h⟩ := bind_ok.mp h
  obtain ⟨_, -, h⟩ := bind_ok.mp h
  obtain ⟨_, hnodup, h⟩ := bind_ok.mp h
  obtain ⟨accepted, hacc, h⟩ := bind_ok.mp h
  obtain ⟨assigned, hassigned, h⟩ := bind_ok.mp h
  obtain ⟨unknown, hunknown, h⟩ := bind_ok.mp h
  exact ⟨accepted, assigned, unknown, hcal, require_ok.mp hnodup, hacc, (Except.ok.inj h).symm,
    map_toClusterBody hassigned, map_toClusterBody hunknown⟩

namespace Built

variable {assigned unknown : List (ClusterResult auth)}
  (h : Built auth order nodes returns policyHash asOf sessions results accepted assigned unknown)
include h

theorem ordered_pairwise : (nodes.sortOn SecurityId.value).Pairwise (fun a b => a.value < b.value) :=
  List.pairwise_lt_sortOn (h.nodup.map SecurityId.value_injective)

theorem ids_pairwise :
    (completeIds (nodes.sortOn SecurityId.value) accepted).Pairwise (fun a b => a.value < b.value) :=
  h.ordered_pairwise.filter _

theorem members_assigned : assigned.map (fun r => r.members) =
    orderedComponents (completeIds (nodes.sortOn SecurityId.value) accepted)
      (order.arrange (keptEdges (nodes.sortOn SecurityId.value) accepted)) := by
  have hmap := congrArg (List.map ClusterBody.members) h.assigned_eq
  rw [List.map_map, List.map_map] at hmap
  exact hmap.trans (List.map_id _)

theorem members_unknown : unknown.map (fun r => r.members) =
    (unknownNodes (nodes.sortOn SecurityId.value) accepted).map (fun node => [node]) := by
  have hmap := congrArg (List.map ClusterBody.members) h.unknown_eq
  rwa [List.map_map, List.map_map] at hmap

theorem status_assigned {r : ClusterResult auth} (hr : r ∈ assigned) : r.status = .assigned := by
  have hmem : r.toClusterBody ∈ assigned.map ClusterResult.toClusterBody := List.mem_map_of_mem hr
  rw [h.assigned_eq] at hmem
  obtain ⟨m, -, hm⟩ := List.mem_map.mp hmem
  rw [← hm]
  rfl

theorem status_unknown {r : ClusterResult auth} (hr : r ∈ unknown) : r.status = .unknown := by
  have hmem : r.toClusterBody ∈ unknown.map ClusterResult.toClusterBody := List.mem_map_of_mem hr
  rw [h.unknown_eq] at hmem
  obtain ⟨m, -, hm⟩ := List.mem_map.mp hmem
  rw [← hm]
  rfl

theorem mem_assigned {r : ClusterResult auth} : r ∈ results ∧ r.status = .assigned ↔ r ∈ assigned := by
  rw [h.results_eq, List.mem_append]
  refine ⟨fun ⟨hr, hstatus⟩ => hr.resolve_right fun hu => ?_, fun hr => ⟨.inl hr, h.status_assigned hr⟩⟩
  rw [h.status_unknown hu] at hstatus
  cases hstatus

theorem mem_unknown {r : ClusterResult auth} : r ∈ results ∧ r.status = .unknown ↔ r ∈ unknown := by
  rw [h.results_eq, List.mem_append]
  refine ⟨fun ⟨hr, hstatus⟩ => hr.resolve_left fun ha => ?_, fun hr => ⟨.inr hr, h.status_unknown hr⟩⟩
  rw [h.status_assigned ha] at hstatus
  cases hstatus

theorem exists_assigned_iff {p : List SecurityId → Prop} : (∃ r ∈ results, r.status = .assigned ∧ p r.members) ↔
    ∃ m ∈ orderedComponents (completeIds (nodes.sortOn SecurityId.value) accepted)
      (order.arrange (keptEdges (nodes.sortOn SecurityId.value) accepted)), p m := by
  rw [← h.members_assigned]
  simp only [List.mem_map, ← h.mem_assigned]
  constructor
  · rintro ⟨r, hr, hstatus, hp⟩
    exact ⟨_, ⟨r, ⟨hr, hstatus⟩, rfl⟩, hp⟩
  · rintro ⟨_, ⟨r, ⟨hr, hstatus⟩, rfl⟩, hp⟩
    exact ⟨r, hr, hstatus, hp⟩

theorem unknown_iff : Unknown results a ↔ a ∈ unknownNodes (nodes.sortOn SecurityId.value) accepted := by
  have hmem : ∀ m : List SecurityId, m ∈ unknown.map (fun r => r.members) ↔
      ∃ node ∈ unknownNodes (nodes.sortOn SecurityId.value) accepted, [node] = m := by
    intro m
    rw [h.members_unknown, List.mem_map]
  constructor
  · rintro ⟨r, hr, hstatus, ha⟩
    obtain ⟨node, hnode, hm⟩ := (hmem r.members).mp (List.mem_map_of_mem (h.mem_unknown.mp ⟨hr, hstatus⟩))
    rw [← hm] at ha
    rwa [List.mem_singleton.mp ha]
  · intro ha
    obtain ⟨r, hr, hm⟩ := List.mem_map.mp ((hmem [a]).mpr ⟨a, ha, rfl⟩)
    obtain ⟨hr, hstatus⟩ := h.mem_unknown.mpr hr
    exact ⟨r, hr, hstatus, hm ▸ List.mem_singleton_self a⟩

theorem known_iff : a ∈ nodes ∧ ¬ Unknown results a ↔ a ∈ completeIds (nodes.sortOn SecurityId.value) accepted := by
  rw [h.unknown_iff, mem_unknownNodes, List.mem_sortOn]
  refine ⟨fun ⟨ha, hno⟩ => by_contra fun hid => hno ⟨ha, hid⟩, fun ha => ⟨?_, fun hno => hno.2 ha⟩⟩
  exact List.mem_sortOn.mp (List.mem_of_mem_filter ha)

theorem clusterGraph_adj : (clusterGraph nodes returns asOf sessions results).Adj a b ↔
    a ≠ b ∧ ((a, b) ∈ order.arrange (keptEdges (nodes.sortOn SecurityId.value) accepted) ∨
      (b, a) ∈ order.arrange (keptEdges (nodes.sortOn SecurityId.value) accepted)) := by
  have hn : (nodes.sortOn SecurityId.value).Nodup := (List.sortOn_perm _ _).nodup_iff.mpr h.nodup
  rw [(order.perm _).mem_iff, (order.perm _).mem_iff, mem_keptEdges (sessionCalendar_nodup h.calendar) h.accepted_ok hn,
    clusterGraph, SimpleGraph.fromRel_adj, h.known_iff, h.known_iff]
  constructor
  · rintro ⟨hne, ⟨ha, hb, hcorr⟩ | ⟨hb, ha, hcorr⟩⟩
    · exact ⟨hne, hne, ha, hb, hcorr⟩
    · exact ⟨hne, hne, ha, hb, hcorr.symm⟩
  · rintro ⟨hne, -, ha, hb, hcorr⟩
    exact ⟨hne, .inl ⟨ha, hb, hcorr⟩⟩

theorem connectedComponents : ConnectedComponents nodes returns asOf sessions results where
  partition := by
    have hflat : results.flatMap (fun r => r.members) =
        (orderedComponents (completeIds (nodes.sortOn SecurityId.value) accepted)
          (order.arrange (keptEdges (nodes.sortOn SecurityId.value) accepted))).flatten ++
        unknownNodes (nodes.sortOn SecurityId.value) accepted := by
      rw [List.flatMap_def, h.results_eq, List.map_append, h.members_assigned, h.members_unknown, List.flatten_append,
        ← List.flatMap_def, List.flatMap_singleton']
    rw [hflat]
    refine ((orderedComponents_flatten h.ids_pairwise).append_right _).trans ?_
    exact completeIds_append_unknownNodes.trans (List.sortOn_perm _ _)
  singletons := fun r hr hstatus => by
    have hmem : r.members ∈ unknown.map (fun r => r.members) := List.mem_map_of_mem (h.mem_unknown.mp ⟨hr, hstatus⟩)
    rw [h.members_unknown] at hmem
    obtain ⟨node, -, hnode⟩ := List.mem_map.mp hmem
    exact ⟨node, hnode.symm⟩
  connected := fun a ha b hb hka hkb => by
    have ha := h.known_iff.mp ⟨ha, hka⟩
    have hb := h.known_iff.mp ⟨hb, hkb⟩
    rw [← UnionFind.Forest.root_unions_iff (fun a b => h.clusterGraph_adj),
      h.exists_assigned_iff (p := fun m => a ∈ m ∧ b ∈ m)]
    constructor
    · rintro ⟨m, hm, ham, hbm⟩
      obtain ⟨c, -, rfl⟩ := (mem_orderedComponents h.ids_pairwise).mp hm
      rw [(mem_componentOf.mp ham).2, (mem_componentOf.mp hbm).2]
    · intro hroot
      exact ⟨_, (mem_orderedComponents h.ids_pairwise).mpr ⟨a, ha, rfl⟩, mem_componentOf.mpr ⟨ha, rfl⟩,
        mem_componentOf.mpr ⟨hb, hroot.symm⟩⟩
  ordered := by
    refine ⟨assigned, unknown, h.results_eq, fun r hr => h.status_assigned hr, fun r hr => h.status_unknown hr, ?_, ?_⟩
    · have hsorted : (assigned.map (fun r => r.members)).Pairwise (fun m n => firstMember m < firstMember n) := by
        rw [h.members_assigned]
        exact orderedComponents_pairwise h.ids_pairwise
      rw [List.pairwise_map] at hsorted
      refine hsorted.imp_of_mem fun {r s} hr hs hlt => ?_
      have hfirst : ∀ r ∈ assigned, ∃ c ∈ r.members,
          firstMember r.members = c.value ∧ ∀ b ∈ r.members, c.value ≤ b.value := by
        intro r hr
        have hmem : r.members ∈ assigned.map (fun r => r.members) := List.mem_map_of_mem hr
        rw [h.members_assigned] at hmem
        obtain ⟨a, ha, hm⟩ := (mem_orderedComponents h.ids_pairwise).mp hmem
        rw [hm]
        exact exists_firstMember h.ids_pairwise _ ha
      obtain ⟨c, hc, hrc, -⟩ := hfirst r hr
      obtain ⟨d, -, hsd, hmin⟩ := hfirst s hs
      rw [hrc, hsd] at hlt
      exact ⟨c, hc, fun b hb => hlt.trans_le (hmin b hb)⟩
    · have hsorted : ((unknownNodes (nodes.sortOn SecurityId.value) accepted).map (fun node => [node])).Pairwise
          (fun m n : List SecurityId => ∃ a ∈ m, ∀ b ∈ n, a.value < b.value) := by
        rw [List.pairwise_map]
        refine (h.ordered_pairwise.filter _).imp fun {a b} hab => ⟨a, List.mem_singleton_self a, fun c hc => ?_⟩
        rwa [List.mem_singleton.mp hc]
      rw [← h.members_unknown, List.pairwise_map] at hsorted
      exact hsorted

end Built

/-! ### Independence of the orders -/

section

variable {ordered : List SecurityId} {accepted' : List (SecurityId × Series)}
  (h : ∀ node, accepted.lookup node = accepted'.lookup node)
include h

theorem completeSeries_congr : completeSeries ordered accepted = completeSeries ordered accepted' := by
  simp only [completeSeries, h]

theorem pairUnknown_congr : pairUnknown ordered accepted = pairUnknown ordered accepted' := by
  rw [pairUnknown, completeSeries_congr h, ← pairUnknown]

theorem completeIds_congr : completeIds ordered accepted = completeIds ordered accepted' := by
  rw [completeIds, completeSeries_congr h, pairUnknown_congr h, ← completeIds]

theorem unknownNodes_congr : unknownNodes ordered accepted = unknownNodes ordered accepted' := by
  rw [unknownNodes, completeSeries_congr h, pairUnknown_congr h, ← unknownNodes]

theorem keptEdges_congr : keptEdges ordered accepted = keptEdges ordered accepted' := by
  rw [keptEdges, pairEdges, completeSeries_congr h, pairUnknown_congr h, ← pairEdges, ← keptEdges]

theorem refsOf_congr : refsOf accepted = refsOf accepted' := by
  funext node
  rw [refsOf, refsOf, h]

end

/-- Two orders of one set of edges unite the same nodes. -/
theorem root_arrange_iff (order order' : SetOrder (SecurityId × SecurityId)) (edges : List (SecurityId × SecurityId)) (x y : SecurityId) :
    (UnionFind.Forest.discrete.unions (order'.arrange edges)).root x =
        (UnionFind.Forest.discrete.unions (order'.arrange edges)).root y ↔
      (UnionFind.Forest.discrete.unions (order.arrange edges)).root x =
        (UnionFind.Forest.discrete.unions (order.arrange edges)).root y := by
  have hadj : ∀ o : SetOrder (SecurityId × SecurityId), ∀ a b,
      (SimpleGraph.fromRel (fun a b => (a, b) ∈ edges)).Adj a b ↔
        a ≠ b ∧ ((a, b) ∈ o.arrange edges ∨ (b, a) ∈ o.arrange edges) := by
    intro o a b
    rw [SimpleGraph.fromRel_adj, (o.perm _).mem_iff, (o.perm _).mem_iff]
  rw [UnionFind.Forest.root_unions_iff (hadj order'), UnionFind.Forest.root_unions_iff (hadj order)]

theorem buildClusters_perm (hn : nodes.Perm nodes') (hr : returns.items.Perm returns'.items) :
    buildClusters auth order' nodes' returns' policyHash asOf sessions =
      buildClusters auth order nodes returns policyHash asOf sessions := by
  unfold buildClusters
  by_cases hnodup : nodes.Nodup
  · have hnodup' : nodes'.Nodup := hn.nodup_iff.mp hnodup
    have hkeys : (nodes.map SecurityId.value).Nodup := hnodup.map SecurityId.value_injective
    rw [← List.sortOn_congr hn hkeys]
    simp only [require, requireOr, if_pos hnodup, if_pos hnodup']
    rcases acceptedSeries_perm sessions asOf hn hr with ⟨h1, h2⟩ | ⟨accepted, accepted', h1, h2, h⟩
    · rw [h1, h2]
      rfl
    · have hids : (completeIds (nodes.sortOn SecurityId.value) accepted').Pairwise (fun a b => a.value < b.value) :=
        (List.pairwise_lt_sortOn hkeys).filter _
      have hcomponents := orderedComponents_congr hids
        (root_arrange_iff order order' (keptEdges (nodes.sortOn SecurityId.value) accepted'))
      have hassigned : assignedBody auth policyHash asOf accepted = assignedBody auth policyHash asOf accepted' := by
        funext members
        rw [assignedBody, refsOf_congr h, ← assignedBody]
      have hunknown : unknownBody auth policyHash asOf accepted = unknownBody auth policyHash asOf accepted' := by
        funext node
        rw [unknownBody, refsOf_congr h, ← unknownBody]
      rw [h1, h2]
      simp only [bind, Except.bind, completeIds_congr h, unknownNodes_congr h, keptEdges_congr h, hcomponents,
        hassigned, hunknown]
  · have hnodup' : ¬ nodes'.Nodup := fun h => hnodup (hn.nodup_iff.mpr h)
    simp only [require, requireOr, if_neg hnodup, if_neg hnodup']
    rfl

end

/-! ### Two nodes without returns -/

theorem exists_finalized {auth : Authority} {body : ClusterBody} (h : body.postInit auth = .ok ()) :
    ∃ r, finalizeClusterResult auth body = .ok r := by
  unfold finalizeClusterResult
  split
  · rename_i he
    rw [h] at he
    cases he
  · exact ⟨_, rfl⟩

/-- A call returns when the content of whatever result it can form passes the checks. -/
theorem exists_results {auth : Authority} {order : SetOrder (SecurityId × SecurityId)} {nodes : List SecurityId}
    {returns : ReturnsMapping} {policyHash : Hash} {asOf : UtcTimestamp} {sessions : List MarketSession}
    {accepted : List (SecurityId × Series)} (hcal : sessionCalendar sessions = .ok ())
    (hopen : ∃ session ∈ sessionOn sessions (dateOf asOf), session.dayKind ≠ .closed ∧ session.regularSession ≠ none)
    (hnodup : nodes.Nodup) (hacc : acceptedSeries sessions asOf nodes returns = .ok accepted)
    (hassigned : ∀ m, m ≠ [] → m.Sublist (completeIds (nodes.sortOn SecurityId.value) accepted) →
      (assignedBody auth policyHash asOf accepted m).postInit auth = .ok ())
    (hunknown : ∀ a ∈ nodes, (unknownBody auth policyHash asOf accepted a).postInit auth = .ok ()) :
    ∃ results, buildClusters auth order nodes returns policyHash asOf sessions = .ok results := by
  have hsorted : (nodes.sortOn SecurityId.value).Pairwise (fun a b => a.value < b.value) :=
    List.pairwise_lt_sortOn (hnodup.map SecurityId.value_injective)
  have hids := hsorted.filter (fun node =>
    decide (node ∈ (completeSeries (nodes.sortOn SecurityId.value) accepted).map Prod.fst) &&
      decide (node ∉ pairUnknown (nodes.sortOn SecurityId.value) accepted))
  obtain ⟨assigned, h1⟩ := Dict.exists_mapM
    (f := fun members => finalizeClusterResult auth (assignedBody auth policyHash asOf accepted members))
    (l := orderedComponents (completeIds (nodes.sortOn SecurityId.value) accepted)
      (order.arrange (keptEdges (nodes.sortOn SecurityId.value) accepted))) fun m hm => by
    obtain ⟨a, ha, rfl⟩ := (mem_orderedComponents hids).mp hm
    refine exists_finalized (hassigned _ (List.ne_nil_of_mem (mem_componentOf.mpr ⟨ha, rfl⟩)) ?_)
    exact List.filter_sublist
  obtain ⟨unknown, h2⟩ := Dict.exists_mapM
    (f := fun node => finalizeClusterResult auth (unknownBody auth policyHash asOf accepted node))
    (l := unknownNodes (nodes.sortOn SecurityId.value) accepted) fun a ha =>
    exists_finalized (hunknown a (List.mem_sortOn.mp (mem_unknownNodes.mp ha).1))
  exact ⟨_, bind_ok.mpr ⟨(), hcal, bind_ok.mpr ⟨(), require_ok.mpr hopen, bind_ok.mpr ⟨(), require_ok.mpr hnodup,
    bind_ok.mpr ⟨accepted, hacc, bind_ok.mpr ⟨assigned, h1, bind_ok.mpr ⟨unknown, h2, rfl⟩⟩⟩⟩⟩⟩⟩

/-- A result of at most two nodes with at most one source is far below the cap. -/
theorem postInit_of_small {auth : Authority} {b : ClusterBody} (hmembers : b.members ≠ [] ∧ b.members.length ≤ 2)
    (hsorted : b.members = b.members.dedup.sortOn SecurityId.value) (hvalue : ∀ m ∈ b.members, m.value.length ≤ 64)
    (hrefs : b.sourceRefs.length ≤ 1) (href : ∀ ref ∈ b.sourceRefs, ref.family = .alpacaHistoricalBars ∧ ref.recordId.length ≤ 96)
    (hstatus : match b.status with | .assigned => b.sourceRefs ≠ [] | .unknown => b.members.length = 1)
    (hmanifest : b.manifestHash = auth.clusterManifestHash) : b.postInit auth = .ok () := by
  have hwireref : ∀ ref ∈ b.sourceRefs, (SourceRef.wire ref).bytes ≤ 8200 := by
    intro ref hr
    obtain ⟨hfamily, hid⟩ := href ref hr
    have hk : ref.family.value.length ≤ 96 := by
      rw [hfamily]
      decide
    have hhash : ref.recordHash.text.length ≤ 96 := ref.recordHash.ok.1.trans_le (by decide)
    have hfields : ∀ p ∈ [("record_id", Json.str ref.recordId), ("family", .str ref.family.value),
        ("record_hash", .str ref.recordHash.text)], p.1.length ≤ 16 ∧ p.2.bytes ≤ 24 * 96 + 2 := by
      simp only [List.forall_mem_cons, List.not_mem_nil, false_imp_iff, implies_true, and_true]
      exact ⟨⟨by decide, Json.bytes_str_le hid⟩, ⟨by decide, Json.bytes_str_le hk⟩, ⟨by decide, Json.bytes_str_le hhash⟩⟩
    have hle := Json.bytesFields_le hfields
    simp only [List.length_cons, List.length_nil] at hle
    simp only [SourceRef.wire, Json.bytes, List.length_cons, List.length_nil]
    omega
  have hwire : (b.wire auth).bytes ≤ maxClusterResultBytes := by
    have hstr : ∀ {s : String}, s.length ≤ 64 → (Json.str s).bytes ≤ 8300 := fun h =>
      (Json.bytes_str_le h).trans (by decide)
    have hash : ∀ h : Hash, (Json.str h.text).bytes ≤ 8300 := fun h => hstr h.ok.1.le
    have hmem := Json.bytesItems_map_le fun m hm => Json.bytes_str_le (hvalue m hm)
    have hsources := Json.bytesItems_map_le hwireref
    have hstatuslen : b.status.value.length ≤ 64 := by cases b.status <;> decide
    have hfields : ∀ p ∈ [("cluster_id", Json.str (b.clusterId auth).text), ("as_of", .str b.asOf.text),
        ("policy_hash", .str b.policyHash.text), ("manifest_hash", .str b.manifestHash.text),
        ("members", .arr (b.members.map fun m => .str m.value)), ("status", .str b.status.value),
        ("source_refs", .arr (b.sourceRefs.map SourceRef.wire))], p.1.length ≤ 16 ∧ p.2.bytes ≤ 8300 := by
      simp only [List.forall_mem_cons, List.not_mem_nil, false_imp_iff, implies_true, and_true]
      refine ⟨⟨by decide, hash _⟩, ⟨by decide, hstr (b.asOf.length_text.trans_le (by decide))⟩, ⟨by decide, hash _⟩,
        ⟨by decide, hash _⟩, ⟨by decide, ?_⟩, ⟨by decide, hstr hstatuslen⟩, ⟨by decide, ?_⟩⟩
      · rw [Json.bytes, List.length_map]
        omega
      · rw [Json.bytes, List.length_map]
        omega
    have hle := Json.bytesFields_le hfields
    simp only [List.length_cons, List.length_nil] at hle
    simp only [ClusterBody.wire, Json.bytes, List.length_cons, List.length_nil, maxClusterResultBytes]
    omega
  have hnodup : (b.sourceRefs.map SourceRef.recordId).Nodup ∧ b.sourceRefs = SourceRef.sorted b.sourceRefs := by
    cases hb : b.sourceRefs with
    | nil => exact ⟨List.nodup_nil, rfl⟩
    | cons ref rest =>
      obtain rfl : rest = [] := by
        rw [hb, List.length_cons] at hrefs
        exact List.eq_nil_of_length_eq_zero (by omega)
      exact ⟨List.nodup_singleton _, rfl⟩
  have hstatus' : (b.status = .assigned → b.sourceRefs ≠ []) ∧ (b.status = .unknown → b.members.length = 1) := by
    cases hs : b.status with
    | assigned => exact ⟨fun _ => by simpa [hs] using hstatus, fun h => by cases h⟩
    | unknown => exact ⟨fun h => (by cases h), fun _ => by simpa [hs] using hstatus⟩
  simp only [ClusterBody.postInit, canonicalRefs, canonicalJson, bind_ok]
  exact ⟨(), require_ok.mpr (hmembers.2.trans (by decide)), (), require_ok.mpr (hrefs.trans (by decide)), (),
    ⟨(), require_ok.mpr hnodup.1, require_ok.mpr hnodup.2⟩, (), require_ok.mpr fun ref hr => (href ref hr).1, (),
    require_ok.mpr hstatus'.1, (), require_ok.mpr hmembers.1, (), require_ok.mpr hstatus'.2, (), require_ok.mpr hsorted, (),
    require_ok.mpr hmanifest, _, ⟨(), require_ok.mpr hwire, rfl⟩, rfl⟩

/-- The regular session of a Monday. -/
def mondaySession : MarketSession where
  tradingDate := monday
  dayKind := .regular
  regularSession := some ⟨timeOn monday 810, timeOn monday 1200, by
    rw [UtcTimestamp.lt_iff]
    exact Nat.add_lt_add_left (by decide) _⟩
  window_ok := by simp

def furtherSecurity : SecurityId := ⟨"00000002", Eq.refl true⟩

def noReturns : ReturnsMapping := ⟨[], List.nodup_nil⟩

def listOrder : SetOrder (SecurityId × SecurityId) := ⟨id, .refl⟩

def reverseOrder : SetOrder (SecurityId × SecurityId) := ⟨List.reverse, List.reverse_perm⟩

def sampleAuthority : Authority :=
  ⟨fun _ => repeated '0' (Eq.refl true), repeated '1' (Eq.refl true), repeated '2' (Eq.refl true), repeated '3' (Eq.refl true)⟩

def samplePolicy : Hash := repeated 'f' (Eq.refl true)

/-- The call about them. -/
def twoNodes (order : SetOrder (SecurityId × SecurityId)) (nodes : List SecurityId) :
    Except Failure (List (ClusterResult sampleAuthority)) :=
  buildClusters sampleAuthority order nodes noReturns samplePolicy mondayOpen [mondaySession]

end SevenLens.Screening
