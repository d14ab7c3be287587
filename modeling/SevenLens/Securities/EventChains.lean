import SevenLens.Securities.Eligibility
import SevenLens.Securities.ServiceRuns

/-! # Event lineages stay linear and blocked

The rows of one event, in append order, are a chain by hash and by transition whose last row
is the stored head (`Chained`), and the row after the root is the entry block (`Blocked`).
`Chained` is kept by every single append.  `Blocked` is kept by every change, where the root
and its block count as one.  From the two, `eventLineage` gives the rows of the event back
in append order, in every reachable state. -/

namespace SevenLens.Securities

open CorporateActionRecord (Follows SameEvent)

variable {D : Digests}

namespace Master

/-! ### The chain of one event -/

/-- The rows of an event make up one chain that ends at its head. -/
structure Chained (m : Master D) (e : EventId) : Prop where
  linked : Linked.From D.row EventRow.previous none (m.rowsOf e)
  chain : ((m.rowsOf e).map EventRow.record).IsChain Follows
  detected : ∀ row ∈ (m.rowsOf e).head?, row.record.state = .detected
  head : m.eventHeads.lookup e = (m.rowsOf e).getLast?.map D.row

/-- The row after the root is the entry block. -/
def Blocked (m : Master D) (e : EventId) : Prop :=
  ∀ root rest, m.rowsOf e = root :: rest → ∃ row, rest.head? = some row ∧ row.record.state = .entryBlocked

section

variable {m m' : Master D} {e : EventId} {record : CorporateActionRecord} {previous : Option Hash}
  {outcome : AppendOutcome}

theorem mem_rowsOf {row : EventRow} : row ∈ m.rowsOf e ↔ row ∈ m.events.rows ∧ row.record.eventId = e := by
  simp [rowsOf, List.mem_filter]

theorem nodup_rowsOf (m : Master D) (e : EventId) : ((m.rowsOf e).map D.row).Nodup :=
  m.events.nodup.sublist (List.filter_sublist.map D.row)

theorem rowsOf_add (hnone : m.events.get (D.event record) = none) (heads : List (EventId × Hash)) (e : EventId) :
    Master.rowsOf { m with events := m.events.add ⟨record, previous⟩, eventHeads := heads } e =
      if record.eventId = e then m.rowsOf e ++ [⟨record, previous⟩] else m.rowsOf e := by
  have hrows : (m.events.add ⟨record, previous⟩).rows = m.events.rows ++ [⟨record, previous⟩] := Table.add_rows hnone
  unfold rowsOf
  rw [hrows, List.filter_append]
  by_cases h : record.eventId = e <;> simp [h]

/-- A new row is the root of an event without rows, or it follows the last row of its event. -/
theorem checkHead_ok (hc : m.Chained record.eventId) {u : Unit} (h : m.checkHead record previous = .ok u) :
    record.state = .detected ∧ previous = none ∧ m.rowsOf record.eventId = [] ∨
      record.state ≠ .detected ∧ ∃ last, (m.rowsOf record.eventId).getLast? = some last ∧
        previous = some (D.row last) ∧ Follows last.record record := by
  unfold checkHead at h
  split_ifs at h with hs
  · obtain ⟨_, h1, h2⟩ := bind_ok.mp h
    have hnone := requireOr_ok.mp h2
    rw [hc.head, Option.map_eq_none_iff, List.getLast?_eq_none_iff] at hnone
    exact .inl ⟨hs, requireOr_ok.mp h1, hnone⟩
  · right
    refine ⟨hs, ?_⟩
    split at h
    · cases h
    · rename_i previousHash
      split at h
      · cases h
      · rename_i current hcur
        obtain ⟨_, h1, h⟩ := bind_ok.mp h
        obtain rfl := requireOr_ok.mp h1
        rw [hc.head, Option.map_eq_some_iff] at hcur
        obtain ⟨last, hlast, rfl⟩ := hcur
        have hmem : last ∈ m.events.rows := (mem_rowsOf.mp (List.mem_of_getLast? hlast)).1
        rw [Table.get_of_mem hmem] at h
        exact ⟨last, hlast, rfl, validateTransition_ok.mp h⟩

theorem Chained.appendEvent (hc : m.Chained e) (hr : m.Chained record.eventId)
    (h : m.appendEvent record previous = .ok (outcome, m')) : m'.Chained e := by
  rcases appendEvent_ok h with ⟨rfl, -⟩ | ⟨hnone, hcheck, rfl⟩
  · exact hc
  · have hrows := @rowsOf_add D m record previous hnone
      (Dict.insert m.eventHeads record.eventId (D.event record)) e
    by_cases he : record.eventId = e
    · subst he
      rw [if_pos rfl] at hrows
      have hhead : (Dict.insert m.eventHeads record.eventId (D.event record)).lookup record.eventId =
          some (D.event record) := by
        rw [Dict.lookup_insert, if_pos rfl]
      rcases checkHead_ok hr hcheck with ⟨hs, rfl, hnil⟩ | ⟨-, last, hlast, rfl, hf⟩
      · rw [hnil, List.nil_append] at hrows
        constructor
        · rw [hrows]
          exact ⟨rfl, trivial⟩
        · rw [hrows]
          exact List.isChain_singleton _
        · rw [hrows]
          intro row hrow
          cases hrow
          exact hs
        · rw [hrows]
          exact hhead
      · constructor
        · rw [hrows]
          refine hc.linked.append_singleton ?_
          rw [hlast]
          rfl
        · rw [hrows, List.map_append, List.isChain_append]
          refine ⟨hc.chain, List.isChain_singleton _, ?_⟩
          intro a ha b hb
          rw [List.getLast?_map, hlast] at ha
          cases ha
          cases hb
          exact hf
        · rw [hrows, List.head?_append_of_ne_nil _ (List.ne_nil_of_mem (List.mem_of_getLast? hlast))]
          exact hc.detected
        · rw [hrows, List.getLast?_concat]
          exact hhead
    · rw [if_neg he] at hrows
      refine ⟨hrows ▸ hc.linked, hrows ▸ hc.chain, hrows ▸ hc.detected, ?_⟩
      rw [hrows, ← hc.head]
      exact (Dict.lookup_insert ..).trans (if_neg (Ne.symm he))

/-- The lineage of an event is its rows in append order. -/
theorem Chained.eventLineage_eq (hc : m.Chained e) :
    m.eventLineage e = .ok ((m.rowsOf e).map EventRow.record) := by
  unfold eventLineage
  cases hrows : m.rowsOf e with
  | nil => rfl
  | cons root rest =>
    have hd : root.record.state = .detected := hc.detected root (by rw [hrows]; rfl)
    have hchain : (root.record :: rest.map EventRow.record).IsChain Follows := by
      have := hc.chain
      rwa [hrows] at this
    have hbuild : Linked.rebuild D.row EventRow.previous (root :: rest) = .ok (root :: rest) := by
      rw [← hrows]
      refine Linked.rebuild_of_from ?_ hc.linked (m.nodup_rowsOf e)
      rw [hrows]
      exact List.cons_ne_nil root rest
    have hvalid : validateLineage ((root :: rest).map EventRow.record) =
        .ok (((root :: rest).map EventRow.record).getLast (by simp)) := by
      refine validateLineage_ok.mpr ⟨lineage_of_isChain hd hchain, ?_⟩
      exact List.getLast?_eq_some_getLast (by simp)
    simp only [hbuild, hvalid, bind, Except.bind, pure, Except.pure]

/-! ### The block after the root -/

/-- A later row of an event keeps its block. -/
theorem Blocked.appendEvent (hb : m.Blocked e) (hr : m.Chained record.eventId) (hs : record.state ≠ .detected)
    (h : m.appendEvent record previous = .ok (outcome, m')) : m'.Blocked e := by
  rcases appendEvent_ok h with ⟨rfl, -⟩ | ⟨hnone, hcheck, rfl⟩
  · exact hb
  · rcases checkHead_ok hr hcheck with ⟨hd, -, -⟩ | ⟨-, last, hlast, -, -⟩
    · exact absurd hd hs
    · intro root rest hrows
      rw [rowsOf_add hnone] at hrows
      split_ifs at hrows with he
      · subst he
        cases hold : m.rowsOf record.eventId with
        | nil =>
          rw [hold] at hlast
          cases hlast
        | cons root' rest' =>
          obtain ⟨row, hrow, hstate⟩ := hb root' rest' hold
          rw [hold, List.cons_append, List.cons.injEq] at hrows
          refine ⟨row, ?_, hstate⟩
          rw [← hrows.2, List.head?_append, hrow]
          rfl
      · exact hb root rest hrows

/-- A root and its block, appended together, leave every event blocked. -/
theorem Blocked.appendRoot {m₁ : Master D} {event blocked : CorporateActionRecord} {o₁ o₂ : AppendOutcome}
    (hb : ∀ e, m.Blocked e) (hc : ∀ e, m.Chained e) (hd : event.state = .detected)
    (h₁ : m.appendEvent event none = .ok (o₁, m₁))
    (hblock : eventWithState event .entryBlocked event.availableAt event.sourceRefs = .ok blocked)
    (h₂ : m₁.appendEvent blocked (some (D.event event)) = .ok (o₂, m')) (e : EventId) : m'.Blocked e := by
  obtain ⟨hsame, hstate, -, -⟩ := eventWithState_ok hblock
  have hc₁ : ∀ e, m₁.Chained e := fun e => (hc e).appendEvent (hc _) h₁
  have hs : blocked.state ≠ .detected := by
    rw [hstate]
    decide
  rcases appendEvent_ok h₁ with ⟨rfl, -⟩ | ⟨hnone, hcheck, hm₁⟩
  · exact (hb e).appendEvent (hc₁ _) hs h₂
  · -- the event is new: its rows are the root alone until the block is appended
    have hnil : m.rowsOf event.eventId = [] := by
      rcases checkHead_ok (hc _) hcheck with ⟨-, -, h⟩ | ⟨hns, -⟩
      · exact h
      · exact absurd hd hns
    have hrows₁ : ∀ e, m₁.rowsOf e = if event.eventId = e then [⟨event, none⟩] else m.rowsOf e := by
      intro e
      rw [hm₁, rowsOf_add hnone]
      split_ifs with he
      · rw [← he, hnil]
        rfl
      · rfl
    by_cases he : event.eventId = e
    · subst he
      rcases appendEvent_ok h₂ with ⟨-, hmem⟩ | ⟨hnone₂, -, rfl⟩
      · have hroot : (⟨blocked, some (D.event event)⟩ : EventRow) ∈ m₁.rowsOf event.eventId :=
          mem_rowsOf.mpr ⟨hmem, hsame.eventId.symm⟩
        rw [hrows₁, if_pos rfl, List.mem_singleton, EventRow.mk.injEq] at hroot
        exact absurd hroot.2 (by simp)
      · intro root rest hrows
        rw [rowsOf_add hnone₂, if_pos hsame.eventId.symm, hrows₁, if_pos rfl, List.singleton_append,
          List.cons.injEq] at hrows
        refine ⟨⟨blocked, some (D.event event)⟩, ?_, hstate⟩
        rw [← hrows.2]
        rfl
    · have hb₁ : m₁.Blocked e := by
        intro root rest hrows
        rw [hrows₁, if_neg he] at hrows
        exact hb e root rest hrows
      exact hb₁.appendEvent (hc₁ _) hs h₂

end

/-- Every event is chained and blocked. -/
def EventsSound (m : Master D) : Prop := ∀ e, m.Chained e ∧ m.Blocked e

end Master

/-! ### Runs -/

theorem Change.eventsSound {log : RecordLog} {m m' : Master D} (h : Change log m m') (hm : m.EventsSound) :
    m'.EventsSound := by
  have hc : ∀ e, m.Chained e := fun e => (hm e).1
  cases h with
  | identity _ append =>
    rcases Master.appendIdentity_ok append with ⟨rfl, -⟩ | ⟨-, -, hev, hheads, -⟩
    · exact hm
    · have hrows : ∀ e, m'.rowsOf e = m.rowsOf e := fun e => by rw [Master.rowsOf, hev]; rfl
      intro e
      obtain ⟨⟨h1, h2, h3, h4⟩, hb⟩ := hm e
      refine ⟨⟨hrows e ▸ h1, hrows e ▸ h2, hrows e ▸ h3, by rw [hheads, hrows, h4]⟩, ?_⟩
      intro root rest h
      exact hb root rest ((hrows e).symm.trans h)
  | root detected readable append block append' =>
    intro e
    refine ⟨?_, Master.Blocked.appendRoot (fun e => (hm e).2) hc detected append block append' e⟩
    have hc₁ := fun e => (hc e).appendEvent (hc _) append
    exact (hc₁ e).appendEvent (hc₁ _) append'
  | transition later known append =>
    intro e
    exact ⟨(hc e).appendEvent (hc _) append, (hm e).2.appendEvent (hc _) later append⟩
  | decision record =>
    rcases Master.recordDecision_ok record with ⟨rfl, -⟩ | ⟨-, rfl⟩
    · exact hm
    · intro e
      obtain ⟨⟨h1, h2, h3, h4⟩, hb⟩ := hm e
      exact ⟨⟨h1, h2, h3, h4⟩, hb⟩

theorem Reachable.eventsSound {s : State D} (hs : Reachable s) : s.master.EventsSound := by
  refine hs.of_changes (P := fun _ m => m.EventsSound) ?_ (fun _ h => h) (fun h hm => h.eventsSound hm)
  intro e
  refine ⟨⟨trivial, List.isChain_nil, ?_, rfl⟩, ?_⟩
  · rintro row ⟨⟩
  · rintro root rest ⟨⟩

theorem Master.appendEvent_prefix {m m' : Master D} {record : CorporateActionRecord} {previous : Option Hash}
    {outcome : AppendOutcome} (h : m.appendEvent record previous = .ok (outcome, m')) :
    m.events.rows <+: m'.events.rows := by
  rcases Master.appendEvent_ok h with ⟨rfl, -⟩ | ⟨hnone, -, rfl⟩
  · exact List.prefix_refl _
  · have hrows : (m.events.add ⟨record, previous⟩).rows = m.events.rows ++ [⟨record, previous⟩] :=
      Table.add_rows hnone
    rw [hrows]
    exact List.prefix_append _ _

/-- A change appends to the rows. -/
theorem Change.events_prefix {log : RecordLog} {m m' : Master D} (h : Change log m m') :
    m.events.rows <+: m'.events.rows := by
  cases h with
  | identity _ append =>
    rcases Master.appendIdentity_ok append with ⟨rfl, -⟩ | ⟨-, -, hev, -, -⟩
    · exact List.prefix_refl _
    · exact hev ▸ List.prefix_refl _
  | root _ _ append _ append' => exact (Master.appendEvent_prefix append).trans (Master.appendEvent_prefix append')
  | transition _ _ append => exact Master.appendEvent_prefix append
  | decision record =>
    rcases Master.recordDecision_ok record with ⟨rfl, -⟩ | ⟨-, rfl⟩ <;> exact List.prefix_refl _

theorem Runs.events_prefix {s s' : State D} (h : Runs s s') : s.master.events.rows <+: s'.master.events.rows :=
  h.of_changes (P := fun _ m => s.master.events.rows <+: m.events.rows) (fun _ h => h)
    (fun hc h => h.trans hc.events_prefix) (List.prefix_refl _)

/-! ### Replays -/

/-- The rows that a discovery leaves behind. -/
def Discovered (m : Master D) (event : CorporateActionRecord) : Prop :=
  ⟨event, none⟩ ∈ m.events.rows ∧
    ∀ blocked, eventWithState event .entryBlocked event.availableAt event.sourceRefs = .ok blocked →
      ⟨blocked, some (D.event event)⟩ ∈ m.events.rows

theorem discovered_of_discoverSplit {log : RecordLog} {m m' : Master D} {event head : CorporateActionRecord}
    (h : discoverSplit log m event = .ok (head, m')) : Discovered m' event := by
  obtain ⟨_, -, h⟩ := bind_ok.mp h
  obtain ⟨_, -, h⟩ := bind_ok.mp h
  obtain ⟨_, -, h⟩ := bind_ok.mp h
  obtain ⟨⟨o₁, m₁⟩, happ, h⟩ := bind_ok.mp h
  obtain ⟨blocked, hb, h⟩ := bind_ok.mp h
  obtain ⟨⟨o₂, m₂⟩, happ', h⟩ := bind_ok.mp h
  obtain ⟨_, -, h⟩ := bind_ok.mp h
  obtain ⟨_, -, h⟩ := bind_ok.mp h
  cases h
  refine ⟨(Master.appendEvent_prefix happ').subset (Master.mem_of_appendEvent happ), ?_⟩
  · intro blocked' hb'
    obtain rfl : blocked = blocked' := Except.ok.inj (hb.symm.trans hb')
    exact Master.mem_of_appendEvent happ'

/-- Once the rows are there, the call only finds them. -/
theorem discoverSplit_of_discovered {log : RecordLog} {m m' : Master D} {event head : CorporateActionRecord}
    (hd : Discovered m event) (h : discoverSplit log m event = .ok (head, m')) : m' = m := by
  obtain ⟨_, -, h⟩ := bind_ok.mp h
  obtain ⟨_, -, h⟩ := bind_ok.mp h
  obtain ⟨_, -, h⟩ := bind_ok.mp h
  obtain ⟨⟨o₁, m₁⟩, happ, h⟩ := bind_ok.mp h
  obtain ⟨blocked, hb, h⟩ := bind_ok.mp h
  obtain ⟨⟨o₂, m₂⟩, happ', h⟩ := bind_ok.mp h
  obtain ⟨_, -, h⟩ := bind_ok.mp h
  obtain ⟨_, -, h⟩ := bind_ok.mp h
  cases h
  obtain rfl := Master.appendEvent_of_mem hd.1 happ
  exact Master.appendEvent_of_mem (hd.2 blocked hb) happ'

/-! ### The lineages of a reachable state -/

/-- A lineage has every stored row of the event once, runs from a `detected` root along the
machine to the stored head, and has the block after the root. -/
structure LinearLineage (m : Master D) (e : EventId) (lineage : List CorporateActionRecord) : Prop where
  rows : lineage = (m.rowsOf e).map EventRow.record
  nodup : lineage.Nodup
  legal : lineage ≠ [] → Lineage lineage
  head : m.eventHeads.lookup e = lineage.getLast?.map D.event
  blocked : ∀ root rest, lineage = root :: rest → ∃ row, rest.head? = some row ∧ row.state = .entryBlocked

theorem Master.EventsSound.linearLineage {m : Master D} (hm : m.EventsSound) (e : EventId) :
    LinearLineage m e ((m.rowsOf e).map EventRow.record) := by
  obtain ⟨hc, hb⟩ := hm e
  refine ⟨rfl, ?_, ?_, ?_, ?_⟩
  · have hn := m.nodup_rowsOf e
    rw [show D.row = D.event ∘ EventRow.record from rfl, ← List.map_map] at hn
    exact hn.of_map
  · intro hne
    have hchain := hc.chain
    cases hrows : m.rowsOf e with
    | nil => exact absurd (by rw [hrows]; rfl) hne
    | cons root rest =>
      rw [hrows] at hchain
      exact lineage_of_isChain (hc.detected root (by rw [hrows]; rfl)) hchain
  · rw [hc.head, List.getLast?_map, Option.map_map]
    rfl
  · intro root rest h
    cases hrows : m.rowsOf e with
    | nil =>
      rw [hrows] at h
      cases h
    | cons row rows =>
      rw [hrows, List.map_cons, List.cons.injEq] at h
      obtain ⟨block, hblock, hstate⟩ := hb row rows hrows
      refine ⟨block.record, ?_, hstate⟩
      rw [← h.2, List.head?_map, hblock]
      rfl

/-- In every reachable state the lineage of every event is linear and blocked, later calls only
append to the stored rows, and a discovery that succeeded changes nothing when it is
repeated at any later time. -/
theorem lineages_linear_and_blocked {s : State D} (hs : Reachable s) :
    (∀ e, ∃ lineage, s.master.eventLineage e = .ok lineage ∧ LinearLineage s.master e lineage) ∧
      (∀ s', Runs s s' → s.master.events.rows <+: s'.master.events.rows) ∧
      ∀ event head m', discoverSplit s.log s.master event = .ok (head, m') →
        ∀ s', Runs (s.after (.discoverSplit event)) s' → s'.after (.discoverSplit event) = s' := by
  refine ⟨?_, fun s' h => h.events_prefix, ?_⟩
  · intro e
    have hm := hs.eventsSound
    exact ⟨_, (hm e).1.eventLineage_eq, hm.linearLineage e⟩
  · intro event head m' h s' hruns
    have hfirst : Discovered (s.after (.discoverSplit event)).master event := by
      rw [State.after, h]
      exact discovered_of_discoverSplit h
    have hlater : Discovered s'.master event :=
      ⟨hruns.events_prefix.subset hfirst.1, fun b hb => hruns.events_prefix.subset (hfirst.2 b hb)⟩
    cases hr : discoverSplit s'.log s'.master event with
    | error e => rw [State.after, hr, committed]
    | ok r =>
      have hm := discoverSplit_of_discovered hlater hr
      rw [State.after, hr]
      exact congrArg (State.mk s'.log) hm

/-- The source records behind `sampleRef` and `sampleNotice`, read at 14:00. -/
def sampleRecord (ref : SourceRef) : NormalizedSourceRecord where
  recordId := ref.recordId
  family := ref.family
  contentHash := ref.recordHash
  recordHash := ref.recordHash
  retrievedAt := sampleTime 0
  availableAt := none
  supersedesContentHash := none
  payload := ""
  id_ok := ref.ok
  available_ok := by simp
  supersedes_ok := by simp

/-- The split of `sampleSplit` as one of the sample security. -/
def sampleEvent : CorporateActionRecord :=
  { sampleSplit with
    securityId := sampleIdentity.securityId
    securityIdentityHash := sampleDigests.identity sampleIdentity }

/-- Both source records are in the log, and the identity is registered. -/
def sampleState : State sampleDigests :=
  ((State.initial.after (.appendSource (sampleRecord sampleRef))).after
    (.appendSource (sampleRecord sampleNotice))).after (.registerIdentity sampleIdentity)

theorem sampleState_reachable : Reachable sampleState :=
  Reachable.after (Reachable.after (Reachable.after .refl _) _) _

/-- A split is discovered, and discovering it again changes nothing. -/
theorem sample_discovered_twice :
    (discoverSplit sampleState.log sampleState.master sampleEvent).isOk = true ∧
      (sampleState.after (.discoverSplit sampleEvent)).after (.discoverSplit sampleEvent) =
        sampleState.after (.discoverSplit sampleEvent) := by
  have hok : (discoverSplit sampleState.log sampleState.master sampleEvent).isOk = true := by decide +kernel
  refine ⟨hok, ?_⟩
  cases h : discoverSplit sampleState.log sampleState.master sampleEvent with
  | error e =>
    rw [h] at hok
    cases hok
  | ok r => exact (lineages_linear_and_blocked sampleState_reachable).2.2 sampleEvent r.1 r.2 h _ .refl

end SevenLens.Securities
