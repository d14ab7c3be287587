import SevenLens.ServiceRuns

/-! # One step of an operation

What a lawful call does, said once: nothing to the unit of work; one statement of it, made under
its law; the end of its transaction, by a commit that makes durable what it saw or by a rollback.  The second connection and the safety pause write control
rows only.  `Runs` puts operations in a row, each of which may be cut off after any call: what
it has not committed then is lost. -/

namespace SevenLens

open Calls Prog

/-! ### The order tables -/

/-- Two states of the tables with the same orders. -/
structure SameOrders (a b : Db) : Prop where
  intents : b.intents = a.intents
  mirrors : b.mirrors = a.mirrors

namespace SameOrders

variable {a b c : Db}

theorem refl (a : Db) : SameOrders a a := ⟨rfl, rfl⟩

theorem trans (h : SameOrders a b) (h' : SameOrders b c) : SameOrders a c :=
  ⟨h'.1.trans h.1, h'.2.trans h.2⟩

theorem mirrorOf (h : SameOrders a b) (k : ClientOrderId) : b.mirrorOf k = a.mirrorOf k := by
  simp only [Db.mirrorOf, h.mirrors]

theorem apply (h : SameOrders a b) (w : Write) : SameOrders (a.apply w) (b.apply w) := by
  cases w with
  | addIntent i => exact ⟨congrArg (Table.add · i) h.intents, h.mirrors⟩
  | putIntent i => exact ⟨congrArg (Table.put · i) h.intents, h.mirrors⟩
  | addMirror r =>
      simp only [Db.apply, h.mirrors]
      split
      · exact ⟨h.intents, rfl⟩
      · exact h
  | putMirror r =>
      simp only [Db.apply, h.mirrors]
      split
      · exact ⟨h.intents, rfl⟩
      · exact h
  | addFill f => exact ⟨h.intents, h.mirrors⟩
  | putControl c => exact ⟨h.intents, h.mirrors⟩
  | addCommand c => exact ⟨h.intents, h.mirrors⟩
  | addRun r => exact ⟨h.intents, h.mirrors⟩

theorem applyAll (h : SameOrders a b) (ws : List Write) : SameOrders (a.applyAll ws) (b.applyAll ws) := by
  induction ws generalizing a b with
  | nil => exact h
  | cons w ws ih => exact ih (h.apply w)

end SameOrders

theorem QuietRows.sameOrders {ws : List Write} (h : QuietRows ws) (db : Db) : SameOrders db (db.applyAll ws) := by
  induction ws generalizing db with
  | nil => exact SameOrders.refl db
  | cons w ws ih =>
      have hrest := ih (fun v hv => h v (List.mem_cons_of_mem w hv)) (db.apply w)
      refine SameOrders.trans ?_ hrest
      rcases h w List.mem_cons_self with ⟨c, rfl, -⟩ | ⟨r, rfl⟩ <;> exact ⟨rfl, rfl⟩

/-! ### Steps -/

/-- What has been absorbed after a statement. -/
def absorbedAfter (s : Tx) : StoreCall → Option ClientOrderId
  | .recordBrokerOrder o => some o.clientOrderId
  | _ => s.absorbed

/-- The evidence of the broker has not changed. -/
def SameEvidence (s s' : Tx) : Prop := s'.shown = s.shown ∧ s'.refused = s.refused

/-- No evidence is left. -/
def NoEvidence (s : Tx) : Prop := s.shown = none ∧ s.refused = none

/-- The evidence after a statement: a transition uses it up. -/
def evidenceAfter (s s' : Tx) : StoreCall → Prop
  | .transitionStatus _ _ => NoEvidence s'
  | _ => SameEvidence s s'

/-- The evidence after a lawful call of the broker. -/
def Heard (op : Operation) (adm : Tx → (b : BrokerCall) → Except PyError b.Ans → Prop) (s s' : Tx) : Prop :=
  ∃ (b : BrokerCall) (r : Except PyError b.Ans), adm s b r ∧ Lawful op s (.broker b) ∧
    s'.shown = (s.told b r).shown ∧ s'.refused = (s.told b r).refused

/-- What a lawful call does. -/
inductive Effect (op : Operation) (adm : Tx → (b : BrokerCall) → Except PyError b.Ans → Prop) (s s' : Tx) : Prop
  /-- It leaves the unit of work alone; another connection may write control rows. -/
  | kept (q : List Write) (quiet : QuietRows q) (db : s'.world.db = s.world.db.applyAll q)
      (pending : s'.world.session.uow = s.world.session.uow) (absorbed : s'.absorbed = s.absorbed)
      (aborted : s.aborted .uow = true → s'.aborted .uow = true)
      (evidence : SameEvidence s s' ∨ Heard op adm s s')
  /-- It makes durable what the unit of work sees. -/
  | committed (live : s.aborted .uow = false) (whole : Whole s) (db : s'.world.db = s.view)
      (pending : s'.world.session.uow = []) (absorbed : s'.absorbed = none) (evidence : NoEvidence s')
  /-- It discards what is not durable. -/
  | discarded (db : s'.world.db = s.world.db) (pending : s'.world.session.uow = []) (absorbed : s'.absorbed = none)
      (evidence : NoEvidence s')
  /-- It is a statement of the unit of work. -/
  | wrote (c : StoreCall) (a : c.Ans) (ws : List Write) (now : UtcTimestamp) (live : s.aborted .uow = false)
      (law : StatementLaw op s c) (exec : s.view.exec now c = .ok (a, ws)) (db : s'.world.db = s.world.db)
      (pending : s'.world.session.uow = s.world.session.uow ++ ws) (absorbed : s'.absorbed = absorbedAfter s c)
      (evidence : evidenceAfter s s' c)

theorem view_of_empty {s : Tx} (h : s.world.session.uow = []) : s.view = s.world.db := by
  show s.world.db.applyAll s.world.session.uow = _
  rw [h]
  rfl

theorem view_of_append {s s' : Tx} {ws : List Write} (hdb : s'.world.db = s.world.db)
    (h : s'.world.session.uow = s.world.session.uow ++ ws) : s'.view = s.view.applyAll ws := by
  show s'.world.db.applyAll s'.world.session.uow = (s.world.db.applyAll s.world.session.uow).applyAll ws
  rw [hdb, h, Db.applyAll_append]

theorem view_of_quiet {s s' : Tx} {q : List Write} (hq : QuietRows q) (hdb : s'.world.db = s.world.db.applyAll q)
    (h : s'.world.session.uow = s.world.session.uow) : SameOrders s.view s'.view := by
  show SameOrders (s.world.db.applyAll s.world.session.uow) (s'.world.db.applyAll s'.world.session.uow)
  rw [hdb, h]
  exact (hq.sameOrders s.world.db).applyAll _

section Step

variable {op : Operation} {adm : Tx → (b : BrokerCall) → Except PyError b.Ans → Prop}

theorem Like.effect {s s' : Tx} (h : Like s s') : Effect op adm s s' :=
  .kept [] QuietRows.nil h.db (congrArg Session.uow h.session) h.absorbed
    (fun ha => (congrFun h.aborted _).trans ha) (Or.inl ⟨h.shown, h.refused⟩)

theorem stated_ok_absorbed (s : Tx) (c : StoreCall) (a : c.Ans) (w : World) :
    (s.stated .uow c (.ok a) w).absorbed = absorbedAfter s c := by
  cases c <;> rfl

theorem stated_ok_evidence (s : Tx) (c : StoreCall) (a : c.Ans) (w : World) :
    evidenceAfter s (s.stated .uow c (.ok a) w) c := by
  cases c <;> exact ⟨rfl, rfl⟩

theorem stated_ctl_evidence (s : Tx) (c : StoreCall) (r : Except PyError c.Ans) (w : World) :
    SameEvidence s (s.stated .ctl c r w) := by
  cases r <;> exact ⟨rfl, rfl⟩

/-- The effect of a lawful call; the second connection keeps carrying control rows only. -/
theorem step_effect {s s' : Tx} {c : Call} {r : Except PyError c.Ans}
    (hctl : QuietRows (s.world.session.pending .ctl)) (hok : Lawful op s c)
    (h : (serial op adm).Step s c r s') :
    QuietRows (s'.world.session.pending .ctl) ∧ s'.origin = s.origin ∧ Effect op adm s s' := by
  obtain ⟨env, -, hadm, rfl, rfl⟩ := h
  have hpass : QuietRows (s.pass.world.session.pending .ctl) ∧ s.pass.origin = s.origin ∧ Effect op adm s s.pass :=
    ⟨hctl, rfl, (Like.pass s).effect⟩
  have hset : ∀ w : World, w.session = s.world.session.set .ctl [] → QuietRows (w.session.pending .ctl) := by
    intro w hw
    rw [hw, Session.pending_set_self]
    exact QuietRows.nil
  have hctlAborted : (Function.update s.aborted .ctl false) .uow = s.aborted .uow :=
    Function.update_of_ne (by decide) false s.aborted
  cases c with
  | store h c =>
      simp only [transact]
      split
      · exact hpass
      · rename_i hlive
        simp only [handler, World.statement]
        split
        · rename_i a ws hx
          cases h with
          | uow =>
              replace hlive : s.aborted .uow = false := by simpa using hlive
              have hlaw : StatementLaw op s c := hok.resolve_left (by simp [hlive])
              refine ⟨?_, by cases c <;> rfl, .wrote c a ws _ hlive hlaw hx ?_ ?_ (stated_ok_absorbed s c a _)
                (stated_ok_evidence s c a _)⟩
              · rw [stated_eq]
                exact quietRows_set hctl fun e => by cases e
              · rw [stated_eq]
                rfl
              · rw [stated_eq]
                rfl
          | ctl =>
              have hrows := Db.exec_quiet hok hx
              refine ⟨?_, by cases c <;> rfl, .kept [] QuietRows.nil ?_ ?_ (stated_ok_quiet hok a _) ?_
                (Or.inl (stated_ctl_evidence s c _ _))⟩
              · rw [stated_eq]
                exact quietRows_set hctl fun _ => hctl.append hrows
              · rw [stated_eq]
                rfl
              · rw [stated_eq]
                rfl
              · rw [stated_ok_aborted]
                exact id
        · refine ⟨hctl, rfl, .kept [] QuietRows.nil rfl rfl rfl (fun ha => ?_) (Or.inl ⟨rfl, rfl⟩)⟩
          simp only [Tx.stated]
          split
          · by_cases hh : h = .uow
            · subst hh
              exact Function.update_self ..
            · rw [Function.update_of_ne (Ne.symm hh)]
              exact ha
          · exact ha
  | commit h =>
      cases h with
      | uow =>
          cases hab : s.aborted .uow with
          | true =>
              simp only [transact, hab, if_true]
              exact ⟨(calm_ended hctl rfl).ctl, rfl, .discarded rfl rfl rfl ⟨rfl, rfl⟩⟩
          | false =>
              simp only [transact, hab, Bool.false_eq_true, if_false]
              have hsafe : Safe s := hok
              exact ⟨(calm_ended hctl rfl).ctl, rfl,
                .committed hab (hsafe.resolve_left (by simp [hab])) rfl rfl rfl ⟨rfl, rfl⟩⟩
      | ctl =>
          simp only [transact]
          split
          · exact ⟨hset _ rfl, rfl, .kept [] QuietRows.nil rfl rfl rfl (fun ha => hctlAborted.trans ha)
              (Or.inl ⟨rfl, rfl⟩)⟩
          · exact ⟨hset _ rfl, rfl, .kept _ hctl rfl rfl rfl (fun ha => hctlAborted.trans ha)
              (Or.inl ⟨rfl, rfl⟩)⟩
  | rollback h =>
      cases h with
      | uow => exact ⟨(calm_ended hctl rfl).ctl, rfl, .discarded rfl rfl rfl ⟨rfl, rfl⟩⟩
      | ctl =>
          exact ⟨hset _ rfl, rfl, .kept [] QuietRows.nil rfl rfl rfl (fun ha => hctlAborted.trans ha)
            (Or.inl ⟨rfl, rfl⟩)⟩
  | persistSafetyPause reason =>
      simp only [transact, handler, World.safetyPause]
      split
      · rename_i a ws hx
        have hrows : QuietRows ws := Db.exec_quiet (c := .setEntriesPaused true (some reason)) rfl hx
        exact ⟨hctl, trivial, .kept ws hrows rfl rfl rfl id (Or.inl ⟨rfl, rfl⟩)⟩
      · exact ⟨hctl, trivial, .kept [] QuietRows.nil rfl rfl rfl id (Or.inl ⟨rfl, rfl⟩)⟩
  | beginReconciliationSnapshot =>
      simp only [transact]
      split
      · rename_i hempty
        exact ⟨hctl, rfl, .discarded rfl hempty rfl ⟨rfl, rfl⟩⟩
      · exact hpass
  | lockControl h =>
      simp only [transact]
      split <;> exact hpass
  | broker b =>
      obtain ⟨hw, ha, hb⟩ := told_like s b (env.broker s.world.tick b)
      have horigin : (s.told b (env.broker s.world.tick b)).origin = s.origin := by
        unfold Tx.told
        split <;> rfl
      refine ⟨?_, horigin, .kept [] QuietRows.nil ?_ ?_ hb (fun h => (congrFun ha _).trans h) (Or.inr ?_)⟩
      · simp only [transact, hw]
        exact hctl
      · simp only [transact, hw]
        rfl
      · simp only [transact, hw]
        rfl
      · exact ⟨b, env.broker s.world.tick b, hadm b rfl, hok, rfl, rfl⟩
  | clock => exact hpass
  | currentPrice x => exact hpass
  | uuid4 => exact hpass

end Step

/-! ### Intents in a statement -/

/-- Statements other than a transition keep the intents, and at most add one. -/
theorem exec_intents {db : Db} {c : StoreCall} {a : c.Ans} {ws : List Write} {now : UtcTimestamp}
    (hc : ∀ k t, c ≠ .transitionStatus k t) (hx : db.exec now c = .ok (a, ws)) :
    (db.applyAll ws).intents = db.intents ∨ ∃ j new : OrderIntent, c = .addIntent j ∧ new.status = j.status ∧
      db.intents.get new.clientOrderId = none ∧ (db.applyAll ws).intents = db.intents.add new := by
  cases c with
  | transitionStatus k t => exact absurd rfl (hc k t)
  | addIntent j =>
      rcases Db.addIntent_cases hx with ⟨-, hws⟩ | ⟨hnone, hws⟩
      · rw [show ws = _ from hws]
        exact Or.inl rfl
      · rw [show ws = _ from hws]
        exact Or.inr ⟨j, { j with createdAt := now }, rfl, rfl, hnone, rfl⟩
  | recordBrokerOrder o =>
      obtain ⟨m, -, -, -, hintents, -⟩ := Db.recordBrokerOrder_inv hx
      exact Or.inl hintents
  | updateBrokerOrderStatus b t n at' =>
      obtain ⟨r, hws⟩ := Db.refreshMirror_writes hx
      rw [hws, Db.applyAll_cons, Db.applyAll_nil, Db.apply_putMirror_intents]
      exact Or.inl rfl
  | addFill f =>
      rcases Db.addFill_cases db f with ⟨e, he, -⟩ | he | he
      · cases he.symm.trans hx
      · cases he.symm.trans hx
        exact Or.inl rfl
      · cases he.symm.trans hx
        exact Or.inl rfl
  | setEntriesPaused p reason =>
      rw [show ws = _ from (Db.setEntriesPaused_writes hx).2]
      exact Or.inl rfl
  | bumpFlattenGeneration =>
      obtain ⟨q, -, hws⟩ := Db.bumpFlattenGeneration_writes hx
      rw [show ws = _ from hws]
      exact Or.inl rfl
  | addRun r =>
      rw [show ws = _ from Db.addRun_writes hx]
      exact Or.inl rfl
  | getIntent _ | listByStatus _ | getBrokerOrder _ | getBrokerOrderById _ | getFillByExecutionId _
  | listFills _ | listOpenBrokerOrders | listAllBrokerOrders | listAllFills | controlState | addCommand _
  | latestRun | getBaseline _ => exact Or.inl ((Db.exec_quiet rfl hx).applyAll_intents db)

theorem get_of_exec {db : Db} {c : StoreCall} {a : c.Ans} {ws : List Write} {now : UtcTimestamp}
    {k : ClientOrderId} {i : OrderIntent} (hc : ∀ k t, c ≠ .transitionStatus k t)
    (hx : db.exec now c = .ok (a, ws)) (hi : db.intents.get k = some i) :
    (db.applyAll ws).intents.get k = some i := by
  rcases exec_intents hc hx with hintents | ⟨j, new, -, -, hnone, hintents⟩
  · rw [hintents]
    exact hi
  · rw [hintents, Table.get_add_of_ne ?_]
    · exact hi
    · rintro rfl
      exact absurd (hnone.symm.trans hi) (by simp)

/-- A property of intent `k` that transitions of `k` keep is kept by every statement. -/
theorem intent_of_exec {db : Db} {c : StoreCall} {a : c.Ans} {ws : List Write} {now : UtcTimestamp}
    {k : ClientOrderId} {P : OrderIntent → Prop} (hx : db.exec now c = .ok (a, ws))
    (hmove : ∀ j t, c = .transitionStatus k t → db.intents.get k = some j → P j →
      t = j.status ∨ orderTransitionAllowed j.status t = true → P (j.withStatus t))
    (h : ∃ j, db.intents.get k = some j ∧ P j) : ∃ j, (db.applyAll ws).intents.get k = some j ∧ P j := by
  obtain ⟨j, hj, hP⟩ := h
  by_cases hc : ∃ k' t, c = .transitionStatus k' t
  · obtain ⟨k', t, rfl⟩ := hc
    obtain ⟨i, hi, hp⟩ := Db.transitionStatus_inv hx
    obtain rfl : ws = [.putIntent (i.withStatus t)] := congrArg Prod.snd hp
    have hkey : i.clientOrderId = k' := Table.key_of_get hi
    rw [Db.applyAll_cons, Db.applyAll_nil, Db.apply_putIntent_intents]
    by_cases hk : k' = k
    · subst hk
      obtain rfl : i = j := Option.some.inj (hi.symm.trans hj)
      have hget : db.intents.get (i.withStatus t).clientOrderId = some i := hkey.symm ▸ hi
      have hput := Table.get_put_self hget
      rw [OrderIntent.withStatus_clientOrderId, hkey] at hput
      exact ⟨i.withStatus t, hput, hmove i t rfl hi hP (Db.transitionStatus_allowed hi hx)⟩
    · refine ⟨j, ?_, hP⟩
      rw [Table.get_put_of_ne]
      · exact hj
      · rw [OrderIntent.withStatus_clientOrderId, hkey]
        exact hk
  · exact ⟨j, get_of_exec (fun k' t e => hc ⟨k', t, e⟩) hx hj, hP⟩

/-- A property of the order tables that statements keep is kept in the durable tables and in those
the unit of work sees. -/
theorem Effect.keeps {op : Operation} {adm : Tx → (b : BrokerCall) → Except PyError b.Ans → Prop} {s s' : Tx}
    {P : Db → Prop} (he : Effect op adm s s') (hsame : ∀ {a b : Db}, P a → SameOrders a b → P b)
    (hexec : ∀ {c : StoreCall} {a : c.Ans} {ws : List Write} {now : UtcTimestamp}, StatementLaw op s c →
      s.view.exec now c = .ok (a, ws) → P (s.view.applyAll ws))
    (hdb : P s.world.db) (hview : P s.view) : P s'.world.db ∧ P s'.view := by
  cases he with
  | kept q hq hdb' hpending _ _ _ =>
      refine ⟨?_, hsame hview (view_of_quiet hq hdb' hpending)⟩
      rw [hdb']
      exact hsame hdb (hq.sameOrders _)
  | committed _ _ hdb' hpending _ _ =>
      rw [view_of_empty hpending, hdb']
      exact ⟨hview, hview⟩
  | discarded hdb' hpending _ _ =>
      rw [view_of_empty hpending, hdb']
      exact ⟨hdb, hdb⟩
  | wrote c a ws now _ hlaw hx hdb' hpending _ _ =>
      rw [view_of_append hdb' hpending, hdb']
      exact ⟨hdb, hexec hlaw hx⟩

/-! ### The order shown -/

/-- The broker answers with an order. -/
def Answers : (b : BrokerCall) → Except PyError b.Ans → BrokerOrder → Prop
  | .getOrder _, .ok (some o), p => p = o
  | .submitOrder _, .ok (.accepted o), p => p = o
  | _, _, _ => False

/-- The order that the broker has shown last stands in relation `P` to the intent it names. -/
def ShownSafely (P : BrokerOrder → OrderIntent → Prop) (s : Tx) : Prop :=
  ∀ o, s.shown = some o → ∀ i, s.view.intents.get o.clientOrderId = some i → P o i

section Shown

variable {P : BrokerOrder → OrderIntent → Prop} {s s' : Tx}

theorem shownSafely_none (h : s.shown = none) : ShownSafely P s := by
  intro o ho
  rw [h] at ho
  cases ho

theorem shownSafely_congr (h : ShownSafely P s) (hs : s'.shown = s.shown)
    (hi : s'.view.intents = s.view.intents) : ShownSafely P s' := by
  unfold ShownSafely
  rw [hs, hi]
  exact h

/-- The order shown after an answer is the one of the answer, or still the one shown before. -/
theorem shownSafely_told {b : BrokerCall} {r : Except PyError b.Ans} (h : ShownSafely P s)
    (hanswer : ∀ o, Answers b r o → ∀ i, s.view.intents.get o.clientOrderId = some i → P o i)
    (hs : s'.shown = (s.told b r).shown) (hi : s'.view.intents = s.view.intents) : ShownSafely P s' := by
  intro o ho
  rw [hs] at ho
  rw [hi]
  by_cases ha : Answers b r o
  · exact hanswer o ha
  · refine h o ?_
    revert ho ha
    unfold Tx.told
    split <;> simp +contextual [Answers, Tx.pass]

/-- A statement other than a transition keeps the relation, which new intents stand in. -/
theorem shownSafely_exec {op : Operation} {c : StoreCall} {a : c.Ans} {ws : List Write} {now : UtcTimestamp}
    (hcreated : ∀ o i, i.status = .created → P o i) (h : ShownSafely P s) (hlaw : StatementLaw op s c)
    (hx : s.view.exec now c = .ok (a, ws)) (hview : s'.view = s.view.applyAll ws)
    (hev : evidenceAfter s s' c) : ShownSafely P s' := by
  by_cases hc : ∃ k t, c = .transitionStatus k t
  · obtain ⟨k, t, rfl⟩ := hc
    exact shownSafely_none hev.1
  · have hc' : ∀ k t, c ≠ .transitionStatus k t := fun k t e => hc ⟨k, t, e⟩
    have hev' : SameEvidence s s' := by
      cases c with
      | transitionStatus k t => exact absurd rfl (hc' k t)
      | _ => exact hev
    rcases exec_intents hc' hx with hintents | ⟨j, new, rfl, hst, hnone, hintents⟩
    · exact shownSafely_congr h hev'.1 (by rw [hview, hintents])
    · rcases hlaw.2.2.1 with hs | hnew
      · exact shownSafely_none (hev'.1.trans hs)
      · intro o ho i hi
        rw [hview, hintents] at hi
        rw [hev'.1] at ho
        by_cases hkey : new.clientOrderId = o.clientOrderId
        · rw [← hkey, Table.get_add_self hnone] at hi
          obtain rfl : new = i := Option.some.inj hi
          exact hcreated o new (hst.trans hnew)
        · rw [Table.get_add_of_ne hkey] at hi
          exact h o ho i hi

theorem shownSafely_effect {op : Operation} {adm : Tx → (b : BrokerCall) → Except PyError b.Ans → Prop}
    (hcreated : ∀ o i, i.status = .created → P o i)
    (hanswer : ∀ s b r, adm s b r → ∀ o, Answers b r o → ∀ i, s.view.intents.get o.clientOrderId = some i → P o i)
    (h : ShownSafely P s) (he : Effect op adm s s') : ShownSafely P s' := by
  cases he with
  | kept q hq hdb hpending _ _ hev =>
      have hview := view_of_quiet hq hdb hpending
      rcases hev with hev | ⟨b, r, hadm, -, hshown, -⟩
      · exact shownSafely_congr h hev.1 hview.intents
      · exact shownSafely_told h (hanswer s b r hadm) hshown hview.intents
  | committed _ _ _ _ _ hev => exact shownSafely_none hev.1
  | discarded _ _ _ hev => exact shownSafely_none hev.1
  | wrote c a ws now _ hlaw hx hdb hpending _ hev =>
      exact shownSafely_exec hcreated h hlaw hx (view_of_append hdb hpending) hev

end Shown

/-! ### Operations in a row -/

/-- Operations one after another, each cut off at its end or before.  `allowed` says which
operation may start from which tables. -/
inductive Runs (uuid5 : NameUuid) (allowed : Db → Operation → Prop)
    (adm : Tx → (b : BrokerCall) → Except PyError b.Ans → Prop) : Db → Db → Prop
  | refl (db : Db) : Runs uuid5 allowed adm db db
  | operation {db₀ db : Db} {op : Operation} {s : Tx} {p : Proc Unit} :
      Runs uuid5 allowed adm db₀ db → allowed db op →
      Reach (serial op adm) (.start db) (op.proc uuid5) s p → Runs uuid5 allowed adm db₀ s.world.db

/-- The tables after an operation in a fixed environment. -/
def Operation.after (op : Operation) (uuid5 : NameUuid) (env : Env) (db : Db) : Db :=
  (run (transact env) (op.proc uuid5) (.start db)).2.world.db

theorem Runs.after {uuid5 : NameUuid} {allowed : Db → Operation → Prop}
    {adm : Tx → (b : BrokerCall) → Except PyError b.Ans → Prop} {db₀ db : Db}
    (h : Runs uuid5 allowed adm db₀ db) {op : Operation} (hop : allowed db op) {env : Env} (he : env.Mild)
    (hadm : ∀ s b, adm s b (env.broker s.world.tick b)) : Runs uuid5 allowed adm db₀ (op.after uuid5 env db) := by
  have hstep : ∀ s c, (serial op adm).Step s c (transact env c s).1 (transact env c s).2 :=
    fun s c => ⟨env, he, fun b _ => hadm s b, rfl, rfl⟩
  obtain ⟨p, hp⟩ := reach_run hstep (op.proc uuid5) (.start db)
  exact h.operation hop hp

/-- An invariant that lawful effects keep holds in every later state of a running operation. -/
theorem rest_invariant {uuid5 : NameUuid} {op : Operation} (hop : Serial.IsFresh op)
    {adm : Tx → (b : BrokerCall) → Except PyError b.Ans → Prop} {I : Tx → Prop} {db : Db}
    (hstep : ∀ s s', s.origin = db → I s → Effect op adm s s' → I s') {s s' : Tx} {p p' : Proc Unit}
    (h : Reach (serial op adm) (.start db) (op.proc uuid5) s p) (hs : I s)
    (hrest : Reach (serial op adm) s p s' p') : I s' := by
  have hwp : wp (serial op adm) _ _ _ := Serial.wp_operation uuid5 op hop db
  have hctl : ∀ s c r s', QuietRows (s.world.session.pending .ctl) ∧ s.origin = db → Lawful op s c →
      (serial op adm).Step s c r s' → QuietRows (s'.world.session.pending .ctl) ∧ s'.origin = db := by
    intro s c r s' hs hok hst
    obtain ⟨hctl, horigin, -⟩ := step_effect hs.1 hok hst
    exact ⟨hctl, horigin.trans hs.2⟩
  have hmid := h.invariant (I := fun s => QuietRows (s.world.session.pending .ctl) ∧ s.origin = db) hctl hwp
    ⟨QuietRows.nil, rfl⟩
  have hinv := hrest.invariant
    (I := fun s => (QuietRows (s.world.session.pending .ctl) ∧ s.origin = db) ∧ I s)
    (fun s c r s' hs hok hst =>
      ⟨hctl s c r s' hs.1 hok hst, hstep s s' hs.1.2 hs.2 (step_effect hs.1.1 hok hst).2.2⟩)
    (wp_reach h hwp) ⟨hmid, hs⟩
  exact hinv.2

/-- An invariant of the running operation that lawful effects keep holds in every state of it. -/
theorem reach_invariant {uuid5 : NameUuid} {op : Operation} (hop : Serial.IsFresh op)
    {adm : Tx → (b : BrokerCall) → Except PyError b.Ans → Prop} {I : Tx → Prop} {db : Db}
    (hstep : ∀ s s', s.origin = db → I s → Effect op adm s s' → I s') {s : Tx} {p : Proc Unit} (hstart : I (.start db))
    (h : Reach (serial op adm) (.start db) (op.proc uuid5) s p) : I s :=
  rest_invariant hop hstep (.refl _ _) hstart h

end SevenLens
