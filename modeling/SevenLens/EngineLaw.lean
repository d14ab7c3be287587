import SevenLens.Observation
import SevenLens.Serial

/-! # The engine keeps the law

Every operation of the execution engine issues only calls that `Lawful` allows, whatever the
broker answers.  The proofs follow the program: a read tells what the unit of work sees, a
transition is made on the evidence read before, and a broker order is mirrored and followed in
one transaction.  An operation that raises leaves a transaction that may be committed
(`Steady`), which the control plane relies on. -/

namespace SevenLens

open Calls Prog

/-! ### States between calls -/

/-- A commit is harmless, and the second connection carries control rows only. -/
structure Steady (s : Tx) : Prop where
  safe : Safe s
  ctl : QuietRows (s.world.session.pending .ctl)

/-- No order rows are pending and none is half absorbed. -/
structure Still (s : Tx) : Prop where
  quiet : QuietRows (s.world.session.pending .uow)
  free : s.absorbed = none
  ctl : QuietRows (s.world.session.pending .ctl)

/-- So it is at the beginning of a transaction, which no error has aborted yet. -/
structure Calm (s : Tx) : Prop extends Still s where
  live : s.aborted .uow = false

theorem Still.whole {s : Tx} (h : Still s) : Whole s := by
  intro k hk
  rw [h.free] at hk
  cases hk

theorem Still.steady {s : Tx} (h : Still s) : Steady s := ⟨Or.inr h.whole, h.ctl⟩

theorem Still.view_intents {s : Tx} (h : Still s) : s.view.intents = s.world.db.intents :=
  h.quiet.applyAll_intents s.world.db

/-- Only the count of calls differs. -/
structure Like (s s' : Tx) : Prop where
  db : s'.world.db = s.world.db
  session : s'.world.session = s.world.session
  aborted : s'.aborted = s.aborted
  shown : s'.shown = s.shown
  refused : s'.refused = s.refused
  listed : s'.listed = s.listed
  absorbed : s'.absorbed = s.absorbed
  origin : s'.origin = s.origin

namespace Like

variable {s s' s'' : Tx}

theorem refl (s : Tx) : Like s s := ⟨rfl, rfl, rfl, rfl, rfl, rfl, rfl, rfl⟩

theorem pass (s : Tx) : Like s s.pass := ⟨rfl, rfl, rfl, rfl, rfl, rfl, rfl, rfl⟩

theorem trans (h : Like s s') (h' : Like s' s'') : Like s s'' :=
  ⟨h'.1.trans h.1, h'.2.trans h.2, h'.3.trans h.3, h'.4.trans h.4, h'.5.trans h.5, h'.6.trans h.6,
    h'.7.trans h.7, h'.8.trans h.8⟩

theorem view (h : Like s s') : s'.view = s.view := by
  simp only [Tx.view, World.view, h.db, h.session]

theorem whole (h : Like s s') (hw : Whole s) : Whole s' := by
  unfold Whole
  rw [h.absorbed, h.view]
  exact hw

theorem safe (h : Like s s') (hs : Safe s) : Safe s' := by
  refine hs.imp (fun ha => ?_) h.whole
  rw [h.aborted]
  exact ha

theorem steady (h : Like s s') (hs : Steady s) : Steady s' := by
  refine ⟨h.safe hs.safe, ?_⟩
  rw [h.session]
  exact hs.ctl

theorem still (h : Like s s') (hs : Still s) : Still s' := by
  refine ⟨?_, ?_, ?_⟩
  · rw [h.session]
    exact hs.quiet
  · rw [h.absorbed]
    exact hs.free
  · rw [h.session]
    exact hs.ctl

end Like

/-! ### Rows and intents -/

theorem Db.apply_intents_congr {a b : Db} (h : a.intents = b.intents) (w : Write) :
    (a.apply w).intents = (b.apply w).intents := by
  cases w with
  | addIntent i => exact congrArg (Table.add · i) h
  | putIntent i => exact congrArg (Table.put · i) h
  | addMirror r =>
      simp only [apply]
      split <;> split <;> exact h
  | putMirror r =>
      simp only [apply]
      split <;> split <;> exact h
  | addFill f => exact h
  | putControl c => exact h
  | addCommand c => exact h
  | addRun r => exact h

theorem Db.applyAll_intents_congr {a b : Db} (h : a.intents = b.intents) (ws : List Write) :
    (a.applyAll ws).intents = (b.applyAll ws).intents := by
  induction ws generalizing a b with
  | nil => exact h
  | cons w ws ih => exact ih (apply_intents_congr h w)

/-! ### Control rows -/

section Rules

variable {op : Operation} {adm : Tx → (b : BrokerCall) → Except PyError b.Ans → Prop}

theorem transact_mild {env : Env} (he : env.Mild) {c : Call} {s : Tx} {e : PyError}
    (h : (transact env c s).1 = .error e) : Mild e := by
  cases c with
  | store k c =>
      simp only [transact] at h
      split at h
      · cases h
        simp [Mild, abortedError]
      · exact handler_mild he h
  | lockControl k =>
      simp only [transact] at h
      split at h
      · cases h
        simp [Mild, abortedError]
      · cases h
  | persistSafetyPause reason => exact handler_mild he (c := .persistSafetyPause reason) h
  | beginReconciliationSnapshot =>
      simp only [transact] at h
      split at h
      · cases h
      · cases h
        simp [Mild]
  | broker c => exact he.1 _ _ _ h
  | currentPrice x => exact he.2 _ _ _ h
  | commit k => cases h
  | rollback k => cases h
  | clock => cases h
  | uuid4 => cases h

/-- The session and the tables after a call that writes control rows at most. -/
theorem told_like (s : Tx) (b : BrokerCall) (r : Except PyError b.Ans) :
    (s.told b r).world = s.world.next ∧ (s.told b r).aborted = s.aborted ∧ (s.told b r).absorbed = s.absorbed := by
  unfold Tx.told
  split <;> exact ⟨rfl, rfl, rfl⟩

theorem stated_eq (s : Tx) (h : Handle) (c : StoreCall) (r : Except PyError c.Ans) (w : World) :
    (s.stated h c r w).world = w := by
  unfold Tx.stated
  repeat' split
  all_goals rfl

theorem stated_ok_aborted (s : Tx) (h : Handle) (c : StoreCall) (a : c.Ans) (w : World) :
    (s.stated h c (.ok a) w).aborted = s.aborted := by
  cases h <;> cases c <;> rfl

/-- A quiet statement keeps what has been absorbed. -/
theorem stated_ok_quiet {s : Tx} {h : Handle} {c : StoreCall} (hc : c.isQuiet = true) (a : c.Ans) (w : World) :
    (s.stated h c (.ok a) w).absorbed = s.absorbed := by
  cases h <;> cases c <;> first | rfl | cases hc

theorem whole_congr {s s' : Tx} (ha : s'.absorbed = s.absorbed) (hi : s'.view.intents = s.view.intents)
    (h : Whole s) : Whole s' := by
  unfold Whole
  rw [ha, hi]
  exact h

/-- What a steady state depends on. -/
theorem steady_congr {s s' : Tx} (hs : Steady s) (habort : s.aborted .uow = true → s'.aborted .uow = true)
    (habsorbed : s'.absorbed = s.absorbed) (hi : s'.view.intents = s.view.intents)
    (hctl : QuietRows (s'.world.session.pending .ctl)) : Steady s' :=
  ⟨Or.imp habort (whole_congr habsorbed hi) hs.safe, hctl⟩

/-- A statement that raises aborts the transaction or changes nothing. -/
theorem steady_raised {s : Tx} (hs : Steady s) (h : Handle) (c : StoreCall) (e : PyError) (call : Call) :
    Steady (s.stated h c (.error e) (s.world.next.reject call)) := by
  refine steady_congr hs (fun ha => ?_) rfl rfl hs.ctl
  simp only [Tx.stated]
  split
  · by_cases hh : h = .uow
    · subst hh
      exact Function.update_self ..
    · rw [Function.update_of_ne (Ne.symm hh)]
      exact ha
  · exact ha

/-- The end of the transaction of the unit of work. -/
theorem calm_ended {s : Tx} (hctl : QuietRows (s.world.session.pending .ctl)) {w : World}
    (hw : w.session = s.world.session.set .uow []) : Calm (s.ended .uow w) where
  live := by simp [Tx.ended]
  quiet := by
    show QuietRows (w.session.pending .uow)
    rw [hw, Session.pending_set_self]
    exact QuietRows.nil
  free := rfl
  ctl := by
    show QuietRows (w.session.pending .ctl)
    rw [hw, Session.pending_set_of_ne _ _ (by decide)]
    exact hctl

/-- The end of a transaction of the second connection. -/
theorem steady_ended_ctl {s : Tx} (hs : Steady s) {w : World} (hw : w.session = s.world.session.set .ctl [])
    (hdb : w.db.intents = s.world.db.intents) : Steady (s.ended .ctl w) := by
  refine steady_congr hs (fun ha => ?_) rfl ?_ ?_
  · have hne : Handle.uow ≠ .ctl := by decide
    exact (Function.update_of_ne hne false s.aborted).trans ha
  · have hpending : w.session.pending .uow = s.world.session.pending .uow := by
      rw [hw, Session.pending_set_of_ne _ _ (by decide)]
    show (w.db.applyAll (w.session.pending .uow)).intents = _
    rw [hpending]
    exact Db.applyAll_intents_congr hdb _
  · show QuietRows (w.session.pending .ctl)
    rw [hw, Session.pending_set_self]
    exact QuietRows.nil

/-- Calls without order rows keep a steady state. -/
theorem steady_step {s s' : Tx} {c : Call} {r : Except PyError c.Ans} (hs : Steady s) (hc : Permits reading c)
    (h : (serial op adm).Step s c r s') : Steady s' ∧ ∀ e, r = .error e → Mild e := by
  obtain ⟨env, he, -, rfl, rfl⟩ := h
  refine ⟨?_, fun e hr => transact_mild he hr⟩
  cases c with
  | store h c =>
      replace hc : c.isQuiet = true := hc.resolve_right id
      simp only [transact]
      split
      · exact (Like.pass s).steady hs
      · simp only [handler, World.statement]
        split
        · rename_i a ws hx
          have hrows := Db.exec_quiet hc hx
          refine steady_congr hs (fun ha => ?_) (stated_ok_quiet hc a _) ?_ ?_
          · rw [stated_ok_aborted]
            exact ha
          · unfold Tx.view
            rw [stated_eq]
            cases h with
            | uow => rw [World.write_view, hrows.applyAll_intents, World.next_view]
            | ctl => rfl
          · rw [stated_eq]
            exact quietRows_set hs.ctl fun e => by subst e; exact hs.ctl.append hrows
        · exact steady_raised hs h c _ _
  | commit h =>
      cases h with
      | uow =>
          refine (calm_ended hs.ctl ?_).steady
          split <;> rfl
      | ctl =>
          refine steady_ended_ctl hs ?_ ?_
          · split <;> rfl
          · split
            · rfl
            · exact hs.ctl.applyAll_intents s.world.db
  | rollback h =>
      cases h with
      | uow => exact (calm_ended hs.ctl rfl).steady
      | ctl => exact steady_ended_ctl hs rfl rfl
  | persistSafetyPause reason =>
      simp only [transact, handler, World.safetyPause]
      split
      · rename_i a ws hx
        have hrows : QuietRows ws := Db.exec_quiet (c := .setEntriesPaused true (some reason)) rfl hx
        refine steady_congr hs id rfl ?_ hs.ctl
        exact Db.applyAll_intents_congr (hrows.applyAll_intents s.world.db) _
      · exact steady_congr hs id rfl rfl hs.ctl
  | beginReconciliationSnapshot =>
      simp only [transact]
      split
      · rename_i hempty
        refine (calm_ended hs.ctl ?_).steady
        show s.world.session = { s.world.session with uow := [] }
        rw [← hempty]
      · exact (Like.pass s).steady hs
  | lockControl h =>
      simp only [transact]
      split <;> exact (Like.pass s).steady hs
  | broker b =>
      obtain ⟨hw, ha, hb⟩ := told_like s b (env.broker s.world.tick b)
      refine steady_congr hs (fun h => (congrFun ha _).trans h) hb ?_ ?_
      · simp only [transact, Tx.view, hw, World.next_view]
      · simp only [transact, hw]
        exact hs.ctl
  | clock => exact (Like.pass s).steady hs
  | currentPrice x => exact (Like.pass s).steady hs
  | uuid4 => exact (Like.pass s).steady hs

/-- They keep a still state. -/
theorem still_step {s s' : Tx} {c : Call} {r : Except PyError c.Ans} (hs : Still s) (hc : Permits reading c)
    (h : (serial op adm).Step s c r s') : Still s' ∧ ∀ e, r = .error e → Mild e := by
  obtain ⟨env, he, -, rfl, rfl⟩ := h
  refine ⟨?_, fun e hr => transact_mild he hr⟩
  cases c with
  | store h c =>
      replace hc : c.isQuiet = true := hc.resolve_right id
      simp only [transact]
      split
      · exact (Like.pass s).still hs
      · simp only [handler, World.statement]
        split
        · rename_i a ws hx
          have hrows := Db.exec_quiet hc hx
          refine ⟨?_, (stated_ok_quiet hc a _).trans hs.free, ?_⟩
          · rw [stated_eq]
            exact quietRows_set hs.quiet fun e => by subst e; exact hs.quiet.append hrows
          · rw [stated_eq]
            exact quietRows_set hs.ctl fun e => by subst e; exact hs.ctl.append hrows
        · exact ⟨hs.quiet, hs.free, hs.ctl⟩
  | commit h =>
      cases h with
      | uow =>
          refine (calm_ended hs.ctl ?_).toStill
          split <;> rfl
      | ctl =>
          have hset : ∀ k, QuietRows (s.world.session.pending k) →
              QuietRows ((s.world.session.set .ctl []).pending k) :=
            fun k hk => quietRows_set hk fun _ => QuietRows.nil
          simp only [transact]
          split <;> exact ⟨hset .uow hs.quiet, hs.free, hset .ctl hs.ctl⟩
  | rollback h =>
      cases h with
      | uow => exact (calm_ended hs.ctl rfl).toStill
      | ctl =>
          exact ⟨quietRows_set hs.quiet fun _ => QuietRows.nil, hs.free, quietRows_set hs.ctl fun _ => QuietRows.nil⟩
  | persistSafetyPause reason =>
      simp only [transact, handler, World.safetyPause]
      split <;> exact ⟨hs.quiet, hs.free, hs.ctl⟩
  | beginReconciliationSnapshot =>
      simp only [transact]
      split
      · exact ⟨hs.quiet, rfl, hs.ctl⟩
      · exact (Like.pass s).still hs
  | lockControl h =>
      simp only [transact]
      split <;> exact (Like.pass s).still hs
  | broker b =>
      obtain ⟨hw, -, hb⟩ := told_like s b (env.broker s.world.tick b)
      refine ⟨?_, hb.trans hs.free, ?_⟩
      · simp only [transact, hw]
        exact hs.quiet
      · simp only [transact, hw]
        exact hs.ctl
  | clock => exact (Like.pass s).still hs
  | currentPrice x => exact (Like.pass s).still hs
  | uuid4 => exact (Like.pass s).still hs

/-- Such calls are lawful. -/
theorem lawful_quiet {s : Tx} {c : Call} (hs : Steady s) (hc : Permits reading c) : Lawful op s c := by
  cases c with
  | store h c =>
      replace hc : c.isQuiet = true := hc.resolve_right id
      cases h with
      | uow =>
          refine Or.inr ?_
          cases c with
          | setEntriesPaused p reason =>
              cases p with
              | false => cases hc
              | true => trivial
          | addIntent _ | transitionStatus _ _ | recordBrokerOrder _ | updateBrokerOrderStatus _ _ _ _
          | addFill _ => cases hc
          | _ => trivial
      | ctl => exact hc
  | commit h =>
      cases h with
      | uow => exact hs.safe
      | ctl => trivial
  | broker b =>
      cases b with
      | submitOrder i => exact hc.elim
      | _ => trivial
  | _ => trivial

/-- The end of a program: the transaction may be committed, and the exception is not the one of
the entry gate. -/
def Ended {α : Type} (r : Except PyError α) (s : Tx) : Prop := Steady s ∧ ∀ e, r = .error e → Mild e

theorem ended_ok {α : Type} {s : Tx} (hs : Steady s) (a : α) : Ended (.ok a : Except PyError α) s :=
  ⟨hs, by rintro _ ⟨⟩⟩

theorem ended_error {α : Type} {s : Tx} {e : PyError} (hs : Steady s) (he : Mild e) :
    Ended (.error e : Except PyError α) s :=
  ⟨hs, by rintro _ ⟨⟩; exact he⟩

/-- A program without order rows and submissions. -/
theorem wp_quiet {α : Type} {p : Proc α} (hp : Within (Permits reading) Mild p) {s : Tx} (hs : Steady s) :
    wp (serial op adm) p Ended s :=
  wp_within (fun _ _ _ _ hs hc h => steady_step hs hc h) (fun _ _ hs hc => lawful_quiet hs hc) hp hs

/-- A still state stays so without order rows. -/
theorem wp_still {α : Type} {p : Proc α} (hp : Within (Permits reading) Mild p) {s : Tx} (hs : Still s) :
    wp (serial op adm) p (fun r s' => Still s' ∧ ∀ e, r = .error e → Mild e) s :=
  wp_within (fun _ _ _ _ hs hc h => still_step hs hc h) (fun _ _ hs hc => lawful_quiet hs.steady hc) hp hs

/-- Two programs that end, one after the other. -/
theorem wp_ended_bind {α β : Type} {p : Proc α} {f : α → Proc β} {s : Tx} (hp : wp (serial op adm) p Ended s)
    (hf : ∀ a s', Steady s' → wp (serial op adm) (f a) Ended s') : wp (serial op adm) (p.bind f) Ended s := by
  rw [wp_bind]
  refine wp_mono (fun r s' h => ?_) hp
  cases r with
  | error e => exact ended_error h.1 (h.2 e rfl)
  | ok a => exact hf a s' h.1

/-! ### Statements of the unit of work -/

theorem wp_ask {c : Call} {Q : Except PyError c.Ans → Tx → Prop} {s : Tx} (hc : Lawful op s c)
    (h : ∀ env : Env, env.Mild → Q (transact env c s).1 (transact env c s).2) :
    wp (serial op adm) (ask c) Q s := by
  refine wp_perform.mpr ⟨hc, ?_⟩
  rintro r s' ⟨env, he, -, rfl, rfl⟩
  exact h env he

theorem lawful_read {s : Tx} {c : StoreCall} (hc : c.isRead = true) : Lawful op s (.store .uow c) := by
  refine Or.inr ?_
  cases c <;> trivial

theorem stated_read {s : Tx} {c : StoreCall} (hc : c.isRead = true) (a : c.Ans) (w : World) :
    s.stated .uow c (.ok a) w = { s with world := w } := by
  cases c <;> first | rfl | cases hc

/-- A read answers what the unit of work sees. -/
theorem wp_read {c : StoreCall} {a : c.Ans} {Q : Except PyError c.Ans → Tx → Prop} {s : Tx}
    (hs : s.aborted .uow = false) (hc : c.isRead = true) (ha : s.view.read c = .ok a) (h : Q (.ok a) s.pass) :
    wp (serial op adm) (ask (.store .uow c)) Q s := by
  refine wp_ask (lawful_read hc) fun env _ => ?_
  have hexec : (s.world.next.view .uow).exec (env.clock s.world.tick) c = .ok (a, []) := by
    have hread : s.world.next.view .uow = s.view := rfl
    rw [hread, Db.exec_read _ _ hc, ha]
    rfl
  have hout : transact env (.store .uow c) s = (.ok a, s.pass) := by
    simp only [transact, hs, Bool.false_eq_true, if_false, handler, World.statement, hexec, stated_read hc,
      World.write_nil]
    rfl
  rw [hout]
  exact h

theorem wp_read_bind {β : Type} {c : StoreCall} {a : c.Ans} {f : c.Ans → Proc β}
    {Q : Except PyError β → Tx → Prop} {s : Tx} (hs : s.aborted .uow = false) (hc : c.isRead = true)
    (ha : s.view.read c = .ok a) (h : wp (serial op adm) (f a) Q s.pass) :
    wp (serial op adm) ((ask (.store .uow c)).bind f) Q s :=
  wp_bind.mpr (wp_read hs hc ha h)

theorem wp_getIntent {β : Type} {k : ClientOrderId} {f : Option OrderIntent → Proc β}
    {Q : Except PyError β → Tx → Prop} {s : Tx} (hs : s.aborted .uow = false)
    (h : wp (serial op adm) (f (s.view.intents.get k)) Q s.pass) :
    wp (serial op adm) ((getIntent k).bind f) Q s :=
  wp_read_bind (c := .getIntent k) (a := s.view.intents.get k) hs rfl rfl h

theorem wp_listByStatus_bind {β : Type} {t : OrderStatus} {f : List OrderIntent → Proc β}
    {Q : Except PyError β → Tx → Prop} {s : Tx} (hs : s.aborted .uow = false)
    (h : wp (serial op adm) (f (s.view.listByStatus t)) Q s.pass) :
    wp (serial op adm) ((listByStatus t).bind f) Q s :=
  wp_read_bind (c := .listByStatus t) (a := s.view.listByStatus t) hs rfl rfl h

theorem wp_getBrokerOrder {β : Type} {k : ClientOrderId} {f : Option BrokerOrder → Proc β}
    {Q : Except PyError β → Tx → Prop} {s : Tx} (hs : s.aborted .uow = false)
    (h : wp (serial op adm) (f (s.view.getBrokerOrder k)) Q s.pass) :
    wp (serial op adm) ((getBrokerOrder k).bind f) Q s :=
  wp_read_bind (c := .getBrokerOrder k) (a := s.view.getBrokerOrder k) hs rfl rfl h

theorem wp_getBrokerOrderById {β : Type} {b : String} {f : Option BrokerOrder → Proc β}
    {Q : Except PyError β → Tx → Prop} {s : Tx} (hs : s.aborted .uow = false)
    (h : wp (serial op adm) (f (s.view.getBrokerOrderById b)) Q s.pass) :
    wp (serial op adm) ((getBrokerOrderById b).bind f) Q s :=
  wp_read_bind (c := .getBrokerOrderById b) (a := s.view.getBrokerOrderById b) hs rfl rfl h

theorem wp_getFillByExecutionId {β : Type} {x : String} {f : Option Fill → Proc β}
    {Q : Except PyError β → Tx → Prop} {s : Tx} (hs : s.aborted .uow = false)
    (h : wp (serial op adm) (f (s.view.fills.get x)) Q s.pass) :
    wp (serial op adm) ((getFillByExecutionId x).bind f) Q s :=
  wp_read_bind (c := .getFillByExecutionId x) (a := s.view.fills.get x) hs rfl rfl h

/-- The unit of work moves an intent. -/
def Tx.moved (s : Tx) (i : OrderIntent) (t : OrderStatus) : Tx :=
  { s with
    world := s.world.next.write .uow [.putIntent (i.withStatus t)]
    shown := none
    refused := none }

@[simp] theorem moved_view (s : Tx) (i : OrderIntent) (t : OrderStatus) :
    (s.moved i t).view = s.view.apply (.putIntent (i.withStatus t)) := by
  simp [Tx.moved, Tx.view]

theorem moved_intent {s : Tx} {i : OrderIntent} {k : ClientOrderId} (t : OrderStatus)
    (hi : s.view.intents.get k = some i) : (s.moved i t).view.intents.get k = some (i.withStatus t) := by
  have hk : i.clientOrderId = k := Table.key_of_get hi
  rw [moved_view, Db.apply_putIntent_intents, ← hk]
  exact Table.get_put_self (hk.symm ▸ hi)

theorem moved_other {s : Tx} {i : OrderIntent} {k k' : ClientOrderId} (t : OrderStatus)
    (hi : s.view.intents.get k = some i) (hne : k ≠ k') :
    (s.moved i t).view.intents.get k' = s.view.intents.get k' := by
  have hk : i.clientOrderId = k := Table.key_of_get hi
  rw [moved_view, Db.apply_putIntent_intents]
  exact Table.get_put_of_ne (by rw [OrderIntent.withStatus_clientOrderId, hk]; exact hne)

/-- A transition is made, or it raises and leaves a steady state. -/
theorem wp_transition {k : ClientOrderId} {t : OrderStatus} {i : OrderIntent}
    {Q : Except PyError OrderIntent → Tx → Prop} {s : Tx} (hs : s.aborted .uow = false)
    (hi : s.view.intents.get k = some i) (hlaw : MoveLaw op s i t) (hok : Q (.ok (i.withStatus t)) (s.moved i t))
    (hctl : QuietRows (s.world.session.pending .ctl))
    (herr : ∀ e s', Mild e → Steady s' → Q (.error e) s') :
    wp (serial op adm) (transitionStatus k t) Q s := by
  refine wp_ask (c := .store .uow (.transitionStatus k t)) (Or.inr ⟨i, hi, hlaw⟩) fun env he => ?_
  have hview : s.world.next.view .uow = s.view := rfl
  simp only [transact, hs, Bool.false_eq_true, if_false, handler, World.statement, hview, Db.exec]
  cases hx : s.view.transitionStatus k t with
  | ok p =>
      obtain ⟨j, hj, rfl⟩ := Db.transitionStatus_inv hx
      obtain rfl : i = j := Option.some.inj (hi.symm.trans hj)
      exact hok
  | error e =>
      have hkind : e.kind = .database := by
        unfold Db.transitionStatus at hx
        rw [hi] at hx
        simp only [] at hx
        split at hx
        · cases hx
          rfl
        · cases hx
      have hexec : s.view.exec (env.clock s.world.tick) (.transitionStatus k t) = .error e := hx
      refine herr e _ (Db.exec_mild hexec) ⟨Or.inl ?_, hctl⟩
      simp [Tx.stated, hkind]

/-- A commit of a steady state ends the transaction; its rows are durable unless it was aborted. -/
theorem wp_commit {Q : Except PyError Unit → Tx → Prop} {s : Tx} (hs : Steady s)
    (h : ∀ s', Calm s' → s'.origin = s.origin →
      (s.aborted .uow = false → s'.view = s.view ∧ s'.world.db = s.view) → Q (.ok ()) s') :
    wp (serial op adm) commit Q s := by
  refine wp_ask (c := .commit .uow) hs.safe fun env _ => ?_
  refine h _ (calm_ended hs.ctl ?_) rfl fun hlive => ?_
  · split <;> rfl
  · simp only [transact, hlive, Bool.false_eq_true, if_false, Tx.ended, Tx.view, World.commit_view]
    exact ⟨rfl, rfl⟩

theorem wp_rollback {Q : Except PyError Unit → Tx → Prop} {s : Tx}
    (hs : QuietRows (s.world.session.pending .ctl))
    (h : ∀ s', Calm s' → s'.view = s.world.db → s'.world.db = s.world.db → Q (.ok ()) s') :
    wp (serial op adm) rollback Q s := by
  refine wp_ask (c := .rollback .uow) trivial fun env _ => ?_
  refine h _ (calm_ended hs rfl) ?_ rfl
  exact World.rollback_view s.world.next .uow

/-! ### Conflicts -/

/-- The end of a program that raises. -/
def Raised {α : Type} (r : Except PyError α) (s : Tx) : Prop := Steady s ∧ ∃ e, r = .error e ∧ Mild e

theorem Raised.ended {α : Type} {r : Except PyError α} {s : Tx} (h : Raised r s) : Ended r s := by
  obtain ⟨hs, e, rfl, he⟩ := h
  exact ended_error hs he

/-- A program that raises ends the one that runs it. -/
theorem wp_bind_raised {α β : Type} {p : Proc α} {f : α → Proc β} {P : α → Tx → Prop}
    {Q : Except PyError β → Tx → Prop} {s : Tx}
    (hp : wp (serial op adm) p (fun r s' => (∃ a, r = .ok a ∧ P a s') ∨ Raised r s') s)
    (hraised : ∀ s' e, Steady s' → Mild e → Q (.error e) s')
    (hf : ∀ a s', P a s' → wp (serial op adm) (f a) Q s') : wp (serial op adm) (p.bind f) Q s := by
  rw [wp_bind]
  refine wp_mono (fun r s' h => ?_) hp
  rcases h with ⟨a, rfl, ha⟩ | ⟨hs', e, rfl, he⟩
  · exact hf a s' ha
  · exact hraised s' e hs' he

/-- Only intent `k` may be half absorbed. -/
def WholeBut (k : ClientOrderId) (s : Tx) : Prop := Whole s ∨ s.absorbed = some k

theorem whole_of_status {s : Tx} {k : ClientOrderId} {i : OrderIntent} (hs : WholeBut k s)
    (hi : s.view.intents.get k = some i) (hst : i.status ≠ .submitting ∧ i.status ≠ .unknown) : Whole s := by
  refine hs.elim id fun ha => ?_
  intro k' hk' j hj
  rw [ha] at hk'
  obtain rfl : k = k' := Option.some.inj hk'
  obtain rfl : i = j := Option.some.inj (hi.symm.trans hj)
  exact hst

/-- Moving an intent on leaves no other one half absorbed. -/
theorem whole_moved {s : Tx} {k : ClientOrderId} {i : OrderIntent} {t : OrderStatus} (hs : WholeBut k s)
    (hi : s.view.intents.get k = some i) (ht : t ≠ .submitting ∧ t ≠ .unknown) : Whole (s.moved i t) := by
  intro k' hk' j hj
  by_cases h : k = k'
  · subst h
    rw [moved_intent t hi] at hj
    obtain rfl : i.withStatus t = j := Option.some.inj hj
    exact ht
  · rw [moved_other t hi h] at hj
    rcases hs with hs | hs
    · exact hs k' hk' j hj
    · have hk' : s.absorbed = some k' := hk'
      rw [hs] at hk'
      exact absurd (Option.some.inj hk') h

variable (cfg : EngineConfig) (uuid5 : NameUuid)

theorem wp_persistReviewAndPause (i : OrderIntent) (conflict : String) {s : Tx}
    (hs : s.aborted .uow = false) (hw : WholeBut i.clientOrderId s)
    (hctl : QuietRows (s.world.session.pending .ctl)) :
    wp (serial op adm) (persistReviewAndPause cfg uuid5 i conflict) Ended s := by
  unfold persistReviewAndPause
  simp only [bind_eq, pure_eq_ret]
  refine wp_getIntent hs ?_
  have hlike := Like.pass s
  have hpause : ∀ (k : OrderIntent) (s₁ : Tx), Steady s₁ → wp (serial op adm)
      ((pauseForReconciliationRequired cfg uuid5 k conflict).bind fun _ => ret k) Ended s₁ :=
    fun k s₁ hs₁ => wp_quiet (within_bind (f := fun _ => ret k)
      (within_pauseForReconciliationRequired cfg uuid5 k conflict) fun _ => trivial) hs₁
  cases hj : s.view.intents.get i.clientOrderId with
  | none =>
      -- Without the intent nothing of it can be half absorbed.
      refine ended_error ⟨Or.inr ?_, hctl⟩ (by simp [Mild])
      refine hw.elim hlike.whole fun ha k hk j hget => ?_
      have hk : s.absorbed = some k := hk
      rw [ha] at hk
      obtain rfl := Option.some.inj hk
      exact absurd (hget.symm.trans hj) (by simp)
  | some j =>
      have hj' : s.pass.view.intents.get i.clientOrderId = some j := hj
      have hw' : WholeBut i.clientOrderId s.pass := hw.imp hlike.whole id
      show wp (serial op adm) (if j.status = .reviewRequired then _ else _) Ended s.pass
      split
      · rename_i hst
        refine hpause j s.pass ⟨Or.inr (whole_of_status hw' hj' ?_), hctl⟩
        rw [hst]
        decide
      · rw [wp_bind, wp_tryCatch, wp_bind]
        refine wp_transition hs hj' .review ?_ hctl fun e s₁ he hs₁ => ?_
        · show wp (serial op adm) (commit.bind fun _ => ret (j.withStatus .reviewRequired)) _ _
          rw [wp_bind]
          refine wp_commit ⟨Or.inr (whole_moved hw' hj' (by decide)), hctl⟩ fun s₂ hs₂ _ _ => ?_
          exact hpause _ s₂ hs₂.steady
        · show wp (serial op adm) ((suppress rollback).bind _) _ s₁
          rw [wp_bind, wp_suppress]
          refine wp_rollback hs₁.ctl fun s₂ hs₂ _ _ => ?_
          exact ended_error hs₂.steady (by simp [Mild])

theorem wp_raiseConflict {α : Type} (i : OrderIntent) (conflict message : String) {s : Tx}
    (hs : s.aborted .uow = false) (hw : WholeBut i.clientOrderId s)
    (hctl : QuietRows (s.world.session.pending .ctl)) :
    wp (serial op adm) (raiseConflict cfg uuid5 i conflict message : Proc α) Raised s := by
  unfold raiseConflict
  rw [bind_eq, wp_bind]
  refine wp_mono (fun r s₁ h₁ => ?_) (wp_persistReviewAndPause cfg uuid5 i conflict hs hw hctl)
  cases r with
  | error e => exact ⟨h₁.1, e, rfl, h₁.2 e rfl⟩
  | ok u => exact ⟨h₁.1, _, rfl, by simp [Mild]⟩

/-! ### Absorbing a broker order -/

theorem wp_assertMirrorMatches (i : OrderIntent) (o : BrokerOrder) {s : Tx} (hs : s.aborted .uow = false)
    (hw : Whole s) (hctl : QuietRows (s.world.session.pending .ctl)) :
    wp (serial op adm) (assertMirrorMatches cfg uuid5 i o) (fun r s' =>
      (∃ a, r = .ok a ∧ Like s s' ∧ mismatchFields i o (s.view.getBrokerOrder i.clientOrderId)
        (s.view.getBrokerOrderById o.brokerOrderId) = []) ∨ Raised r s') s := by
  unfold assertMirrorMatches
  simp only [bind_eq, pure_eq_ret]
  refine wp_getBrokerOrder hs (wp_getBrokerOrderById hs ?_)
  have hlike := (Like.pass s).trans (Like.pass s.pass)
  split
  · rename_i hfields
    exact Or.inl ⟨(), rfl, hlike, hfields⟩
  · refine wp_mono (fun _ _ h => Or.inr h) (wp_raiseConflict cfg uuid5 i _ _ hs (Or.inl (hlike.whole hw)) hctl)

theorem wp_checkFills (i : OrderIntent) (o : BrokerOrder) (fills seen : List Fill) {s : Tx}
    (hs : s.aborted .uow = false) (hw : Whole s) (hctl : QuietRows (s.world.session.pending .ctl)) :
    wp (serial op adm) (checkFills cfg uuid5 i o fills seen)
      (fun r s' => ((∃ a, r = .ok a ∧ Like s s') ∧ ∀ f ∈ fills, f.brokerOrderId = o.brokerOrderId ∨
        ∃ g ∈ seen, g = f) ∨ Raised r s') s := by
  induction fills generalizing seen s with
  | nil => exact Or.inl ⟨⟨(), rfl, Like.refl s⟩, by simp⟩
  | cons f fills ih =>
      simp only [checkFills, bind_eq]
      split
      · rename_i g hg
        split
        · exact wp_mono (fun _ _ h => Or.inr h) (wp_raiseConflict cfg uuid5 i _ _ hs (Or.inl hw) hctl)
        · rename_i hgf
          refine wp_mono (fun r s' h => h.imp (fun h => ⟨h.1, ?_⟩) id) (ih seen hs hw hctl)
          rintro x hx
          rcases List.mem_cons.mp hx with rfl | hx
          · exact Or.inr ⟨g, List.mem_of_find?_eq_some hg, not_not.mp hgf⟩
          · exact h.2 x hx
      · split
        · exact wp_mono (fun _ _ h => Or.inr h) (wp_raiseConflict cfg uuid5 i _ _ hs (Or.inl hw) hctl)
        · rename_i hb
          refine wp_getFillByExecutionId hs ?_
          have hlike := Like.pass s
          split
          · exact wp_mono (fun _ _ h => Or.inr h)
              (wp_raiseConflict cfg uuid5 i _ _ hs (Or.inl (hlike.whole hw)) hctl)
          · refine wp_mono (fun r s' h => h.imp (fun h => ?_) id) (ih (f :: seen) hs (hlike.whole hw) hctl)
            obtain ⟨⟨a, ha, hs'⟩, hfills⟩ := h
            refine ⟨⟨a, ha, hlike.trans hs'⟩, fun x hx => ?_⟩
            rcases List.mem_cons.mp hx with rfl | hx
            · exact Or.inl (not_not.mp hb)
            · rcases hfills x hx with h | ⟨g, hg, rfl⟩
              · exact Or.inl h
              · rcases List.mem_cons.mp hg with rfl | hg
                · exact Or.inl (not_not.mp hb)
                · exact Or.inr ⟨g, hg, rfl⟩

/-- Intent `i` is being moved along with the broker order `o`, whose mirror is recorded. -/
structure Absorbing (i : OrderIntent) (o : BrokerOrder) (fills : List Fill) (s : Tx) : Prop where
  live : s.aborted .uow = false
  shown : s.shown = some o
  absorbed : s.absorbed = some i.clientOrderId
  client : o.clientOrderId = i.clientOrderId
  intent : s.view.intents.get i.clientOrderId = some i
  mirror : ∃ m, s.view.mirrorOf i.clientOrderId = some m ∧ m.order.status = o.status
  submitted : i.status.isSubmitted = true
  listed : s.listed = fills
  ctl : QuietRows (s.world.session.pending .ctl)

/-- The fills are being added. -/
theorem Absorbing.pass {i : OrderIntent} {o : BrokerOrder} {fills : List Fill} {s : Tx}
    (h : Absorbing i o fills s) : Absorbing i o fills s.pass :=
  ⟨h.live, h.shown, h.absorbed, h.client, h.intent, h.mirror, h.submitted, h.listed, h.ctl⟩

theorem wp_mirrorBrokerOrder (i : OrderIntent) (o : BrokerOrder) {s : Tx} (hs : s.aborted .uow = false)
    (hlaw : RecordLaw s o) (hc : o.clientOrderId = i.clientOrderId)
    (hi : s.view.intents.get i.clientOrderId = some i) (hst : i.status.isSubmitted = true)
    (hctl : QuietRows (s.world.session.pending .ctl)) :
    wp (serial op adm) (mirrorBrokerOrder cfg uuid5 i o)
      (fun r s' => (∃ a, r = .ok a ∧ Absorbing i o s.listed s') ∨ Raised r s') s := by
  unfold mirrorBrokerOrder
  simp only [bind_eq, pure_eq_ret]
  rw [wp_tryCatch, wp_bind]
  refine wp_ask (c := .store .uow (.recordBrokerOrder o)) (Or.inr hlaw) fun env _ => ?_
  have hview : s.world.next.view .uow = s.view := rfl
  have hsteady : Steady s := ⟨Or.inr hlaw.whole, hctl⟩
  simp only [transact, hs, Bool.false_eq_true, if_false, handler, World.statement, hview, Db.exec]
  cases hx : s.view.recordBrokerOrder o with
  | ok p =>
      obtain ⟨m, -, hm, -, hintents, -, hmirror⟩ := Db.recordBrokerOrder_inv hx
      have hview' : (s.world.next.write .uow p.2).view .uow = s.view.applyAll p.2 := by
        rw [World.write_view, hview]
      refine Or.inl ⟨(), rfl, hs, hlaw.shown, congrArg some hc, hc, ?_, ⟨m, ?_, hm⟩, hst, rfl, hctl⟩
      · show ((s.world.next.write .uow p.2).view .uow).intents.get _ = _
        rw [hview', hintents]
        exact hi
      · show ((s.world.next.write .uow p.2).view .uow).mirrorOf _ = _
        rw [hview', hmirror, if_pos hc]
  | error e =>
      have hexec : s.view.exec (env.clock s.world.tick) (.recordBrokerOrder o) = .error e := hx
      have hraised := steady_raised hsteady .uow (.recordBrokerOrder o) e (.store .uow (.recordBrokerOrder o))
      show wp (serial op adm) (if e.kind = .brokerOrderIdentityConflict then _ else _) _ _
      split
      · rw [wp_bind, wp_suppress]
        refine wp_rollback hctl fun s₁ hs₁ _ _ => ?_
        exact wp_mono (fun _ _ h => Or.inr h)
          (wp_raiseConflict cfg uuid5 i _ _ hs₁.live (Or.inl hs₁.whole) hs₁.ctl)
      · exact Or.inr ⟨hraised, e, rfl, Db.exec_mild hexec⟩

theorem wp_addFills (i : OrderIntent) (o : BrokerOrder) (all fills : List Fill) {s : Tx}
    (hs : Absorbing i o all s) (hf : ∀ f ∈ fills, f ∈ all ∧ f.brokerOrderId = o.brokerOrderId) :
    wp (serial op adm) (addFills cfg uuid5 i fills)
      (fun r s' => (∃ a, r = .ok a ∧ Absorbing i o all s') ∨ Raised r s') s := by
  induction fills generalizing s with
  | nil => exact Or.inl ⟨(), rfl, hs⟩
  | cons f fills ih =>
      obtain ⟨hmem, hid⟩ := hf f List.mem_cons_self
      have hrest : ∀ g ∈ fills, g ∈ all ∧ g.brokerOrderId = o.brokerOrderId :=
        fun g hg => hf g (List.mem_cons_of_mem f hg)
      simp only [addFills, bind_eq]
      rw [wp_bind]
      have hlaw : FillLaw s f := by
        refine ⟨hs.listed ▸ hmem, o, hs.shown, hid, ?_⟩
        rw [hs.absorbed, hs.client]
      refine wp_ask (c := .store .uow (.addFill f)) (Or.inr (Or.inr hlaw)) fun env _ => ?_
      have hview : s.world.next.view .uow = s.view := rfl
      simp only [transact, hs.live, Bool.false_eq_true, if_false, handler, World.statement, hview, Db.exec]
      rcases Db.addFill_cases s.view f with ⟨e, hx, hkind⟩ | hx | hx
      · rw [hx]
        have hexec : s.view.exec (env.clock s.world.tick) (.addFill f) = .error e := hx
        refine Or.inr ⟨⟨Or.inl ?_, hs.ctl⟩, e, rfl, Db.exec_mild hexec⟩
        simp [Tx.stated, hkind]
      · -- The execution is known: it has to be the same fill.
        rw [hx]
        show wp (serial op adm) ((getFillByExecutionId f.executionId).bind _) _ _
        simp only [World.write_nil]
        have hs₁ : Absorbing i o all (s.stated .uow (.addFill f) (.ok false) s.world.next) := hs.pass
        refine wp_getFillByExecutionId hs₁.live ?_
        split
        · exact wp_mono (fun _ _ h => Or.inr h)
            (wp_raiseConflict cfg uuid5 i _ _ hs₁.live (Or.inr hs₁.absorbed) hs₁.ctl)
        · exact ih hs₁.pass hrest
      · rw [hx]
        refine ih ⟨hs.live, hs.shown, hs.absorbed, hs.client, ?_, ?_, hs.submitted, hs.listed, hs.ctl⟩ hrest
        · show ((s.world.next.write .uow [.addFill f]).view .uow).intents.get _ = _
          rw [World.write_view]
          exact hs.intent
        · obtain ⟨m, hm, hst⟩ := hs.mirror
          refine ⟨m, ?_, hst⟩
          show ((s.world.next.write .uow [.addFill f]).view .uow).mirrorOf _ = _
          rw [World.write_view]
          exact hm

/-- An intent that follows the order just mirrored no longer waits for its submission. -/
theorem refreshTarget_settles (b : BrokerOrderStatus) (t : OrderStatus) :
    refreshTarget b t ≠ .submitting ∧ refreshTarget b t ≠ .unknown := by
  cases b <;> cases t <;> decide

/-- From a pending submission every status of a broker order can be followed. -/
theorem refreshTarget_allowed (b : BrokerOrderStatus) {t : OrderStatus} (ht : t = .submitting ∨ t = .unknown) :
    orderTransitionAllowed t (refreshTarget b t) = true := by
  rcases ht with rfl | rfl <;> cases b <;> decide

/-- The end of an operation that returns between two transactions. -/
def Finished {α : Type} (r : Except PyError α) (s : Tx) : Prop := (∃ a, r = .ok a ∧ Still s) ∨ Raised r s

theorem Finished.ended {α : Type} {r : Except PyError α} {s : Tx} (h : Finished r s) : Ended r s := by
  rcases h with ⟨a, rfl, hs⟩ | h
  · exact ended_ok hs.steady a
  · exact h.ended

theorem wp_followBrokerOrder {i : OrderIntent} {o : BrokerOrder} {fills : List Fill} {s : Tx}
    (hs : Absorbing i o fills s) :
    wp (serial op adm) (followBrokerOrder i (refreshTarget o.status i.status)) Ended s := by
  obtain ⟨m, hm, hst⟩ := hs.mirror
  have hbut : WholeBut i.clientOrderId s := Or.inr hs.absorbed
  unfold followBrokerOrder
  split
  · split
    · refine wp_transition hs.live hs.intent (.follow hs.absorbed hs.shown hs.client hm hst hs.submitted) ?_ hs.ctl
        fun e s' he hs' => ended_error hs' he
      exact ended_ok ⟨Or.inr (whole_moved hbut hs.intent (refreshTarget_settles _ _)), hs.ctl⟩ _
    · rename_i hna
      refine ended_error ⟨Or.inr (whole_of_status hbut hs.intent ?_), hs.ctl⟩ (by simp [Mild])
      by_contra hn
      refine hna (refreshTarget_allowed o.status ?_)
      by_contra ho
      exact hn (not_or.mp ho)
  · rename_i heq
    refine ended_ok ⟨Or.inr (whole_of_status hbut hs.intent ?_), hs.ctl⟩ i
    rw [← not_not.mp heq]
    exact refreshTarget_settles _ _

/-- A broker order that agrees with the intent is absorbed in one transaction. -/
theorem wp_refreshFromBrokerOrder {i : OrderIntent} {o : BrokerOrder} {s : Tx} (hs : Whole s)
    (hctl : QuietRows (s.world.session.pending .ctl)) (hlive : s.aborted .uow = false) (hshown : s.shown = some o) (hc : o.clientOrderId = i.clientOrderId)
    (hi : s.view.intents.get i.clientOrderId = some i) (hst : i.status.isSubmitted = true)
    (hparams : o.symbol = i.symbol ∧ o.side = i.side ∧ o.quantity = i.quantity ∧ o.limitPrice = i.limitPrice) :
    wp (serial op adm) (refreshFromBrokerOrder cfg uuid5 i o) Finished s := by
  unfold refreshFromBrokerOrder
  simp only [bind_eq, pure_eq_ret]
  rw [wp_bind]
  refine wp_ask (c := .broker (.listFills o.brokerOrderId)) trivial fun env he => ?_
  cases hl : env.broker s.world.tick (.listFills o.brokerOrderId) with
  | error e =>
      simp only [transact, hl]
      exact Or.inr ⟨(Like.pass s).steady ⟨Or.inr hs, hctl⟩, e, rfl, he.1 _ _ _ hl⟩
  | ok fills =>
      change List Fill at fills
      simp only [transact, hl, Tx.told]
      have hs₁ : Whole { s.pass with listed := fills } := hs
      have hraised : ∀ (s' : Tx) (e : PyError), Steady s' → Mild e →
          Finished (.error e : Except PyError OrderIntent) s' := fun s' e hs' he => Or.inr ⟨hs', e, rfl, he⟩
      have hcheck : wp (serial op adm) (checkFills cfg uuid5 i o fills [])
          (fun r s' => (∃ a, r = .ok a ∧ Like { s.pass with listed := fills } s' ∧
            ∀ f ∈ fills, f.brokerOrderId = o.brokerOrderId) ∨ Raised r s') { s.pass with listed := fills } := by
        refine wp_mono (fun r s' h => h.imp (fun h => ?_) id)
          (wp_checkFills cfg uuid5 i o fills [] hlive hs₁ hctl)
        obtain ⟨⟨a, ha, hlike⟩, hfills⟩ := h
        exact ⟨a, ha, hlike, fun f hf => (hfills f hf).resolve_right (by simp)⟩
      refine wp_bind_raised hcheck hraised fun _ s₂ h₂ => ?_
      obtain ⟨hlike, hfills⟩ := h₂
      have hlive₂ : s₂.aborted .uow = false := (congrFun hlike.aborted _).trans hlive
      have hview₂ : s₂.view = s.view := hlike.view
      have hi₂ : s₂.view.intents.get i.clientOrderId = some i := by rw [hview₂]; exact hi
      have hctl₂ : QuietRows (s₂.world.session.pending .ctl) := by rw [hlike.session]; exact hctl
      have hlaw : RecordLaw s₂ o :=
        ⟨hlike.shown.trans hshown, hlike.whole hs₁, i, by rw [hc]; exact hi₂, hst, hparams⟩
      refine wp_bind_raised (wp_mirrorBrokerOrder cfg uuid5 i o hlive₂ hlaw hc hi₂ hst hctl₂) hraised
        fun _ s₃ hs₃ => ?_
      rw [show s₂.listed = fills from hlike.listed] at hs₃
      refine wp_bind_raised (wp_addFills cfg uuid5 i o fills fills hs₃ fun f hf => ⟨hf, hfills f hf⟩) hraised
        fun _ s₄ hs₄ => ?_
      rw [wp_bind]
      refine wp_mono (fun r s₅ h₅ => ?_) (wp_followBrokerOrder hs₄)
      cases r with
      | error e => exact Or.inr ⟨h₅.1, e, rfl, h₅.2 e rfl⟩
      | ok refreshed =>
          show wp (serial op adm) (commit.bind _) Finished s₅
          rw [wp_bind]
          refine wp_commit h₅.1 fun s₆ hs₆ _ _ => ?_
          exact Or.inl ⟨refreshed, rfl, hs₆.toStill⟩

end Rules

end SevenLens
