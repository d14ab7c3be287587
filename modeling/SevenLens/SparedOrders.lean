import SevenLens.EngineCalls
import SevenLens.Library.Transaction
import SevenLens.SerialStep

/-! # Orders that a run does not touch

Several intents may be handled in one transaction.  The book of an order is what the tables hold of it: its
intent, its mirror and the fills of its broker id.  The engine, while it handles another intent, issues only calls
that leave the book alone (`keeps_resolve`, `keeps_requestCancel`); what it commits may still include rows of the
order that the transaction already holds. -/

namespace SevenLens

open Calls Prog

/-! ### The book of an order -/

/-- What the tables hold of one order. -/
structure OrderBook where
  intent : Option OrderIntent
  mirror : Option MirrorRow
  fills : List Fill

/-- The book of the order of intent `k` with broker id `b`. -/
def Db.book (db : Db) (k : ClientOrderId) (b : Option String) : OrderBook where
  intent := db.intents.get k
  mirror := db.mirrorOf k
  fills := (b.map db.fillsOf).getD []

namespace Tx

variable (k : ClientOrderId) (b : Option String) (s : Tx)

/-- The committed book. -/
def durable : OrderBook := s.world.db.book k b

/-- The book as the unit of work sees it. -/
def seen : OrderBook := s.view.book k b

end Tx

/-- How a call ends the transaction of the unit of work. -/
def txEnd (s : Tx) : Call → Option Ending
  | .commit .uow => if s.aborted .uow then some .discard else some .commit
  | .rollback .uow => some .discard
  | _ => none

/-- Calls that write nothing of the order of intent `k` with broker id `b`. -/
def Foreign (k : ClientOrderId) (b : Option String) : Call → Prop
  | .store .uow (.transitionStatus c _) => c ≠ k
  | .store .uow (.recordBrokerOrder o) => o.clientOrderId ≠ k
  | .store .uow (.addFill f) => some f.brokerOrderId ≠ b
  | .store _ c => c.isQuiet = true
  | .persistSafetyPause _ | .beginReconciliationSnapshot => False
  | _ => True

section Books

variable {k : ClientOrderId} {b : Option String}

theorem Db.book_congr {a c : Db} (h : SameOrders a c) (hfills : c.fills = a.fills) : c.book k b = a.book k b := by
  have hof : c.fillsOf = a.fillsOf := by
    funext b
    simp only [fillsOf, hfills]
  simp only [book, h.intents, h.mirrorOf, hof]

theorem Db.apply_fills_congr {a c : Db} (h : c.fills = a.fills) (w : Write) : (c.apply w).fills = (a.apply w).fills := by
  cases w with
  | addFill f => exact congrArg (Table.add · f) h
  | addMirror r =>
    simp only [apply]
    split <;> split <;> exact h
  | putMirror r =>
    simp only [apply]
    split <;> split <;> exact h
  | _ => exact h

theorem Db.applyAll_fills_congr {a c : Db} (h : c.fills = a.fills) (ws : List Write) :
    (c.applyAll ws).fills = (a.applyAll ws).fills := by
  induction ws generalizing a c with
  | nil => exact h
  | cons w ws ih => exact ih (apply_fills_congr h w)

theorem QuietRows.applyAll_fills {ws : List Write} (h : QuietRows ws) (db : Db) : (db.applyAll ws).fills = db.fills := by
  induction ws generalizing db with
  | nil => rfl
  | cons w ws ih =>
    rw [Db.applyAll_cons, ih fun v hv => h v (List.mem_cons_of_mem w hv)]
    obtain ⟨c, rfl, -⟩ | ⟨r, rfl⟩ := h w List.mem_cons_self
    · rfl
    · rfl

theorem QuietRows.book {ws : List Write} (h : QuietRows ws) (db : Db) : (db.applyAll ws).book k b = db.book k b :=
  Db.book_congr (h.sameOrders db) (h.applyAll_fills db)

theorem Db.fillsOf_add {db : Db} {f : Fill} {b' : String} (h : f.brokerOrderId ≠ b') :
    (db.applyAll [.addFill f]).fillsOf b' = db.fillsOf b' := by
  simp only [applyAll_cons, applyAll_nil, apply, fillsOf, Table.add]
  split
  · rfl
  · simp [h]

/-- A statement about another order. -/
theorem Db.exec_book {db : Db} {now : UtcTimestamp} {c : StoreCall} {a : c.Ans} {ws : List Write}
    (hc : Foreign k b (.store .uow c)) (h : db.exec now c = .ok (a, ws)) : (db.applyAll ws).book k b = db.book k b := by
  cases c with
  | transitionStatus c t =>
    obtain ⟨i, hi, hp⟩ := transitionStatus_inv h
    obtain ⟨rfl, rfl⟩ := Prod.mk.inj hp
    have hkey : (i.withStatus t).clientOrderId ≠ k := by
      rw [show (i.withStatus t).clientOrderId = c from (Table.key_of_get hi : i.clientOrderId = c)]
      exact hc
    exact congrArg (OrderBook.mk · _ _) (Table.get_put_of_ne hkey)
  | recordBrokerOrder o =>
    obtain ⟨m, -, -, -, hintents, hfills, hmirror⟩ := recordBrokerOrder_inv h
    have hof : (db.applyAll ws).fillsOf = db.fillsOf := by
      funext b
      simp only [fillsOf]
      rw [hfills]
    have hother := hmirror k
    rw [if_neg hc] at hother
    simp only [book, hof]
    rw [hintents, hother]
  | addFill f =>
    obtain ⟨e, hx, -⟩ | hx | hx := addFill_cases db f
    · rw [exec, hx] at h
      cases h
    · rw [exec, hx] at h
      cases h
      rfl
    · rw [exec, hx] at h
      cases h
      have hfills : (b.map (db.applyAll [.addFill f]).fillsOf).getD [] = (b.map db.fillsOf).getD [] := by
        cases b with
        | none => rfl
        | some b' => exact fillsOf_add fun e => hc (congrArg some e)
      exact congrArg (OrderBook.mk _ _) hfills
  | _ => exact (exec_quiet hc h).book db

/-- A call without effect on the unit of work. -/
theorem spared_of_kept {env : Env} {s : Tx} {c : Call} (hend : txEnd s c = none) {q : List Write} (hq : QuietRows q)
    (hdb : (transact env c s).2.world.db = s.world.db.applyAll q)
    (huow : (transact env c s).2.world.session.uow = s.world.session.uow) :
    Spared (transact env) txEnd (Tx.durable k b) (Tx.seen k b) s c := by
  refine ⟨fun _ => ⟨?_, ?_⟩, fun h => ?_, fun h => ?_⟩
  · rw [Tx.durable, hdb]
    exact hq.book s.world.db
  · refine Db.book_congr (view_of_quiet hq hdb huow) ?_
    show (Db.applyAll _ _).fills = (Db.applyAll _ _).fills
    rw [Session.pending, Session.pending, huow, hdb]
    exact Db.applyAll_fills_congr (hq.applyAll_fills _) _
  · rw [hend] at h
    cases h
  · rw [hend] at h
    cases h

/-- A call about another order. -/
theorem spared {env : Env} {s : Tx} {c : Call} (hctl : QuietRows (s.world.session.pending .ctl)) (hc : Foreign k b c) :
    Spared (transact env) txEnd (Tx.durable k b) (Tx.seen k b) s c ∧
      QuietRows ((transact env c s).2.world.session.pending .ctl) := by
  have hkept : ∀ {c : Call}, txEnd s c = none → (transact env c s).2 = s.pass →
      Spared (transact env) txEnd (Tx.durable k b) (Tx.seen k b) s c ∧
        QuietRows ((transact env c s).2.world.session.pending .ctl) := by
    intro c hend hpass
    refine ⟨spared_of_kept hend QuietRows.nil ?_ ?_, ?_⟩
    · rw [hpass]
      rfl
    · rw [hpass]
      rfl
    · rw [hpass]
      exact hctl
  cases c with
  | store h c =>
    by_cases hab : s.aborted h = true
    · exact hkept rfl (by simp only [transact, hab, if_true])
    cases hx : (s.world.view h).exec (env.clock s.world.tick) c with
    | error e =>
      have hout : (transact env (.store h c) s).2.world = s.world.next.reject (.store h c) := by
        simp only [transact, hab, Bool.false_eq_true, if_false, stated_eq, handler, World.statement, World.next_view, hx]
      refine ⟨spared_of_kept rfl QuietRows.nil ?_ ?_, ?_⟩
      · rw [hout]
        rfl
      · rw [hout]
        rfl
      · rw [hout]
        exact hctl
    | ok p =>
      obtain ⟨a, ws⟩ := p
      have hout : (transact env (.store h c) s).2.world = s.world.next.write h ws := by
        simp only [transact, hab, Bool.false_eq_true, if_false, stated_eq, handler, World.statement, World.next_view, hx]
      cases h with
      | uow =>
        refine ⟨⟨fun _ => ⟨?_, ?_⟩, fun h => (by cases h), fun h => (by cases h)⟩, ?_⟩
        · rw [Tx.durable, hout]
          rfl
        · rw [Tx.seen, Tx.view, hout, World.write_view]
          exact Db.exec_book hc hx
        · rw [hout]
          exact hctl
      | ctl =>
        have hquiet : c.isQuiet = true := by cases c <;> exact hc
        refine ⟨spared_of_kept rfl QuietRows.nil ?_ ?_, ?_⟩
        · rw [hout]
          rfl
        · rw [hout]
          rfl
        · rw [hout]
          exact quietRows_set hctl fun _ => hctl.append (Db.exec_quiet hquiet hx)
  | commit h =>
    cases h with
    | uow =>
      cases hab : s.aborted .uow with
      | true =>
        refine ⟨⟨fun h => ?_, fun h => ?_, fun _ => ?_⟩, ?_⟩
        · simp [txEnd, hab] at h
        · simp [txEnd, hab] at h
        · simp only [transact, hab, if_true]
          exact ⟨rfl, congrArg (Db.book · k b) (World.rollback_view _ _)⟩
        · simp only [transact, hab, if_true]
          exact hctl
      | false =>
        refine ⟨⟨fun h => ?_, fun _ => ?_, fun h => ?_⟩, ?_⟩
        · simp [txEnd, hab] at h
        · simp only [transact, hab, Bool.false_eq_true, if_false]
          exact ⟨rfl, congrArg (Db.book · k b) (World.commit_view _ _)⟩
        · simp [txEnd, hab] at h
        · simp only [transact, hab, Bool.false_eq_true, if_false]
          exact hctl
    | ctl =>
      cases hab : s.aborted .ctl with
      | true =>
        refine ⟨spared_of_kept rfl QuietRows.nil ?_ ?_, ?_⟩
        · simp only [transact, hab, if_true]
          rfl
        · simp only [transact, hab, if_true]
          rfl
        · simp only [transact, hab, if_true]
          exact QuietRows.nil
      | false =>
        refine ⟨spared_of_kept rfl hctl ?_ ?_, ?_⟩
        · simp only [transact, hab, Bool.false_eq_true, if_false]
          rfl
        · simp only [transact, hab, Bool.false_eq_true, if_false]
          rfl
        · simp only [transact, hab, Bool.false_eq_true, if_false]
          exact QuietRows.nil
  | rollback h =>
    cases h with
    | uow =>
      refine ⟨⟨fun h => (by cases h), fun h => (by cases h), fun _ => ?_⟩, hctl⟩
      exact ⟨rfl, congrArg (Db.book · k b) (World.rollback_view _ _)⟩
    | ctl => exact ⟨spared_of_kept rfl QuietRows.nil rfl rfl, QuietRows.nil⟩
  | lockControl h =>
    refine hkept rfl ?_
    simp only [transact]
    split
    · rfl
    · rfl
  | broker c =>
    have hworld := (told_like s c (env.broker s.world.tick c)).1
    refine ⟨spared_of_kept rfl QuietRows.nil ?_ ?_, ?_⟩
    · simp only [transact, hworld]
      rfl
    · simp only [transact, hworld]
      rfl
    · simp only [transact, hworld]
      exact hctl
  | persistSafetyPause r => exact hc.elim
  | beginReconciliationSnapshot => exact hc.elim
  | clock => exact hkept rfl rfl
  | currentPrice x => exact hkept rfl rfl
  | uuid4 => exact hkept rfl rfl

end Books

/-! ### Runs elsewhere -/

/-- Executions in which every call is about other orders. -/
def elsewhere (env : Env) (k : ClientOrderId) (b : Option String) : System ports PyError Tx :=
  executing (transact env) fun s c => Foreign k b c ∧ QuietRows (s.world.session.pending .ctl)

/-- Both readings of the book are in `B`, and the second connection carries control rows only. -/
structure Untouched (k : ClientOrderId) (b : Option String) (B : OrderBook → Prop) (s : Tx) : Prop where
  ctl : QuietRows (s.world.session.pending .ctl)
  durable : B (s.durable k b)
  seen : B (s.seen k b)

/-- The mirror has the broker id under which the fills are booked. -/
def OrderBook.Identified (b : Option String) (o : OrderBook) : Prop :=
  ∀ b' ∈ b, ∃ r, o.mirror = some r ∧ r.brokerOrderId = b'

section Elsewhere

variable {env : Env} {k : ClientOrderId} {b : Option String} {B : OrderBook → Prop} {α β : Type} {s s' : Tx}

theorem untouched_step {c : Call} {r : Except PyError c.Ans} (hs : Untouched k b B s) (hc : Foreign k b c)
    (h : (elsewhere env k b).Step s c r s') : Untouched k b B s' := by
  obtain rfl : (transact env c s).2 = s' := congrArg Prod.snd h
  obtain ⟨hspared, hctl⟩ := @spared k b env s c hs.ctl hc
  obtain ⟨hdurable, hseen⟩ := hspared.both hs.durable hs.seen
  exact ⟨hctl, hdurable, hseen⟩

theorem keeps_foreign {p : Proc α} (hp : Within (Foreign k b) (fun _ => True) p) :
    Keeps (elsewhere env k b) (Untouched k b B) p :=
  keeps_within (fun _ _ _ _ hs hc h => untouched_step hs hc h) (fun _ _ hs hc => ⟨hc, hs.ctl⟩) hp

variable (env) in
/-- Such a program returns what it yields. -/
theorem wp_foreign_yields {p : Proc α} {Q : α → Prop} (hp : Within (Foreign k b) (fun _ => True) p)
    (hy : Yields (S := ports) (fun _ _ => True) p Q) (hs : Untouched k b B s) :
    wp (elsewhere env k b) p (fun r s' => Untouched k b B s' ∧ ∀ a, r = .ok a → Q a) s :=
  hy.wp (fun _ _ _ _ hs hc h => ⟨trivial, untouched_step hs hc h⟩) (fun _ _ hs hc => ⟨hc, hs.ctl⟩) hp hs

/-- A call about another order, and what follows it. -/
theorem wp_foreign_bind {c : Call} {f : c.Ans → Proc β} {Q : Except PyError β → Tx → Prop} (hs : Untouched k b B s)
    (hc : Foreign k b c) (herr : ∀ e s', Untouched k b B s' → Q (.error e) s')
    (hok : ∀ a s', Untouched k b B s' → transact env c s = (.ok a, s') → wp (elsewhere env k b) (f a) Q s') :
    wp (elsewhere env k b) ((ask c).bind f) Q s := by
  refine wp_bind.mpr (wp_perform.mpr ⟨⟨hc, hs.ctl⟩, fun r s' h => ?_⟩)
  have hs' := untouched_step hs hc h
  cases r with
  | ok a => exact hok a s' hs' h
  | error e => exact herr e s' hs'

/-- A statement of the unit of work answers what it computes from what it sees. -/
theorem exec_of_transact {c : StoreCall} {a : c.Ans} (h : transact env (.store .uow c) s = (.ok a, s')) :
    ∃ ws, s.view.exec (env.clock s.world.tick) c = .ok (a, ws) := by
  simp only [transact] at h
  split at h
  · cases h
  · simp only [handler, World.statement, World.next_view] at h
    cases hx : (s.world.view .uow).exec (env.clock s.world.tick) c with
    | error e =>
      rw [hx] at h
      cases h
    | ok p =>
      rw [hx] at h
      cases h
      exact ⟨p.2, hx⟩

theorem keeps_requireIntent_bind {c : ClientOrderId} {f : OrderIntent → Proc β}
    (hf : ∀ i, i.clientOrderId = c → Keeps (elsewhere env k b) (Untouched k b B) (f i)) :
    Keeps (elsewhere env k b) (Untouched k b B) ((requireIntent c).bind f) := by
  intro s hs
  unfold requireIntent
  simp only [bind_eq, pure_eq_ret]
  rw [Prog.bind_assoc]
  refine wp_foreign_bind (c := .store .uow (.getIntent c)) hs rfl (fun _ _ h => h) fun a s' hs' h => ?_
  obtain ⟨ws, hx⟩ := exec_of_transact h
  cases hx
  cases hi : s.view.getIntent c with
  | none => exact hs'
  | some i => exact hf i (Table.key_of_get hi) s' hs'

theorem keeps_transition_bind {c : ClientOrderId} {t : OrderStatus} {f : OrderIntent → Proc β} (hc : c ≠ k)
    (hf : ∀ i, i.clientOrderId = c → Keeps (elsewhere env k b) (Untouched k b B) (f i)) :
    Keeps (elsewhere env k b) (Untouched k b B) ((transitionStatus c t).bind f) := by
  intro s hs
  refine wp_foreign_bind (c := .store .uow (.transitionStatus c t)) hs hc (fun _ _ h => h) fun a s' hs' h => ?_
  obtain ⟨ws, hx⟩ := exec_of_transact h
  obtain ⟨i, hi, hp⟩ := Db.transitionStatus_inv hx
  obtain ⟨rfl, -⟩ := Prod.mk.inj hp
  exact hf (i.withStatus t) (Table.key_of_get hi : i.clientOrderId = c) s' hs'

/-! ### The engine elsewhere -/

variable (cfg : EngineConfig) (uuid5 : NameUuid)

theorem pauseCalls_foreign : PauseCalls (Foreign k b) :=
  ⟨fun h _ => by cases h <;> rfl, fun h _ => by cases h <;> rfl, trivial, trivial, trivial⟩

theorem conflictCalls_foreign {c : ClientOrderId} (hc : c ≠ k) : ConflictCalls (Foreign k b) c :=
  ⟨pauseCalls_foreign, hc, fun _ => rfl, fun _ => rfl, fun _ => rfl, fun _ => rfl⟩

theorem conflictErrors_true : ConflictErrors fun _ => True := ⟨fun _ => trivial, fun _ => trivial⟩

theorem yields_raiseConflict {A : (c : Call) → Except PyError c.Ans → Prop} {Q : α → Prop} (i : OrderIntent)
    (conflict message : String) : Yields (S := ports) A (raiseConflict cfg uuid5 i conflict message : Proc α) Q :=
  yields_bind (yields_true _) fun _ _ => yields_raise _

/-- Fills that have been checked belong to the order. -/
theorem yields_checkFills {A : (c : Call) → Except PyError c.Ans → Prop} (i : OrderIntent) (o : BrokerOrder)
    {fills seen : List Fill} (hseen : ∀ g ∈ seen, g.brokerOrderId = o.brokerOrderId) :
    Yields (S := ports) A (checkFills cfg uuid5 i o fills seen) fun _ => ∀ f ∈ fills, f.brokerOrderId = o.brokerOrderId := by
  induction fills generalizing seen with
  | nil => exact yields_ret (by simp)
  | cons f fills ih =>
    simp only [checkFills, bind_eq]
    split
    · rename_i g hg
      split_ifs with hne
      · exact yields_raiseConflict cfg uuid5 i _ _
      · have hf : f.brokerOrderId = o.brokerOrderId := not_not.mp hne ▸ hseen g (List.mem_of_find?_eq_some hg)
        exact (ih hseen).mono fun _ h => List.forall_mem_cons.mpr ⟨hf, h⟩
    · split_ifs with hne
      · exact yields_raiseConflict cfg uuid5 i _ _
      · have hf := not_not.mp hne
        refine yields_bind (yields_true _) fun _ _ => ?_
        split_ifs
        · exact yields_raiseConflict cfg uuid5 i _ _
        · exact (ih (List.forall_mem_cons.mpr ⟨hf, hseen⟩)).mono fun _ h => List.forall_mem_cons.mpr ⟨hf, h⟩

theorem keeps_refreshFromBrokerOrder {i : OrderIntent} {o : BrokerOrder} (hi : i.clientOrderId ≠ k)
    (ho : o.clientOrderId ≠ k) (hb : some o.brokerOrderId ≠ b) :
    Keeps (elsewhere env k b) (Untouched k b B) (refreshFromBrokerOrder cfg uuid5 i o) := by
  have hconflict := @conflictCalls_foreign k b _ hi
  unfold refreshFromBrokerOrder
  simp only [bind_eq, pure_eq_ret]
  refine keeps_bind (keeps_foreign (calls_ask (c := .broker (.listFills o.brokerOrderId)) trivial)) fun fills s hs => ?_
  have hcheck := wp_foreign_yields env (calls_checkFills cfg uuid5 hconflict conflictErrors_true o fills [])
    (yields_checkFills cfg uuid5 i o (by simp)) hs
  refine wp_bind.mpr (wp_mono (fun r s' h => ?_) hcheck)
  obtain ⟨hs', hfills⟩ := h
  cases r with
  | error e => exact hs'
  | ok u =>
    have hadd : ∀ f ∈ fills, Foreign k b (.store .uow (.addFill f)) := by
      intro f hf
      rw [← hfills u rfl f hf] at hb
      exact hb
    refine keeps_foreign ?_ s' hs'
    refine within_bind (calls_mirrorBrokerOrder cfg uuid5 hconflict conflictErrors_true ho) fun _ => ?_
    refine within_bind (calls_addFills cfg uuid5 hconflict conflictErrors_true hadd) fun _ => ?_
    refine within_bind (calls_followBrokerOrder hi fun _ => trivial) fun _ => ?_
    exact within_bind (calls_ask (c := .commit .uow) trivial) fun _ => trivial

/-- The broker id of the order is taken, so that a different order with this id contradicts the other intent. -/
theorem mismatch_of_identified {db : Db} {i : OrderIntent} {o : BrokerOrder} {m : Option BrokerOrder}
    (hi : i.clientOrderId ≠ k) (hdb : (db.book k b).Identified b)
    (h : mismatchFields i o m (db.getBrokerOrderById o.brokerOrderId) = []) : some o.brokerOrderId ≠ b := by
  rintro rfl
  obtain ⟨r, hr, hid⟩ := hdb _ rfl
  obtain ⟨hget, hk⟩ := Db.get_of_mirrorOf hr
  rw [hid] at hget
  simp only [mismatchFields, List.append_eq_nil_iff, ite_eq_left_iff, List.cons_ne_nil, imp_false, ite_eq_right_iff,
    not_or] at h
  refine h.2.2 ?_
  rw [Db.getBrokerOrderById, hget]
  simpa [show r.order.clientOrderId = k from hk] using Ne.symm hi

theorem wp_assertMirrorMatches_elsewhere {i : OrderIntent} {o : BrokerOrder} (hi : i.clientOrderId ≠ k)
    (hB : ∀ o, B o → o.Identified b) (hs : Untouched k b B s) :
    wp (elsewhere env k b) (assertMirrorMatches cfg uuid5 i o) (fun r s' => Untouched k b B s' ∧
      ∀ u, r = .ok u → o.clientOrderId = i.clientOrderId ∧ some o.brokerOrderId ≠ b) s := by
  unfold assertMirrorMatches
  simp only [bind_eq, pure_eq_ret]
  refine wp_foreign_bind (c := .store .uow (.getBrokerOrder i.clientOrderId)) hs rfl
    (fun _ _ h => ⟨h, by rintro _ ⟨⟩⟩) fun m s₁ hs₁ _ => ?_
  refine wp_foreign_bind (c := .store .uow (.getBrokerOrderById o.brokerOrderId)) hs₁ rfl
    (fun _ _ h => ⟨h, by rintro _ ⟨⟩⟩) fun m' s₂ hs₂ h => ?_
  obtain ⟨ws, hx⟩ := exec_of_transact h
  cases hx
  split
  · rename_i hfields
    exact ⟨hs₂, fun _ _ => ⟨(Serial.mismatchFields_nil hfields).1, mismatch_of_identified hi (hB _ hs₁.seen) hfields⟩⟩
  · refine wp_mono (fun r s' h => ⟨h.1, fun u hu => (h.2 u hu).elim⟩) (wp_foreign_yields env (Q := fun _ => False) ?_ ?_ hs₂)
    · exact calls_raiseConflict cfg uuid5 (conflictCalls_foreign hi) conflictErrors_true _ _
    · exact yields_raiseConflict cfg uuid5 i _ _

theorem keeps_recordAccepted {i : OrderIntent} (hi : i.clientOrderId ≠ k) (hB : ∀ o, B o → o.Identified b) (o : BrokerOrder) :
    Keeps (elsewhere env k b) (Untouched k b B) (recordAccepted cfg uuid5 i o) := by
  intro s hs
  unfold recordAccepted
  rw [bind_eq, wp_bind]
  refine wp_mono (fun r s' h => ?_) (wp_assertMirrorMatches_elsewhere cfg uuid5 hi hB hs)
  cases r with
  | error e => exact h.1
  | ok u =>
    obtain ⟨hc, hb⟩ := h.2 u rfl
    exact keeps_refreshFromBrokerOrder cfg uuid5 hi (hc ▸ hi) hb s' h.1

theorem keeps_afterSubmit {i : OrderIntent} (hi : i.clientOrderId ≠ k) (hB : ∀ o, B o → o.Identified b)
    (x : Except PyError SubmitResult) : Keeps (elsewhere env k b) (Untouched k b B) (afterSubmit cfg uuid5 i x) := by
  have hunknown : Within (Foreign k b) (fun _ => True) (becomeUnknown cfg uuid5 i) :=
    calls_becomeUnknown cfg uuid5 pauseCalls_foreign (fun _ => trivial) hi
  unfold afterSubmit
  split
  · refine keeps_foreign (within_ite (fun _ => hunknown) fun _ => within_ite (fun _ => ?_) fun _ => trivial)
    exact within_bind hunknown fun _ => trivial
  · refine keeps_foreign (within_bind (calls_ask (c := .store .uow (.transitionStatus _ _)) hi) fun _ => ?_)
    exact within_bind (calls_ask (c := .commit .uow) trivial) fun _ => trivial
  · exact keeps_recordAccepted cfg uuid5 hi hB _

theorem keeps_completeSubmission {i : OrderIntent} (hi : i.clientOrderId ≠ k) (hB : ∀ o, B o → o.Identified b) :
    Keeps (elsewhere env k b) (Untouched k b B) (completeSubmission cfg uuid5 i) := by
  have hsubmit : Keeps (elsewhere env k b) (Untouched k b B) (submitWhileGuarded cfg uuid5 i) := by
    unfold submitWhileGuarded
    simp only [bind_eq, pure_eq_ret]
    refine keeps_bind (keeps_foreign (within_tryCatch ?_ fun _ _ => trivial)) fun x => keeps_afterSubmit cfg uuid5 hi hB x
    exact within_bind (calls_ask (c := .broker (.submitOrder i)) trivial) fun _ => trivial
  unfold completeSubmission
  refine keeps_tryCatch ?_ fun _ => keeps_ite (fun _ => keeps_foreign (within_ite (fun _ => ?_) fun _ => trivial)) fun _ => keeps_raise _
  · unfold entrySubmissionGuard
    refine keeps_ite (fun _ => hsubmit) fun _ => ?_
    split
    · exact hsubmit
    · rename_i h _
      unfold guarded hasUnresolvedIntents
      simp only [bind_eq, pure_eq_ret]
      refine keeps_bind (keeps_foreign (calls_ask (c := .lockControl h) trivial)) fun _ => ?_
      refine keeps_bind (keeps_tryCatch (keeps_ite (fun _ => keeps_raise _) fun _ => ?_) fun _ => ?_) fun _ => ?_
      · refine keeps_bind (keeps_foreign ?_) fun _ => keeps_ite (fun _ => keeps_raise _) fun _ => hsubmit
        refine within_bind (calls_ask (c := .store .uow (.listByStatus _)) rfl) fun _ => within_ite (fun _ => trivial) fun _ => ?_
        exact within_bind (calls_ask (c := .store .uow (.listByStatus _)) rfl) fun _ => within_ite (fun _ => trivial) fun _ => trivial
      · exact keeps_foreign (within_bind (calls_ask (c := .rollback h) trivial) fun _ => trivial)
      · exact keeps_foreign (within_bind (calls_ask (c := .commit h) trivial) fun _ => trivial)
  · refine within_bind (calls_ask (c := .store .uow (.transitionStatus _ _)) hi) fun u => ?_
    refine within_bind (calls_ask (c := .commit .uow) trivial) fun _ => ?_
    exact within_bind (calls_pause cfg uuid5 pauseCalls_foreign (fun _ => trivial) u _) fun _ => trivial

theorem keeps_resolve {c : ClientOrderId} (hc : c ≠ k) (hB : ∀ o, B o → o.Identified b) :
    Keeps (elsewhere env k b) (Untouched k b B) (resolve cfg uuid5 c) := by
  unfold resolve
  simp only [bind_eq, pure_eq_ret]
  refine keeps_requireIntent_bind fun i hi => keeps_ite (fun _ => keeps_ret i) fun _ => ?_
  have hik : i.clientOrderId ≠ k := hi ▸ hc
  refine keeps_bind (keeps_foreign (calls_ask (c := .broker (.getOrder c)) trivial)) fun o => ?_
  cases o with
  | none =>
    refine keeps_bind (keeps_foreign (calls_ask (c := .clock) trivial)) fun now => keeps_ite (fun _ => ?_) fun _ => ?_
    · have hend : ∀ i : OrderIntent, Within (Foreign k b) (fun _ => True) (commit.bind fun _ => ret i) :=
        fun _ => within_bind (calls_ask (c := .commit .uow) trivial) fun _ => trivial
      refine keeps_foreign (within_ite (fun _ => ?_) fun _ => hend i)
      exact within_bind (calls_ask (c := .store .uow (.transitionStatus c .unknown)) hc) hend
    · exact keeps_completeSubmission cfg uuid5 hik hB
  | some o =>
    refine keeps_bind (keeps_foreign ?_) fun _ => keeps_recordAccepted cfg uuid5 hik hB o
    exact calls_assertMirrorMatches cfg uuid5 (conflictCalls_foreign hik) conflictErrors_true o

theorem keeps_cancelAtBroker {c : ClientOrderId} (hc : c ≠ k) (hB : ∀ o, B o → o.Identified b) {i : OrderIntent}
    (hi : i.clientOrderId = c) : Keeps (elsewhere env k b) (Untouched k b B) (cancelAtBroker cfg uuid5 c i) := by
  refine keeps_bind (keeps_foreign (calls_ask (c := .store .uow (.getBrokerOrder c)) rfl)) fun m => ?_
  cases m with
  | none => exact keeps_raise _
  | some m =>
    refine keeps_bind (keeps_foreign (calls_ask (c := .broker (.cancelOrder _)) trivial)) fun _ => ?_
    unfold absorbBrokerOrder
    refine keeps_bind (keeps_foreign (calls_ask (c := .broker (.getOrder _)) trivial)) fun o => ?_
    cases o with
    | none => exact keeps_raise _
    | some o => exact keeps_recordAccepted cfg uuid5 (hi ▸ hc) hB o

theorem keeps_requestCancel {c : ClientOrderId} (hc : c ≠ k) (hB : ∀ o, B o → o.Identified b) :
    Keeps (elsewhere env k b) (Untouched k b B) (requestCancel cfg uuid5 c) := by
  rw [requestCancel_eq]
  refine keeps_requireIntent_bind fun i hi => keeps_ite (fun _ => keeps_cancelAtBroker cfg uuid5 hc hB hi) fun _ =>
    keeps_ite (fun _ => ?_) fun _ => ?_
  · refine keeps_transition_bind hc fun i hi => ?_
    exact keeps_bind (keeps_foreign (calls_ask (c := .commit .uow) trivial)) fun _ =>
      keeps_cancelAtBroker cfg uuid5 hc hB hi
  · exact keeps_raise _

end Elsewhere

end SevenLens
