import SevenLens.ConsumerStream
import SevenLens.EngineCalls

/-! # The entry gate

Which broker submissions of new entries the engine can make while other connections write to
the store.  A worker runs any list of engine operations, one unit of work each.  Between two
of its calls the rest of the system may replace the tables by any others; only the control
row stays as it is while the worker holds it (`submission_guard`).  Two ghosts record which
intents others have changed: since the worker last checked for unresolved intents, and since
it last read or wrote the intent itself.

`entry_gate`: when `submit_order` is called for an intent that is not a risk exit, entries are
not paused, every unresolved intent became so by another connection after the check under
the lock, and the intent is `submitting` or `unknown` unless another connection moved it.
`riskExit_crosses_gate` shows that the exception is real: a risk exit does not take the lock,
and its timeout can commit an `unknown` between the check and the call. -/

namespace SevenLens

open Calls Prog

/-! ### Rows a worker may carry through the gate -/

/-- Rows that leave intents alone and can only pause. -/
def QuietRows (ws : List Write) : Prop :=
  ∀ w ∈ ws, (∃ c, w = .putControl c ∧ c.entriesPaused = true) ∨ ∃ r, w = .addCommand r

/-- Statements that write nothing but such rows. -/
def StoreCall.isQuiet : StoreCall → Bool
  | addIntent _ | transitionStatus _ _ | recordBrokerOrder _ | updateBrokerOrderStatus _ _ _ _
  | addFill _ | setEntriesPaused false _ | bumpFlattenGeneration | addRun _ => false
  | _ => true

namespace QuietRows

theorem nil : QuietRows [] := by simp [QuietRows]

theorem append {ws vs : List Write} (hw : QuietRows ws) (hv : QuietRows vs) : QuietRows (ws ++ vs) := by
  intro w h
  rcases List.mem_append.mp h with h | h
  · exact hw w h
  · exact hv w h

theorem applyAll_intents {ws : List Write} (h : QuietRows ws) (db : Db) :
    (db.applyAll ws).intents = db.intents := by
  induction ws generalizing db with
  | nil => rfl
  | cons w ws ih =>
      rw [Db.applyAll_cons, ih fun v hv => h v (List.mem_cons_of_mem w hv)]
      rcases h w List.mem_cons_self with ⟨c, rfl, -⟩ | ⟨r, rfl⟩ <;> rfl

/-- Seen through quiet rows, entries are open only when they are open in the tables. -/
theorem open_of_applyAll {ws : List Write} (h : QuietRows ws) {db : Db}
    (ho : (db.applyAll ws).control.entriesPaused = false) : db.control.entriesPaused = false := by
  induction ws generalizing db with
  | nil => exact ho
  | cons w ws ih =>
      have hrest := ih (fun v hv => h v (List.mem_cons_of_mem w hv)) ho
      rcases h w List.mem_cons_self with ⟨c, rfl, hc⟩ | ⟨r, rfl⟩
      · rw [Db.apply_putControl_control, hc] at hrest
        cases hrest
      · exact hrest

end QuietRows

theorem Db.exec_quiet {db : Db} {now : UtcTimestamp} {c : StoreCall} {a : c.Ans} {ws : List Write}
    (hc : c.isQuiet = true) (h : db.exec now c = .ok (a, ws)) : QuietRows ws := by
  cases c with
  | addIntent _ | transitionStatus _ _ | recordBrokerOrder _ | updateBrokerOrderStatus _ _ _ _
  | addFill _ | bumpFlattenGeneration | addRun _ => cases hc
  | setEntriesPaused p r =>
      cases p with
      | false => cases hc
      | true =>
          simp only [exec, setEntriesPaused] at h
          split at h
          · cases h
          · split at h
            · cases h
              exact fun w hw => Or.inl ⟨_, List.mem_singleton.mp hw, rfl⟩
            · cases h
          · simp_all
          · simp_all
  | addCommand r =>
      rcases addCommand_writes h with rfl | rfl
      · exact QuietRows.nil
      · exact fun w hw => Or.inr ⟨r, List.mem_singleton.mp hw⟩
  | getBaseline s =>
      simp only [exec] at h
      cases hb : db.getBaseline s with
      | error e => rw [hb] at h; cases h
      | ok b =>
          rw [hb] at h
          cases h
          exact QuietRows.nil
  | getIntent _ | listByStatus _ | getBrokerOrder _ | getBrokerOrderById _ | getFillByExecutionId _
  | listFills _ | listOpenBrokerOrders | listAllBrokerOrders | listAllFills | controlState | latestRun =>
      cases h
      exact QuietRows.nil

/-! ### Exceptions -/

/-- Every exception but the one the entry gate raises. -/
def Mild (e : PyError) : Prop := e.kind ≠ .executionPaused

theorem MirrorRow.refresh_mild {r : MirrorRow} {s : BrokerOrderStatus} {n : Nat}
    {t : Option UtcTimestamp} {e : PyError} (h : r.refresh s n t = .error e) : Mild e := by
  unfold refresh at h
  repeat' split at h
  all_goals cases h
  all_goals simp [Mild]

theorem Db.refreshMirror_mild {db : Db} {b : String} {s : BrokerOrderStatus} {n : Nat}
    {t : Option UtcTimestamp} {e : PyError} (h : db.refreshMirror b s n t = .error e) : Mild e := by
  unfold refreshMirror at h
  split at h
  · cases h
    simp [Mild]
  · rename_i r _
    cases hr : r.refresh s n t with
    | ok r' => rw [hr] at h; cases h
    | error x =>
        rw [hr] at h
        cases h
        exact MirrorRow.refresh_mild hr

/-- No statement raises the exception of the entry gate. -/
theorem Db.exec_mild {db : Db} {now : UtcTimestamp} {c : StoreCall} {e : PyError}
    (h : db.exec now c = .error e) : Mild e := by
  cases c with
  | addIntent i =>
      simp only [exec, addIntent] at h
      grind [Mild]
  | transitionStatus c t =>
      simp only [exec, transitionStatus] at h
      grind [Mild]
  | recordBrokerOrder o =>
      simp only [exec, recordBrokerOrder] at h
      repeat' split at h
      any_goals exact refreshMirror_mild h
      all_goals cases h
      all_goals simp [Mild]
  | updateBrokerOrderStatus b s n t => exact refreshMirror_mild h
  | addFill f =>
      simp only [exec, addFill] at h
      grind [Mild]
  | setEntriesPaused p r =>
      simp only [exec, setEntriesPaused] at h
      grind [Mild]
  | bumpFlattenGeneration =>
      simp only [exec, bumpFlattenGeneration] at h
      grind [Mild]
  | addCommand r =>
      simp only [exec, addCommand] at h
      grind [Mild]
  | addRun r =>
      simp only [exec, addRun] at h
      grind [Mild]
  | getBaseline s =>
      simp only [exec, getBaseline] at h
      repeat' split at h
      all_goals cases h
      all_goals simp [Mild]
  | _ => cases h

/-! ### Workers and the rest of the system -/

/-- What one worker shares with the rest of the system. -/
structure Shared where
  world : World
  /-- The connection on which the worker holds the control row. -/
  lock : Option Handle
  /-- Ghost: the intents others changed since the worker last listed the unknown ones. -/
  sinceCheck : ClientOrderId → Prop
  /-- Ghost: the intents others changed since the worker last read or moved them. -/
  sinceRead : ClientOrderId → Prop

namespace Shared

/-- A worker with fresh connections. -/
def start (db : Db) : Shared := ⟨.start db, none, fun _ => False, fun _ => False⟩

/-- The end of a transaction releases the control row. -/
def lockAfter (lock : Option Handle) : Call → Option Handle
  | .lockControl h => some h
  | .commit h | .rollback h => if lock = some h then none else lock
  | _ => lock

/-- The calls by which a worker learns the state of intent `k`. -/
def reads (k : ClientOrderId) : Call → Prop
  | .store .uow (.getIntent c) | .store .uow (.transitionStatus c _) => c = k
  | _ => False

/-- The call that starts the check for unresolved intents. -/
def checks : Call → Prop
  | .store .uow (.listByStatus .unknown) => True
  | _ => False

/-- The worker's call `c` has been answered and has left `w`. -/
def answered (s : Shared) (c : Call) (w : World) : Shared where
  world := w
  lock := lockAfter s.lock c
  sinceCheck k := s.sinceCheck k ∧ ¬ checks c
  sinceRead k := s.sinceRead k ∧ ¬ reads k c

/-- Others have replaced the tables by `db`. -/
def disturbed (s : Shared) (db : Db) : Shared where
  world := { s.world with db }
  lock := s.lock
  sinceCheck k := s.sinceCheck k ∨ db.intents.get k ≠ s.world.db.intents.get k
  sinceRead k := s.sinceRead k ∨ db.intents.get k ≠ s.world.db.intents.get k

end Shared

/-- Nothing outside the engine raises the exception of the entry gate. -/
def Env.Mild (env : Env) : Prop :=
  (∀ n c e, env.broker n c = .error e → SevenLens.Mild e) ∧
    ∀ n s e, env.price n s = .error e → SevenLens.Mild e

/-- The state in which an entry may be submitted. -/
structure EntryAllowed (s : Shared) (i : OrderIntent) : Prop where
  /-- Entries are not paused. -/
  opened : s.world.db.control.entriesPaused = false
  /-- Whatever is unresolved was made so by others after the check under the lock. -/
  resolved : ∀ j ∈ s.world.db.intents.rows, j.status = .unknown ∨ j.status = .reviewRequired →
    s.sinceCheck j.clientOrderId
  /-- The intent is reserved, unless others have moved it. -/
  reserved : ¬ s.sinceRead i.clientOrderId → ∃ j, s.world.db.intents.get i.clientOrderId = some j ∧
    (j.status = .submitting ∨ j.status = .unknown)

/-- A worker's call is answered from its world and any environment; then others may write
whatever they like, except to a control row that the worker holds. -/
def gate : System ports PyError Shared where
  Step s c r s' := ∃ env db, env.Mild ∧ r = (handler env c s.world).1 ∧
    ((Shared.lockAfter s.lock c).isSome →
      db.control = (handler env c s.world).2.db.control) ∧
    s' = (s.answered c (handler env c s.world).2).disturbed db
  Ok s c := ∀ i, c = .broker (.submitOrder i) → i.intentType = .rebalance → EntryAllowed s i

/-! ### Programs that submit nothing -/

/-- Every call but a submission, where only connections in `loud` write to the order tables. -/
def Permits (loud : Handle → Prop) : Call → Prop
  | .store h c => c.isQuiet = true ∨ loud h
  | .broker (.submitOrder _) => False
  | _ => True

/-- The connections outside `loud` carry quiet rows only. -/
def Quiet (loud : Handle → Prop) (s : Shared) : Prop :=
  ∀ h, ¬ loud h → QuietRows (s.world.session.pending h)

/-- Orders are written by the unit of work. -/
def writing : Handle → Prop := fun h => h = .uow

/-- No connection writes orders. -/
def reading : Handle → Prop := fun _ => False

theorem handler_mild {env : Env} (he : env.Mild) {c : Call} {w : World} {e : PyError}
    (h : (handler env c w).1 = .error e) : Mild e := by
  cases c with
  | store k c =>
      simp only [handler, World.statement] at h
      split at h
      · cases h
      · rename_i x hx
        cases h
        exact Db.exec_mild hx
  | persistSafetyPause reason =>
      simp only [handler, World.safetyPause] at h
      split at h
      · cases h
      · rename_i x hx
        cases h
        exact Db.exec_mild (c := .setEntriesPaused true (some reason)) hx
  | beginReconciliationSnapshot =>
      simp only [handler] at h
      split at h
      · cases h
      · cases h
        simp [Mild]
  | broker c => exact he.1 _ _ _ h
  | currentPrice s => exact he.2 _ _ _ h
  | lockControl k => cases h
  | commit k => cases h
  | rollback k => cases h
  | clock => cases h
  | uuid4 => cases h

theorem quietRows_set {s : Session} {h k : Handle} {ws : List Write}
    (hk : QuietRows (s.pending k)) (hw : h = k → QuietRows ws) : QuietRows ((s.set h ws).pending k) := by
  by_cases e : h = k
  · subst e
    rw [Session.pending_set_self]
    exact hw rfl
  · rw [Session.pending_set_of_ne s ws e]
    exact hk

/-- A permitted call leaves quiet connections quiet. -/
theorem handler_quiet {loud : Handle → Prop} (env : Env) {c : Call} (hc : Permits loud c) {w : World}
    {k : Handle} (hk : ¬ loud k) (hw : QuietRows (w.session.pending k)) :
    QuietRows ((handler env c w).2.session.pending k) := by
  cases c with
  | store h c =>
      simp only [handler, World.statement]
      split
      · rename_i a ws hx
        refine quietRows_set hw fun e => ?_
        subst e
        rcases hc with hc | hc
        · exact hw.append (Db.exec_quiet hc hx)
        · exact absurd hc hk
      · exact hw
  | commit h => exact quietRows_set hw fun _ => QuietRows.nil
  | rollback h => exact quietRows_set hw fun _ => QuietRows.nil
  | persistSafetyPause reason =>
      simp only [handler, World.safetyPause]
      split <;> exact hw
  | beginReconciliationSnapshot =>
      simp only [handler]
      split <;> exact hw
  | lockControl h => exact hw
  | broker c => exact hw
  | clock => exact hw
  | currentPrice s => exact hw
  | uuid4 => exact hw

theorem step_quiet {loud : Handle → Prop} {s s' : Shared} {c : Call} {r : Except PyError c.Ans}
    (hs : Quiet loud s) (hc : Permits loud c) (h : gate.Step s c r s') :
    Quiet loud s' ∧ ∀ e, r = .error e → Mild e := by
  obtain ⟨env, db, he, rfl, -, rfl⟩ := h
  exact ⟨fun k hk => handler_quiet env hc hk (hs k hk), fun e hr => handler_mild he hr⟩

/-- A program of permitted calls keeps quiet connections quiet and does not raise the
exception of the gate. -/
theorem wp_permitted {α : Type} {loud : Handle → Prop} {p : Proc α} (hp : Within (Permits loud) Mild p)
    {s : Shared} (hs : Quiet loud s) :
    wp gate p (fun r s' => Quiet loud s' ∧ ∀ e, r = .error e → Mild e) s := by
  refine wp_within (fun s c r s' hs hc h => step_quiet hs hc h) (fun s c _ hc i e => ?_) hp hs
  subst e
  exact hc.elim

section Permitted

variable (cfg : EngineConfig) (uuid5 : NameUuid)

theorem within_ask {loud : Handle → Prop} {c : Call} (h : Permits loud c) :
    Within (Permits loud) Mild (ask c) := within_perform (S := ports) h

theorem within_fail {α : Type} {loud : Handle → Prop} {k : ErrorKind} (m : String)
    (h : k ≠ .executionPaused) : Within (Permits loud) Mild (fail k m : Proc α) := h

theorem within_reading {α : Type} {p : Proc α} (loud : Handle → Prop) (h : Within (Permits reading) Mild p) :
    Within (Permits loud) Mild p := by
  refine h.mono fun c hc => ?_
  cases c with
  | store k c => exact hc.imp id False.elim
  | broker c => cases c <;> exact hc
  | lockControl k => trivial
  | commit k => trivial
  | rollback k => trivial
  | persistSafetyPause r => trivial
  | beginReconciliationSnapshot => trivial
  | clock => trivial
  | currentPrice s => trivial
  | uuid4 => trivial

theorem controlCommandRecord_create_mild {i : Uuid} {c : ControlCommand} {reason actor : String}
    {run : Option Uuid} {t : UtcTimestamp} {t' : Option UtcTimestamp} {e : PyError}
    (h : ControlCommandRecord.create i c reason actor run t t' = .error e) : Mild e := by
  unfold ControlCommandRecord.create at h
  repeat' split at h
  all_goals cases h
  all_goals simp [Mild]

theorem pauseCalls_permits (loud : Handle → Prop) : PauseCalls (Permits loud) :=
  ⟨fun _ _ => Or.inl rfl, fun _ _ => Or.inl rfl, trivial, trivial, trivial⟩

theorem conflictCalls_permits (k : ClientOrderId) : ConflictCalls (Permits writing) k :=
  ⟨pauseCalls_permits writing, Or.inr rfl, fun _ => Or.inl rfl, fun _ => Or.inl rfl, fun _ => Or.inl rfl, fun _ => Or.inl rfl⟩

theorem conflictErrors_mild : ConflictErrors Mild := ⟨fun _ => by simp [Mild], fun _ => by simp [Mild]⟩

theorem within_pauseForReconciliationRequired (i : OrderIntent) (conflict : String) :
    Within (Permits reading) Mild (pauseForReconciliationRequired cfg uuid5 i conflict) :=
  calls_pause cfg uuid5 (pauseCalls_permits reading) conflictErrors_mild.persistence i conflict

theorem within_assertMirrorMatches (i : OrderIntent) (o : BrokerOrder) :
    Within (Permits writing) Mild (assertMirrorMatches cfg uuid5 i o) :=
  calls_assertMirrorMatches cfg uuid5 (conflictCalls_permits _) conflictErrors_mild o

theorem within_checkFills (i : OrderIntent) (o : BrokerOrder) (fills seen : List Fill) :
    Within (Permits writing) Mild (checkFills cfg uuid5 i o fills seen) :=
  calls_checkFills cfg uuid5 (conflictCalls_permits _) conflictErrors_mild o fills seen

theorem within_addFills (i : OrderIntent) (fills : List Fill) :
    Within (Permits writing) Mild (addFills cfg uuid5 i fills) :=
  calls_addFills cfg uuid5 (conflictCalls_permits _) conflictErrors_mild fun _ _ => Or.inr rfl

theorem within_mirrorBrokerOrder (i : OrderIntent) (o : BrokerOrder) :
    Within (Permits writing) Mild (mirrorBrokerOrder cfg uuid5 i o) :=
  calls_mirrorBrokerOrder cfg uuid5 (conflictCalls_permits _) conflictErrors_mild (Or.inr rfl)

theorem within_followBrokerOrder (i : OrderIntent) (t : OrderStatus) :
    Within (Permits writing) Mild (followBrokerOrder i t) :=
  calls_followBrokerOrder (Or.inr rfl) fun _ => by simp [Mild]

end Permitted

/-! ### Settling -/

/-- The end of an operation: a returned value leaves nothing but quiet rows behind, and the
exception of the gate does not escape. -/
structure Settled {α : Type} (r : Except PyError α) (s : Shared) : Prop where
  ctl : Quiet writing s
  done : ∀ a, r = .ok a → Quiet reading s
  mild : ∀ e, r = .error e → Mild e

theorem Quiet.writing {s : Shared} (h : Quiet reading s) : Quiet SevenLens.writing s := fun k _ => h k id

theorem Settled.raise {α : Type} {s : Shared} {e : PyError} (hs : Quiet SevenLens.writing s) (he : Mild e) :
    Settled (.error e : Except PyError α) s :=
  ⟨hs, by rintro _ ⟨⟩, by rintro _ ⟨⟩; exact he⟩

theorem step_commit {s s' : Shared} {r : Except PyError Unit} (hs : Quiet writing s)
    (h : gate.Step s (.commit .uow) r s') : r = .ok () ∧ Quiet reading s' := by
  have hq := (step_quiet (c := .commit .uow) hs trivial h).1
  obtain ⟨env, db, -, rfl, -, rfl⟩ := h
  refine ⟨rfl, fun k _ => ?_⟩
  cases k with
  | uow => exact QuietRows.nil
  | ctl => exact hq .ctl (by simp [writing])

theorem gate_ok {s : Shared} {c : Call} (h : Permits writing c) : gate.Ok s c := by
  intro i e
  subst e
  exact h.elim

theorem wp_settled {α : Type} {p : Proc α} (hp : Within (Permits reading) Mild p) {s : Shared}
    (hs : Quiet reading s) : wp gate p Settled s :=
  wp_mono (fun _ _ h => ⟨h.1.writing, fun _ _ => h.1, h.2⟩) (wp_permitted hp hs)

/-- Order writes, their commit, and then nothing but the pause. -/
theorem wp_settle {α β : Type} {p : Proc α} {q : α → Proc β} (hp : Within (Permits writing) Mild p)
    (hq : ∀ a, Within (Permits reading) Mild (q a)) {s : Shared} (hs : Quiet writing s) :
    wp gate (p.bind fun a => commit.bind fun _ => q a) Settled s := by
  rw [wp_bind]
  refine wp_mono (fun r s₁ h₁ => ?_) (wp_permitted hp hs)
  cases r with
  | error e => exact Settled.raise h₁.1 (h₁.2 e rfl)
  | ok a =>
      rw [andThen_ok, wp_bind]
      refine wp_perform.mpr ⟨gate_ok trivial, fun r s₂ h₂ => ?_⟩
      obtain ⟨rfl, hs₂⟩ := step_commit h₁.1 h₂
      exact wp_settled (hq a) hs₂

/-- A program that settles by raising. -/
theorem wp_settled_raise {α β : Type} {p : Proc α} {q : α → Proc β} {s : Shared}
    (hp : wp gate p Settled s) (hq : ∀ a, Within (Permits reading) Mild (q a)) :
    wp gate (p.bind q) Settled s := by
  rw [wp_bind]
  refine wp_mono (fun r s₁ h₁ => ?_) hp
  cases r with
  | error e => exact Settled.raise h₁.ctl (h₁.mild e rfl)
  | ok a => exact wp_settled (hq a) (h₁.done a rfl)

section Engine

variable (cfg : EngineConfig) (uuid5 : NameUuid)

theorem wp_becomeUnknown (i : OrderIntent) {s : Shared} (hs : Quiet writing s) :
    wp gate (becomeUnknown cfg uuid5 i) Settled s := by
  refine wp_settle (p := transitionStatus i.clientOrderId .unknown)
    (q := fun u => (pauseForReconciliationRequired cfg uuid5 i ambiguousOutcome).bind fun _ => ret u)
    (within_ask (Or.inr rfl)) (fun u => ?_) hs
  exact within_bind (within_pauseForReconciliationRequired cfg uuid5 i _) fun _ => trivial

theorem wp_recordAccepted (i : OrderIntent) (o : BrokerOrder) {s : Shared} (hs : Quiet writing s) :
    wp gate (recordAccepted cfg uuid5 i o) Settled s := by
  have hp : Within (Permits writing) Mild ((assertMirrorMatches cfg uuid5 i o).bind fun _ =>
      (listBrokerFills o.brokerOrderId).bind fun fills =>
      (checkFills cfg uuid5 i o fills []).bind fun _ => (mirrorBrokerOrder cfg uuid5 i o).bind fun _ =>
      (addFills cfg uuid5 i fills).bind fun _ => followBrokerOrder i (refreshTarget o.status i.status)) := by
    refine within_bind (within_assertMirrorMatches cfg uuid5 i o) fun _ =>
      within_bind (within_ask trivial) fun fills => ?_
    refine within_bind (within_checkFills cfg uuid5 i o fills []) fun _ =>
      within_bind (within_mirrorBrokerOrder cfg uuid5 i o) fun _ => ?_
    exact within_bind (within_addFills cfg uuid5 i fills) fun _ => within_followBrokerOrder i _
  have h := wp_settle (q := fun i => (ret i : Proc OrderIntent)) hp (fun _ => trivial) hs
  simpa only [recordAccepted, refreshFromBrokerOrder, bind_eq, pure_eq_ret, bind_assoc] using h

theorem wp_afterSubmit (i : OrderIntent) {r : Except PyError SubmitResult}
    (hr : ∀ e, r = .error e → Mild e) {s : Shared} (hs : Quiet writing s) :
    wp gate (afterSubmit cfg uuid5 i r) Settled s := by
  unfold afterSubmit
  split
  · rename_i e
    split
    · exact wp_becomeUnknown cfg uuid5 i hs
    · split
      · exact wp_settled_raise (wp_becomeUnknown cfg uuid5 i hs) fun _ => within_fail _ (by decide)
      · exact Settled.raise hs (hr e rfl)
  · exact wp_settle (p := transitionStatus i.clientOrderId .rejected) (q := ret) (within_ask (Or.inr rfl))
      (fun _ => trivial) hs
  · exact wp_recordAccepted cfg uuid5 i _ hs

/-- Once the gate is passed, the submission and what follows it settle. -/
theorem wp_submitWhileGuarded (i : OrderIntent) {s : Shared} (hs : Quiet writing s)
    (hi : i.intentType = .rebalance → EntryAllowed s i) :
    wp gate (submitWhileGuarded cfg uuid5 i) Settled s := by
  unfold submitWhileGuarded
  simp only [bind_eq, pure_eq_ret]
  rw [wp_bind, wp_tryCatch, wp_bind]
  refine wp_perform.mpr ⟨fun j hj ht => ?_, fun r s₁ h₁ => ?_⟩
  · cases hj
    exact hi ht
  · have hs₁ : Quiet writing s₁ ∧ ∀ e, r = .error e → Mild e := by
      obtain ⟨env, db, he, rfl, -, rfl⟩ := h₁
      exact ⟨hs, fun e hr => handler_mild he hr⟩
    cases r with
    | ok a => exact wp_afterSubmit cfg uuid5 i (by rintro _ ⟨⟩) hs₁.1
    | error e => exact wp_afterSubmit cfg uuid5 i (fun _ h => hs₁.2 _ (by cases h; rfl)) hs₁.1

end Engine

/-! ### What survives the calls under the lock -/

/-- Calls that change neither the tables nor the connections. -/
def Call.isIdle : Call → Bool
  | .store _ (.getIntent _) | .store _ (.listByStatus _) | .store _ .controlState => true
  | .lockControl _ | .clock | .broker _ => true
  | _ => false

theorem handler_idle (env : Env) {c : Call} (hc : c.isIdle = true) (w : World) :
    (handler env c w).2 = w.next := by
  cases c with
  | store h c =>
      cases c <;> first | exact World.write_nil _ _ | cases hc
  | lockControl h => rfl
  | clock => rfl
  | broker c => rfl
  | commit h => cases hc
  | rollback h => cases hc
  | persistSafetyPause r => cases hc
  | beginReconciliationSnapshot => cases hc
  | currentPrice s => cases hc
  | uuid4 => cases hc

/-- After an idle call only the others have written. -/
theorem step_idle {s s' : Shared} {c : Call} {r : Except PyError c.Ans} (hc : c.isIdle = true)
    (h : gate.Step s c r s') : ∃ env db, r = (handler env c s.world).1 ∧
      ((Shared.lockAfter s.lock c).isSome → db.control = s.world.db.control) ∧
      s' = (s.answered c s.world.next).disturbed db := by
  obtain ⟨env, db, -, hr, hdb, hs'⟩ := h
  rw [handler_idle env hc s.world] at hdb hs'
  exact ⟨env, db, hr, hdb, hs'⟩

/-- Intent `k` is reserved, unless others have moved it. -/
def Reserved (s : Shared) (k : ClientOrderId) : Prop :=
  ¬ s.sinceRead k → ∃ j, s.world.db.intents.get k = some j ∧ (j.status = .submitting ∨ j.status = .unknown)

/-- Every intent in status `t` was put there by others after the check. -/
def Checked (t : OrderStatus) (s : Shared) : Prop :=
  ∀ j ∈ s.world.db.intents.rows, j.status = t → s.sinceCheck j.clientOrderId

theorem reserved_step {s s' : Shared} {c : Call} {r : Except PyError c.Ans} {k : ClientOrderId}
    (hk : Reserved s k) (hc : c.isIdle = true) (hn : ¬ Shared.reads k c) (h : gate.Step s c r s') :
    Reserved s' k := by
  obtain ⟨env, db, -, -, rfl⟩ := step_idle hc h
  intro hns
  have hsame : ¬ s.sinceRead k ∧ db.intents.get k = s.world.db.intents.get k := by
    simpa [Shared.disturbed, Shared.answered, hn] using hns
  obtain ⟨j, hj, ht⟩ := hk hsame.1
  exact ⟨j, hsame.2.trans hj, ht⟩

theorem checked_step {s s' : Shared} {c : Call} {r : Except PyError c.Ans} {t : OrderStatus}
    (ht : Checked t s) (hc : c.isIdle = true) (hn : ¬ Shared.checks c) (h : gate.Step s c r s') :
    Checked t s' := by
  obtain ⟨env, db, -, -, rfl⟩ := step_idle hc h
  intro j hj hjt
  have hget : db.intents.get j.clientOrderId = some j := Table.get_of_mem hj
  by_cases e : db.intents.get j.clientOrderId = s.world.db.intents.get j.clientOrderId
  · exact Or.inl ⟨ht j (Table.mem_of_get (e.symm.trans hget)) hjt, hn⟩
  · exact Or.inr e

theorem Db.mem_listByStatus {db : Db} {t : OrderStatus} {i : OrderIntent} :
    i ∈ db.listByStatus t ↔ i ∈ db.intents.rows ∧ i.status = t := by
  simp [listByStatus, List.mem_insertionSort]

/-- An empty answer to a listing checks the status. -/
theorem checked_of_list {s s' : Shared} {t : OrderStatus} (hs : Quiet reading s)
    (h : gate.Step s (.store .uow (.listByStatus t)) (.ok []) s') : Checked t s' := by
  obtain ⟨env, db, hr, -, rfl⟩ := step_idle (c := .store .uow (.listByStatus t)) rfl h
  have hempty : (s.world.view .uow).listByStatus t = [] := (Except.ok.inj hr).symm
  have hview : (s.world.view .uow).intents = s.world.db.intents :=
    (hs .uow id).applyAll_intents s.world.db
  intro j hj hjt
  have hget : db.intents.get j.clientOrderId = some j := Table.get_of_mem hj
  refine Or.inr fun e => ?_
  have hmem : j ∈ (s.world.view .uow).listByStatus t := by
    rw [Db.mem_listByStatus, hview]
    exact ⟨Table.mem_of_get (e.symm.trans hget), hjt⟩
  rw [hempty] at hmem
  cases hmem

/-- The worker holds the control row and it is open. -/
def HoldsOpen (h : Handle) (s : Shared) : Prop :=
  s.lock = some h ∧ s.world.db.control.entriesPaused = false

theorem holdsOpen_step {s s' : Shared} {c : Call} {r : Except PyError c.Ans} {h : Handle}
    (hs : HoldsOpen h s) (hc : c.isIdle = true) (hl : Shared.lockAfter s.lock c = s.lock)
    (hstep : gate.Step s c r s') : HoldsOpen h s' := by
  obtain ⟨env, db, -, hdb, rfl⟩ := step_idle hc hstep
  refine ⟨hl.trans hs.1, ?_⟩
  show db.control.entriesPaused = false
  rw [hdb (by rw [hl, hs.1]; rfl)]
  exact hs.2

/-- The lock answers with the state the row keeps while it is held. -/
theorem holdsOpen_of_lock {s s' : Shared} {h : Handle} {cs : ControlStateSnapshot}
    (hs : Quiet reading s) (hcs : cs.entriesPaused = false)
    (hstep : gate.Step s (.lockControl h) (.ok cs) s') : HoldsOpen h s' := by
  obtain ⟨env, db, hr, hdb, rfl⟩ := step_idle (c := .lockControl h) rfl hstep
  refine ⟨rfl, ?_⟩
  show db.control.entriesPaused = false
  rw [hdb rfl]
  have hview : (s.world.view h).control = cs := (Except.ok.inj hr).symm
  exact (hs h id).open_of_applyAll (by rw [← World.view, hview, hcs])

/-! ### The operations -/

/-- The end of the guarded block: the exception of the gate leaves nothing pending. -/
structure Released {α : Type} (r : Except PyError α) (s : Shared) : Prop where
  ctl : Quiet writing s
  done : ∀ a, r = .ok a → Quiet reading s
  raised : ∀ e, r = .error e → Mild e ∨ Quiet reading s

theorem Settled.released {α : Type} {r : Except PyError α} {s : Shared} (h : Settled r s) : Released r s :=
  ⟨h.ctl, h.done, fun e he => Or.inl (h.mild e he)⟩

section Engine

variable (cfg : EngineConfig) (uuid5 : NameUuid)

/-- What the checks under the lock establish for the submission of `i`. -/
structure Cleared (h : Handle) (k : ClientOrderId) (s : Shared) : Prop where
  quiet : Quiet reading s
  reserved : Reserved s k
  holds : HoldsOpen h s

theorem cleared_step {s s' : Shared} {h : Handle} {k : ClientOrderId} {t : OrderStatus}
    {r : Except PyError (List OrderIntent)} (hs : Cleared h k s)
    (hstep : gate.Step s (.store .uow (.listByStatus t)) r s') : Cleared h k s' where
  quiet := (step_quiet (c := .store .uow (.listByStatus t)) hs.quiet (Or.inl rfl) hstep).1
  reserved := reserved_step (c := .store .uow (.listByStatus t)) hs.reserved rfl id hstep
  holds := holdsOpen_step (c := .store .uow (.listByStatus t)) hs.holds rfl rfl hstep

theorem wp_listByStatus {t : OrderStatus} {Q : Except PyError (List OrderIntent) → Shared → Prop} {s : Shared}
    (h : ∀ (r : Except PyError (List OrderIntent)) s',
      gate.Step s (.store .uow (.listByStatus t)) r s' → Q r s') : wp gate (listByStatus t) Q s :=
  wp_perform.mpr ⟨gate_ok (Or.inl rfl), h⟩

/-- The answer that nothing is unresolved holds up to what others change afterwards. -/
theorem wp_hasUnresolvedIntents {h : Handle} {k : ClientOrderId} {s : Shared} (hs : Cleared h k s) :
    wp gate hasUnresolvedIntents (fun r s' => Cleared h k s' ∧
      (r = .ok false → Checked .unknown s' ∧ Checked .reviewRequired s')) s := by
  unfold hasUnresolvedIntents
  simp only [bind_eq, pure_eq_ret]
  rw [wp_bind]
  refine wp_listByStatus fun r s₁ h₁ => ?_
  have hs₁ := cleared_step hs h₁
  cases r with
  | error e => exact ⟨hs₁, by rintro ⟨⟩⟩
  | ok l =>
      rw [andThen_ok]
      split
      · exact ⟨hs₁, by rintro ⟨⟩⟩
      · rename_i hl
        obtain rfl : l = [] := not_not.mp hl
        have hunknown := checked_of_list hs.quiet h₁
        rw [wp_bind]
        refine wp_listByStatus fun r s₂ h₂ => ?_
        have hs₂ := cleared_step hs₁ h₂
        cases r with
        | error e => exact ⟨hs₂, by rintro ⟨⟩⟩
        | ok l =>
            rw [andThen_ok]
            split
            · exact ⟨hs₂, by rintro ⟨⟩⟩
            · rename_i hl
              obtain rfl : l = [] := not_not.mp hl
              refine ⟨hs₂, fun _ => ⟨?_, checked_of_list hs₁.quiet h₂⟩⟩
              exact checked_step (c := .store .uow (.listByStatus .reviewRequired)) hunknown rfl id h₂

theorem released_refused {α : Type} (m : String) {s : Shared} (hs : Quiet reading s) :
    wp gate (fail .executionPaused m : Proc α) Released s :=
  ⟨hs.writing, fun _ _ => hs, fun _ _ => Or.inr hs⟩

/-- The rollback or commit that ends the guarded block. -/
theorem step_end {α : Type} {r : Except PyError α} {s s' : Shared} {c : Call} {u : Except PyError c.Ans}
    (hc : ∀ loud, Permits loud c) (hs : Released r s) (h : gate.Step s c u s') : Released r s' where
  ctl := (step_quiet hs.ctl (hc _) h).1
  done a ha := (step_quiet (hs.done a ha) (hc _) h).1
  raised e he := (hs.raised e he).imp id fun hq => (step_quiet hq (hc _) h).1

/-- The lock, the two checks under it, and the submission behind them. -/
theorem wp_guarded (i : OrderIntent) (h : Handle) {s : Shared} (hs : Quiet reading s)
    (hres : Reserved s i.clientOrderId) :
    wp gate (guarded h (submitWhileGuarded cfg uuid5 i)) Released s := by
  unfold guarded
  simp only [bind_eq, pure_eq_ret]
  rw [wp_bind]
  refine wp_perform.mpr ⟨gate_ok trivial, fun (r : Except PyError ControlStateSnapshot) s₁ h₁ => ?_⟩
  have hs₁ := (step_quiet (c := .lockControl h) hs trivial h₁).1
  have hres₁ := reserved_step (c := .lockControl h) hres rfl id h₁
  cases r with
  | error e => exact ⟨hs₁.writing, by rintro _ ⟨⟩, fun _ _ => Or.inr hs₁⟩
  | ok cs =>
      -- The block, before the rollback or the commit that releases the row.
      have hblock : wp gate (if cs.entriesPaused = true then fail .executionPaused pausedMessage
          else hasUnresolvedIntents.bind fun b =>
            if b = true then
              fail .executionPaused "reconciliation required; unresolved broker truth blocks new entries"
            else submitWhileGuarded cfg uuid5 i) Released s₁ := by
        split
        · exact released_refused _ hs₁
        · rename_i hcs
          have hclear : Cleared h i.clientOrderId s₁ :=
            ⟨hs₁, hres₁, holdsOpen_of_lock hs (by simpa using hcs) h₁⟩
          rw [wp_bind]
          refine wp_mono (fun r s₂ h₂ => ?_) (wp_hasUnresolvedIntents hclear)
          obtain ⟨hs₂, hchecked⟩ := h₂
          cases r with
          | error e => exact ⟨hs₂.quiet.writing, by rintro _ ⟨⟩, fun _ _ => Or.inr hs₂.quiet⟩
          | ok b =>
              rw [andThen_ok]
              split
              · exact released_refused _ hs₂.quiet
              · rename_i hb
                obtain ⟨hunknown, hreview⟩ := hchecked (by simp [hb])
                refine wp_mono (fun _ _ h => h.released) (wp_submitWhileGuarded cfg uuid5 i hs₂.quiet.writing
                  fun _ => ⟨hs₂.holds.2, fun j hj ht => ?_, hs₂.reserved⟩)
                exact ht.elim (hunknown j hj) (hreview j hj)
      rw [andThen_ok, wp_bind, wp_tryCatch]
      refine wp_mono (fun r s₂ h₂ => ?_) hblock
      cases r with
      | error e =>
          rw [orElse_error, wp_bind]
          refine wp_perform.mpr ⟨gate_ok trivial, fun u s₃ h₃ => ?_⟩
          have hs₃ := step_end (c := .rollback h) (fun _ => trivial) h₂ h₃
          obtain ⟨env, db, -, rfl, -⟩ := h₃
          exact hs₃
      | ok a =>
          rw [orElse_ok, andThen_ok, wp_bind]
          refine wp_perform.mpr ⟨gate_ok trivial, fun u s₃ h₃ => ?_⟩
          have hs₃ := step_end (c := .commit h) (fun _ => trivial) h₂ h₃
          obtain ⟨env, db, -, rfl, -⟩ := h₃
          exact hs₃

/-- Every submission of an entry goes through the guard, and it settles. -/
theorem wp_completeSubmission (hcfg : cfg.guardControl.isSome) (i : OrderIntent) {s : Shared}
    (hs : Quiet reading s) (hres : Reserved s i.clientOrderId) :
    wp gate (completeSubmission cfg uuid5 i) Settled s := by
  have hguard : wp gate (entrySubmissionGuard cfg i (submitWhileGuarded cfg uuid5 i)) Released s := by
    unfold entrySubmissionGuard
    split
    · rename_i hexit
      refine wp_mono (fun _ _ h => h.released) (wp_submitWhileGuarded cfg uuid5 i hs.writing fun ht => ?_)
      rw [hexit] at ht
      cases ht
    · split
      · rename_i hnone
        rw [hnone] at hcfg
        cases hcfg
      · exact wp_guarded cfg uuid5 i _ hs hres
  unfold completeSubmission
  rw [wp_tryCatch]
  refine wp_mono (fun r s₁ h₁ => ?_) hguard
  cases r with
  | ok a => exact ⟨h₁.ctl, h₁.done, by rintro _ ⟨⟩⟩
  | error e =>
      rw [orElse_error]
      split
      · rename_i hk
        have hs₁ : Quiet reading s₁ := (h₁.raised e rfl).resolve_left fun hm => hm hk
        split
        · refine wp_settle (p := transitionStatus i.clientOrderId .unknown)
            (q := fun u => (pauseForReconciliationRequired cfg uuid5 u ambiguousOutcome).bind fun _ => ret u)
            (within_ask (Or.inr rfl)) (fun u => ?_) hs₁.writing
          exact within_bind (within_pauseForReconciliationRequired cfg uuid5 u _) fun _ => trivial
        · exact wp_settled (p := ret i) trivial hs₁
      · rename_i hk
        exact Settled.raise h₁.ctl hk

/-- A reserved intent is read as it is in the tables. -/
theorem reserved_of_getIntent {s s' : Shared} {k : ClientOrderId} {j : OrderIntent} (hs : Quiet reading s)
    (h : gate.Step s (.store .uow (.getIntent k)) (.ok (some j)) s')
    (hj : j.status = .submitting ∨ j.status = .unknown) : Reserved s' k ∧ j.clientOrderId = k := by
  obtain ⟨env, db, hr, -, rfl⟩ := step_idle (c := .store .uow (.getIntent k)) rfl h
  have hview : (s.world.view .uow).intents.get k = some j := (Except.ok.inj hr).symm
  rw [World.view, (hs .uow id).applyAll_intents] at hview
  refine ⟨fun hns => ⟨j, ?_, hj⟩, Table.key_of_get hview⟩
  have hsame : db.intents.get k = s.world.db.intents.get k := by
    simpa [Shared.disturbed, Shared.answered, Shared.reads] using hns
  exact hsame.trans hview

/-- A call between two transactions: an answer that raises ends the operation. -/
theorem wp_between {α : Type} {c : Call} {f : c.Ans → Proc α} {Q : Except PyError α → Shared → Prop}
    {s : Shared} (hs : Quiet reading s) (hc : Permits reading c)
    (hQ : ∀ e s', Quiet reading s' → Mild e → Q (.error e) s')
    (hf : ∀ a s', gate.Step s c (.ok a) s' → Quiet reading s' → wp gate (f a) Q s') :
    wp gate ((ask c).bind f) Q s := by
  rw [wp_bind]
  refine wp_perform.mpr ⟨gate_ok ?_, fun r s' h => ?_⟩
  · exact (within_reading writing (within_ask hc)).1
  · have hs' := step_quiet hs hc h
    cases r with
    | error e => exact hQ e s' hs'.1 (hs'.2 e rfl)
    | ok a => exact hf a s' h hs'.1

theorem settled_raise {α : Type} (e : PyError) (s : Shared) (hs : Quiet reading s) (he : Mild e) :
    Settled (.error e : Except PyError α) s := Settled.raise hs.writing he

theorem wp_resolve (hcfg : cfg.guardControl.isSome) (k : ClientOrderId) {s : Shared}
    (hs : Quiet reading s) : wp gate (resolve cfg uuid5 k) Settled s := by
  unfold resolve requireIntent
  simp only [bind_eq, pure_eq_ret, bind_assoc]
  refine wp_between hs (Or.inl rfl) settled_raise fun (j : Option OrderIntent) s₁ h₁ hs₁ => ?_
  cases j with
  | none => exact Settled.raise hs₁.writing (by simp [Mild])
  | some i =>
      show wp gate (if i.status ≠ .submitting ∧ i.status ≠ .unknown then _ else _) Settled s₁
      split
      · exact wp_settled (p := ret i) trivial hs₁
      · rename_i hst
        obtain ⟨hres, hkey⟩ := reserved_of_getIntent hs h₁ (by
          by_contra hn
          exact hst (not_or.mp hn))
        refine wp_between hs₁ trivial settled_raise fun (o : Option BrokerOrder) s₂ h₂ hs₂ => ?_
        have hres₂ := reserved_step (c := .broker (.getOrder k)) hres rfl id h₂
        cases o with
        | none =>
            refine wp_between hs₂ trivial settled_raise fun now s₃ h₃ hs₃ => ?_
            have hres₃ := reserved_step (c := .clock) hres₂ rfl id h₃
            split
            · split
              · exact wp_settle (p := transitionStatus k .unknown) (q := ret)
                  (within_ask (Or.inr rfl)) (fun _ => trivial) hs₃.writing
              · exact wp_settle (p := ret i) (q := ret) trivial (fun _ => trivial) hs₃.writing
            · exact wp_completeSubmission cfg uuid5 hcfg i hs₃ (hkey ▸ hres₃)
        | some o =>
            show wp gate ((assertMirrorMatches cfg uuid5 i o).bind _) Settled s₂
            rw [wp_bind]
            refine wp_mono (fun r s₃ h₃ => ?_)
              (wp_permitted (within_assertMirrorMatches cfg uuid5 i o) hs₂.writing)
            cases r with
            | error e => exact Settled.raise h₃.1 (h₃.2 e rfl)
            | ok u => exact wp_recordAccepted cfg uuid5 i o h₃.1

/-- The pause check of `submit_from_outbox` writes nothing. -/
theorem wp_assertEntriesAllowed (i : OrderIntent) {s : Shared} (hs : Quiet reading s) :
    wp gate (assertEntriesAllowed cfg i) (fun _ s' => Quiet reading s') s := by
  unfold assertEntriesAllowed
  split
  · exact hs
  · refine wp_between hs (Or.inl rfl) (fun _ _ h _ => h) fun (cs : ControlStateSnapshot) s₁ _ hs₁ => ?_
    split
    · exact hs₁
    · split
      · exact hs₁
      · exact hs₁

/-- A transition that is committed holds, unless others move the intent afterwards. -/
theorem reserved_of_commit {s s₁ s₂ : Shared} {k : ClientOrderId} {i : OrderIntent} (hs : Quiet reading s)
    (h₁ : gate.Step s (.store .uow (.transitionStatus k .submitting)) (.ok i) s₁)
    (h₂ : gate.Step s₁ (.commit .uow) (.ok ()) s₂) : i.clientOrderId = k ∧ Reserved s₂ k := by
  obtain ⟨env, db, -, hr, -, rfl⟩ := h₁
  obtain ⟨env', db', -, -, -, rfl⟩ := h₂
  have hview : (s.world.view .uow).intents = s.world.db.intents :=
    (hs .uow id).applyAll_intents s.world.db
  cases hx : (s.world.view .uow).transitionStatus k .submitting with
  | error e =>
      have hrun : handler env (.store .uow (.transitionStatus k .submitting)) s.world = _ :=
        (run_ask s.world _).symm.trans (run_statement_error s.world hx)
      rw [hrun] at hr
      cases hr
  | ok p =>
      obtain ⟨j, hj, rfl⟩ := Db.transitionStatus_inv hx
      have hrun : handler env (.store .uow (.transitionStatus k .submitting)) s.world = _ :=
        (run_ask s.world _).symm.trans (run_statement s.world hx)
      rw [hrun] at hr ⊢
      obtain rfl : i = j.withStatus .submitting := Except.ok.inj hr
      rw [hview] at hj
      have hkey : j.clientOrderId = k := Table.key_of_get hj
      have hquiet : QuietRows s.world.session.uow := hs .uow id
      have hwritten : (db.applyAll (s.world.session.uow ++ [.putIntent (j.withStatus .submitting)])).intents =
          db.intents.put (j.withStatus .submitting) := by
        rw [Db.applyAll_append, Db.applyAll_cons, Db.applyAll_nil, Db.apply_putIntent_intents,
          hquiet.applyAll_intents]
      refine ⟨hkey, fun hns => ?_⟩
      obtain ⟨hns, hsame'⟩ := not_or.mp hns
      have hsame : db.intents.get k = s.world.db.intents.get k := by
        have hns : ¬ (_ ∨ db.intents.get k ≠ s.world.db.intents.get k) := fun h => hns ⟨h, id⟩
        exact not_not.mp (not_or.mp hns).2
      refine ⟨j.withStatus .submitting, ?_, Or.inl rfl⟩
      have hdb' : db'.intents.get k =
          (db.applyAll (s.world.session.uow ++ [.putIntent (j.withStatus .submitting)])).intents.get k :=
        not_not.mp hsame'
      show db'.intents.get k = _
      rw [hdb', hwritten, ← hkey]
      exact Table.get_put_self (hkey.symm ▸ hsame.trans hj)

/-- The commit of a transition to `submitting` reserves the intent. -/
theorem wp_reserve {k : ClientOrderId} {f : OrderIntent → Proc OrderIntent}
    {Q : Except PyError OrderIntent → Shared → Prop} {s : Shared} (hs : Quiet reading s)
    (hQ : ∀ e s', Quiet writing s' → Q (.error e) s')
    (hf : ∀ i s', i.clientOrderId = k → Quiet reading s' → Reserved s' k → wp gate (f i) Q s') :
    wp gate ((transitionStatus k .submitting).bind fun i => commit.bind fun _ => f i) Q s := by
  rw [wp_bind]
  refine wp_perform.mpr ⟨gate_ok (Or.inr rfl), fun (r : Except PyError OrderIntent) s₁ h₁ => ?_⟩
  have hs₁ := (step_quiet (c := .store .uow (.transitionStatus k .submitting)) hs.writing (Or.inr rfl) h₁).1
  cases r with
  | error e => exact hQ e s₁ hs₁
  | ok i =>
      rw [andThen_ok, wp_bind]
      refine wp_perform.mpr ⟨gate_ok trivial, fun (r : Except PyError Unit) s₂ h₂ => ?_⟩
      obtain ⟨rfl, hs₂⟩ := step_commit hs₁ h₂
      obtain ⟨hkey, hres⟩ := reserved_of_commit hs h₁ h₂
      exact hf i s₂ hkey hs₂ hres

theorem wp_submitFromOutbox (hcfg : cfg.guardControl.isSome) (k : ClientOrderId) {s : Shared}
    (hs : Quiet reading s) :
    wp gate (submitFromOutbox cfg uuid5 k) (fun _ s' => Quiet writing s') s := by
  unfold submitFromOutbox requireIntent
  simp only [bind_eq, pure_eq_ret, bind_assoc]
  refine wp_between hs (Or.inl rfl) (fun _ _ h _ => h.writing) fun (j : Option OrderIntent) s₁ _ hs₁ => ?_
  cases j with
  | none => exact hs₁.writing
  | some i =>
      show wp gate (if i.status ≠ .outboxPending then _ else _) _ s₁
      split
      · exact hs₁.writing
      · rw [wp_bind]
        refine wp_mono (fun r s₂ hs₂ => ?_) (wp_assertEntriesAllowed cfg i hs₁)
        cases r with
        | error e => exact hs₂.writing
        | ok u =>
            rw [andThen_ok, wp_bind]
            refine wp_mono (fun r s₃ h₃ => ?_)
              (wp_permitted (p := assertAssetTradable i) ?_ hs₂)
            · cases r with
              | error e => exact h₃.1.writing
              | ok u =>
                  rw [andThen_ok, wp_bind]
                  refine wp_mono (fun r s₄ hs₄ => ?_) (wp_assertEntriesAllowed cfg i h₃.1)
                  cases r with
                  | error e => exact hs₄.writing
                  | ok u =>
                      refine wp_reserve hs₄ (fun _ _ h => h) fun j s₅ hkey hs₅ hres => ?_
                      exact wp_mono (fun _ _ h => h.ctl)
                        (wp_completeSubmission cfg uuid5 hcfg j hs₅ (hkey ▸ hres))
            · refine within_bind (within_ask trivial) fun a => within_ite (fun _ => trivial) fun _ => ?_
              exact within_fail _ (by decide)

theorem wp_recover (hcfg : cfg.guardControl.isSome) {s : Shared} (hs : Quiet reading s) :
    wp gate (recover cfg uuid5) (fun _ s' => Quiet writing s') s := by
  unfold recover
  simp only [bind_eq, pure_eq_ret]
  refine wp_between hs (Or.inl rfl) (fun _ _ h _ => h.writing) fun _ s₁ _ hs₁ => ?_
  refine wp_between hs₁ (Or.inl rfl) (fun _ _ h _ => h.writing) fun _ s₂ _ hs₂ => ?_
  refine wp_foldlM (I := Quiet reading) (fun l i s hs => ?_) (fun _ _ h => h.writing) hs₂
  rw [wp_bind]
  refine wp_mono (fun r s₃ h₃ => ?_) (wp_resolve cfg uuid5 hcfg i.clientOrderId hs)
  cases r with
  | error e => exact h₃.ctl
  | ok a => exact h₃.done a rfl

/-! ### Operations that submit nothing -/

theorem within_requireIntent (k : ClientOrderId) : Within (Permits writing) Mild (requireIntent k) := by
  refine within_bind (within_ask (Or.inl rfl)) fun j => ?_
  cases j with
  | none => exact within_fail _ (by decide)
  | some i => trivial

theorem within_absorbBrokerOrder (i : OrderIntent) :
    Within (Permits writing) Mild (absorbBrokerOrder cfg uuid5 i) := by
  refine within_bind (within_ask trivial) fun o => ?_
  cases o with
  | none => exact within_fail _ (by decide)
  | some o =>
      refine within_bind (within_assertMirrorMatches cfg uuid5 i o) fun _ =>
        within_bind (within_ask trivial) fun fills => ?_
      refine within_bind (within_checkFills cfg uuid5 i o fills []) fun _ =>
        within_bind (within_mirrorBrokerOrder cfg uuid5 i o) fun _ => ?_
      exact within_bind (within_addFills cfg uuid5 i fills) fun _ =>
        within_bind (within_followBrokerOrder i _) fun _ => within_bind (within_ask trivial) fun _ => trivial

theorem within_applyFills (k : ClientOrderId) : Within (Permits writing) Mild (applyFills cfg uuid5 k) := by
  refine within_bind (within_requireIntent k) fun i => within_ite (fun _ => trivial) fun _ => ?_
  refine within_bind (within_ask (Or.inl rfl)) fun m => ?_
  cases m with
  | none => exact within_fail _ (by decide)
  | some m => exact within_absorbBrokerOrder cfg uuid5 i

theorem within_cancelAtBroker (k : ClientOrderId) (i : OrderIntent) :
    Within (Permits writing) Mild (cancelAtBroker cfg uuid5 k i) := by
  refine within_bind (within_ask (Or.inl rfl)) fun m => ?_
  cases m with
  | none => exact within_fail _ (by decide)
  | some m => exact within_bind (within_ask trivial) fun _ => within_absorbBrokerOrder cfg uuid5 i

theorem within_requestCancel (k : ClientOrderId) : Within (Permits writing) Mild (requestCancel cfg uuid5 k) := by
  rw [requestCancel_eq]
  refine within_bind (within_requireIntent k) fun i => ?_
  refine within_ite (fun _ => within_cancelAtBroker cfg uuid5 k i) fun _ => within_ite (fun _ => ?_) fun _ => ?_
  · exact within_bind (within_ask (Or.inr rfl)) fun j => within_bind (within_ask trivial) fun _ =>
      within_cancelAtBroker cfg uuid5 k j
  · exact within_fail _ (by decide)

theorem within_expireStatus (now : UtcTimestamp) (closed : List OrderIntent) (t : OrderStatus) :
    Within (Permits writing) Mild (expireStatus now closed t) := by
  refine within_bind (within_ask (Or.inl rfl)) fun l => within_foldlM fun acc i => ?_
  exact within_ite (fun _ => within_bind (within_ask (Or.inr rfl)) fun _ => trivial) fun _ => trivial

theorem within_cancelOne (closed : List OrderIntent) (i : OrderIntent) :
    Within (Permits writing) Mild (cancelOne cfg uuid5 closed i) := by
  refine within_tryCatch (within_bind (within_requestCancel cfg uuid5 _) fun _ => trivial) fun e he => ?_
  exact within_ite (fun _ => trivial) fun _ => he

theorem within_cancelOverdue (now : UtcTimestamp) (acc : List OrderIntent × List ClientOrderId)
    (t : OrderStatus) : Within (Permits writing) Mild (cancelOverdue cfg uuid5 now acc t) := by
  refine within_bind (within_ask (Or.inl rfl)) fun l => within_foldlM fun acc i => ?_
  refine within_ite (fun _ => trivial) fun _ => within_ite (fun _ => ?_) fun _ => trivial
  exact within_bind (within_cancelOne cfg uuid5 _ i) fun _ => trivial

theorem wp_resolveOverdue (hcfg : cfg.guardControl.isSome) (now : UtcTimestamp) (closed : List OrderIntent)
    (t : OrderStatus) {s : Shared} (hs : Quiet reading s) :
    wp gate (resolveOverdue cfg uuid5 now closed t) Settled s := by
  refine wp_between hs (Or.inl rfl) settled_raise fun l s₁ _ hs₁ => ?_
  refine wp_foldlM (I := Quiet reading) (fun acc i s hs => ?_)
    (fun acc s h => ⟨h.writing, fun _ _ => h, by rintro _ ⟨⟩⟩) hs₁
  split
  · refine wp_bind.mpr (wp_mono (fun r s₂ h₂ => ?_) (wp_resolve cfg uuid5 hcfg i.clientOrderId hs))
    cases r with
    | error e => exact Settled.raise h₂.ctl (h₂.mild e rfl)
    | ok a => exact h₂.done a rfl
  · exact hs

theorem wp_expireOverdue (hcfg : cfg.guardControl.isSome) {s : Shared} (hs : Quiet reading s) :
    wp gate (expireOverdue cfg uuid5) (fun _ s' => Quiet writing s') s := by
  unfold expireOverdue
  simp only [bind_eq, pure_eq_ret]
  refine wp_between hs trivial (fun _ _ h _ => h.writing) fun (now : UtcTimestamp) s₁ _ hs₁ => ?_
  rw [wp_bind]
  have hresolve : wp gate ([OrderStatus.submitting, .unknown].foldlM (resolveOverdue cfg uuid5 now) [])
      (fun _ s' => Quiet writing s') s₁ := by
    refine wp_foldlM (I := Quiet reading) (fun acc t s hs => ?_) (fun _ _ h => h.writing) hs₁
    refine wp_mono (fun r s₂ h₂ => ?_) (wp_resolveOverdue cfg uuid5 hcfg now acc t hs)
    cases r with
    | error e => exact h₂.ctl
    | ok a => exact h₂.done a rfl
  refine wp_mono (fun r s₂ hs₂ => ?_) hresolve
  cases r with
  | error e => exact hs₂
  | ok closed =>
      -- From here on nothing is submitted.
      refine wp_mono (fun _ _ h => h.1) (wp_permitted (within_bind ?_ fun closed => ?_) hs₂)
      · exact within_foldlM fun acc t => within_expireStatus now acc t
      · refine within_bind (within_foldlM fun acc t => within_cancelOverdue cfg uuid5 now acc t) fun acc => ?_
        exact within_ite (fun _ => within_bind (within_ask trivial) fun _ => trivial) fun _ => trivial

end Engine

/-! ### Workers -/

/-- The operations of the engine. -/
inductive EngineOp where
  | submitFromOutbox (c : ClientOrderId)
  | resolve (c : ClientOrderId)
  | recover
  | applyFills (c : ClientOrderId)
  | requestCancel (c : ClientOrderId)
  | expireOverdue

/-- Run an operation for its effect. -/
def EngineOp.proc (cfg : EngineConfig) (uuid5 : NameUuid) : EngineOp → Proc Unit
  | submitFromOutbox c => (SevenLens.submitFromOutbox cfg uuid5 c).bind fun _ => ret ()
  | resolve c => (SevenLens.resolve cfg uuid5 c).bind fun _ => ret ()
  | recover => (SevenLens.recover cfg uuid5).bind fun _ => ret ()
  | applyFills c => (SevenLens.applyFills cfg uuid5 c).bind fun _ => ret ()
  | requestCancel c => (SevenLens.requestCancel cfg uuid5 c).bind fun _ => ret ()
  | expireOverdue => (SevenLens.expireOverdue cfg uuid5).bind fun _ => ret ()

/-- A worker runs operations one after another, each in a unit of work of its own: an
exception ends the operation, and what is not committed at its end is rolled back. -/
def worker (cfg : EngineConfig) (uuid5 : NameUuid) (ops : List EngineOp) : Proc Unit :=
  ops.foldlM (fun _ op => (suppress (op.proc cfg uuid5)).bind fun _ => rollback) ()

theorem wp_discard {α : Type} {p : Proc α} {s : Shared} (h : wp gate p (fun _ s' => Quiet writing s') s) :
    wp gate (p.bind fun _ => ret ()) (fun _ s' => Quiet writing s') s := by
  rw [wp_bind]
  refine wp_mono (fun r s' hs' => ?_) h
  cases r <;> exact hs'

theorem wp_proc (cfg : EngineConfig) (uuid5 : NameUuid) (hcfg : cfg.guardControl.isSome) (op : EngineOp)
    {s : Shared} (hs : Quiet reading s) :
    wp gate (op.proc cfg uuid5) (fun _ s' => Quiet writing s') s := by
  cases op with
  | submitFromOutbox c => exact wp_discard (wp_submitFromOutbox cfg uuid5 hcfg c hs)
  | resolve c => exact wp_discard (wp_mono (fun _ _ h => h.ctl) (wp_resolve cfg uuid5 hcfg c hs))
  | recover => exact wp_discard (wp_recover cfg uuid5 hcfg hs)
  | applyFills c =>
      exact wp_discard (wp_mono (fun _ _ h => h.1) (wp_permitted (within_applyFills cfg uuid5 c) hs.writing))
  | requestCancel c =>
      exact wp_discard (wp_mono (fun _ _ h => h.1) (wp_permitted (within_requestCancel cfg uuid5 c) hs.writing))
  | expireOverdue => exact wp_discard (wp_expireOverdue cfg uuid5 hcfg hs)

theorem wp_worker (cfg : EngineConfig) (uuid5 : NameUuid) (hcfg : cfg.guardControl.isSome)
    (ops : List EngineOp) {s : Shared} (hs : Quiet reading s) :
    wp gate (worker cfg uuid5 ops) (fun _ s' => Quiet reading s') s := by
  refine wp_foldlM (I := Quiet reading) (fun _ op s hs => ?_) (fun _ _ h => h) hs
  rw [wp_bind, wp_suppress]
  refine wp_mono (fun _ s₁ hs₁ => ?_) (wp_proc cfg uuid5 hcfg op hs)
  refine wp_perform.mpr ⟨gate_ok trivial, fun r s₂ h₂ => ?_⟩
  have hctl := (step_quiet (c := .rollback .uow) hs₁ trivial h₂).1
  obtain ⟨env, db, -, rfl, -, rfl⟩ := h₂
  intro k _
  cases k with
  | uow => exact QuietRows.nil
  | ctl => exact hctl .ctl (by simp [writing])

/-- **The entry gate.**  Whatever operations a worker runs, with a control repository at hand,
and whatever the broker answers and the other connections write in between: when it submits
an intent that is not a risk exit, `EntryAllowed` holds. -/
theorem entry_gate (cfg : EngineConfig) (uuid5 : NameUuid) (ops : List EngineOp) (db : Db) (s : Shared)
    (i : OrderIntent) (k : Except PyError SubmitResult → Proc Unit) (hcfg : cfg.guardControl.isSome)
    (hrun : Reach gate (.start db) (worker cfg uuid5 ops) s (.call (.broker (.submitOrder i)) k))
    (hi : i.intentType = .rebalance) : EntryAllowed s i := by
  have hstart : Quiet reading (.start db) := by
    intro k _
    cases k <;> exact QuietRows.nil
  exact ok_of_reach (wp_worker cfg uuid5 hcfg ops hstart) hrun i rfl hi

/-! ### A risk exit across the gate -/

/-- A system without interference. -/
theorem gate_follows {env : Env} (he : env.Mild) (s : Shared) (c : Call) :
    ∃ s', gate.Step s c (handler env c s.world).1 s' ∧ s'.world = (handler env c s.world).2 :=
  ⟨_, ⟨env, (handler env c s.world).2.db, he, rfl, fun _ => rfl, rfl⟩, rfl⟩

/-- A broker that knows every asset and whose order endpoints time out. -/
def timeoutEnv : Env where
  clock _ := instant 10
  broker _
    | .getAsset s => .ok (some ⟨s, .usEquity, .active, true⟩)
    | _ => .error ⟨.brokerTransport, "timeout"⟩
  price _ _ := .error ⟨.markPriceUnavailable, "unreachable"⟩
  uuid := sampleEnv.uuid

theorem timeoutEnv_mild : timeoutEnv.Mild := by
  constructor
  · intro n c e h
    cases c <;> cases h <;> simp [Mild]
  · intro n s e h
    cases h
    simp [Mild]

def exitId : ClientOrderId := ⟨"slv1-seven-lens-2026-08-17-open-t1-MSFT-sell", by decide +kernel⟩

/-- A risk exit in the outbox. -/
def exitIntent : OrderIntent :=
  { sampleIntent .outboxPending with
    intentId := .two
    clientOrderId := exitId
    symbol := ⟨"MSFT", by decide⟩
    side := .sell
    intentType := .riskExit
    intentId_ne := Uuid.two_ne
    id_eq := by decide +kernel }

/-- A new entry and a risk exit in the outbox; entries are not paused. -/
def crossingDb : Db where
  intents := (Table.empty.add (sampleIntent .outboxPending)).add exitIntent
  mirrors := Table.empty
  fills := Table.empty
  control := ⟨false, none, instant 0, 0, rfl, Db.no_reason_ok⟩
  commands := Table.empty
  runs := []
  baselineRevisions := []
  accountBaselines := []
  client_unique := Db.no_mirrors_unique

/-- The unit of work has a control repository, and the engine one on another connection. -/
def sampleConfig : EngineConfig := ⟨true, some .ctl⟩

/-- The entry's worker after its first `n` calls. -/
def entryWorker (n : Nat) : Proc Unit × World :=
  advance (handler timeoutEnv) n (worker sampleConfig sampleUuid5 [.submitFromOutbox sampleId])
    (.start crossingDb)

theorem entryWorker_submits :
    (entryWorker 9).1.next = some (.broker (.submitOrder (sampleIntent .submitting))) := by
  decide +kernel

/-- Undisturbed, the entry in the outbox is submitted through the gate. -/
theorem entry_gate_sample : ∃ s, EntryAllowed s (sampleIntent .submitting) ∧ s.world = (entryWorker 9).2 := by
  obtain ⟨k, hk⟩ := eq_call_of_next entryWorker_submits
  obtain ⟨s, hreach, hs⟩ := reach_advance (f := Shared.world) (gate_follows timeoutEnv_mild) 9
    (worker sampleConfig sampleUuid5 [.submitFromOutbox sampleId]) (.start crossingDb)
  have hreach : Reach gate _ _ s (entryWorker 9).1 := hreach
  rw [hk] at hreach
  exact ⟨s, entry_gate sampleConfig sampleUuid5 [.submitFromOutbox sampleId] crossingDb s _ k
    (by decide) hreach rfl, hs⟩

/-- The tables after another worker has run the risk exit beside the entry's worker, whose
checks are done and who has not submitted yet. -/
def crossedDb : Db :=
  (run (handler timeoutEnv) (worker sampleConfig sampleUuid5 [.submitFromOutbox exitId])
    (.start (entryWorker 9).2.db)).2.db

/-- A risk exit that times out between the checks and the submission of an entry: the entry is
submitted while the exit is `unknown`. -/
theorem riskExit_crosses_gate : ∃ s k, Reach gate (.start crossingDb)
      (worker sampleConfig sampleUuid5 [.submitFromOutbox sampleId]) s
      (.call (.broker (.submitOrder (sampleIntent .submitting))) k) ∧
    (sampleIntent .submitting).intentType = .rebalance ∧ s.world.db = crossedDb ∧
    (s.world.db.intents.get exitId).map OrderIntent.status = some .unknown := by
  have hnext : (entryWorker 8).1.next = some (.store .uow (.listByStatus .reviewRequired)) := by
    decide +kernel
  obtain ⟨k₈, hk₈⟩ := eq_call_of_next hnext
  obtain ⟨k, hk⟩ := eq_call_of_next entryWorker_submits
  obtain ⟨s, hreach, hs⟩ := reach_advance (f := Shared.world) (gate_follows timeoutEnv_mild) 8
    (worker sampleConfig sampleUuid5 [.submitFromOutbox sampleId]) (.start crossingDb)
  have hs : s.world = (entryWorker 8).2 := hs
  have hreach : Reach gate _ _ s (entryWorker 8).1 := hreach
  have hworker : entryWorker 9 = _ := advance_succ (Prod.ext hk₈ hs.symm)
  rw [hk₈] at hreach
  have hlast : gate.Step s (.store .uow (.listByStatus .reviewRequired))
      (handler timeoutEnv (.store .uow (.listByStatus .reviewRequired)) s.world).1
      ((s.answered (.store .uow (.listByStatus .reviewRequired)) (entryWorker 9).2).disturbed crossedDb) := by
    refine ⟨timeoutEnv, crossedDb, timeoutEnv_mild, rfl, fun _ => ?_, ?_⟩
    · have hcontrol : crossedDb.control = (entryWorker 9).2.db.control := by decide +kernel
      rw [hcontrol, hworker]
    · rw [hworker]
  have hcrossed := hreach.snoc hlast
  have hprog : k₈ (handler timeoutEnv (.store .uow (.listByStatus .reviewRequired)) s.world).1 =
      (entryWorker 9).1 := by rw [hworker]
  rw [hprog, hk] at hcrossed
  have hunknown : (crossedDb.intents.get exitId).map OrderIntent.status = some .unknown := by
    decide +kernel
  exact ⟨_, k, hcrossed, rfl, rfl, hunknown⟩

end SevenLens
