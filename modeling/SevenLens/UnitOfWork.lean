import SevenLens.Ports

/-! # Units of work over the store

A connection holds the rows written since its last commit or rollback; its statements see
the committed tables with these rows applied.  `World` is the store with the two
connections a service may hold, and `handler env` answers every call: store calls from the
world, all others from an environment `env` that fixes, for the `n`-th call of the
execution, the instant of the clock and the answers of the broker, of the price provider and
of the identifier generator.  Since the environment is arbitrary and indexed by the position
of the call, it covers every sequence of answers an execution can receive. -/

namespace SevenLens

open Calls

/-- The rows written on each of the two connections of a service. -/
structure Session where
  uow : List Write
  ctl : List Write

namespace Session

/-- Connections without uncommitted rows. -/
def idle : Session := ⟨[], []⟩

def pending (s : Session) : Handle → List Write
  | .uow => s.uow
  | .ctl => s.ctl

def set (s : Session) : Handle → List Write → Session
  | .uow, ws => { s with uow := ws }
  | .ctl, ws => { s with ctl := ws }

@[simp] theorem pending_set_self (s : Session) (h : Handle) (ws : List Write) :
    (s.set h ws).pending h = ws := by
  cases h <;> rfl

theorem pending_set_of_ne (s : Session) {h k : Handle} (ws : List Write) (hk : h ≠ k) :
    (s.set h ws).pending k = s.pending k := by
  cases h <;> cases k <;> first | rfl | exact absurd rfl hk

@[simp] theorem pending_idle (h : Handle) : idle.pending h = [] := by
  cases h <;> rfl

end Session

/-- The committed tables, the connections of the running service, the number of calls made
so far and, as a ghost, the store calls that raised. -/
structure World where
  db : Db
  session : Session
  tick : Nat
  rejected : List Call

namespace World

/-- What statements on connection `h` see. -/
def view (w : World) (h : Handle) : Db := w.db.applyAll (w.session.pending h)

/-- One call has passed. -/
def next (w : World) : World := { w with tick := w.tick + 1 }

/-- A store call has raised. -/
def reject (w : World) (c : Call) : World := { w with rejected := w.rejected ++ [c] }

/-- Add rows to the uncommitted ones of a connection. -/
def write (w : World) (h : Handle) (ws : List Write) : World :=
  { w with session := w.session.set h (w.session.pending h ++ ws) }

/-- Make the rows of a connection durable. -/
def commit (w : World) (h : Handle) : World :=
  { w with db := w.view h, session := w.session.set h [] }

/-- Discard the rows of a connection. -/
def rollback (w : World) (h : Handle) : World := { w with session := w.session.set h [] }

@[simp] theorem next_db (w : World) : w.next.db = w.db := rfl

@[simp] theorem next_tick (w : World) : w.next.tick = w.tick + 1 := rfl

@[simp] theorem next_session (w : World) : w.next.session = w.session := rfl

@[simp] theorem next_view (w : World) (h : Handle) : w.next.view h = w.view h := rfl

@[simp] theorem next_rejected (w : World) : w.next.rejected = w.rejected := rfl

@[simp] theorem reject_db (w : World) (c : Call) : (w.reject c).db = w.db := rfl

@[simp] theorem reject_session (w : World) (c : Call) : (w.reject c).session = w.session := rfl

@[simp] theorem reject_view (w : World) (c : Call) (h : Handle) : (w.reject c).view h = w.view h := rfl

@[simp] theorem reject_rejected (w : World) (c : Call) : (w.reject c).rejected = w.rejected ++ [c] := rfl

@[simp] theorem write_rejected (w : World) (h : Handle) (ws : List Write) :
    (w.write h ws).rejected = w.rejected := rfl

@[simp] theorem commit_rejected (w : World) (h : Handle) : (w.commit h).rejected = w.rejected := rfl

@[simp] theorem rollback_rejected (w : World) (h : Handle) : (w.rollback h).rejected = w.rejected := rfl

@[simp] theorem write_db (w : World) (h : Handle) (ws : List Write) : (w.write h ws).db = w.db := rfl

@[simp] theorem write_nil (w : World) (h : Handle) : w.write h [] = w := by
  cases h <;> simp [write, Session.set, Session.pending]

@[simp] theorem write_view (w : World) (h : Handle) (ws : List Write) :
    (w.write h ws).view h = (w.view h).applyAll ws := by
  simp [view, write, Db.applyAll_append]

@[simp] theorem commit_db (w : World) (h : Handle) : (w.commit h).db = w.view h := rfl

@[simp] theorem commit_view (w : World) (h : Handle) : (w.commit h).view h = w.view h := by
  simp [view, commit]

@[simp] theorem commit_pending (w : World) (h : Handle) : (w.commit h).session.pending h = [] := by
  simp [commit]

@[simp] theorem rollback_db (w : World) (h : Handle) : (w.rollback h).db = w.db := rfl

@[simp] theorem rollback_view (w : World) (h : Handle) : (w.rollback h).view h = w.db := by
  simp [view, rollback]

@[simp] theorem rollback_pending (w : World) (h : Handle) : (w.rollback h).session.pending h = [] := by
  simp [rollback]

/-- Run a statement on a connection. -/
def statement (w : World) (now : UtcTimestamp) (h : Handle) (c : StoreCall) :
    Except PyError c.Ans × World :=
  match (w.view h).exec now c with
  | .ok (a, ws) => (.ok a, w.write h ws)
  | .error e => (.error e, w.reject (.store h c))

/-- `persist_safety_pause`: write the pause on a fresh connection and commit it. -/
def safetyPause (w : World) (now : UtcTimestamp) (reason : String) : Except PyError Unit × World :=
  match w.db.setEntriesPaused now true (some reason) with
  | .ok (_, ws) => (.ok (), { w with db := w.db.applyAll ws })
  | .error e => (.error e, w.reject (.persistSafetyPause reason))

end World

/-- The answers of everything outside the store, by the position of the call. -/
structure Env where
  clock : Nat → UtcTimestamp
  broker : Nat → (c : BrokerCall) → Except PyError c.Ans
  price : Nat → Symbol → Except PyError Price
  uuid : Nat → Uuid

/-- Answer a call from the store and the environment. -/
def handler (env : Env) : Prog.Handler ports PyError World := fun c w => match c with
  | .store h c => w.next.statement (env.clock w.tick) h c
  | .lockControl h => (.ok (w.view h).control, w.next)
  | .commit h => (.ok (), w.next.commit h)
  | .rollback h => (.ok (), w.next.rollback h)
  | .persistSafetyPause reason => w.next.safetyPause (env.clock w.tick) reason
  | .beginReconciliationSnapshot =>
      match w.session.uow with
      | [] => (.ok (), w.next)
      | _ :: _ => (.error ⟨.unitOfWorkState,
          "reconciliation snapshot must begin before any unit-of-work writes"⟩, w.next)
  | .broker c => (env.broker w.tick c, w.next)
  | .clock => (.ok (env.clock w.tick), w.next)
  | .currentPrice s => (env.price w.tick s, w.next)
  | .uuid4 => (.ok (env.uuid w.tick), w.next)

/-! ### Execution of the single calls -/

section Run

open Prog

variable {env : Env} (w : World)

theorem run_ask (c : Call) : run (handler env) (ask c) w = handler env c w :=
  run_perform (S := ports) (handler env) c w

theorem run_statement {h : Handle} {c : StoreCall} {a : c.Ans} {ws : List Write}
    (hc : (w.view h).exec (env.clock w.tick) c = .ok (a, ws)) :
    run (handler env) (ask (.store h c)) w = (.ok a, w.next.write h ws) := by
  rw [run_ask]
  show w.next.statement (env.clock w.tick) h c = _
  simp only [World.statement, World.next_view, hc]
  rfl

theorem run_statement_error {h : Handle} {c : StoreCall} {e : PyError}
    (hc : (w.view h).exec (env.clock w.tick) c = .error e) :
    run (handler env) (ask (.store h c)) w = (.error e, w.next.reject (.store h c)) := by
  rw [run_ask]
  show w.next.statement (env.clock w.tick) h c = _
  simp only [World.statement, World.next_view, hc]
  rfl

/-- A statement that only reads. -/
theorem run_read {h : Handle} {c : StoreCall} {a : c.Ans}
    (hc : (w.view h).exec (env.clock w.tick) c = .ok (a, [])) :
    run (handler env) (ask (.store h c)) w = (.ok a, w.next) := by
  rw [run_statement w hc, World.write_nil]

@[simp] theorem run_getIntent (c : ClientOrderId) :
    run (handler env) (getIntent c) w = (.ok ((w.view .uow).getIntent c), w.next) :=
  run_read w (c := .getIntent c) rfl

@[simp] theorem run_getBrokerOrder (c : ClientOrderId) :
    run (handler env) (getBrokerOrder c) w = (.ok ((w.view .uow).getBrokerOrder c), w.next) :=
  run_read w (c := .getBrokerOrder c) rfl

@[simp] theorem run_getBrokerOrderById (b : String) :
    run (handler env) (getBrokerOrderById b) w = (.ok ((w.view .uow).getBrokerOrderById b), w.next) :=
  run_read w (c := .getBrokerOrderById b) rfl

@[simp] theorem run_getFillByExecutionId (e : String) :
    run (handler env) (getFillByExecutionId e) w = (.ok ((w.view .uow).fills.get e), w.next) :=
  run_read w (c := .getFillByExecutionId e) rfl

@[simp] theorem run_listFills (b : String) :
    run (handler env) (listFills b) w = (.ok ((w.view .uow).fillsOf b), w.next) :=
  run_read w (c := .listFills b) rfl

@[simp] theorem run_controlState (h : Handle) :
    run (handler env) (controlState h) w = (.ok (w.view h).control, w.next) :=
  run_read w (c := .controlState) rfl

@[simp] theorem run_commit : run (handler env) commit w = (.ok (), w.next.commit .uow) := rfl

@[simp] theorem run_rollback : run (handler env) rollback w = (.ok (), w.next.rollback .uow) := rfl

@[simp] theorem run_fail {α : Type} (k : ErrorKind) (m : String) :
    run (handler env) (fail k m : Proc α) w = (.error ⟨k, m⟩, w) := rfl

end Run

end SevenLens
