import SevenLens.Invocation.Invoker
import SevenLens.Library.Concurrent

/-! # At most one request for a call

Invocations run at the same time, in one process or in several, and any of them may stop between two of its calls.  A
statement of the database fails, or takes effect and is answered, or takes effect and its answer is lost.  Beside the
database the state records who was told that a call is claimed, or would have been told, and who sent a request.  The
invocation that claimed a call owns its claim and its record until the record is written; nobody changes a record. -/

namespace SevenLens.Invocation

open Securities Analysis Analysis.Proposals Calls Prog

structure World where
  db : AuditDb
  /-- The invocations that claimed a call. -/
  claimed : List (Nat × RunId)
  /-- The invocations that sent a request of a call. -/
  sent : List (Nat × RunId)

def World.initial : World := ⟨.empty, [], []⟩

section Steps

variable (R : Rules) (isAuthority : String → Bool) (i : Nat)

/-- The answer to a call of invocation `i`, and the state after it. -/
def Answer (w : World) : (c : Call) → Except Raised (calls.Ans c) → World → Prop
  | .select callId, r, w' => w' = w ∧ ∀ a, r = .ok a → a = w.db.audits.get callId
  | .claim a, r, w' => (w' = w ∧ ∃ e, r = .error e) ∨
      ∃ now decision db, w.db.claimModelCallAttempt now a = .ok (decision, db) ∧
        w' = { w with db := db, claimed := if decision = .claimed then w.claimed ++ [(i, a.callId)] else w.claimed } ∧
        ∀ d, r = .ok d → d = decision
  | .register row, r, w' => (w' = w ∧ ∃ e, r = .error e) ∨
      ∃ now clock inserted db, w.db.registerModelCallAttempt R isAuthority now clock row = .ok (inserted, db) ∧
        w' = { w with db := db } ∧ ∀ b, r = .ok b → b = inserted
  | .now, _, w' => w' = w
  | .execute request, _, w' => w' = { w with sent := w.sent ++ [(i, request.callId)] }

/-- The call is claimed and not recorded. -/
def World.Open (w : World) (callId : RunId) : Prop := ∃ row, w.db.claims.get callId = some row ∧ row.closedAt = none

/-- A request is sent once, under a claim of one's own that is open.  Only who claimed a call records it. -/
def Acceptable (w : World) : Call → Prop
  | .claim a => ModelCallClaim.postInit R a = .ok ()
  | .execute request => (i, request.callId) ∈ w.claimed ∧ (i, request.callId) ∉ w.sent ∧ w.Open request.callId
  | .register row => (i, row.callId) ∈ w.claimed
  | _ => True

def system : System calls Raised World where
  Step := Answer R isAuthority i
  Ok := Acceptable R i

end Steps

/-! ### What invocations rely on -/

structure Consistent (R : Rules) (w : World) : Prop where
  accepted : ∀ row ∈ w.db.claims.rows, ModelCallClaim.postInit R row.claim = .ok ()
  claimed_once : (w.claimed.map Prod.snd).Nodup
  claimed_durable : ∀ p ∈ w.claimed, w.db.claims.get p.2 ≠ none
  sent_claimed : w.sent ⊆ w.claimed
  sent_once : w.sent.Nodup
  /-- A call is recorded under its claim, which is closed then and only then. -/
  recorded : ∀ row ∈ w.db.audits.rows, ∃ cr, w.db.claims.get row.callId = some cr ∧ cr.claim = row.record.claim ∧
    cr.closedAt ≠ none

/-- What the steps of other invocations leave to invocation `i`. -/
structure Undisturbed (i : Nat) (w w' : World) : Prop where
  claimed : ∀ callId, (i, callId) ∈ w'.claimed ↔ (i, callId) ∈ w.claimed
  sent : ∀ callId, (i, callId) ∈ w'.sent ↔ (i, callId) ∈ w.sent
  audits : ∀ callId row, w.db.audits.get callId = some row → w'.db.audits.get callId = some row
  claims : ∀ callId, (i, callId) ∈ w.claimed → w'.db.claims.get callId = w.db.claims.get callId

theorem Undisturbed.refl (i : Nat) (w : World) : Undisturbed i w w :=
  ⟨fun _ => Iff.rfl, fun _ => Iff.rfl, fun _ _ h => h, fun _ _ => rfl⟩

theorem Undisturbed.trans (i : Nat) {w w' w'' : World} (h : Undisturbed i w w') (h' : Undisturbed i w' w'') :
    Undisturbed i w w'' where
  claimed callId := (h'.claimed callId).trans (h.claimed callId)
  sent callId := (h'.sent callId).trans (h.sent callId)
  audits callId row hrow := h'.audits callId row (h.audits callId row hrow)
  claims callId hown := (h'.claims callId ((h.claimed callId).mpr hown)).trans (h.claims callId hown)

/-- Invocation `i` has claimed nothing and sent nothing. -/
def Idle (i : Nat) (w : World) : Prop := ∀ callId, (i, callId) ∉ w.claimed ∧ (i, callId) ∉ w.sent

theorem Idle.undisturbed (i : Nat) {w w' : World} (h : Undisturbed i w w') (hidle : Idle i w) : Idle i w' :=
  fun callId => ⟨mt (h.claimed callId).mp (hidle callId).1, mt (h.sent callId).mp (hidle callId).2⟩

def discipline (R : Rules) : Discipline World where
  Inv := Consistent R
  Rely := Undisturbed
  Fresh := Idle
  refl := Undisturbed.refl
  trans := Undisturbed.trans
  fresh := Idle.undisturbed

theorem Consistent.initial (R : Rules) : Consistent R World.initial :=
  ⟨by simp [World.initial, AuditDb.empty, Table.empty], List.nodup_nil, by simp [World.initial], by simp [World.initial], List.nodup_nil,
    by simp [World.initial, AuditDb.empty, Table.empty]⟩

/-! ### The functions of the database -/

/-- A call is claimed by a row that was not there. -/
theorem claimModelCallAttempt_ok {db db' : AuditDb} {now : Nat} {a : ModelCallClaim.Args}
    {decision : ModelCallClaimDecision} (h : db.claimModelCallAttempt now a = .ok (decision, db')) :
    (decision ≠ .claimed ∧ db' = db) ∨
      decision = .claimed ∧ db.claims.get a.callId = none ∧ db' = { db with claims := db.claims.add ⟨a, now, none⟩ } := by
  simp only [AuditDb.claimModelCallAttempt, bind_ok, require_ok, exists_const] at h
  obtain ⟨-, h⟩ := h
  split at h
  · simp only [bind_ok, require_ok, exists_const, pure_ok, Prod.mk.injEq] at h
    obtain ⟨-, rfl, rfl⟩ := h
    refine .inl ⟨?_, rfl⟩
    split <;> decide
  · rename_i hnone
    cases h
    exact .inr ⟨rfl, hnone, rfl⟩

/-- A record is written under its open claim, and closes it. -/
theorem registerModelCallAttempt_ok {R : Rules} {isAuthority : String → Bool} {db db' : AuditDb} {now clock : Nat}
    {row : AuditRow} {inserted : Bool}
    (h : db.registerModelCallAttempt R isAuthority now clock row = .ok (inserted, db')) :
    ∃ cr, db.claims.get row.callId = some cr ∧ cr.claim = row.record.claim ∧
      ((inserted = false ∧ db.audits.get row.callId = some row ∧ db' = db) ∨
        inserted = true ∧ db.audits.get row.callId = none ∧ cr.closedAt = none ∧
          db' = { claims := db.claims.put { cr with closedAt := some now }, audits := db.audits.add row }) := by
  simp only [AuditDb.registerModelCallAttempt, bind_ok, require_ok, exists_const] at h
  obtain ⟨-, -, h⟩ := h
  split at h
  · cases h
  · rename_i cr hcr
    simp only [bind_ok, require_ok, exists_const] at h
    obtain ⟨hclaim, -, -, h⟩ := h
    refine ⟨cr, hcr, hclaim, ?_⟩
    split at h
    · rename_i existing hexisting
      simp only [bind_ok, require_ok, exists_const, pure_ok, Prod.mk.injEq] at h
      obtain ⟨rfl, rfl, rfl⟩ := h
      exact .inl ⟨rfl, hexisting, rfl⟩
    · rename_i hnone
      simp only [bind_ok, require_ok, exists_const, pure_ok, Prod.mk.injEq] at h
      obtain ⟨hopen, -, rfl, rfl⟩ := h
      exact .inr ⟨rfl, hnone, hopen, rfl⟩

/-! ### Acceptable calls -/

section Guarantee

variable {R : Rules} {isAuthority : String → Bool} {i : Nat} {w w' : World}

/-- Of a call that is claimed twice there is one invocation. -/
theorem Consistent.owner (h : Consistent R w) {i j : Nat} {callId : RunId} (hi : (i, callId) ∈ w.claimed)
    (hj : (j, callId) ∈ w.claimed) : i = j :=
  (Prod.mk.inj (List.inj_on_of_nodup_map h.claimed_once hi hj rfl)).1

/-- A claim that is new is of no other invocation. -/
theorem Consistent.claim (h : Consistent R w) {now : Nat} {a : ModelCallClaim.Args} (hnone : w.db.claims.get a.callId = none)
    (haccepted : ModelCallClaim.postInit R a = .ok ()) :
    Consistent R { w with db := { w.db with claims := w.db.claims.add ⟨a, now, none⟩ },
                          claimed := w.claimed ++ [(i, a.callId)] } ∧
      ∀ j ≠ i, Undisturbed j w { w with db := { w.db with claims := w.db.claims.add ⟨a, now, none⟩ },
                                        claimed := w.claimed ++ [(i, a.callId)] } := by
  have hself : (w.db.claims.add ⟨a, now, none⟩).get a.callId = some ⟨a, now, none⟩ := Table.get_add_self hnone
  have hother : ∀ callId, w.db.claims.get callId ≠ none →
      (w.db.claims.add ⟨a, now, none⟩).get callId = w.db.claims.get callId := by
    intro callId hsome
    refine Table.get_add_of_ne (v := (⟨a, now, none⟩ : ClaimRow)) ?_
    rintro rfl
    exact hsome hnone
  have hfresh : ∀ p ∈ w.claimed, p.2 ≠ a.callId := fun p hp heq => h.claimed_durable p hp (heq ▸ hnone)
  refine ⟨⟨?_, ?_, ?_, ?_, h.sent_once, ?_⟩, fun j hj => ⟨?_, fun _ => Iff.rfl, fun _ _ hrow => hrow, ?_⟩⟩
  · intro row hrow
    rcases (Table.mem_add_iff (v := (⟨a, now, none⟩ : ClaimRow)) hnone).mp hrow with hrow | rfl
    · exact h.accepted row hrow
    · exact haccepted
  · rw [List.map_append, List.nodup_append]
    refine ⟨h.claimed_once, List.nodup_singleton _, fun x hx y hy hxy => ?_⟩
    obtain ⟨p, hp, rfl⟩ := List.mem_map.mp hx
    exact hfresh p hp (hxy.trans (List.mem_singleton.mp hy))
  · intro p hp
    rcases List.mem_append.mp hp with hp | hp
    · exact hother p.2 (h.claimed_durable p hp) ▸ h.claimed_durable p hp
    · obtain rfl := List.mem_singleton.mp hp
      exact hself ▸ Option.some_ne_none _
  · exact fun p hp => List.mem_append_left _ (h.sent_claimed hp)
  · intro row hrow
    obtain ⟨cr, hcr, hclaim⟩ := h.recorded row hrow
    exact ⟨cr, (hother row.callId (hcr ▸ Option.some_ne_none _)).trans hcr, hclaim⟩
  · intro callId
    refine ⟨fun hmem => ?_, List.mem_append_left _⟩
    rcases List.mem_append.mp hmem with hmem | hmem
    · exact hmem
    · exact absurd (Prod.mk.inj (List.mem_singleton.mp hmem)).1 hj
  · exact fun callId hown => hother callId (h.claimed_durable _ hown)

/-- A record is written by who owns the claim. -/
theorem Consistent.register (h : Consistent R w) {row : AuditRow} {cr : ClaimRow} {now : Nat}
    (hown : (i, row.callId) ∈ w.claimed) (hcr : w.db.claims.get row.callId = some cr)
    (hclaim : cr.claim = row.record.claim) (hnone : w.db.audits.get row.callId = none) :
    Consistent R { w with db := { claims := w.db.claims.put { cr with closedAt := some now }, audits := w.db.audits.add row } } ∧
      ∀ j ≠ i, Undisturbed j w
        { w with db := { claims := w.db.claims.put { cr with closedAt := some now }, audits := w.db.audits.add row } } := by
  have hkey : ({ cr with closedAt := some now } : ClaimRow).callId = row.callId :=
    (Table.key_of_get hcr : cr.callId = row.callId)
  have hself : (w.db.claims.put { cr with closedAt := some now }).get row.callId = some { cr with closedAt := some now } := by
    rw [← hkey]
    exact Table.get_put_self (hkey ▸ hcr)
  have hother : ∀ callId ≠ row.callId,
      (w.db.claims.put { cr with closedAt := some now }).get callId = w.db.claims.get callId :=
    fun callId hne => Table.get_put_of_ne (hkey.trans_ne hne.symm)
  have hsome : ∀ callId, w.db.claims.get callId ≠ none →
      (w.db.claims.put { cr with closedAt := some now }).get callId ≠ none := by
    intro callId hc
    by_cases heq : callId = row.callId
    · exact heq ▸ hself ▸ Option.some_ne_none _
    · exact hother callId heq ▸ hc
  refine ⟨⟨?_, h.claimed_once, fun p hp => hsome _ (h.claimed_durable p hp), h.sent_claimed, h.sent_once, ?_⟩,
    fun j hj => ⟨fun _ => Iff.rfl, fun _ => Iff.rfl, ?_, ?_⟩⟩
  · intro r hr
    rcases (Table.mem_put_iff (hkey ▸ hcr)).mp hr with rfl | ⟨hr, -⟩
    · exact h.accepted cr (Table.mem_of_get hcr)
    · exact h.accepted r hr
  · intro r hr
    rcases (Table.mem_add_iff hnone).mp hr with hr | rfl
    · have hne : r.callId ≠ row.callId := fun heq => by
        rw [← heq, Table.get_of_mem hr] at hnone
        cases hnone
      obtain ⟨c, hc, hrest⟩ := h.recorded r hr
      exact ⟨c, (hother _ hne).trans hc, hrest⟩
    · exact ⟨_, hself, hclaim, Option.some_ne_none _⟩
  · intro callId r hr
    have hne : row.callId ≠ callId := fun heq => by
      rw [← heq, hnone] at hr
      cases hr
    exact (Table.get_add_of_ne hne).trans hr
  · intro callId hmem
    refine hother callId ?_
    rintro rfl
    exact hj (h.owner hmem hown)

/-- Acceptable calls keep the state consistent and do not disturb other invocations. -/
theorem guarded (R : Rules) (isAuthority : String → Bool) : (discipline R).Guarded (system R isAuthority) := by
  intro i w c r w' h hok hstep
  have hsame : ∀ w', w' = w → (discipline R).Inv w' ∧ ∀ j ≠ i, (discipline R).Rely j w w' := by
    rintro _ rfl
    exact ⟨h, fun j _ => Undisturbed.refl j _⟩
  cases c with
  | select callId => exact hsame w' hstep.1
  | now => exact hsame w' hstep
  | claim a =>
    rcases hstep with ⟨hw, -⟩ | ⟨now, decision, db, hdb, rfl, -⟩
    · exact hsame w' hw
    · rcases claimModelCallAttempt_ok hdb with ⟨hne, rfl⟩ | ⟨rfl, hnone, rfl⟩
      · exact hsame _ (by rw [if_neg hne])
      · exact Consistent.claim (i := i) h hnone hok
  | register row =>
    rcases hstep with ⟨hw, -⟩ | ⟨now, clock, inserted, db, hdb, rfl, -⟩
    · exact hsame w' hw
    · obtain ⟨cr, hcr, hclaim, ⟨-, -, rfl⟩ | ⟨-, hnone, -, rfl⟩⟩ := registerModelCallAttempt_ok hdb
      · exact hsame _ rfl
      · exact Consistent.register (i := i) h hok hcr hclaim hnone
  | execute request =>
    obtain ⟨hown, hunsent, -⟩ := hok
    obtain rfl : w' = _ := hstep
    refine ⟨⟨h.accepted, h.claimed_once, h.claimed_durable, ?_, ?_, h.recorded⟩,
      fun j hj => ⟨fun _ => Iff.rfl, fun callId => ⟨fun hmem => ?_, List.mem_append_left _⟩, fun _ _ hrow => hrow, fun _ _ => rfl⟩⟩
    · intro p hp
      rcases List.mem_append.mp hp with hp | hp
      · exact h.sent_claimed hp
      · exact List.mem_singleton.mp hp ▸ hown
    · rw [List.nodup_append]
      refine ⟨h.sent_once, List.nodup_singleton _, fun x hx y hy hxy => hunsent ?_⟩
      rwa [← List.mem_singleton.mp hy, ← hxy]
    · rcases List.mem_append.mp hmem with hmem | hmem
      · exact hmem
      · exact absurd (Prod.mk.inj (List.mem_singleton.mp hmem)).1 hj

end Guarantee

end SevenLens.Invocation
