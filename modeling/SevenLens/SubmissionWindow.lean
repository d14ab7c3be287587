import SevenLens.ResumeEvidence

/-! # The submission window

Every intent has a window: it may not be submitted before `earliestSubmitAt`, and from
`cancelAt` on the right to create new exposure is closed.  `resolve` reads the clock before it
submits; `submitFromOutbox` does not, so an intent that has waited in the outbox is submitted
whatever the time is (`submit_after_deadline`).

`submissions_in_window`: with a clock that does not go back, every submission of a run of the
engine falls into the window of its intent, as long as every submission from the outbox falls
into it and no deadline passes while `resolve` or `recover` is looking at the intent. -/

namespace SevenLens

open Calls Prog

/-- The outcome of the submission is open. -/
def OrderStatus.isPending : OrderStatus → Bool
  | submitting | unknown => true
  | _ => false

/-! ### Where pending intents come from -/

/-- Two rows of one intent have the same window. -/
structure SameWindow (i j : OrderIntent) : Prop where
  earliest : j.earliestSubmitAt = i.earliestSubmitAt
  cancel : j.cancelAt = i.cancelAt

theorem SameWindow.withStatus {i j : OrderIntent} (h : SameWindow i j) (t : OrderStatus) :
    SameWindow i (j.withStatus t) := ⟨h.earliest, h.cancel⟩

/-- A row goes back to one of `origin`, with the same window; a pending one to a pending one, or to
the intent that the operation reserves. -/
def TracedRow (op : Operation) (origin : Db) (j : OrderIntent) : Prop :=
  ∃ i, origin.intents.get j.clientOrderId = some i ∧ SameWindow i j ∧
    (j.status.isPending = true → i.status.isPending = true ∨ (i.status = .outboxPending ∧ op.Reserves origin i))

def Traced (op : Operation) (origin db : Db) : Prop :=
  ∀ k j, db.intents.get k = some j → TracedRow op origin j

section Traced

variable {op : Operation} {s : Tx}

theorem traced_start (db : Db) : Traced op db db := by
  intro k j hj
  obtain rfl : j.clientOrderId = k := Table.key_of_get hj
  exact ⟨j, hj, ⟨rfl, rfl⟩, Or.inl⟩

/-- Where the broker leads, the submission is not pending. -/
theorem refreshTarget_not_pending (b : BrokerOrderStatus) (t : OrderStatus) :
    (refreshTarget b t).isPending = false := by
  cases b <;> cases t <;> rfl

/-- A lawful move of the engine makes an intent pending only if it was, or by a reservation. -/
theorem tracedRow_moved {i : OrderIntent} {t : OrderStatus} (hop : op.isEngine = true)
    (h : TracedRow op s.origin i) (hlaw : MoveLaw op s i t) : TracedRow op s.origin (i.withStatus t) := by
  obtain ⟨j, hj, hwindow, hpending⟩ := h
  refine ⟨j, hj, hwindow.withStatus t, fun ht => ?_⟩
  have ht : t.isPending = true := ht
  cases hlaw with
  | reserve hst hreserves =>
      right
      cases op with
      | engine cfg e =>
          cases e with
          | submitFromOutbox c =>
              obtain ⟨hc, hi⟩ := hreserves
              rw [hc, hi] at hj
              obtain rfl : i = j := Option.some.inj hj
              exact ⟨hst, hc, hi⟩
          | _ => exact hreserves.elim
      | _ => cases hop
  | ambiguous hst _ =>
      refine hpending ?_
      rcases hst with hst | hst <;> rw [hst] <;> rfl
  | follow => rw [refreshTarget_not_pending] at ht; cases ht
  | stream hu => subst hu; cases hop
  | _ => cases ht

theorem traced_exec {c : StoreCall} {a : c.Ans} {ws : List Write} {now : UtcTimestamp} (hop : op.isEngine = true)
    (h : Traced op s.origin s.view) (hlaw : StatementLaw op s c) (hx : s.view.exec now c = .ok (a, ws)) :
    Traced op s.origin (s.view.applyAll ws) := by
  intro k j hj
  by_cases hc : ∃ k' t, c = .transitionStatus k' t
  · obtain ⟨k', t, rfl⟩ := hc
    obtain ⟨i, hi, hmove⟩ := hlaw
    obtain ⟨i', hi', hp⟩ := Db.transitionStatus_inv hx
    obtain rfl : i = i' := Option.some.inj (hi.symm.trans hi')
    obtain rfl : ws = [.putIntent (i.withStatus t)] := congrArg Prod.snd hp
    obtain rfl : i.clientOrderId = k' := Table.key_of_get hi
    rw [Db.applyAll_cons, Db.applyAll_nil, Db.apply_putIntent_intents] at hj
    by_cases hk : i.clientOrderId = k
    · subst hk
      have hput := Table.get_put_self (t := s.view.intents) (v := i.withStatus t) hi
      obtain rfl : i.withStatus t = j := Option.some.inj (hput.symm.trans hj)
      exact tracedRow_moved hop (h _ i hi) hmove
    · have hne : (i.withStatus t).clientOrderId ≠ k := hk
      rw [Table.get_put_of_ne hne] at hj
      exact h k j hj
  · rcases exec_intents (fun k' t e => hc ⟨k', t, e⟩) hx with hintents | ⟨i, new, rfl, -, -, -⟩
    · rw [hintents] at hj
      exact h k j hj
    · rw [hlaw.2.2.2] at hop
      cases hop

theorem traced_effect {adm : Tx → (b : BrokerCall) → Except PyError b.Ans → Prop} {s' : Tx} {origin : Db}
    (hop : op.isEngine = true) (horigin : s.origin = origin)
    (h : Traced op origin s.world.db ∧ Traced op origin s.view) (he : Effect op adm s s') :
    Traced op origin s'.world.db ∧ Traced op origin s'.view := by
  subst horigin
  refine he.keeps (P := Traced op s.origin) (fun ha hs k j hj => ?_) (fun hlaw hx => traced_exec hop h.2 hlaw hx) h.1 h.2
  rw [hs.intents] at hj
  exact ha k j hj

end Traced

/-! ### The clock before a submission

Whether `resolve` reads the clock before it submits does not depend on what the tables hold, but
for the deadlines of the intents they show.  In `punctual` the state is the last answer of the
clock, and calls may answer anything that shows intents with the deadlines `W`. -/

/-- The deadlines of some intents. -/
def Deadlines (W : ClientOrderId → Option UtcTimestamp) (l : List OrderIntent) : Prop :=
  ∀ j ∈ l, W j.clientOrderId = some j.cancelAt

/-- What a call may answer: exceptions other than the one of the entry gate, intents with the
deadlines `W`, and a clock that does not go back. -/
def Tells (W : ClientOrderId → Option UtcTimestamp) (last : Option UtcTimestamp) :
    (c : Call) → Except PyError c.Ans → Prop
  | _, .error e => Mild e
  | .store .uow (.getIntent k), .ok i => ∀ j, i = some j → j.clientOrderId = k ∧ W k = some j.cancelAt
  | .store .uow (.listByStatus _), .ok l => Deadlines W l
  | .clock, .ok t => ∀ t₀, last = some t₀ → t₀ ≤ t
  | _, _ => True

/-- The last answer of the clock after a call. -/
def heard (last : Option UtcTimestamp) : (c : Call) → Except PyError c.Ans → Option UtcTimestamp
  | .clock, .ok t => some t
  | _, _ => last

/-- The calls of a program by their answers; `may` says which intents may be submitted after
which answer of the clock. -/
def punctual (W : ClientOrderId → Option UtcTimestamp) (may : Option UtcTimestamp → OrderIntent → Prop) :
    System ports PyError (Option UtcTimestamp) where
  Step last c r last' := Tells W last c r ∧ last' = heard last c r
  Ok last c := ∀ i, c = .broker (.submitOrder i) → may last i

/-- The clock has been read at `lo` or later. -/
def Late (lo last : Option UtcTimestamp) : Prop := ∀ t₀, lo = some t₀ → ∃ t, last = some t ∧ t₀ ≤ t

section Punctual

variable {W : ClientOrderId → Option UtcTimestamp} {may : Option UtcTimestamp → OrderIntent → Prop}
  {lo last : Option UtcTimestamp}

theorem tells_mild {c : Call} {r : Except PyError c.Ans} (h : Tells W last c r) : ∀ e, r = .error e → Mild e := by
  rintro e rfl
  exact h

theorem late_heard {c : Call} {r : Except PyError c.Ans} (h : Late lo last) (ht : Tells W last c r) :
    Late lo (heard last c r) := by
  unfold heard
  split
  · intro t₀ hlo
    obtain ⟨t, hlast, hle⟩ := h t₀ hlo
    exact ⟨_, rfl, le_trans hle (ht t hlast)⟩
  · exact h

theorem late_some {t₀ t : UtcTimestamp} : Late (some t₀) (some t) ↔ t₀ ≤ t := by
  simp [Late]

theorem Late.earlier {t₀ t₁ : UtcTimestamp} (h : Late (some t₁) last) (hle : t₀ ≤ t₁) : Late (some t₀) last := by
  rintro _ ⟨⟩
  obtain ⟨t, hlast, ht⟩ := h t₁ rfl
  exact ⟨t, hlast, le_trans hle ht⟩

/-- The program keeps the clock read at `lo` or later and submits only what it may. -/
def Punctual (W : ClientOrderId → Option UtcTimestamp) (may : Option UtcTimestamp → OrderIntent → Prop)
    (lo : Option UtcTimestamp) {α : Type} (p : Proc α) : Prop :=
  ∀ last, Late lo last → wp (punctual W may) p (fun _ last' => Late lo last') last

theorem punctual_bind {α β : Type} {p : Proc α} {f : α → Proc β} (hp : Punctual W may lo p)
    (hf : ∀ a, Punctual W may lo (f a)) : Punctual W may lo (p.bind f) := by
  intro last hlast
  refine wp_bind.mpr (wp_mono (fun r last' h => ?_) (hp last hlast))
  cases r with
  | error e => exact h
  | ok a => exact hf a last' h

theorem punctual_tryCatch {α : Type} {p : Proc α} {f : PyError → Proc α} (hp : Punctual W may lo p)
    (hf : ∀ e, Punctual W may lo (f e)) : Punctual W may lo (p.tryCatch f) := by
  intro last hlast
  refine wp_tryCatch.mpr (wp_mono (fun r last' h => ?_) (hp last hlast))
  cases r with
  | error e => exact hf e last' h
  | ok a => exact h

theorem punctual_ret {α : Type} (a : α) : Punctual W may lo (ret a : Proc α) := fun _ h => h

theorem punctual_raise {α : Type} (e : PyError) : Punctual W may lo (raise e : Proc α) := fun _ h => h

/-- Programs that submit nothing. -/
theorem punctual_permitted {α : Type} {p : Proc α} (hp : Within (Permits writing) Mild p) : Punctual W may lo p := by
  intro last hlast
  refine wp_mono (fun _ _ h => h.1) (wp_within (M := punctual W may) (I := Late lo)
    (fun _ _ _ _ hs _ hstep => ?_) (fun _ c _ hc => ?_) hp hlast)
  · obtain ⟨htells, rfl⟩ := hstep
    exact ⟨late_heard hs htells, tells_mild htells⟩
  · rintro i rfl
    exact hc.elim

theorem punctual_ask {c : Call} (hc : ∀ i, c ≠ .broker (.submitOrder i)) : Punctual W may lo (ask c) := by
  intro last hlast
  refine wp_perform.mpr ⟨fun i hi => absurd hi (hc i), fun r last' hstep => ?_⟩
  obtain ⟨htells, rfl⟩ := hstep
  exact late_heard hlast htells

theorem punctual_foldlM {α β : Type} {f : β → α → Proc β} {l : List α} {b : β}
    (hf : ∀ b, ∀ a ∈ l, Punctual W may lo (f b a)) : Punctual W may lo (l.foldlM f b) := by
  induction l generalizing b with
  | nil => exact punctual_ret b
  | cons a l ih =>
      rw [List.foldlM_cons]
      exact punctual_bind (hf b a List.mem_cons_self) fun b' => ih fun b x hx => hf b x (List.mem_cons_of_mem a hx)

/-- Calls that neither read the clock nor submit. -/
def Timeless (c : Call) : Prop := c ≠ .clock ∧ ∀ i, c ≠ .broker (.submitOrder i)

theorem wp_timeless {α : Type} {p : Proc α} (hp : Within Timeless (fun _ => True) p) :
    wp (punctual W may) p (fun _ last' => last' = last) last := by
  refine wp_mono (fun _ _ h => h.1) (wp_within (M := punctual W may) (I := fun last' => last' = last)
    (fun _ c r _ hs hc hstep => ⟨?_, fun _ _ => trivial⟩) (fun _ c _ hc i hi => absurd hi (hc.2 i)) hp rfl)
  obtain ⟨-, rfl⟩ := hstep
  subst hs
  cases c <;> first | rfl | exact absurd rfl hc.1

end Punctual

/-! ### Submissions of the engine -/

section Engine

variable {W : ClientOrderId → Option UtcTimestamp} {may : Option UtcTimestamp → OrderIntent → Prop}
  {lo last : Option UtcTimestamp} (cfg : EngineConfig) (uuid5 : NameUuid)

theorem within_becomeUnknown (i : OrderIntent) : Within (Permits writing) Mild (becomeUnknown cfg uuid5 i) := by
  refine within_bind (within_ask (Or.inr rfl)) fun _ => within_bind (within_ask trivial) fun _ => ?_
  exact within_bind (within_reading writing (within_pauseForReconciliationRequired cfg uuid5 i _)) fun _ => trivial

theorem within_recordAccepted (i : OrderIntent) (o : BrokerOrder) :
    Within (Permits writing) Mild (recordAccepted cfg uuid5 i o) := by
  refine within_bind (within_assertMirrorMatches cfg uuid5 i o) fun _ => within_bind (within_ask trivial) fun fills => ?_
  refine within_bind (within_checkFills cfg uuid5 i o fills []) fun _ =>
    within_bind (within_mirrorBrokerOrder cfg uuid5 i o) fun _ => ?_
  refine within_bind (within_addFills cfg uuid5 i fills) fun _ => within_bind (within_followBrokerOrder i _) fun _ => ?_
  exact within_bind (within_ask trivial) fun _ => trivial

theorem punctual_afterSubmit (i : OrderIntent) (r : Except PyError SubmitResult) :
    Punctual W may lo (afterSubmit cfg uuid5 i r) := by
  have hunknown : Punctual W may lo (becomeUnknown cfg uuid5 i) := punctual_permitted (within_becomeUnknown cfg uuid5 i)
  unfold afterSubmit
  split
  · rename_i e
    split
    · exact hunknown
    · split
      · exact punctual_bind hunknown fun _ => punctual_raise _
      · exact punctual_raise e
  · refine punctual_permitted (within_bind (within_ask (Or.inr rfl)) fun _ => ?_)
    exact within_bind (within_ask trivial) fun _ => trivial
  · exact punctual_permitted (within_recordAccepted cfg uuid5 i _)

/-- A submission at once. -/
theorem wp_submitNow {i : OrderIntent} (hmay : may last i) (hlast : Late lo last) :
    wp (punctual W may) (submitWhileGuarded cfg uuid5 i) (fun _ last' => Late lo last') last := by
  unfold submitWhileGuarded
  simp only [bind_eq, pure_eq_ret]
  refine wp_bind.mpr (wp_tryCatch.mpr (wp_bind.mpr (wp_perform.mpr ⟨?_, fun r last' hstep => ?_⟩)))
  · rintro j ⟨⟩
    exact hmay
  · obtain ⟨htells, rfl⟩ := hstep
    have hlate := late_heard hlast htells
    cases r with
    | ok a => exact punctual_afterSubmit cfg uuid5 i (.ok a) _ hlate
    | error e => exact punctual_afterSubmit cfg uuid5 i (.error e) _ hlate

/-- The guard of an entry does not read the clock before its body. -/
theorem wp_guardedNow {α : Type} (h : Handle) {body : Proc α} (hlast : Late lo last)
    (hbody : wp (punctual W may) body (fun _ last' => Late lo last') last) :
    wp (punctual W may) (guarded h body) (fun _ last' => Late lo last') last := by
  have hunresolved : Within Timeless (fun _ => True) hasUnresolvedIntents := by
    have hlist : ∀ t, Within Timeless (fun _ => True) (listByStatus t) :=
      fun t => within_perform (S := ports) ⟨by simp, by simp⟩
    refine within_bind (hlist _) fun _ => within_ite (fun _ => trivial) fun _ => within_bind (hlist _) fun _ => ?_
    exact within_ite (fun _ => trivial) fun _ => trivial
  have hcommit : ∀ a : α, Punctual W may lo ((commitOn h).bind fun _ => ret a) :=
    fun a => punctual_bind (punctual_ask (by simp)) fun _ => punctual_ret a
  have hrollback : ∀ e, Punctual W may lo ((rollbackOn h).bind fun _ => (raise e : Proc α)) :=
    fun e => punctual_bind (punctual_ask (by simp)) fun _ => punctual_raise e
  unfold guarded
  simp only [bind_eq, pure_eq_ret]
  refine wp_bind.mpr (wp_mono (fun r last₁ h₁ => ?_) (wp_timeless (within_perform (S := ports) ⟨by simp, by simp⟩)))
  subst h₁
  cases r with
  | error e => exact hlast
  | ok state =>
      refine wp_bind.mpr (wp_mono (Q := fun _ last' => Late lo last') (fun r last₂ h₂ => ?_)
        (wp_tryCatch.mpr (wp_mono (Q := fun _ last' => Late lo last') (fun r last₂ h₂ => ?_) ?_)))
      · cases r with
        | error e => exact h₂
        | ok a => exact hcommit a last₂ h₂
      · cases r with
        | error e => exact hrollback e last₂ h₂
        | ok a => exact h₂
      · split
        · exact hlast
        · refine wp_bind.mpr (wp_mono (fun r last₂ h₂ => ?_) (wp_timeless hunresolved))
          subst h₂
          cases r with
          | error e => exact hlast
          | ok b =>
              show wp _ (if b = true then _ else _) _ _
              split
              · exact hlast
              · exact hbody

theorem wp_completeNow {i : OrderIntent} (hmay : may last i) (hlast : Late lo last) :
    wp (punctual W may) (completeSubmission cfg uuid5 i) (fun _ last' => Late lo last') last := by
  have hbody := wp_submitNow (W := W) cfg uuid5 hmay hlast
  have hguard : wp (punctual W may) (entrySubmissionGuard cfg i (submitWhileGuarded cfg uuid5 i))
      (fun _ last' => Late lo last') last := by
    unfold entrySubmissionGuard
    split
    · exact hbody
    · split
      · exact hbody
      · exact wp_guardedNow _ hlast hbody
  unfold completeSubmission
  refine wp_tryCatch.mpr (wp_mono (fun r last₁ h₁ => ?_) hguard)
  cases r with
  | ok a => exact h₁
  | error e =>
      rw [orElse_error]
      split
      · split
        · refine punctual_bind (punctual_ask (c := .store .uow (.transitionStatus _ .unknown)) (by simp)) (fun u => ?_)
            last₁ h₁
          refine punctual_bind (punctual_ask (c := .commit .uow) (by simp)) fun _ => ?_
          refine punctual_bind (punctual_permitted ?_) fun _ => punctual_ret _
          exact within_reading writing (within_pauseForReconciliationRequired cfg uuid5 u _)
        · exact h₁
      · exact h₁

/-- `resolve` submits only after it has read the clock before the deadline. -/
theorem punctual_resolve (k : ClientOrderId)
    (hmay : ∀ i t, i.clientOrderId = k → W k = some i.cancelAt → Late lo (some t) → t < i.cancelAt →
      may (some t) i) : Punctual W may lo (resolve cfg uuid5 k) := by
  intro last hlast
  unfold resolve requireIntent
  simp only [bind_eq, pure_eq_ret]
  refine wp_bind.mpr (wp_bind.mpr (wp_perform.mpr ⟨fun i hi => (by cases hi), fun r last₁ hstep => ?_⟩))
  obtain ⟨htells, rfl⟩ := hstep
  have hlate := late_heard hlast htells
  cases r with
  | error e => exact hlate
  | ok i =>
      cases i with
      | none => exact hlate
      | some i =>
          obtain ⟨hk, hW⟩ : i.clientOrderId = k ∧ W k = some i.cancelAt := htells i rfl
          show wp _ (if _ then _ else _) _ _
          split
          · exact hlate
          · refine wp_bind.mpr (wp_mono (fun r last₂ h₂ => ?_)
              (punctual_ask (c := .broker (.getOrder k)) (by simp) _ hlate))
            cases r with
            | error e => exact h₂
            | ok o =>
                cases o with
                | some o =>
                    refine punctual_permitted ?_ last₂ h₂
                    exact within_bind (within_assertMirrorMatches cfg uuid5 i o) fun _ =>
                      within_recordAccepted cfg uuid5 i o
                | none =>
                    refine wp_bind.mpr (wp_perform.mpr ⟨fun i hi => (by cases hi), fun r last₃ hstep => ?_⟩)
                    obtain ⟨htells₃, rfl⟩ := hstep
                    have h₃ := late_heard h₂ htells₃
                    cases r with
                    | error e => exact h₃
                    | ok now =>
                        show wp _ (if i.cancelAt ≤ now then _ else _) _ _
                        split
                        · have hcommit : ∀ j : OrderIntent, Punctual W may lo (commit.bind fun _ => ret j) :=
                            fun j => punctual_bind (punctual_ask (by simp)) fun _ => punctual_ret j
                          split
                          · exact punctual_bind (punctual_ask (c := .store .uow (.transitionStatus k .unknown)) (by simp))
                              hcommit _ h₃
                          · exact hcommit i _ h₃
                        · rename_i hbefore
                          exact wp_completeNow cfg uuid5 (hmay i now hk hW h₃ (not_le.mp hbefore)) h₃

/-- What `recover` may submit: it has read the clock since `start`, before the deadline. -/
def MayResume (start : UtcTimestamp) (last : Option UtcTimestamp) (i : OrderIntent) : Prop :=
  ∃ t, last = some t ∧ start ≤ t ∧ t < i.cancelAt

theorem mayResume {start t : UtcTimestamp} {i : OrderIntent} (hlate : Late (some start) (some t))
    (ht : t < i.cancelAt) : MayResume start (some t) i := ⟨t, rfl, late_some.mp hlate, ht⟩

theorem punctual_recover (start : UtcTimestamp) :
    Punctual W (MayResume start) (some start) (recover cfg uuid5) := by
  refine punctual_bind (punctual_ask (by simp)) fun submitting => punctual_bind (punctual_ask (by simp)) fun unknown => ?_
  refine punctual_foldlM fun resolved i _ => ?_
  exact punctual_bind (punctual_resolve cfg uuid5 _ fun _ _ _ _ => mayResume) fun _ => punctual_ret _

/-- What is overdue at the start of the sweep stays overdue: its resolution submits nothing. -/
theorem punctual_resolveOverdue (now : UtcTimestamp) (closed : List OrderIntent) (t : OrderStatus) :
    Punctual W may (some now) (resolveOverdue cfg uuid5 now closed t) := by
  intro last hlast
  refine wp_bind.mpr (wp_perform.mpr ⟨fun i hi => (by cases hi), fun r last₁ hstep => ?_⟩)
  obtain ⟨htells, rfl⟩ := hstep
  have hlate := late_heard hlast htells
  cases r with
  | error e => exact hlate
  | ok l =>
      refine punctual_foldlM (fun acc i hi => ?_) _ hlate
      have hW : W i.clientOrderId = some i.cancelAt := htells i hi
      split
      · rename_i hdue
        refine punctual_bind (punctual_resolve cfg uuid5 _ fun j t _ hj hlate ht => ?_) fun _ => punctual_ret _
        have hcancel : i.cancelAt = j.cancelAt := Option.some.inj (hW.symm.trans hj)
        exact absurd (hcancel ▸ le_trans hdue (late_some.mp hlate)) (not_le.mpr ht)
      · exact punctual_ret acc

theorem punctual_expireOverdue (start : UtcTimestamp) :
    Punctual W may (some start) (expireOverdue cfg uuid5) := by
  intro last hlast
  unfold expireOverdue
  simp only [bind_eq, pure_eq_ret]
  refine wp_bind.mpr (wp_perform.mpr ⟨fun i hi => (by cases hi), fun r last₁ hstep => ?_⟩)
  obtain ⟨htells, rfl⟩ := hstep
  have hlate := late_heard hlast htells
  cases r with
  | error e => exact hlate
  | ok now =>
      refine wp_mono (fun r last₂ h₂ => h₂.earlier (late_some.mp hlate)) (?_ : wp _ _ (fun _ l => Late (some now) l) _)
      refine punctual_bind (punctual_foldlM fun acc t _ => punctual_resolveOverdue cfg uuid5 now acc t) (fun closed => ?_)
        _ (late_some.mpr le_rfl)
      -- From here on nothing is submitted.
      refine punctual_permitted (within_bind (within_foldlM fun acc t => within_expireStatus now acc t) fun closed => ?_)
      refine within_bind (within_foldlM fun acc t => within_cancelOverdue cfg uuid5 now acc t) fun acc => ?_
      exact within_ite (fun _ => within_bind (within_ask trivial) fun _ => trivial) fun _ => trivial

end Engine

/-- What an operation of the engine that starts at `start` may submit, by the clock. -/
def EngineOp.MaySubmit (start : UtcTimestamp) (last : Option UtcTimestamp) (i : OrderIntent) : EngineOp → Prop
  | submitFromOutbox _ => True
  | resolve c => i.clientOrderId = c ∧ MayResume start last i
  | recover => MayResume start last i
  | _ => False

/-- A program that may submit everything. -/
theorem punctual_free {W : ClientOrderId → Option UtcTimestamp} {lo : Option UtcTimestamp} {α : Type} (p : Proc α) :
    Punctual W (fun _ _ => True) lo p := by
  induction p with
  | ret a => exact punctual_ret a
  | raise e => exact punctual_raise e
  | call c k ih =>
      refine fun last hlast => ⟨fun _ _ => trivial, fun r last' hstep => ?_⟩
      obtain ⟨htells, rfl⟩ := hstep
      exact ih r _ (late_heard hlast htells)

theorem punctual_proc {W : ClientOrderId → Option UtcTimestamp} (cfg : EngineConfig) (uuid5 : NameUuid)
    (start : UtcTimestamp) (e : EngineOp) :
    Punctual W (fun last i => e.MaySubmit start last i) (some start) (e.proc cfg uuid5) := by
  cases e with
  | submitFromOutbox c => exact punctual_free _
  | resolve c =>
      refine punctual_bind (punctual_resolve cfg uuid5 c fun i t hc _ hlate ht => ?_) fun _ => punctual_ret ()
      exact ⟨hc, mayResume hlate ht⟩
  | recover => exact punctual_bind (punctual_recover cfg uuid5 start) fun _ => punctual_ret ()
  | applyFills c =>
      exact punctual_bind (punctual_permitted (within_applyFills cfg uuid5 c)) fun _ => punctual_ret ()
  | requestCancel c =>
      exact punctual_bind (punctual_permitted (within_requestCancel cfg uuid5 c)) fun _ => punctual_ret ()
  | expireOverdue => exact punctual_bind (punctual_expireOverdue cfg uuid5 start) fun _ => punctual_ret ()

/-! ### Time -/

/-- A running operation and the time of its last call. -/
structure Timed where
  tx : Tx
  time : UtcTimestamp

/-- One operation of the engine while time passes: it does not go back between two calls, and the
clock tells the time of its call.  The broker may answer anything. -/
def timed : System ports PyError Timed where
  Step s c r s' := s.time ≤ s'.time ∧ ∃ env : Env, env.Mild ∧
    (c = .clock → env.clock s.tx.world.tick = s'.time) ∧ r = (transact env c s.tx).1 ∧ s'.tx = (transact env c s.tx).2
  Ok _ _ := True

/-- A timed step is a step. -/
theorem serial_of_timed {op : Operation} {s s' : Timed} {c : Call} {r : Except PyError c.Ans}
    (h : timed.Step s c r s') : (serial op (fun _ _ _ => True)).Step s.tx c r s'.tx := by
  obtain ⟨-, env, he, -, hr, hs'⟩ := h
  exact ⟨env, he, fun _ _ => trivial, hr, hs'⟩

/-- The deadlines of the tables. -/
def deadlines (db : Db) (k : ClientOrderId) : Option UtcTimestamp := (db.intents.get k).map OrderIntent.cancelAt

theorem deadlines_of_traced {op : Operation} {origin db : Db} {k : ClientOrderId} {j : OrderIntent}
    (h : Traced op origin db) (hj : db.intents.get k = some j) : deadlines origin k = some j.cancelAt := by
  obtain ⟨i, hi, hwindow, -⟩ := h k j hj
  obtain rfl : j.clientOrderId = k := Table.key_of_get hj
  rw [deadlines, hi, hwindow.cancel]
  rfl

theorem getIntent_answer {env : Env} {s : Tx} {k : ClientOrderId} {i : Option OrderIntent}
    (h : (transact env (.store .uow (.getIntent k)) s).1 = .ok i) : s.view.intents.get k = i := by
  simp only [transact] at h
  split at h
  · cases h
  · exact Except.ok.inj h

theorem listByStatus_answer {env : Env} {s : Tx} {t : OrderStatus} {l : List OrderIntent}
    (h : (transact env (.store .uow (.listByStatus t)) s).1 = .ok l) : s.view.listByStatus t = l := by
  simp only [transact] at h
  split at h
  · cases h
  · exact Except.ok.inj h

/-- A timed step shows the deadlines of the tables the operation has started from. -/
theorem tells_of_timed {op : Operation} {origin : Db} {s s' : Timed} {c : Call} {r : Except PyError c.Ans}
    {last : Option UtcTimestamp} (hview : Traced op origin s.tx.view) (hlast : ∀ t, last = some t → t ≤ s.time)
    (h : timed.Step s c r s') :
    Tells (deadlines origin) last c r ∧ ∀ t, heard last c r = some t → t ≤ s'.time := by
  obtain ⟨hle, env, he, hclock, hr, -⟩ := h
  have hkept : ∀ t, last = some t → t ≤ s'.time := fun t ht => le_trans (hlast t ht) hle
  have hheard : c ≠ .clock → heard last c r = last := by
    intro hc
    unfold heard
    split
    · exact absurd rfl hc
    · rfl
  cases r with
  | error e => exact ⟨transact_mild he hr.symm, fun t ht => hkept t (by cases c <;> exact ht)⟩
  | ok a =>
      by_cases hc : c = .clock
      · subst hc
        obtain rfl : a = s'.time := (Except.ok.inj hr).trans (hclock rfl)
        exact ⟨hkept, fun t ht => (Option.some.inj ht).ge⟩
      · refine ⟨?_, fun t ht => hkept t ((hheard hc).symm.trans ht)⟩
        unfold Tells
        split
        · rename_i heq
          cases heq
        · rename_i heq
          cases heq
          rintro j rfl
          have hj := getIntent_answer hr.symm
          exact ⟨Table.key_of_get hj, deadlines_of_traced hview hj⟩
        · rename_i heq
          cases heq
          intro j hj
          rw [← listByStatus_answer hr.symm] at hj
          exact deadlines_of_traced hview (Table.get_of_mem (Db.mem_listByStatus.mp hj).1)
        · exact absurd rfl hc
        · trivial

/-! ### Runs -/

/-- The intents whose submission is pending have reached the start of their windows. -/
def Started (db : Db) (t : UtcTimestamp) : Prop :=
  ∀ k i, db.intents.get k = some i → i.status.isPending = true → i.earliestSubmitAt ≤ t

/-- No deadline passes while the operation looks at the pending intent `i`. -/
def NotCrossed (start fin : UtcTimestamp) (i : OrderIntent) : Prop :=
  i.status.isPending = true → start < i.cancelAt → fin < i.cancelAt

/-- An operation that runs from `start` to `fin`: a submission from the outbox falls into the window,
and no deadline passes while `resolve` or `recover` looks at an intent. -/
def InWindow (db : Db) (start fin : UtcTimestamp) : EngineOp → Prop
  | .submitFromOutbox c => ∀ i, db.intents.get c = some i → i.status = .outboxPending →
      i.earliestSubmitAt ≤ start ∧ fin < i.cancelAt
  | .resolve c => ∀ i, db.intents.get c = some i → NotCrossed start fin i
  | .recover => ∀ c i, db.intents.get c = some i → NotCrossed start fin i
  | _ => True

/-- Operations of the engine one after another, each cut off at its end or before.  `allowed` says
which operation may run from which tables in which span of time. -/
inductive TimedRuns (uuid5 : NameUuid) (allowed : Db → UtcTimestamp → UtcTimestamp → EngineOp → Prop) :
    Db → UtcTimestamp → Db → UtcTimestamp → Prop
  | refl (db : Db) (t : UtcTimestamp) : TimedRuns uuid5 allowed db t db t
  | wait {db₀ db : Db} {t₀ t t' : UtcTimestamp} :
      TimedRuns uuid5 allowed db₀ t₀ db t → t ≤ t' → TimedRuns uuid5 allowed db₀ t₀ db t'
  | operation {db₀ db : Db} {t₀ t : UtcTimestamp} {cfg : EngineConfig} {e : EngineOp} {s : Timed} {p : Proc Unit} :
      TimedRuns uuid5 allowed db₀ t₀ db t → Reach timed ⟨.start db, t⟩ (e.proc cfg uuid5) s p →
      allowed db t s.time e → TimedRuns uuid5 allowed db₀ t₀ s.tx.world.db s.time

/-- What holds while an operation of the engine runs: its intents go back to the tables it has started
from, and its rest is lawful and punctual. -/
structure OnTime (op : Operation) (e : EngineOp) (db : Db) (start : UtcTimestamp) (s : Timed) (last : Option UtcTimestamp)
    (p : Proc Unit) : Prop where
  ctl : QuietRows (s.tx.world.session.pending .ctl)
  origin : s.tx.origin = db
  traced : Traced op db s.tx.world.db ∧ Traced op db s.tx.view
  since : start ≤ s.time
  past : ∀ t, last = some t → t ≤ s.time
  lawful : wp (serial op (fun _ _ _ => True)) p (fun _ _ => True) s.tx
  punctual : wp (punctual (deadlines db) fun last i => e.MaySubmit start last i) p (fun _ _ => True) last

section OnTime

variable {cfg : EngineConfig} {uuid5 : NameUuid} {e : EngineOp} {db : Db} {start : UtcTimestamp} {s s' : Timed}
  {last : Option UtcTimestamp} {p : Proc Unit}

theorem onTime_start : OnTime (.engine cfg e) e db start ⟨.start db, start⟩ (some start) (e.proc cfg uuid5) where
  ctl := QuietRows.nil
  origin := rfl
  traced := ⟨traced_start db, traced_start db⟩
  since := le_rfl
  past t ht := (Option.some.inj ht).ge
  lawful := by
    have hfresh : Serial.IsFresh (.engine cfg e) := trivial
    exact wp_mono (fun _ _ _ => trivial) (Serial.wp_operation uuid5 (.engine cfg e) hfresh db)
  punctual := wp_mono (fun _ _ _ => trivial) (punctual_proc cfg uuid5 start e (some start) (late_some.mpr le_rfl))

theorem onTime_step {c : Call} {r : Except PyError c.Ans} {k : Except PyError c.Ans → Proc Unit}
    (h : OnTime (.engine cfg e) e db start s last (.call c k)) (hstep : timed.Step s c r s') :
    ∃ last', OnTime (.engine cfg e) e db start s' last' (k r) := by
  have hserial : (serial (.engine cfg e) (fun _ _ _ => True)).Step s.tx c r s'.tx := serial_of_timed hstep
  obtain ⟨hctl, horigin, heffect⟩ := step_effect h.ctl h.lawful.1 hserial
  obtain ⟨htells, hpast⟩ := tells_of_timed h.traced.2 h.past hstep
  exact ⟨heard last c r, hctl, horigin.trans h.origin, traced_effect rfl h.origin h.traced heffect,
    le_trans h.since hstep.1, hpast, h.lawful.2 r _ hserial, h.punctual.2 r _ ⟨htells, rfl⟩⟩

theorem onTime_reach {p₀ : Proc Unit} {s₀ : Timed} (h : Reach timed s₀ p₀ s p)
    (h₀ : OnTime (.engine cfg e) e db start s₀ last p₀) : ∃ last', OnTime (.engine cfg e) e db start s last' p := by
  induction h generalizing last with
  | refl => exact ⟨last, h₀⟩
  | step hstep _ ih =>
      obtain ⟨last₁, h₁⟩ := onTime_step h₀ hstep
      exact ih h₁

/-- A pending intent that the operation has not reserved was pending at its start. -/
theorem pending_before {i : OrderIntent} (h : OnTime (.engine cfg e) e db start s last p)
    (hi : s.tx.view.intents.get i.clientOrderId = some i) (hst : i.status = .submitting ∨ i.status = .unknown)
    (he : ∀ j, ¬ (Operation.engine cfg e).Reserves db j) :
    ∃ j, db.intents.get i.clientOrderId = some j ∧ SameWindow j i ∧ j.status.isPending = true := by
  obtain ⟨j, hj, hwindow, hpending⟩ := h.traced.2 _ i hi
  have hi : i.status.isPending = true := by
    rcases hst with hst | hst <;> rw [hst] <;> rfl
  exact ⟨j, hj, hwindow, (hpending hi).resolve_right fun hres => he j hres.2⟩

/-- What is resumed before the deadline is submitted before it. -/
theorem resumed_inWindow {i j : OrderIntent} {fin : UtcTimestamp} (hstarted : Started db start)
    (hj : db.intents.get i.clientOrderId = some j) (hwindow : SameWindow j i) (hpending : j.status.isPending = true)
    (hcross : NotCrossed start fin j) (hle : start ≤ fin) (hmay : MayResume start last i) :
    i.earliestSubmitAt ≤ fin ∧ fin < i.cancelAt := by
  obtain ⟨t, -, hsince, hbefore⟩ := hmay
  have hearliest := hstarted _ j hj hpending
  rw [hwindow.earliest, hwindow.cancel] at *
  exact ⟨le_trans hearliest hle, hcross hpending (lt_of_le_of_lt hsince hbefore)⟩

theorem submission_inWindow {i : OrderIntent} {k : Except PyError SubmitResult → Proc Unit} {fin : UtcTimestamp}
    (h : OnTime (.engine cfg e) e db start s last (.call (.broker (.submitOrder i)) k)) (hstarted : Started db start)
    (hfin : s.time ≤ fin) (hin : InWindow db start fin e) : i.earliestSubmitAt ≤ fin ∧ fin < i.cancelAt := by
  have hlaw : SubmitLaw (.engine cfg e) s.tx i := h.lawful.1
  have hmay : e.MaySubmit start last i := h.punctual.1 i rfl
  have hle : start ≤ fin := le_trans h.since hfin
  cases e with
  | submitFromOutbox c =>
      obtain ⟨j, hj, hst, rfl⟩ := hlaw.outbox
      rw [h.origin] at hj
      obtain ⟨hearliest, hcancel⟩ := hin j hj hst
      exact ⟨le_trans hearliest hle, hcancel⟩
  | resolve c =>
      obtain ⟨j, hj, hwindow, hpending⟩ := pending_before h hlaw.current hlaw.reserved fun _ => id
      obtain ⟨rfl, hmay⟩ := hmay
      exact resumed_inWindow hstarted hj hwindow hpending (hin j hj) hle hmay
  | recover =>
      obtain ⟨j, hj, hwindow, hpending⟩ := pending_before h hlaw.current hlaw.reserved fun _ => id
      exact resumed_inWindow hstarted hj hwindow hpending (hin _ j hj) hle hmay
  | applyFills c => exact hmay.elim
  | requestCancel c => exact hmay.elim
  | expireOverdue => exact hmay.elim

theorem started_after (h : OnTime (.engine cfg e) e db start s last p) (hstarted : Started db start)
    (hin : InWindow db start s.time e) : Started s.tx.world.db s.time := by
  intro k i hi hst
  obtain ⟨j, hj, hwindow, hpending⟩ := h.traced.1 k i hi
  rw [hwindow.earliest]
  refine le_trans ?_ h.since
  rcases hpending hst with hst | ⟨hst, hres⟩
  · exact hstarted _ j hj hst
  · cases e with
    | submitFromOutbox c => exact (hin j hres.2 hst).1
    | _ => exact hres.elim

end OnTime

theorem started_runs {uuid5 : NameUuid} {db₀ db : Db} {t₀ t : UtcTimestamp}
    (h : TimedRuns uuid5 InWindow db₀ t₀ db t) (h₀ : Started db₀ t₀) : Started db t := by
  induction h with
  | refl => exact h₀
  | wait _ hle ih => exact fun k i hi hst => le_trans (ih h₀ k i hi hst) hle
  | operation _ hreach hin ih =>
      obtain ⟨last, hs⟩ := onTime_reach hreach onTime_start
      exact started_after hs (ih h₀) hin

/-- Every submission of a run of the engine falls into the window of its intent, as long as every
submission from the outbox falls into it and no deadline passes while `resolve` or `recover` looks at
the intent.  The call is made at the time of the state it leads to. -/
theorem submissions_in_window (uuid5 : NameUuid) (db₀ db : Db) (t₀ t : UtcTimestamp) (hstarted : Started db₀ t₀)
    (hruns : TimedRuns uuid5 InWindow db₀ t₀ db t) (cfg : EngineConfig) (e : EngineOp) (s s' : Timed) (i : OrderIntent)
    (k : Except PyError SubmitResult → Proc Unit) (r : Except PyError SubmitResult)
    (hreach : Reach timed ⟨.start db, t⟩ (e.proc cfg uuid5) s (.call (.broker (.submitOrder i)) k))
    (hstep : timed.Step s (.broker (.submitOrder i)) r s') (hin : InWindow db t s'.time e) :
    i.earliestSubmitAt ≤ s'.time ∧ s'.time < i.cancelAt := by
  obtain ⟨last, hs⟩ := onTime_reach hreach onTime_start
  exact submission_inWindow hs (started_runs hruns hstarted) hstep.1 hin

/-! ### Samples -/

/-- The broker is silent while the clock stands still. -/
def stillEnv (t : UtcTimestamp) : Env := { silentEnv with clock := fun _ => t }

theorem timed_still (t : UtcTimestamp) (s : Tx) (c : Call) :
    timed.Step ⟨s, t⟩ c (transact (stillEnv t) c s).1 ⟨(transact (stillEnv t) c s).2, t⟩ :=
  ⟨le_rfl, stillEnv t, silentEnv_mild, fun _ => rfl, rfl, rfl⟩

theorem timed_advance (t : UtcTimestamp) (n : Nat) (p : Proc Unit) (s : Tx) :
    Reach timed ⟨s, t⟩ p ⟨(advance (transact (stillEnv t)) n p s).2, t⟩ (advance (transact (stillEnv t)) n p s).1 := by
  induction n generalizing p s with
  | zero => cases p <;> exact .refl _ _
  | succ n ih =>
      cases p with
      | ret a => exact .refl _ _
      | raise e => exact .refl _ _
      | call c k => exact .step (timed_still t s c) (ih _ _)

/-- The first calls of the submission of the sample intent. -/
def submitting (t : UtcTimestamp) : Proc Unit × Tx :=
  advance (transact (stillEnv t)) 9 ((EngineOp.submitFromOutbox sampleId).proc sampleConfig sampleUuid5) (.start queuedDb)

/-- The sample intent as it is submitted. -/
def queuedIntent : OrderIntent := { sampleIntent .submitting with createdAt := instant 10 }

theorem submitting_submits : ∀ t ∈ [instant 10, instant 999],
    (submitting t).1.next = some (.broker (.submitOrder queuedIntent)) := by
  decide +kernel

theorem queuedDb_started : Started queuedDb (instant 10) := by
  intro k i hi hst
  have hnone : queuedDb.intents.rows.all (fun i => i.status.isPending = false) = true := by decide +kernel
  have hpending := List.all_eq_true.mp hnone i (Table.mem_of_get hi)
  simp [hst] at hpending

/-- The sample intent is submitted in its window. -/
theorem submissions_in_window_sample :
    queuedIntent.earliestSubmitAt ≤ instant 10 ∧ instant 10 < queuedIntent.cancelAt := by
  obtain ⟨k, hk⟩ := eq_call_of_next (submitting_submits (instant 10) (by simp))
  have hreach : Reach timed _ _ _ (submitting (instant 10)).1 := timed_advance (instant 10) 9
    ((EngineOp.submitFromOutbox sampleId).proc sampleConfig sampleUuid5) (.start queuedDb)
  rw [hk] at hreach
  refine submissions_in_window sampleUuid5 queuedDb queuedDb (instant 10) (instant 10) queuedDb_started (.refl _ _)
    sampleConfig (.submitFromOutbox sampleId) _ _ _ k _ hreach (timed_still _ _ _) ?_
  intro i hi _
  have hwindow : (queuedDb.intents.get sampleId).all (fun i => decide (i.earliestSubmitAt ≤ instant 10 ∧
    instant 10 < i.cancelAt)) = true := by decide +kernel
  rw [hi] at hwindow
  exact of_decide_eq_true hwindow

/-- An intent that has waited in the outbox is submitted after its deadline. -/
theorem submit_after_deadline : ∃ (s s' : Timed) (i : OrderIntent) (k : Except PyError SubmitResult → Proc Unit)
    (r : Except PyError SubmitResult),
    TimedRuns sampleUuid5 (fun _ _ _ _ => True) queuedDb (instant 10) queuedDb (instant 999) ∧
    Reach timed ⟨.start queuedDb, instant 999⟩ ((EngineOp.submitFromOutbox sampleId).proc sampleConfig sampleUuid5) s
      (.call (.broker (.submitOrder i)) k) ∧
    timed.Step s (.broker (.submitOrder i)) r s' ∧ ¬ s'.time < i.cancelAt := by
  obtain ⟨k, hk⟩ := eq_call_of_next (submitting_submits (instant 999) (by simp))
  have hreach : Reach timed _ _ _ (submitting (instant 999)).1 := timed_advance (instant 999) 9
    ((EngineOp.submitFromOutbox sampleId).proc sampleConfig sampleUuid5) (.start queuedDb)
  rw [hk] at hreach
  exact ⟨_, _, _, k, _, .wait (.refl _ _) (by decide), hreach, timed_still _ _ _, by decide⟩

end SevenLens
