import SevenLens.EngineLaw

/-! # Runs of the engine

The operations of the engine, from the absorption of one broker order up to the sweeps, under
the law of `Serial`.  A submission is made for an intent that is durably `submitting` or
`unknown` as read, and an entry is submitted only when the guard has found no unresolved
intent. -/

namespace SevenLens

namespace Serial

open Calls Prog

section Engine

variable {op : Operation} {adm : Tx → (b : BrokerCall) → Except PyError b.Ans → Prop}
variable (cfg : EngineConfig) (uuid5 : NameUuid)

/-! ### Reads at the start of a program -/

/-- A read in any transaction: an aborted one raises. -/
theorem wp_firstRead {β : Type} {c : StoreCall} {a : c.Ans} {f : c.Ans → Proc β}
    {Q : Except PyError β → Tx → Prop} {s : Tx} (hs : Steady s) (hc : c.isRead = true)
    (ha : s.view.read c = .ok a) (hraised : ∀ s' e, Steady s' → Mild e → Q (.error e) s')
    (h : s.aborted .uow = false → wp (serial op adm) (f a) Q s.pass) :
    wp (serial op adm) ((ask (.store .uow c)).bind f) Q s := by
  cases hab : s.aborted .uow with
  | false => exact wp_read_bind hab hc ha (h hab)
  | true =>
      refine wp_bind.mpr (wp_ask (lawful_read hc) fun env _ => ?_)
      simp only [transact, hab, if_true]
      exact hraised _ _ ((Like.pass s).steady hs) (by simp [Mild, abortedError])

theorem wp_requireIntent {β : Type} {k : ClientOrderId} {f : OrderIntent → Proc β}
    {Q : Except PyError β → Tx → Prop} {s : Tx} (hs : Steady s)
    (hraised : ∀ s' e, Steady s' → Mild e → Q (.error e) s')
    (h : ∀ i, s.aborted .uow = false → s.view.intents.get k = some i → wp (serial op adm) (f i) Q s.pass) :
    wp (serial op adm) ((requireIntent k).bind f) Q s := by
  unfold requireIntent
  simp only [bind_eq, pure_eq_ret]
  rw [bind_assoc]
  refine wp_firstRead (c := .getIntent k) (a := s.view.intents.get k) hs rfl rfl hraised fun hab => ?_
  cases hi : s.view.intents.get k with
  | none => exact hraised _ _ ((Like.pass s).steady hs) (by simp [Mild])
  | some i => exact h i hab hi

theorem wp_firstList {β : Type} {t : OrderStatus} {f : List OrderIntent → Proc β}
    {Q : Except PyError β → Tx → Prop} {s : Tx} (hs : Steady s)
    (hraised : ∀ s' e, Steady s' → Mild e → Q (.error e) s')
    (h : s.aborted .uow = false → wp (serial op adm) (f (s.view.listByStatus t)) Q s.pass) :
    wp (serial op adm) ((listByStatus t).bind f) Q s :=
  wp_firstRead (c := .listByStatus t) (a := s.view.listByStatus t) hs rfl rfl hraised h

/-! ### Accepting a broker order -/

/-- The intent as the transaction has read it, at the beginning of a transaction. -/
structure Ready (i : OrderIntent) (s : Tx) : Prop extends Calm s where
  intent : s.view.intents.get i.clientOrderId = some i

theorem Ready.like {i : OrderIntent} {s s' : Tx} (h : Ready i s) (hl : Like s s') : Ready i s' where
  toStill := hl.still h.toStill
  live := (congrFun hl.aborted _).trans h.live
  intent := by rw [hl.view]; exact h.intent

theorem Ready.pass {i : OrderIntent} {s : Tx} (h : Ready i s) : Ready i s.pass := h.like (Like.pass s)

theorem mismatchFields_nil {i : OrderIntent} {o : BrokerOrder} {m m' : Option BrokerOrder}
    (h : mismatchFields i o m m' = []) : o.clientOrderId = i.clientOrderId ∧
      o.symbol = i.symbol ∧ o.side = i.side ∧ o.quantity = i.quantity ∧ o.limitPrice = i.limitPrice := by
  simp only [mismatchFields, List.append_eq_nil_iff, ite_eq_left_iff, List.cons_ne_nil, imp_false,
    Decidable.not_not] at h
  exact ⟨h.1.1.1.1.1, h.1.1.1.1.2, h.1.1.1.2, h.1.1.2, h.1.2⟩

theorem raised_finished {α : Type} (s : Tx) (e : PyError) (hs : Steady s) (he : Mild e) :
    Finished (.error e : Except PyError α) s := Or.inr ⟨hs, e, rfl, he⟩

/-- A transaction that may record the mirror of an intent. -/
structure Open (i : OrderIntent) (s : Tx) : Prop where
  live : s.aborted .uow = false
  whole : Whole s
  ctl : QuietRows (s.world.session.pending .ctl)
  intent : s.view.intents.get i.clientOrderId = some i

theorem Ready.opened {i : OrderIntent} {s : Tx} (h : Ready i s) : Open i s :=
  ⟨h.live, h.whole, h.ctl, h.intent⟩

theorem Open.like {i : OrderIntent} {s s' : Tx} (h : Open i s) (hl : Like s s') : Open i s' where
  live := (congrFun hl.aborted _).trans h.live
  whole := hl.whole h.whole
  ctl := by rw [hl.session]; exact h.ctl
  intent := by rw [hl.view]; exact h.intent

theorem wp_recordAccepted {i : OrderIntent} {o : BrokerOrder} {s : Tx} (hs : Open i s) (ho : s.shown = some o)
    (hst : i.status.isSubmitted = true) :
    wp (serial op adm) (recordAccepted cfg uuid5 i o) Finished s := by
  unfold recordAccepted
  rw [bind_eq]
  refine wp_bind_raised (wp_assertMirrorMatches cfg uuid5 i o hs.live hs.whole hs.ctl) raised_finished
    fun _ s₁ h₁ => ?_
  obtain ⟨hlike, hfields⟩ := h₁
  obtain ⟨hc, hparams⟩ := mismatchFields_nil hfields
  have hs₁ := hs.like hlike
  exact wp_refreshFromBrokerOrder cfg uuid5 hs₁.whole hs₁.ctl hs₁.live (hlike.shown.trans ho) hc hs₁.intent hst
    hparams

/-! ### Submission -/

theorem isSubmitted_of_pending {t : OrderStatus} (h : t = .submitting ∨ t = .unknown) : t.isSubmitted = true := by
  rcases h with rfl | rfl <;> rfl

/-- Entries are paused after the end of a transaction. -/
theorem wp_pause_then {i j : OrderIntent} {s : Tx} (hs : Still s) :
    wp (serial op adm) ((pauseForReconciliationRequired cfg uuid5 i ambiguousOutcome).bind fun _ => ret j)
      Finished s := by
  refine wp_mono (fun r s' h => ?_) (wp_still (within_bind (f := fun _ => ret j)
    (within_pauseForReconciliationRequired cfg uuid5 i ambiguousOutcome) fun _ => trivial) hs)
  cases r with
  | ok a => exact Or.inl ⟨a, rfl, h.1⟩
  | error e => exact Or.inr ⟨h.1.steady, e, rfl, h.2 e rfl⟩

theorem whole_of_free {s : Tx} (h : s.absorbed = none) : Whole s := by
  intro k hk
  rw [h] at hk
  cases hk

/-- A move of an intent is committed. -/
theorem wp_move_commit {β : Type} {i : OrderIntent} {t : OrderStatus} {f : OrderIntent → Proc β}
    {Q : Except PyError β → Tx → Prop} {s : Tx} (hs : Open i s) (hw : Whole (s.moved i t))
    (hlaw : MoveLaw op s i t) (hraised : ∀ s' e, Steady s' → Mild e → Q (.error e) s')
    (h : ∀ s', Ready (i.withStatus t) s' → s'.origin = s.origin →
      wp (serial op adm) (f (i.withStatus t)) Q s') :
    wp (serial op adm) ((transitionStatus i.clientOrderId t).bind fun j => commit.bind fun _ => f j) Q s := by
  rw [wp_bind]
  refine wp_transition hs.live hs.intent hlaw ?_ hs.ctl fun e s' he hs' => hraised s' e hs' he
  show wp (serial op adm) (commit.bind fun _ => f (i.withStatus t)) Q (s.moved i t)
  rw [wp_bind]
  refine wp_commit ⟨Or.inr hw, hs.ctl⟩ fun s' hs' horigin hview => h s' ⟨hs', ?_⟩ horigin
  rw [(hview hs.live).1]
  exact moved_intent t hs.intent

theorem wp_becomeUnknown {i : OrderIntent} {s : Tx} (hs : Ready i s)
    (hst : i.status = .submitting ∨ i.status = .unknown) :
    wp (serial op adm) (becomeUnknown cfg uuid5 i) Finished s := by
  unfold becomeUnknown
  simp only [bind_eq, pure_eq_ret]
  refine wp_move_commit hs.opened (whole_of_free hs.free) (.ambiguous hst ?_) raised_finished fun s' hs' _ => ?_
  · rw [hs.free]
    simp
  · exact wp_pause_then cfg uuid5 hs'.toStill

theorem wp_bind_finished {α β : Type} {p : Proc α} {f : α → Proc β} {Q : Except PyError β → Tx → Prop} {s : Tx}
    (hp : wp (serial op adm) p Finished s) (hraised : ∀ s' e, Steady s' → Mild e → Q (.error e) s')
    (hf : ∀ a s', Still s' → wp (serial op adm) (f a) Q s') : wp (serial op adm) (p.bind f) Q s :=
  wp_bind_raised (P := fun _ => Still) hp hraised hf

/-- The broker has answered the submission. -/
theorem wp_submitWhileGuarded {i : OrderIntent} {s : Tx} (hs : Ready i s) (hlaw : SubmitLaw op s i) :
    wp (serial op adm) (submitWhileGuarded cfg uuid5 i) Finished s := by
  unfold submitWhileGuarded
  simp only [bind_eq, pure_eq_ret]
  rw [wp_bind, wp_tryCatch, wp_bind]
  refine wp_ask (c := .broker (.submitOrder i)) hlaw fun env he => ?_
  have hst := hlaw.reserved
  cases hr : env.broker s.world.tick (.submitOrder i) with
  | error e =>
      simp only [transact, hr]
      show wp (serial op adm) (afterSubmit cfg uuid5 i (.error e)) Finished s.pass
      simp only [afterSubmit, bind_eq]
      split
      · exact wp_becomeUnknown cfg uuid5 hs.pass hst
      · split
        · refine wp_bind_finished (wp_becomeUnknown cfg uuid5 hs.pass hst) raised_finished fun _ s' hs' => ?_
          exact raised_finished s' _ hs'.steady (by simp [Mild])
        · exact raised_finished _ _ hs.pass.steady (he.1 _ _ _ hr)
  | ok a =>
      cases a with
      | accepted o =>
          simp only [transact, hr, Tx.told]
          have hs₁ : Ready i { s.pass with shown := some o } := ⟨⟨⟨hs.quiet, hs.free, hs.ctl⟩, hs.live⟩, hs.intent⟩
          exact wp_recordAccepted cfg uuid5 hs₁.opened rfl (isSubmitted_of_pending hst)
      | rejected reason =>
          simp only [transact, hr, Tx.told]
          have hs₁ : Ready i { s.pass with refused := some i.clientOrderId } :=
            ⟨⟨⟨hs.quiet, hs.free, hs.ctl⟩, hs.live⟩, hs.intent⟩
          show wp (serial op adm) (afterSubmit cfg uuid5 i (.ok (.rejected reason))) Finished _
          unfold afterSubmit
          refine wp_move_commit (f := ret) hs₁.opened (whole_of_free hs₁.free) (.refuse hst ?_ rfl) raised_finished fun s' hs' _ => ?_
          · rw [hs₁.free]
            simp
          · exact Or.inl ⟨_, rfl, hs'.toStill⟩

/-! ### The guard -/

theorem Calm.pass {s : Tx} (h : Calm s) : Calm s.pass := ⟨(Like.pass s).still h.toStill, h.live⟩

/-- No intent is listed in a status. -/
theorem listByStatus_nil {db : Db} {t : OrderStatus} (h : db.listByStatus t = []) :
    ∀ j ∈ db.intents.rows, j.status ≠ t := by
  intro j hj ht
  have hmem : j ∈ db.listByStatus t := Db.mem_listByStatus.mpr ⟨hj, ht⟩
  rw [h] at hmem
  cases hmem

theorem wp_hasUnresolvedIntents {s : Tx} (hs : s.aborted .uow = false) :
    wp (serial op adm) hasUnresolvedIntents (fun r s' => Like s s' ∧ (r = .ok true ∨ r = .ok false ∧
      ∀ j ∈ s.view.intents.rows, j.status ≠ .unknown ∧ j.status ≠ .reviewRequired)) s := by
  unfold hasUnresolvedIntents
  simp only [bind_eq, pure_eq_ret]
  refine wp_listByStatus_bind hs ?_
  split
  · exact ⟨Like.pass s, Or.inl rfl⟩
  · rename_i hunknown
    refine wp_listByStatus_bind hs ?_
    have hlike := (Like.pass s).trans (Like.pass s.pass)
    split
    · exact ⟨hlike, Or.inl rfl⟩
    · rename_i hreview
      refine ⟨hlike, Or.inr ⟨rfl, fun j hj => ⟨?_, ?_⟩⟩⟩
      · exact listByStatus_nil (not_not.mp hunknown) j hj
      · exact listByStatus_nil (not_not.mp hreview) j hj

/-- The guard has refused the entry, and nothing has changed. -/
def Refused {α : Type} (i : OrderIntent) (r : Except PyError α) (s : Tx) : Prop :=
  ∃ e, r = .error e ∧ e.kind = .executionPaused ∧ Ready i s

/-- The end of the transaction of either connection between two transactions. -/
theorem ready_ended {i : OrderIntent} {s : Tx} (hs : Ready i s) (env : Env) (h : Handle) :
    Ready i (transact env (.rollback h) s).2 := by
  cases h with
  | uow =>
      refine ⟨calm_ended hs.ctl rfl, ?_⟩
      show ((s.world.next.rollback .uow).view .uow).intents.get _ = _
      rw [World.rollback_view]
      show s.world.db.intents.get _ = _
      rw [← hs.view_intents]
      exact hs.intent
  | ctl =>
      refine ⟨⟨⟨?_, hs.free, ?_⟩, ?_⟩, hs.intent⟩
      · exact quietRows_set hs.quiet fun _ => QuietRows.nil
      · exact quietRows_set hs.ctl fun _ => QuietRows.nil
      · have hne : Handle.uow ≠ .ctl := by decide
        exact (Function.update_of_ne hne false s.aborted).trans hs.live

theorem wp_guarded (h : Handle) {i : OrderIntent} {s : Tx} (hs : Ready i s)
    (hlaw : ∀ s', Like s s' → (∀ j ∈ s.view.intents.rows, j.status ≠ .unknown ∧ j.status ≠ .reviewRequired) →
      SubmitLaw op s' i) :
    wp (serial op adm) (guarded h (submitWhileGuarded cfg uuid5 i))
      (fun r s' => Finished r s' ∨ Refused i r s') s := by
  unfold guarded
  simp only [bind_eq, pure_eq_ret]
  rw [wp_bind]
  refine wp_ask (c := .lockControl h) trivial fun env _ => ?_
  have hlike := Like.pass s
  simp only [transact]
  split
  · exact Or.inl (raised_finished _ _ (hlike.steady hs.steady) (by simp [Mild, abortedError]))
  · -- The block, before the rollback or the commit that releases the row.
    have hblock : wp (serial op adm) (if (s.world.view h).control.entriesPaused = true then
          fail .executionPaused pausedMessage
        else hasUnresolvedIntents.bind fun b =>
          if b = true then
            fail .executionPaused "reconciliation required; unresolved broker truth blocks new entries"
          else submitWhileGuarded cfg uuid5 i) (fun r s' => Finished r s' ∨ Refused i r s') s.pass := by
      split
      · exact Or.inr ⟨_, rfl, rfl, hs.pass⟩
      · rw [wp_bind]
        refine wp_mono (fun r s₂ h₂ => ?_) (wp_hasUnresolvedIntents hs.pass.live)
        obtain ⟨hlike₂, rfl | ⟨rfl, hnone⟩⟩ := h₂
        · exact Or.inr ⟨_, rfl, rfl, hs.pass.like hlike₂⟩
        · refine wp_mono (fun _ _ h => Or.inl h) (wp_submitWhileGuarded cfg uuid5 (hs.pass.like hlike₂) ?_)
          exact hlaw s₂ (hlike.trans hlike₂) hnone
    show wp (serial op adm) (Prog.bind (Prog.tryCatch _ _) _) _ s.pass
    rw [wp_bind, wp_tryCatch]
    refine wp_mono (fun r s₂ h₂ => ?_) hblock
    cases r with
    | error e =>
        rw [orElse_error, wp_bind]
        refine wp_ask (c := .rollback h) trivial fun env _ => ?_
        show andThen _ _ (.ok ()) _
        rcases h₂ with h₂ | ⟨e', he', hkind, hs₂⟩
        · obtain ⟨a, ha, -⟩ | ⟨hs₂, e', he', hmild⟩ := h₂
          · cases ha
          · cases he'
            have hstep : (serial op fun _ _ _ => True).Step s₂ (.rollback h) (.ok ())
              (transact env (.rollback h) s₂).2 := ⟨env, ‹_›, fun _ _ => trivial, rfl, rfl⟩
            exact Or.inl (raised_finished _ _ (steady_step (c := .rollback h) hs₂ trivial hstep).1 hmild)
        · cases he'
          exact Or.inr ⟨_, rfl, hkind, ready_ended hs₂ env h⟩
    | ok a =>
        rw [orElse_ok, andThen_ok, wp_bind]
        have hs₂ : Still s₂ := by
          rcases h₂ with (⟨b, -, hs₂⟩ | ⟨-, e, he, -⟩) | ⟨e, he, -⟩
          · exact hs₂
          · cases he
          · cases he
        refine wp_ask (c := .commit h) (by cases h <;> [exact Or.inr hs₂.whole; trivial]) fun env henv => ?_
        have hstep : (serial op fun _ _ _ => True).Step s₂ (.commit h) (.ok ())
          (transact env (.commit h) s₂).2 := ⟨env, henv, fun _ _ => trivial, rfl, rfl⟩
        exact Or.inl (Or.inl ⟨a, rfl, (still_step (c := .commit h) hs₂ trivial hstep).1⟩)

/-- A reserved intent is submitted, with the guard around it for an entry. -/
theorem wp_completeSubmission (hop : op.config = some cfg) {i : OrderIntent} {s : Tx} (hs : Ready i s)
    (hst : i.status = .submitting ∨ i.status = .unknown) (hsub : op.Submits s.origin i) :
    wp (serial op adm) (completeSubmission cfg uuid5 i) Finished s := by
  have hlaw : ∀ s', Like s s' → (i.intentType = .rebalance → cfg.guardControl.isSome → ∀ j ∈ s.view.intents.rows,
      j.status ≠ .unknown ∧ j.status ≠ .reviewRequired) → SubmitLaw op s' i := by
    intro s' hlike hnone
    have hs' := hs.like hlike
    refine ⟨hs'.intent, hst, ?_, ⟨cfg, hop, ?_⟩, hlike.origin.symm ▸ hsub⟩
    · rw [← hs'.view_intents]
      exact hs'.intent
    · rw [hlike.view]
      exact hnone
  have hguard : wp (serial op adm) (entrySubmissionGuard cfg i (submitWhileGuarded cfg uuid5 i))
      (fun r s' => Finished r s' ∨ Refused i r s') s := by
    unfold entrySubmissionGuard
    split
    · rename_i hexit
      refine wp_mono (fun _ _ h => Or.inl h) (wp_submitWhileGuarded cfg uuid5 hs (hlaw s (Like.refl s) ?_))
      intro ht
      rw [hexit] at ht
      cases ht
    · split
      · rename_i hnone
        refine wp_mono (fun _ _ h => Or.inl h) (wp_submitWhileGuarded cfg uuid5 hs (hlaw s (Like.refl s) ?_))
        intro _ hsome
        rw [hnone] at hsome
        cases hsome
      · exact wp_guarded cfg uuid5 _ hs fun s' hlike hnone => hlaw s' hlike fun _ _ => hnone
  unfold completeSubmission
  rw [wp_tryCatch]
  refine wp_mono (fun r s₁ h₁ => ?_) hguard
  cases r with
  | ok a =>
      rcases h₁ with h₁ | ⟨e, he, -⟩
      · exact h₁
      · cases he
  | error e =>
      rw [orElse_error]
      rcases h₁ with (⟨a, ha, -⟩ | ⟨hs₁, e', he', hmild⟩) | ⟨e', he', hkind, hs₁⟩
      · cases ha
      · cases he'
        rw [if_neg hmild]
        exact raised_finished s₁ e hs₁ hmild
      · cases he'
        rw [if_pos hkind]
        split
        · simp only [bind_eq, pure_eq_ret]
          refine wp_move_commit hs₁.opened (whole_of_free hs₁.free) (.ambiguous hst ?_) raised_finished fun s' hs' _ => ?_
          · rw [hs₁.free]
            simp
          · exact wp_pause_then cfg uuid5 hs'.toStill
        · exact Or.inl ⟨i, rfl, hs₁.toStill⟩

/-! ### The operations on one intent -/

/-- No mirror has been recorded in the transaction. -/
structure Free (s : Tx) : Prop where
  free : s.absorbed = none
  ctl : QuietRows (s.world.session.pending .ctl)

theorem Free.steady {s : Tx} (h : Free s) : Steady s := ⟨Or.inr (whole_of_free h.free), h.ctl⟩

theorem Free.like {s s' : Tx} (h : Free s) (hl : Like s s') : Free s' :=
  ⟨hl.absorbed.trans h.free, by rw [hl.session]; exact h.ctl⟩

theorem Free.of_still {s : Tx} (h : Still s) : Free s := ⟨h.free, h.ctl⟩

/-- The end of an operation that may be followed by another one in the same transaction. -/
def Settles {α : Type} (r : Except PyError α) (s : Tx) : Prop :=
  (∃ a, r = .ok a ∧ Free s) ∨ ∃ e, r = .error e ∧ Steady s

theorem settles_of_finished {α : Type} {r : Except PyError α} {s : Tx} (h : Finished r s) : Settles r s := by
  rcases h with ⟨a, ha, hs⟩ | ⟨hs, e, he, -⟩
  · exact Or.inl ⟨a, ha, Free.of_still hs⟩
  · exact Or.inr ⟨e, he, hs⟩

theorem wp_assertEntriesAllowed (i : OrderIntent) (s : Tx) :
    wp (serial op adm) (assertEntriesAllowed cfg i) (fun _ s' => Like s s') s := by
  unfold assertEntriesAllowed
  split
  · exact Like.refl s
  · rename_i h _
    simp only [bind_eq, pure_eq_ret]
    rw [wp_bind]
    refine wp_ask (c := .store h .controlState) (by cases h <;> [exact Or.inr trivial; rfl]) fun env _ => ?_
    have hlike := Like.pass s
    by_cases hab : s.aborted h = true
    · simp only [transact, hab, if_true]
      exact hlike
    · simp only [transact, if_neg hab]
      have hout : s.stated h .controlState (handler env (.store h .controlState) s.world).1
          (handler env (.store h .controlState) s.world).2 = s.pass := by
        cases h <;> simp [handler, World.statement, Db.exec, Tx.stated, Tx.pass]
      rw [hout]
      show wp (serial op adm) (if _ then _ else if _ then _ else _) _ s.pass
      split
      · exact hlike
      · split <;> exact hlike

theorem wp_assertAssetTradable (i : OrderIntent) (s : Tx) :
    wp (serial op adm) (assertAssetTradable i) (fun _ s' => Like s s') s := by
  unfold assertAssetTradable
  simp only [bind_eq, pure_eq_ret]
  rw [wp_bind]
  refine wp_ask (c := .broker (.getAsset i.symbol)) trivial fun env _ => ?_
  have hlike := Like.pass s
  have hout : (transact env (.broker (.getAsset i.symbol)) s).2 = s.pass := by
    simp only [transact]
    cases env.broker s.world.tick (.getAsset i.symbol) <;> rfl
  rw [hout]
  cases (transact env (.broker (.getAsset i.symbol)) s).1 with
  | error e => exact hlike
  | ok a =>
      show wp (serial op adm) (if _ then _ else _) _ s.pass
      split <;> exact hlike

/-- A check that leaves the state as it is. -/
theorem wp_check_bind {α β : Type} {p : Proc α} {f : α → Proc β} {s : Tx} {Q : Except PyError β → Tx → Prop}
    (hp : wp (serial op adm) p (fun _ s' => Like s s') s) (herr : ∀ e s', Like s s' → Q (.error e) s')
    (hf : ∀ a s', Like s s' → wp (serial op adm) (f a) Q s') : wp (serial op adm) (p.bind f) Q s := by
  rw [wp_bind]
  refine wp_mono (fun r s' h => ?_) hp
  cases r with
  | error e => exact herr e s' h
  | ok a => exact hf a s' h

theorem wp_submitFromOutbox (hop : op.config = some cfg) (k : ClientOrderId) {s : Tx} (hs : Free s)
    (hout : ∀ i, s.view.intents.get k = some i → i.status = .outboxPending →
      op.Reserves s.origin i ∧ op.Submits s.origin (i.withStatus .submitting)) :
    wp (serial op adm) (submitFromOutbox cfg uuid5 k) Settles s := by
  unfold submitFromOutbox
  simp only [bind_eq, pure_eq_ret]
  have hraised : ∀ s' e, Steady s' → Mild e → Settles (.error e : Except PyError OrderIntent) s' :=
    fun s' e hs' _ => Or.inr ⟨e, rfl, hs'⟩
  refine wp_requireIntent hs.steady hraised fun i hlive hi => ?_
  obtain rfl : i.clientOrderId = k := Table.key_of_get hi
  have hlike := Like.pass s
  split
  · exact Or.inl ⟨i, rfl, hs.like hlike⟩
  · rename_i hst
    have herr : ∀ {s₁ : Tx}, Like s s₁ → ∀ e s', Like s₁ s' → Settles (.error e : Except PyError OrderIntent) s' :=
      fun h₁ e s' h => Or.inr ⟨e, rfl, (hs.like (h₁.trans h)).steady⟩
    refine wp_check_bind (wp_assertEntriesAllowed cfg i s.pass) (herr hlike) fun _ s₁ h₁ => ?_
    replace h₁ := hlike.trans h₁
    refine wp_check_bind (wp_assertAssetTradable i s₁) (herr h₁) fun _ s₂ h₂ => ?_
    replace h₂ := h₁.trans h₂
    refine wp_check_bind (wp_assertEntriesAllowed cfg i s₂) (herr h₂) fun _ s₃ h₃ => ?_
    replace h₃ := h₂.trans h₃
    have hs₃ := hs.like h₃
    have hopen : Open i s₃ := by
      refine ⟨(congrFun h₃.aborted _).trans hlive, whole_of_free hs₃.free, hs₃.ctl, ?_⟩
      rw [h₃.view]
      exact hi
    obtain ⟨hreserves, hsubmits⟩ := hout i hi (not_not.mp hst)
    rw [← h₃.origin] at hreserves hsubmits
    refine wp_move_commit hopen (whole_of_free hs₃.free) (.reserve (not_not.mp hst) hreserves) hraised
      fun s' hs' horigin => ?_
    refine wp_mono (fun _ _ h => settles_of_finished h) (wp_completeSubmission cfg uuid5 hop hs' (Or.inl rfl) ?_)
    rw [horigin]
    exact hsubmits

/-- The broker's order of an intent, if it has one. -/
theorem wp_getOrder {β : Type} {k : ClientOrderId} {f : Option BrokerOrder → Proc β}
    {Q : Except PyError β → Tx → Prop} {s : Tx} (hs : Steady s)
    (hraised : ∀ s' e, Steady s' → Mild e → Q (.error e) s')
    (h : ∀ o, wp (serial op adm) (f o) Q { s.pass with shown := o }) :
    wp (serial op adm) ((getOrder k).bind f) Q s := by
  refine wp_bind.mpr (wp_ask (c := .broker (.getOrder k)) trivial fun env he => ?_)
  cases ho : env.broker s.world.tick (.getOrder k) with
  | error e =>
      simp only [transact, ho]
      exact hraised _ e ((Like.pass s).steady hs) (he.1 _ _ _ ho)
  | ok o =>
      simp only [transact, ho, Tx.told]
      exact h o

theorem wp_clock {β : Type} {f : UtcTimestamp → Proc β} {Q : Except PyError β → Tx → Prop} {s : Tx}
    (h : ∀ t, wp (serial op adm) (f t) Q s.pass) : wp (serial op adm) (clock.bind f) Q s := by
  rw [wp_bind]
  refine wp_ask (c := .clock) trivial fun env _ => ?_
  exact h _

theorem wp_resolve (hop : op.config = some cfg) (hsub : ∀ db i, op.Submits db i) (k : ClientOrderId) {s : Tx}
    (hs : Still s) :
    wp (serial op adm) (resolve cfg uuid5 k) Finished s := by
  unfold resolve
  simp only [bind_eq, pure_eq_ret]
  refine wp_requireIntent hs.steady raised_finished fun i hlive hi => ?_
  obtain rfl : i.clientOrderId = k := Table.key_of_get hi
  have hs₁ : Ready i s.pass := ⟨⟨(Like.pass s).still hs, hlive⟩, hi⟩
  split
  · exact Or.inl ⟨i, rfl, hs₁.toStill⟩
  · rename_i hn
    have hst : i.status = .submitting ∨ i.status = .unknown := by
      by_contra h
      exact hn (not_or.mp h)
    refine wp_getOrder hs₁.steady raised_finished fun o => ?_
    have hs₂ : Ready i { s.pass.pass with shown := o } := ⟨⟨⟨hs.quiet, hs.free, hs.ctl⟩, hlive⟩, hi⟩
    cases o with
    | none =>
        refine wp_clock fun now => ?_
        have hs₃ := hs₂.pass
        split
        · -- Past the deadline nothing is submitted.
          split
          · refine wp_move_commit (f := ret) hs₃.opened (whole_of_free hs₃.free) (.ambiguous hst ?_) raised_finished
              fun s' hs' _ => Or.inl ⟨_, rfl, hs'.toStill⟩
            rw [hs₃.free]
            simp
          · show wp (serial op adm) (commit.bind fun _ => ret i) Finished _
            rw [wp_bind]
            exact wp_commit hs₃.steady fun s' hs' _ _ => Or.inl ⟨i, rfl, hs'.toStill⟩
        · exact wp_completeSubmission cfg uuid5 hop hs₃ hst (hsub _ i)
    | some o =>
        refine wp_bind_raised (wp_assertMirrorMatches cfg uuid5 i o hs₂.live hs₂.whole hs₂.ctl) raised_finished
          fun _ s₃ h₃ => ?_
        exact wp_recordAccepted cfg uuid5 (hs₂.like h₃.1).opened h₃.1.shown (isSubmitted_of_pending hst)

theorem wp_absorbBrokerOrder {i : OrderIntent} {s : Tx} (hs : Open i s) (hst : i.status.isSubmitted = true) :
    wp (serial op adm) (absorbBrokerOrder cfg uuid5 i) Finished s := by
  unfold absorbBrokerOrder
  simp only [bind_eq]
  have hsteady : Steady s := ⟨Or.inr hs.whole, hs.ctl⟩
  refine wp_getOrder hsteady raised_finished fun o => ?_
  have hs₁ : Open i { s.pass with shown := o } := ⟨hs.live, hs.whole, hs.ctl, hs.intent⟩
  cases o with
  | none => exact raised_finished _ _ ⟨Or.inr hs₁.whole, hs₁.ctl⟩ (by simp [Mild])
  | some o => exact wp_recordAccepted cfg uuid5 hs₁ rfl hst

theorem open_of_steady {i : OrderIntent} {s : Tx} (hs : Steady s) (hlive : s.aborted .uow = false)
    (hi : s.view.intents.get i.clientOrderId = some i) : Open i s := by
  refine ⟨hlive, hs.safe.resolve_left ?_, hs.ctl, hi⟩
  rw [hlive]
  simp

theorem wp_applyFills (k : ClientOrderId) {s : Tx} (hs : Steady s) :
    wp (serial op adm) (applyFills cfg uuid5 k)
      (fun r s' => (∃ a, r = .ok a ∧ (Like s s' ∨ Still s')) ∨ Raised r s') s := by
  have hraised : ∀ s' e, Steady s' → Mild e → (∃ a, (.error e : Except PyError OrderIntent) = .ok a ∧
      (Like s s' ∨ Still s')) ∨ Raised (.error e : Except PyError OrderIntent) s' :=
    fun s' e hs' he => Or.inr ⟨hs', e, rfl, he⟩
  unfold applyFills
  simp only [bind_eq, pure_eq_ret]
  refine wp_requireIntent hs hraised fun i hlive hi => ?_
  obtain rfl : i.clientOrderId = k := Table.key_of_get hi
  have hs₁ : Open i s.pass := open_of_steady ((Like.pass s).steady hs) hlive hi
  split
  · exact Or.inl ⟨i, rfl, Or.inl (Like.pass s)⟩
  · rename_i hn
    have hst : i.status.isSubmitted = true := by
      cases h : i.status <;> simp_all [OrderStatus.isSubmitted]
    refine wp_getBrokerOrder hlive ?_
    have hs₂ := hs₁.like (Like.pass s.pass)
    cases hm : s.pass.view.getBrokerOrder i.clientOrderId with
    | none => exact hraised _ _ ⟨Or.inr hs₂.whole, hs₂.ctl⟩ (by simp [Mild])
    | some m =>
        refine wp_mono (fun r s' h => ?_) (wp_absorbBrokerOrder cfg uuid5 hs₂ hst)
        rcases h with ⟨a, ha, hstill⟩ | h
        · exact Or.inl ⟨a, ha, Or.inr hstill⟩
        · exact Or.inr h

theorem wp_requestCancel (k : ClientOrderId) {s : Tx} (hs : Steady s) :
    wp (serial op adm) (requestCancel cfg uuid5 k) Finished s := by
  rw [requestCancel_eq]
  refine wp_requireIntent hs raised_finished fun i hlive hi => ?_
  obtain rfl : i.clientOrderId = k := Table.key_of_get hi
  have hs₁ : Open i s.pass := open_of_steady ((Like.pass s).steady hs) hlive hi
  -- Once the cancel is pending, the broker is asked and its order absorbed.
  have hrest : ∀ (j : OrderIntent) (s₂ : Tx), Open j s₂ → j.clientOrderId = i.clientOrderId →
      j.status = .cancelPending → wp (serial op adm) (cancelAtBroker cfg uuid5 i.clientOrderId j) Finished s₂ := by
    intro j s₂ hs₂ hj hst
    refine wp_getBrokerOrder hs₂.live ?_
    have hs₃ := hs₂.like (Like.pass s₂)
    have hsteady : Steady s₂.pass := ⟨Or.inr hs₃.whole, hs₃.ctl⟩
    cases hm : s₂.view.getBrokerOrder i.clientOrderId with
    | none => exact raised_finished _ _ hsteady (by simp [Mild])
    | some m =>
        refine wp_bind.mpr (wp_ask (c := .broker (.cancelOrder m.brokerOrderId)) trivial fun env he => ?_)
        have hout : (transact env (.broker (.cancelOrder m.brokerOrderId)) s₂.pass).2 = s₂.pass.pass := by
          simp only [transact]
          cases env.broker s₂.pass.world.tick (.cancelOrder m.brokerOrderId) <;> rfl
        rw [hout]
        cases hr : (transact env (.broker (.cancelOrder m.brokerOrderId)) s₂.pass).1 with
        | error e => exact raised_finished _ _ ((Like.pass _).steady hsteady) (he.1 _ _ _ hr)
        | ok b =>
            refine wp_absorbBrokerOrder cfg uuid5 (hs₃.like (Like.pass _)) ?_
            rw [hst]
            rfl
  split
  · rename_i hst
    exact hrest i s.pass hs₁ rfl hst
  · split
    · rename_i hst
      refine wp_move_commit hs₁ (whole_moved (Or.inl hs₁.whole) hi (by decide)) (.cancel hst) raised_finished
        fun s' hs' _ => ?_
      exact hrest _ s' hs'.opened rfl rfl
    · exact raised_finished _ _ ((Like.pass s).steady hs) (by simp [Mild])

/-! ### Sweeps -/

/-- One round after another, each from a still state. -/
theorem wp_rounds {α β : Type} {f : β → α → Proc β} (hf : ∀ b a s, Still s → wp (serial op adm) (f b a) Finished s)
    (l : List α) (b : β) {s : Tx} (hs : Still s) : wp (serial op adm) (l.foldlM f b) Finished s := by
  refine wp_foldlM (I := Still) (fun b a s hs => ?_) (fun b s hs => Or.inl ⟨b, rfl, hs⟩) hs
  refine wp_mono (fun r s' h => ?_) (hf b a s hs)
  rcases h with ⟨b', rfl, hs'⟩ | ⟨hs', e, rfl, he⟩
  · exact hs'
  · exact raised_finished s' e hs' he

theorem wp_resolveOverdue (hop : op.config = some cfg) (hsub : ∀ db i, op.Submits db i) (now : UtcTimestamp)
    (closed : List OrderIntent) (t : OrderStatus) {s : Tx} (hs : Still s) :
    wp (serial op adm) (resolveOverdue cfg uuid5 now closed t) Finished s := by
  unfold resolveOverdue
  simp only [bind_eq, pure_eq_ret]
  refine wp_firstList hs.steady raised_finished fun _ => ?_
  refine wp_rounds (fun b i s hs => ?_) _ _ ((Like.pass s).still hs)
  split
  · refine wp_bind_finished (wp_resolve cfg uuid5 hop hsub i.clientOrderId hs) raised_finished fun j s' hs' => ?_
    exact Or.inl ⟨_, rfl, hs'⟩
  · exact Or.inl ⟨b, rfl, hs⟩

theorem nodup_listByStatus (db : Db) (t : OrderStatus) :
    ((db.listByStatus t).map OrderIntent.clientOrderId).Nodup := by
  have hperm : (db.listByStatus t).Perm (db.intents.rows.filter fun i => i.status == t) :=
    List.perm_insertionSort _ _
  rw [(hperm.map OrderIntent.clientOrderId).nodup_iff]
  exact db.intents.nodup.sublist (List.filter_sublist.map _)

/-- Intents that wait for their submission expire; the rest of the listing stays current. -/
theorem wp_expireList (now : UtcTimestamp) (l closed : List OrderIntent) {s : Tx} (hs : Free s)
    (hlive : s.aborted .uow = false) (hnodup : (l.map OrderIntent.clientOrderId).Nodup)
    (hl : ∀ i ∈ l, s.view.intents.get i.clientOrderId = some i ∧
      (i.status = .created ∨ i.status = .riskApproved ∨ i.status = .outboxPending)) :
    wp (serial op adm) (l.foldlM (fun closed intent =>
        if intent.cancelAt ≤ now then
          (transitionStatus intent.clientOrderId .expired).bind fun j => ret (assign closed j)
        else ret closed) closed) Settles s := by
  induction l generalizing closed s with
  | nil => exact Or.inl ⟨closed, rfl, hs⟩
  | cons i l ih =>
      rw [List.foldlM_cons]
      obtain ⟨hi, hst⟩ := hl i List.mem_cons_self
      rw [List.map_cons, List.nodup_cons] at hnodup
      have hrest : ∀ j ∈ l, s.view.intents.get j.clientOrderId = some j ∧
          (j.status = .created ∨ j.status = .riskApproved ∨ j.status = .outboxPending) :=
        fun j hj => hl j (List.mem_cons_of_mem i hj)
      show wp (serial op adm) (Prog.bind (if i.cancelAt ≤ now then _ else _) _) Settles s
      split
      · rw [bind_assoc, wp_bind]
        refine wp_transition hlive hi (.overdue hst) ?_ hs.ctl fun e s' _ hs' => Or.inr ⟨e, rfl, hs'⟩
        refine ih (assign closed (i.withStatus .expired)) ⟨hs.free, hs.ctl⟩ hlive hnodup.2 fun j hj => ?_
        refine ⟨?_, (hrest j hj).2⟩
        rw [moved_other .expired hi, (hrest j hj).1]
        intro h
        exact hnodup.1 (List.mem_map.mpr ⟨j, hj, h.symm⟩)
      · exact ih closed hs hlive hnodup.2 hrest

theorem wp_expireStatus (now : UtcTimestamp) (closed : List OrderIntent) {t : OrderStatus}
    (ht : t = .created ∨ t = .riskApproved ∨ t = .outboxPending) {s : Tx} (hs : Free s) :
    wp (serial op adm) (expireStatus now closed t) Settles s := by
  unfold expireStatus
  simp only [bind_eq, pure_eq_ret]
  refine wp_firstList hs.steady (fun s' e hs' _ => Or.inr ⟨e, rfl, hs'⟩) fun hlive => ?_
  refine wp_expireList now _ closed (hs.like (Like.pass s)) hlive (nodup_listByStatus _ t) fun i hi => ?_
  obtain ⟨hmem, hst⟩ := Db.mem_listByStatus.mp hi
  exact ⟨Table.get_of_mem hmem, hst ▸ ht⟩

theorem wp_cancelOne (closed : List OrderIntent) (i : OrderIntent) {s : Tx} (hs : Steady s) :
    wp (serial op adm) (cancelOne cfg uuid5 closed i) Ended s := by
  unfold cancelOne
  simp only [bind_eq, pure_eq_ret]
  rw [wp_tryCatch]
  refine wp_mono (fun r s' h => ?_) (wp_bind_finished (f := fun j => ret (assign closed j))
    (wp_requestCancel cfg uuid5 i.clientOrderId hs) raised_finished fun j s' hs' => Or.inl ⟨_, rfl, hs'⟩)
  have hended := Finished.ended h
  cases r with
  | ok a => exact hended
  | error e =>
      rw [orElse_error]
      split
      · exact ended_ok hended.1 closed
      · exact hended

theorem wp_cancelOverdue (now : UtcTimestamp) (acc : List OrderIntent × List ClientOrderId) (t : OrderStatus)
    {s : Tx} (hs : Steady s) : wp (serial op adm) (cancelOverdue cfg uuid5 now acc t) Ended s := by
  unfold cancelOverdue
  simp only [bind_eq, pure_eq_ret]
  refine wp_firstList hs (fun s' e hs' he => ended_error hs' he) fun _ => ?_
  refine wp_foldlM (I := Steady) (fun b i s hs => ?_) (fun b s hs => ended_ok hs b) ((Like.pass s).steady hs)
  split
  · exact hs
  · split
    · rw [wp_bind]
      refine wp_mono (fun r s' h => ?_) (wp_cancelOne cfg uuid5 b.1 i hs)
      cases r with
      | ok a => exact h.1
      | error e => exact ended_error h.1 (h.2 e rfl)
    · exact hs

theorem wp_expireOverdue (hop : op.config = some cfg) (hsub : ∀ db i, op.Submits db i) {s : Tx} (hs : Still s) :
    wp (serial op adm) (expireOverdue cfg uuid5) (fun _ s' => Steady s') s := by
  unfold expireOverdue
  simp only [bind_eq, pure_eq_ret]
  refine wp_clock fun now => ?_
  refine wp_bind_finished (wp_rounds (fun b t s hs => wp_resolveOverdue cfg uuid5 hop hsub now b t hs) _ _
    ((Like.pass s).still hs)) (fun s' _ hs' _ => hs') fun closed s₁ hs₁ => ?_
  rw [wp_bind]
  have hexpire : wp (serial op adm) ([OrderStatus.created, .riskApproved, .outboxPending].foldlM
      (expireStatus now) closed) Settles s₁ := by
    simp only [List.foldlM_cons, List.foldlM_nil, bind_eq, pure_eq_ret]
    have hbind : ∀ {f : List OrderIntent → Proc (List OrderIntent)} (t : OrderStatus) (l : List OrderIntent) (s : Tx),
        t = .created ∨ t = .riskApproved ∨ t = .outboxPending → Free s →
        (∀ l s, Free s → wp (serial op adm) (f l) Settles s) →
        wp (serial op adm) ((expireStatus now l t).bind f) Settles s := by
      intro f t l s ht hs hf
      rw [wp_bind]
      refine wp_mono (fun r s' h => ?_) (wp_expireStatus now l ht hs)
      rcases h with ⟨a, rfl, hs'⟩ | ⟨e, rfl, hs'⟩
      · exact hf a s' hs'
      · exact Or.inr ⟨e, rfl, hs'⟩
    refine hbind _ _ _ (Or.inl rfl) (Free.of_still hs₁) fun l s hs => ?_
    refine hbind _ _ _ (Or.inr (Or.inl rfl)) hs fun l s hs => ?_
    exact hbind _ _ _ (Or.inr (Or.inr rfl)) hs fun l s hs => Or.inl ⟨l, rfl, hs⟩
  refine wp_mono (fun r s₂ h₂ => ?_) hexpire
  rcases h₂ with ⟨closed₂, rfl, hs₂⟩ | ⟨e, rfl, hs₂⟩
  swap
  · exact hs₂
  rw [andThen_ok, wp_bind]
  have hcancel : wp (serial op adm) ([OrderStatus.acknowledged, .partiallyFilled, .cancelPending].foldlM
      (cancelOverdue cfg uuid5 now) (closed₂, [])) Ended s₂ := by
    refine wp_foldlM (I := Steady) (fun b t s hs => ?_) (fun b s hs => ended_ok hs b) hs₂.steady
    refine wp_mono (fun r s' h => ?_) (wp_cancelOverdue cfg uuid5 now b t hs)
    cases r with
    | ok a => exact h.1
    | error e => exact h
  refine wp_mono (fun r s₃ h₃ => ?_) hcancel
  cases r with
  | error e => exact h₃.1
  | ok acc =>
      rw [andThen_ok]
      split
      · rw [wp_bind]
        exact wp_commit h₃.1 fun s' hs' _ _ => hs'.steady
      · exact h₃.1

theorem wp_recover (hop : op.config = some cfg) (hsub : ∀ db i, op.Submits db i) {s : Tx} (hs : Still s) :
    wp (serial op adm) (recover cfg uuid5) Finished s := by
  unfold recover
  simp only [bind_eq, pure_eq_ret]
  refine wp_firstList hs.steady raised_finished fun _ => ?_
  have hs₁ := (Like.pass s).still hs
  refine wp_firstList hs₁.steady raised_finished fun _ => ?_
  refine wp_rounds (fun b i s hs => ?_) _ _ ((Like.pass _).still hs₁)
  refine wp_bind_finished (wp_resolve cfg uuid5 hop hsub i.clientOrderId hs) raised_finished fun j s' hs' => ?_
  exact Or.inl ⟨_, rfl, hs'⟩

/-- Whatever an operation returns, it is run for its effect. -/
theorem wp_effect {α : Type} {p : Proc α} {s : Tx} (h : wp (serial op adm) p (fun _ s' => Steady s') s) :
    wp (serial op adm) (p.bind fun _ => ret ()) (fun _ s' => Steady s') s := by
  rw [wp_bind]
  refine wp_mono (fun r s' hs' => ?_) h
  cases r <;> exact hs'

theorem steady_of_settles {α : Type} {r : Except PyError α} {s : Tx} (h : Settles r s) : Steady s := by
  rcases h with ⟨a, -, hs⟩ | ⟨e, -, hs⟩
  · exact hs.steady
  · exact hs

/-- The operations of the engine are lawful. -/
theorem wp_engineOp (o : EngineOp) {s : Tx} (hs : Still s) (hview : s.view = s.origin) :
    wp (serial (.engine cfg o) adm) (o.proc cfg uuid5) (fun _ s' => Steady s') s := by
  have hfinished : ∀ {r : Except PyError OrderIntent} {s : Tx}, Finished r s → Steady s :=
    fun h => (Finished.ended h).1
  cases o with
  | submitFromOutbox c =>
      refine wp_effect (wp_mono (fun _ _ h => steady_of_settles h)
        (wp_submitFromOutbox cfg uuid5 rfl c (Free.of_still hs) fun i hi hst => ?_))
      rw [hview] at hi
      exact ⟨⟨Table.key_of_get hi, hi⟩, i, hi, hst, rfl⟩
  | resolve c =>
      exact wp_effect (wp_mono (fun _ _ h => hfinished h) (wp_resolve cfg uuid5 rfl (fun _ _ => by trivial) c hs))
  | recover =>
      exact wp_effect (wp_mono (fun _ _ h => (Finished.ended h).1) (wp_recover cfg uuid5 rfl (fun _ _ => by trivial) hs))
  | applyFills c =>
      refine wp_effect (wp_mono (fun r s' h => ?_) (wp_applyFills cfg uuid5 c hs.steady))
      rcases h with ⟨a, -, hlike | hs'⟩ | h
      · exact hlike.steady hs.steady
      · exact hs'.steady
      · exact h.1
  | requestCancel c =>
      exact wp_effect (wp_mono (fun _ _ h => hfinished h) (wp_requestCancel cfg uuid5 c hs.steady))
  | expireOverdue => exact wp_effect (wp_expireOverdue cfg uuid5 rfl (fun _ _ => by trivial) hs)

end Engine

end Serial

end SevenLens
