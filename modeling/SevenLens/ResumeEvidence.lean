import SevenLens.Unresolved

/-! # The evidence for a resume

Entries that are paused become open through `resumeEntries` only.  It looks at the latest
recorded reconciliation and at the intents that are unresolved now, not at when entries were
paused.  `resume_needs_clean_run`: it starts from tables whose latest run is clean and of full
scope and in which no intent is unresolved, and that run is newer than the pause unless the
latest run at the time of the pause was one already, which it is not when the reconciler paused.
`resume_with_old_run` shows such a resume after a pause for an ambiguous outcome. -/

namespace SevenLens

open Calls Prog

/-- The tables from which entries may be resumed. -/
structure Resumable (db : Db) : Prop where
  clean : db.latestRun.any ReconciliationResult.isResumeSafe = true
  resolved : ∀ i ∈ db.intents.rows, i.status ≠ .unknown ∧ i.status ≠ .reviewRequired

/-! ### Rows that keep entries paused -/

/-- Control rows among these rows pause. -/
def PausedRows (ws : List Write) : Prop := ∀ c, .putControl c ∈ ws → c.entriesPaused = true

theorem PausedRows.append {ws vs : List Write} (h : PausedRows ws) (h' : PausedRows vs) : PausedRows (ws ++ vs) := by
  intro c hc
  rcases List.mem_append.mp hc with hc | hc
  · exact h c hc
  · exact h' c hc

theorem QuietRows.paused {ws : List Write} (h : QuietRows ws) : PausedRows ws := by
  intro c hc
  rcases h _ hc with ⟨c', hc', hp⟩ | ⟨r, hr⟩
  · cases hc'
    exact hp
  · cases hr

theorem Db.applyAll_paused {db : Db} {ws : List Write} (hdb : db.control.entriesPaused = true)
    (h : PausedRows ws) : (db.applyAll ws).control.entriesPaused = true := by
  induction ws generalizing db with
  | nil => exact hdb
  | cons w ws ih =>
      refine ih ?_ fun c hc => h c (List.mem_cons_of_mem w hc)
      cases w with
      | putControl c => exact h c List.mem_cons_self
      | addMirror r | putMirror r =>
          simp only [Db.apply]
          split <;> exact hdb
      | _ => exact hdb

/-- Runs are only appended. -/
theorem Db.runs_prefix (db : Db) (ws : List Write) : db.runs <+: (db.applyAll ws).runs := by
  induction ws generalizing db with
  | nil => exact List.prefix_rfl
  | cons w ws ih =>
      refine List.IsPrefix.trans ?_ (ih (db.apply w))
      cases w with
      | addRun r => exact List.prefix_append _ _
      | addMirror r | putMirror r =>
          simp only [Db.apply]
          split <;> exact List.prefix_rfl
      | _ => exact List.prefix_rfl

/-- The control rows of a statement pause, but for a resume and for a flatten of open entries. -/
theorem Db.exec_paused {db : Db} {now : UtcTimestamp} {c : StoreCall} {a : c.Ans} {ws : List Write}
    (hresume : ∀ reason, c ≠ .setEntriesPaused false reason)
    (hbump : c = .bumpFlattenGeneration → db.control.entriesPaused = true) (h : db.exec now c = .ok (a, ws)) :
    PausedRows ws := by
  have hone : ∀ {w : Write}, ws = [w] → (∀ q, w ≠ .putControl q) → PausedRows ws := by
    rintro w rfl hw q hq
    exact absurd (List.mem_singleton.mp hq).symm (hw q)
  cases c with
  | addIntent i =>
      rcases Db.addIntent_cases h with ⟨-, hws⟩ | ⟨-, hws⟩
      · rw [show ws = [] from hws]
        exact fun c hc => by cases hc
      · exact hone hws (by simp)
  | transitionStatus k t =>
      obtain ⟨i, -, hp⟩ := Db.transitionStatus_inv h
      exact hone (congrArg Prod.snd hp) (by simp)
  | recordBrokerOrder o =>
      obtain ⟨m, hws | hws⟩ := Db.recordBrokerOrder_writes h
      · exact hone hws (by simp)
      · exact hone hws (by simp)
  | updateBrokerOrderStatus b t n at' =>
      obtain ⟨r, hws⟩ := Db.refreshMirror_writes h
      exact hone hws (by simp)
  | addFill f =>
      rcases Db.addFill_cases db f with ⟨e, he, -⟩ | he | he
      · cases he.symm.trans h
      · cases he.symm.trans h
        exact fun c hc => by cases hc
      · cases he.symm.trans h
        exact hone rfl (by simp)
  | setEntriesPaused p reason =>
      cases p with
      | false => exact absurd rfl (hresume reason)
      | true => exact (Db.exec_quiet (c := .setEntriesPaused true reason) rfl h).paused
  | bumpFlattenGeneration =>
      obtain ⟨q, hq, hws⟩ := Db.bumpFlattenGeneration_writes h
      rw [show ws = _ from hws]
      intro c hc
      obtain rfl : c = q := Write.putControl.inj (List.mem_singleton.mp hc)
      exact hq.trans (hbump rfl)
  | addRun r => exact hone (Db.addRun_writes h) (by simp)
  | addCommand r => exact (Db.exec_quiet (c := .addCommand r) rfl h).paused
  | getIntent _ | listByStatus _ | getBrokerOrder _ | getBrokerOrderById _ | getFillByExecutionId _
  | listFills _ | listOpenBrokerOrders | listAllBrokerOrders | listAllFills | controlState
  | latestRun | getBaseline _ => exact (Db.exec_quiet rfl h).paused

/-! ### Operations other than a resume -/

section Held

variable {op : Operation} {adm : Tx → (b : BrokerCall) → Except PyError b.Ans → Prop} {s s' : Tx}

theorem runs_effect (he : Effect op adm s s') : s.world.db.runs <+: s'.world.db.runs := by
  cases he with
  | kept q _ hdb _ _ _ _ =>
      rw [hdb]
      exact s.world.db.runs_prefix q
  | committed _ _ hdb _ _ _ =>
      rw [hdb]
      exact s.world.db.runs_prefix _
  | discarded hdb _ _ _ => exact hdb ▸ List.prefix_rfl
  | wrote _ _ _ _ _ _ _ hdb _ _ _ => exact hdb ▸ List.prefix_rfl

/-- The pending control rows pause; for a flatten, the durable one does too. -/
structure Held (op : Operation) (s : Tx) : Prop where
  rows : PausedRows s.world.session.uow
  flatten : op.isFlatten = true → s.world.db.control.entriesPaused = true

theorem Held.view (h : Held op s) (hdb : s.world.db.control.entriesPaused = true) :
    s.view.control.entriesPaused = true := Db.applyAll_paused hdb h.rows

/-- Such an operation does not open entries. -/
theorem paused_effect (h : Held op s) (he : Effect op adm s s') (hdb : s.world.db.control.entriesPaused = true) :
    s'.world.db.control.entriesPaused = true := by
  cases he with
  | kept q hq hdb' _ _ _ _ =>
      rw [hdb']
      exact Db.applyAll_paused hdb hq.paused
  | committed _ _ hdb' _ _ _ =>
      rw [hdb']
      exact h.view hdb
  | discarded hdb' _ _ _ => rw [hdb']; exact hdb
  | wrote _ _ _ _ _ _ _ hdb' _ _ _ => rw [hdb']; exact hdb

theorem held_effect (hop : ∀ actor, op ≠ .resume actor) (h : Held op s) (he : Effect op adm s s') : Held op s' := by
  refine ⟨?_, fun hf => paused_effect h he (h.flatten hf)⟩
  cases he with
  | kept q _ _ hpending _ _ _ => rw [hpending]; exact h.rows
  | committed _ _ _ hpending _ _ => rw [hpending]; exact fun c hc => by cases hc
  | discarded _ hpending _ _ => rw [hpending]; exact fun c hc => by cases hc
  | wrote c a ws now _ hlaw hx _ hpending _ _ =>
      rw [hpending]
      refine h.rows.append (Db.exec_paused ?_ ?_ hx)
      · rintro reason rfl
        obtain ⟨⟨actor, hresume⟩, -⟩ := hlaw
        exact hop actor hresume
      · rintro rfl
        exact h.view (h.flatten hlaw)

end Held

/-! ### Operations that write through the unit of work alone -/

/-- The steps of an operation; acceptable are the calls by which it writes through its unit of
work alone and commits only tables in `C`. -/
def committing (C : Db → Prop) (op : Operation) (adm : Tx → (b : BrokerCall) → Except PyError b.Ans → Prop) :
    System ports PyError Tx where
  Step := (serial op adm).Step
  Ok s
    | .commit .uow => s.aborted .uow = true ∨ C s.view
    | .commit .ctl | .persistSafetyPause _ | .store .ctl _ => False
    | _ => True

section Committing

variable {C : Db → Prop} {op : Operation} {adm : Tx → (b : BrokerCall) → Except PyError b.Ans → Prop}

theorem committing_step {s s' : Tx} {c : Call} {r : Except PyError c.Ans} (hok : (committing C op adm).Ok s c)
    (h : (serial op adm).Step s c r s') : s'.world.db = s.world.db ∨ C s'.world.db := by
  obtain ⟨env, -, -, rfl, rfl⟩ := h
  cases c with
  | store h c =>
      left
      simp only [transact]
      split
      · rfl
      · simp only [handler, World.statement]
        split
        · rw [stated_eq]
          rfl
        · rfl
  | commit h =>
      cases h with
      | ctl => exact hok.elim
      | uow =>
          simp only [transact]
          cases hab : s.aborted .uow with
          | true => exact Or.inl rfl
          | false =>
              right
              exact Or.resolve_left hok (by simp [hab])
  | rollback h => exact Or.inl rfl
  | persistSafetyPause reason => exact hok.elim
  | beginReconciliationSnapshot =>
      left
      simp only [transact]
      split <;> rfl
  | lockControl h =>
      left
      simp only [transact]
      split <;> rfl
  | broker b =>
      obtain ⟨hw, -, -⟩ := told_like s b (env.broker s.world.tick b)
      left
      simp only [transact, hw]
      rfl
  | clock => exact Or.inl rfl
  | currentPrice x => exact Or.inl rfl
  | uuid4 => exact Or.inl rfl

/-- The durable tables of such an operation. -/
theorem committing_reach {α : Type} {p p' : Proc α} {Q : Except PyError α → Tx → Prop} {db : Db} {s : Tx}
    (hp : wp (committing C op adm) p Q (.start db)) (hr : Reach (serial op adm) (.start db) p s p') :
    s.world.db = db ∨ C s.world.db := by
  refine Reach.invariant (M := committing C op adm) (I := fun s => s.world.db = db ∨ C s.world.db)
    (fun s c r s' hs hok hst => ?_) (Reach.mono (M := serial op adm) (fun _ _ _ _ h => h) hr) hp
    (Or.inl rfl)
  rcases committing_step hok hst with heq | hC
  · rw [heq]
    exact hs
  · exact Or.inr hC

theorem wp_committing {c : Call} {Q : Except PyError c.Ans → Tx → Prop} {s : Tx}
    (hok : (committing C op adm).Ok s c) (h : ∀ r s', (serial op adm).Step s c r s' → Q r s') :
    wp (committing C op adm) (ask c) Q s := wp_perform.mpr ⟨hok, h⟩

/-- A read while nothing is pending. -/
theorem wp_committing_read {β : Type} {c : StoreCall} {f : c.Ans → Proc β} {Q : Except PyError β → Tx → Prop}
    {db : Db} {s : Tx} (hc : c.isRead = true) (hs : s.world.Shows db)
    (herr : ∀ e s', s'.world.Shows db → Q (.error e) s')
    (h : ∀ a s', s'.world.Shows db → db.read c = .ok a → wp (committing C op adm) (f a) Q s') :
    wp (committing C op adm) ((ask (.store .uow c)).bind f) Q s := by
  refine wp_bind.mpr (wp_committing trivial fun r s' hstep => ?_)
  have hpassive : IsPassive (.store .uow c) := Or.inl ⟨rfl, hc⟩
  obtain ⟨hreads, hs'⟩ := reads_step hs hpassive hstep
  cases r with
  | error e => exact herr e s' hs'
  | ok a => exact h a s' hs' (hreads a rfl)

/-- A statement of the unit of work fails, or writes its rows. -/
theorem statement_step {s s' : Tx} {c : StoreCall} {r : Except PyError c.Ans}
    (h : (serial op adm).Step s (.store .uow c) r s') : s'.world.db = s.world.db ∧
      ((∃ e, r = .error e ∧ s'.view = s.view) ∨
        ∃ a ws now, r = .ok a ∧ s.view.exec now c = .ok (a, ws) ∧ s'.view = s.view.applyAll ws) := by
  obtain ⟨env, -, -, rfl, rfl⟩ := h
  simp only [transact]
  split
  · exact ⟨rfl, Or.inl ⟨_, rfl, rfl⟩⟩
  · simp only [handler, World.statement]
    split
    · rename_i a ws hx
      refine ⟨by rw [stated_eq]; rfl, Or.inr ⟨a, ws, _, rfl, hx, ?_⟩⟩
      unfold Tx.view
      rw [stated_eq]
      exact World.write_view ..
    · rename_i e hx
      refine ⟨by rw [stated_eq]; rfl, Or.inl ⟨e, rfl, ?_⟩⟩
      unfold Tx.view
      rw [stated_eq]
      rfl

/-- The calls that audit a command. -/
def Audits : Call → Prop
  | .clock | .uuid4 | .store .uow (.addCommand _) => True
  | _ => False

theorem audits_step {s s' : Tx} {c : Call} {r : Except PyError c.Ans} (hc : Audits c)
    (h : (serial op adm).Step s c r s') : s'.world.db = s.world.db ∧ s'.view.runs = s.view.runs ∧
      s'.view.control = s.view.control := by
  cases c with
  | store k c =>
      cases k with
      | ctl => exact hc.elim
      | uow =>
          cases c with
          | addCommand q =>
              obtain ⟨hdb, ⟨e, -, hview⟩ | ⟨a, ws, now, -, hx, hview⟩⟩ := statement_step h
              · rw [hview]
                exact ⟨hdb, rfl, rfl⟩
              · rw [hview]
                rcases Db.addCommand_writes hx with rfl | rfl
                · exact ⟨hdb, rfl, rfl⟩
                · exact ⟨hdb, rfl, rfl⟩
          | _ => exact hc.elim
  | clock =>
      obtain ⟨env, -, -, rfl, rfl⟩ := h
      exact ⟨rfl, rfl, rfl⟩
  | uuid4 =>
      obtain ⟨env, -, -, rfl, rfl⟩ := h
      exact ⟨rfl, rfl, rfl⟩
  | _ => exact hc.elim

/-- Auditing a command changes neither runs nor control row. -/
theorem wp_audits {α : Type} {p : Proc α} (hp : Within Audits (fun _ => True) p) (s : Tx) :
    wp (committing C op adm) p (fun _ s' => s'.world.db = s.world.db ∧ s'.view.runs = s.view.runs ∧
      s'.view.control = s.view.control) s := by
  refine wp_mono (fun _ _ h => h.1) (wp_within (M := committing C op adm) (C := Audits) (I := fun s' =>
    s'.world.db = s.world.db ∧ s'.view.runs = s.view.runs ∧ s'.view.control = s.view.control)
    (fun s₁ c r s₂ hs₁ hc (hstep : (serial op adm).Step s₁ c r s₂) => ⟨?_, fun _ _ => trivial⟩) (fun s₁ c _ hc => ?_) hp ⟨rfl, rfl, rfl⟩)
  · obtain ⟨hdb, hruns, hcontrol⟩ := audits_step hc hstep
    exact ⟨hdb.trans hs₁.1, hruns.trans hs₁.2.1, hcontrol.trans hs₁.2.2⟩
  · cases c with
    | store k c =>
        cases k with
        | ctl => exact hc.elim
        | uow => trivial
    | clock => trivial
    | uuid4 => trivial
    | _ => exact hc.elim

theorem audits_record (command : ControlCommand) (reason actor : String) (applied : Bool) :
    Within Audits (fun _ => True) (record command reason actor applied) := by
  unfold record
  refine within_bind (within_perform (S := ports) (c := .clock) trivial) fun _ => ?_
  refine within_bind (within_perform (S := ports) (c := .uuid4) trivial) fun _ => ?_
  refine within_bind (within_ofExcept fun _ _ => trivial) fun q => ?_
  exact within_bind (within_perform (S := ports) (c := .store .uow (.addCommand q)) trivial) fun _ => trivial

/-! ### Resume -/

/-- What a resume from `db` commits. -/
structure Opened (db db' : Db) : Prop where
  resumable : Resumable db
  runs : db'.runs = db.runs
  opened : db'.control.entriesPaused = false

theorem resumable_of_reads {db : Db} (hclean : db.latestRun.any ReconciliationResult.isResumeSafe ≠ false)
    (hunknown : db.listByStatus .unknown = []) (hreview : db.listByStatus .reviewRequired = []) : Resumable db := by
  refine ⟨by simpa using hclean, fun i hi => ⟨fun hst => ?_, fun hst => ?_⟩⟩
  · have hmem : i ∈ db.listByStatus .unknown := by simp [Db.listByStatus, hi, hst]
    rw [hunknown] at hmem
    cases hmem
  · have hmem : i ∈ db.listByStatus .reviewRequired := by simp [Db.listByStatus, hi, hst]
    rw [hreview] at hmem
    cases hmem

theorem wp_resumeChecked_opened (actor : String) {db : Db} {s : Tx} (hs : s.world.Shows db) :
    wp (committing C op adm) (resumeChecked actor) (fun r s' => ∀ a, r = .ok a → Opened db s'.view) s := by
  have herr : ∀ (e : PyError) (s' : Tx), s'.world.Shows db → ∀ a : ControlStateSnapshot,
      (.error e : Except PyError _) = .ok a → Opened db s'.view := by
    rintro e s' - a ⟨⟩
  unfold resumeChecked
  simp only [bind_eq, pure_eq_ret]
  refine wp_committing_read (c := .latestRun) rfl hs herr fun latest s₁ hs₁ hlatest => ?_
  obtain rfl : db.latestRun = latest := Except.ok.inj hlatest
  split
  · rintro a ⟨⟩
  · rename_i hclean
    refine wp_committing_read (c := .listByStatus .unknown) rfl hs₁ herr fun unknown s₂ hs₂ hread => ?_
    obtain rfl : db.listByStatus .unknown = unknown := Except.ok.inj hread
    split
    · rintro a ⟨⟩
    · rename_i hunknown
      refine wp_committing_read (c := .listByStatus .reviewRequired) rfl hs₂ herr fun review s₃ hs₃ hread => ?_
      obtain rfl : db.listByStatus .reviewRequired = review := Except.ok.inj hread
      split
      · rintro a ⟨⟩
      · rename_i hreview
        have hresumable := resumable_of_reads hclean (not_not.mp hunknown) (not_not.mp hreview)
        refine wp_bind.mpr (wp_committing (c := .store .uow (.setEntriesPaused false none)) trivial
          fun r s₄ hstep => ?_)
        obtain ⟨-, ⟨e, rfl, -⟩ | ⟨a, ws, now, rfl, hx, hview⟩⟩ := statement_step hstep
        · rintro a ⟨⟩
        · have hset : s₃.view.setEntriesPaused now false none = .ok (a, ws) := hx
          obtain ⟨hopen, hws⟩ := Db.setEntriesPaused_writes hset
          obtain rfl : ws = [.putControl a] := hws
          have hopened : Opened db s₄.view := by
            rw [hview, show s₃.view = db from hs₃.view_eq .uow]
            exact ⟨hresumable, rfl, hopen⟩
          refine wp_bind.mpr (wp_mono (fun r s₅ h => ?_) (wp_audits (audits_record _ _ _ _) s₄))
          cases r with
          | error e => rintro a ⟨⟩
          | ok _ =>
              rintro _ ⟨⟩
              exact ⟨hresumable, h.2.1.trans hopened.runs, by rw [h.2.2]; exact hopened.opened⟩

theorem wp_resumeEntries_opened (actor : String) (db : Db) :
    wp (committing (Opened db) op adm) (resumeEntries actor) (fun _ _ => True) (.start db) := by
  unfold resumeEntries
  simp only [bind_eq, pure_eq_ret]
  refine wp_bind.mpr (wp_committing (c := .lockControl .uow) trivial fun r s hstep => ?_)
  have hs : s.world.Shows db := by
    obtain ⟨env, -, -, rfl, rfl⟩ := hstep
    exact World.start_shows db
  cases r with
  | error e => trivial
  | ok _ =>
      refine wp_bind.mpr (wp_tryCatch.mpr (wp_mono (fun r s' hr => ?_) (wp_resumeChecked_opened actor hs)))
      cases r with
      | error e =>
          refine wp_bind.mpr (wp_committing (c := .rollback .uow) trivial fun r _ _ => ?_)
          cases r <;> trivial
      | ok a =>
          refine wp_bind.mpr (wp_committing (c := .commit .uow) (Or.inr (hr a rfl)) fun r _ _ => ?_)
          cases r <;> trivial

/-! ### Reconciliation -/

/-- What a reconciliation of `db` commits: its result, and a pause only for a mismatch. -/
def Recorded (db db' : Db) : Prop :=
  ∃ r, db'.runs = db.runs ++ [r] ∧ (db'.control = db.control ∨ r.status = .mismatch)

/-- The automatic pause records no run. -/
theorem wp_pauseOnMismatch (s : Tx) :
    wp (committing C op adm) pauseOnMismatch (fun _ s' => s'.view.runs = s.view.runs) s := by
  unfold pauseOnMismatch
  simp only [bind_eq, pure_eq_ret]
  refine wp_bind.mpr (wp_committing (c := .store .uow (.setEntriesPaused true _)) trivial fun r s₁ hstep => ?_)
  obtain ⟨-, ⟨e, rfl, hview⟩ | ⟨a, ws, now, rfl, hx, hview⟩⟩ := statement_step hstep
  · exact congrArg Db.runs hview
  · have hset : s.view.setEntriesPaused now true (some "reconciliation mismatch") = .ok (a, ws) := hx
    obtain rfl : ws = [.putControl a] := (Db.setEntriesPaused_writes hset).2
    have hruns : s₁.view.runs = s.view.runs := by
      rw [hview]
      rfl
    refine wp_mono (fun _ _ h => h.2.1.trans hruns) (wp_audits ?_ s₁)
    refine within_bind (within_perform (S := ports) (c := .clock) trivial) fun _ => ?_
    refine within_bind (within_perform (S := ports) (c := .uuid4) trivial) fun _ => ?_
    refine within_bind (within_ofExcept fun _ _ => trivial) fun q => ?_
    exact within_bind (within_perform (S := ports) (c := .store .uow (.addCommand q)) trivial) fun _ => trivial

theorem wp_reconcile_recorded (cfg : ReconcilerConfig) (d : TradingDate) (db : Db) :
    wp (committing (Recorded db) op adm) (reconcile cfg d) (fun _ _ => True) (.start db) := by
  have hcommit : ∀ (r : ReconciliationResult) (s : Tx), Recorded db s.view →
      wp (committing (Recorded db) op adm) (commit.bind fun _ => ret r) (fun _ _ => True) s := by
    intro r s hs
    refine wp_bind.mpr (wp_committing (c := .commit .uow) (Or.inr hs) fun q _ _ => ?_)
    cases q <;> trivial
  unfold reconcile recordResult
  simp only [bind_eq, pure_eq_ret]
  refine wp_bind.mpr (wp_mono (fun r s hr => ?_) ((yields_true (A := Reads db) (collectOrFail cfg d)).wp
    (M := committing (Recorded db) op adm) (C := IsPassive) (I := fun s => s.world.Shows db)
    (fun s c r s' hs hc (h : (serial op adm).Step s c r s') => reads_step hs hc h) (fun s c _ hc => ?_)
    (Serial.passive_collectOrFail cfg d) (World.start_shows db)))
  · cases r with
    | error e => trivial
    | ok r =>
        refine wp_bind.mpr (wp_committing (c := .store .uow (.addRun r)) trivial fun q s₁ hstep => ?_)
        obtain ⟨-, ⟨e, rfl, -⟩ | ⟨a, ws, now, rfl, hx, hview⟩⟩ := statement_step hstep
        · trivial
        · have hadd : s.view.addRun now r = .ok (a, ws) := hx
          obtain rfl : ws = [.addRun r] := Db.addRun_writes hadd
          rw [show s.view = db from hr.1.view_eq .uow] at hview
          have hruns : s₁.view.runs = db.runs ++ [r] := congrArg Db.runs hview
          have hcontrol : s₁.view.control = db.control := by
            rw [hview]
            rfl
          show wp _ (if r.status = .mismatch then _ else _) _ _
          split
          · rename_i hst
            refine wp_bind.mpr (wp_mono (fun q s₂ h => ?_) (wp_pauseOnMismatch s₁))
            cases q with
            | error e => trivial
            | ok _ => exact hcommit r s₂ ⟨r, h.trans hruns, Or.inr hst⟩
          · exact hcommit r s₁ ⟨r, hruns, Or.inl hcontrol⟩
  · rcases hc with hc | rfl | rfl
    · cases c with
      | store k c =>
          obtain ⟨rfl, -⟩ := hc
          trivial
      | commit k => exact hc.elim
      | persistSafetyPause k => exact hc.elim
      | _ => trivial
    · trivial
    · trivial

/-! ### Flatten -/

/-- A flatten needs paused entries: from open ones it only reads. -/
theorem wp_flattenPaper_open (cfg : EngineConfig) (uuid5 : NameUuid) (priceProvider : Bool) (d : TradingDate)
    (reason actor confirmation : String) {db : Db} (hopen : db.control.entriesPaused = false) :
    wp (committing (fun _ => False) op adm) (flattenPaper cfg uuid5 priceProvider d reason actor confirmation)
      (fun _ _ => True) (.start db) := by
  unfold flattenPaper
  simp only [bind_eq, pure_eq_ret]
  split
  · trivial
  · refine wp_committing_read (c := .controlState) rfl (World.start_shows db) (fun _ _ _ => trivial)
      fun state s _ hread => ?_
    obtain rfl : db.control = state := Except.ok.inj hread
    rw [if_pos hopen]
    trivial

end Committing

/-! ### Runs -/

section Runs

variable {uuid5 : NameUuid} {op : Operation} {adm : Tx → (b : BrokerCall) → Except PyError b.Ans → Prop} {db : Db}
  {s s' : Tx} {p p' : Proc Unit}

theorem wp_committing_effect {α : Type} {C : Db → Prop} {q : Proc α}
    (h : wp (committing C op adm) q (fun _ _ => True) s) :
    wp (committing C op adm) (q.bind fun _ => ret ()) (fun _ _ => True) s := by
  refine wp_bind.mpr (wp_mono (fun r _ _ => ?_) h)
  cases r <;> trivial

/-- A resume leaves the tables alone, or opens entries. -/
theorem resume_reach {actor : String}
    (h : Reach (serial (.resume actor) adm) (.start db) ((Operation.resume actor).proc uuid5) s p) :
    s.world.db = db ∨ Opened db s.world.db :=
  committing_reach (wp_committing_effect (wp_resumeEntries_opened actor db)) h

/-- When the reconciler has paused entries, the latest run is its mismatch. -/
theorem reconcile_pauses {cfg : ReconcilerConfig} {d : TradingDate}
    (h : Reach (serial (.reconcile cfg d) adm) (.start db) ((Operation.reconcile cfg d).proc uuid5) s p)
    (hcontrol : s.world.db.control ≠ db.control) :
    s.world.db.latestRun.any ReconciliationResult.isResumeSafe = false := by
  rcases committing_reach (wp_committing_effect (wp_reconcile_recorded cfg d db)) h with heq | ⟨r, hruns, hst⟩
  · rw [heq] at hcontrol
    exact absurd rfl hcontrol
  · have hmismatch := hst.resolve_left hcontrol
    simp [Db.latestRun, hruns, ReconciliationResult.isResumeSafe, hmismatch]

/-- An operation other than a resume, in a state in which entries are paused. -/
theorem held_reach (hop : Serial.IsFresh op) (hresume : ∀ actor, op ≠ .resume actor)
    (h : Reach (serial op adm) (.start db) (op.proc uuid5) s p) (hpaused : s.world.db.control.entriesPaused = true) :
    Held op s := by
  refine reach_invariant hop (fun _ _ _ hs he => held_effect hresume hs he) ⟨(fun c hc => by cases hc), fun hf => ?_⟩ h
  cases op with
  | flatten cfg priceProvider d reason actor confirmation =>
      by_contra hopen
      have hdb : db.control.entriesPaused = false := by simpa [Tx.start, World.start] using hopen
      rcases committing_reach (wp_committing_effect
        (wp_flattenPaper_open cfg uuid5 priceProvider d reason actor confirmation hdb)) h with heq | hfalse
      · rw [heq, hdb] at hpaused
        cases hpaused
      · exact hfalse
  | _ => cases hf

theorem paused_rest (hop : Serial.IsFresh op) (hresume : ∀ actor, op ≠ .resume actor)
    (h : Reach (serial op adm) (.start db) (op.proc uuid5) s p) (hpaused : s.world.db.control.entriesPaused = true)
    (hrest : Reach (serial op adm) s p s' p') : s'.world.db.control.entriesPaused = true := by
  have hinv : Held op s' ∧ s'.world.db.control.entriesPaused = true :=
    rest_invariant (I := fun t => Held op t ∧ t.world.db.control.entriesPaused = true) hop
      (fun _ _ _ ht he => ⟨held_effect hresume ht.1 he, paused_effect ht.1 he ht.2⟩) h
      ⟨held_reach hop hresume h hpaused, hpaused⟩ hrest
  exact hinv.2

theorem runs_rest (hop : Serial.IsFresh op) (h : Reach (serial op adm) (.start db) (op.proc uuid5) s p)
    (hrest : Reach (serial op adm) s p s' p') : s.world.db.runs <+: s'.world.db.runs :=
  rest_invariant (I := fun t => s.world.db.runs <+: t.world.db.runs) hop
    (fun _ _ _ ht he => ht.trans (runs_effect he)) h List.prefix_rfl hrest

theorem Runs.runs_prefix {db₁ db₂ : Db} (h : Runs uuid5 (fun _ => Serial.IsFresh) adm db₁ db₂) :
    db₁.runs <+: db₂.runs := by
  induction h with
  | refl => exact List.prefix_rfl
  | operation _ hop hreach ih => exact ih.trans (runs_rest hop (.refl _ _) hreach)

/-- Operations from paused entries keep them paused, or pass tables from which entries may be
resumed. -/
theorem resumable_of_runs {db₁ db₂ : Db} (h : Runs uuid5 (fun _ => Serial.IsFresh) adm db₁ db₂)
    (hpaused : db₁.control.entriesPaused = true) :
    db₂.control.entriesPaused = true ∨ ∃ dbr, Resumable dbr ∧
      Runs uuid5 (fun _ => Serial.IsFresh) adm db₁ dbr ∧ dbr.runs <+: db₂.runs := by
  induction h with
  | refl => exact Or.inl hpaused
  | @operation db op s p hruns hop hreach ih =>
      have hgrows : db.runs <+: s.world.db.runs := runs_rest hop (.refl _ _) hreach
      rcases ih with hdb | ⟨dbr, hres, hr, h₂⟩
      · by_cases hresume : ∃ actor, op = .resume actor
        · obtain ⟨actor, rfl⟩ := hresume
          rcases resume_reach hreach with heq | hopened
          · rw [heq]
            exact Or.inl hdb
          · exact Or.inr ⟨db, hopened.resumable, hruns, hgrows⟩
        · exact Or.inl (paused_rest hop (fun actor e => hresume ⟨actor, e⟩) (.refl _ _) hdb hreach)
      · exact Or.inr ⟨dbr, hres, hr, h₂.trans hgrows⟩

/-- The latest run of resumable tables, seen from a prefix of their runs. -/
theorem Resumable.recent {dbr db₁ : Db} (h : Resumable dbr) {l : List ReconciliationResult}
    (hl : dbr.runs = db₁.runs ++ l) : (∃ r ∈ l, r.isResumeSafe = true) ∨
      (l = [] ∧ db₁.latestRun.any ReconciliationResult.isResumeSafe = true) := by
  have hclean := h.clean
  rw [Db.latestRun, hl] at hclean
  rcases List.eq_nil_or_concat l with rfl | ⟨l', r, rfl⟩
  · rw [List.append_nil] at hclean
    exact Or.inr ⟨rfl, hclean⟩
  · refine Or.inl ⟨r, by simp, ?_⟩
    simpa using hclean

end Runs

/-- **Entries are opened on the evidence of a clean run.**  From any state of an operation in
which entries are paused: whenever a later operation has opened them, a resume has started from
tables whose latest run is clean and of full scope and in which no intent is unresolved.  That run
was recorded after the pause, unless the latest run at the pause was such a run already, and then
the pause was not one of the reconciler. -/
theorem resume_needs_clean_run (uuid5 : NameUuid) (db db₂ : Db) (op : Operation) (s s' : Tx) (p p' : Proc Unit)
    (hop : Serial.IsFresh op) (hreach : Reach (serial op fun _ _ _ => True) (.start db) (op.proc uuid5) s p)
    (hpaused : s.world.db.control.entriesPaused = true)
    (hrest : Reach (serial op fun _ _ _ => True) s p s' p')
    (hruns : Runs uuid5 (fun _ => Serial.IsFresh) (fun _ _ _ => True) s'.world.db db₂)
    (hopen : db₂.control.entriesPaused = false) :
    ∃ dbr l, (dbr = s.world.db ∨ Runs uuid5 (fun _ => Serial.IsFresh) (fun _ _ _ => True) s'.world.db dbr) ∧
      Resumable dbr ∧ dbr.runs = s.world.db.runs ++ l ∧ dbr.runs <+: db₂.runs ∧
      ((∃ r ∈ l, r.isResumeSafe = true) ∨
        (l = [] ∧ s.world.db.latestRun.any ReconciliationResult.isResumeSafe = true ∧
          ((∃ cfg d, op = .reconcile cfg d) → s.world.db.control = db.control))) := by
  have hgrows : s.world.db.runs <+: s'.world.db.runs := runs_rest hop hreach hrest
  -- From paused entries after the operation, a later resume has opened them.
  have hlater : s'.world.db.control.entriesPaused = true → ∃ dbr, (dbr = s.world.db ∨
      Runs uuid5 (fun _ => Serial.IsFresh) (fun _ _ _ => True) s'.world.db dbr) ∧ Resumable dbr ∧
      s.world.db.runs <+: dbr.runs ∧ dbr.runs <+: db₂.runs := by
    intro hs'
    rcases resumable_of_runs hruns hs' with hdb₂ | ⟨dbr, hres, hr, h₂⟩
    · rw [hopen] at hdb₂
      cases hdb₂
    · exact ⟨dbr, Or.inr hr, hres, hgrows.trans hr.runs_prefix, h₂⟩
  obtain ⟨dbr, hr, hres, ⟨l, hl⟩, h₂⟩ : ∃ dbr, (dbr = s.world.db ∨
      Runs uuid5 (fun _ => Serial.IsFresh) (fun _ _ _ => True) s'.world.db dbr) ∧ Resumable dbr ∧
      s.world.db.runs <+: dbr.runs ∧ dbr.runs <+: db₂.runs := by
    by_cases hresume : ∃ actor, op = .resume actor
    · obtain ⟨actor, rfl⟩ := hresume
      have hs : s.world.db = db := (resume_reach hreach).resolve_right fun h => by
        rw [h.opened] at hpaused
        cases hpaused
      rcases resume_reach (hreach.trans hrest) with heq | hopened
      · refine hlater ?_
        rw [heq, ← hs]
        exact hpaused
      · rw [← hs] at hopened
        exact ⟨s.world.db, Or.inl rfl, hopened.resumable, List.prefix_rfl, hgrows.trans hruns.runs_prefix⟩
    · exact hlater (paused_rest hop (fun actor e => hresume ⟨actor, e⟩) hreach hpaused hrest)
  refine ⟨dbr, l, hr, hres, hl.symm, h₂, (hres.recent hl.symm).imp_right fun h => ⟨h.1, h.2, ?_⟩⟩
  rintro ⟨cfg, d, rfl⟩
  by_contra hcontrol
  have hdown := reconcile_pauses hreach hcontrol
  rw [hdown] at h
  cases h.2

/-! ### A resume with an old run -/

/-- A broker with a Paper account that loses every submission and shows at most one order. -/
def accountEnv (o : Option BrokerOrder) : Env where
  clock _ := instant 10
  broker _
    | .account => .ok ⟨"paper", .paper, noCash, noCash, noCash, paperId_ok⟩
    | .getAsset s => .ok (some ⟨s, .usEquity, .active, true⟩)
    | .getOrder _ => .ok o
    | .listRecentOrders _ => .ok []
    | .listOpenOrders => .ok []
    | .listPositions => .ok []
    | .listFills _ => .ok []
    | _ => .error ⟨.brokerTransport, "timeout"⟩
  price _ _ := .error ⟨.markPriceUnavailable, "unreachable"⟩
  uuid := sampleEnv.uuid

theorem accountEnv_mild (o : Option BrokerOrder) : (accountEnv o).Mild := by
  constructor
  · intro n c e h
    cases c <;> cases h <;> simp [Mild]
  · intro n s e h
    cases h
    simp [Mild]

/-- Tables with an opening baseline for the account. -/
def accountDb : Db :=
  { emptyDb with
    accountBaselines := [⟨"paper", 0, instant 0, instant 0, none, none, paperId_ok, by decide⟩] }

/-- An operation on these tables, while the broker shows `o`. -/
def accountAfter (op : Operation) (o : Option BrokerOrder) (db : Db) : Db := op.after sampleUuid5 (accountEnv o) db

/-- The sample intent waits in the outbox, and a reconciliation of full scope is clean. -/
def cleanDb : Db :=
  accountAfter (.reconcile ⟨some ⟨"paper", 0, 0, paperId_ok⟩, false, true⟩ secondDay) none
    (accountAfter (.add (sampleIntent .outboxPending)) none accountDb)

/-- Its submission is lost, and entries are paused. -/
def ambiguousDb : Db := accountAfter (.engine sampleConfig (.submitFromOutbox sampleId)) none cleanDb

/-- The broker shows the order after all, and entries are resumed. -/
def reopenedDb : Db :=
  accountAfter (.resume "operator") none
    (accountAfter (.engine sampleConfig (.resolve sampleId)) (some (sampleOrder .accepted 0 2)) ambiguousDb)

theorem runs_accountAfter {db₀ db : Db} (h : Runs sampleUuid5 (fun _ => Serial.IsFresh) (fun _ _ _ => True) db₀ db)
    {op : Operation} (hop : Serial.IsFresh op) (o : Option BrokerOrder) :
    Runs sampleUuid5 (fun _ => Serial.IsFresh) (fun _ _ _ => True) db₀ (accountAfter op o db) :=
  h.after hop (accountEnv_mild o) fun _ _ => trivial

theorem runs_reopened : Runs sampleUuid5 (fun _ => Serial.IsFresh) (fun _ _ _ => True) ambiguousDb reopenedDb := by
  have hresolve : Serial.IsFresh (.engine sampleConfig (.resolve sampleId)) := trivial
  have hresume : Serial.IsFresh (.resume "operator") := trivial
  exact runs_accountAfter (runs_accountAfter (.refl _) hresolve (some (sampleOrder .accepted 0 2))) hresume none

/-- After a pause for an ambiguous outcome, entries are opened without a new run. -/
theorem resume_with_old_run : ∃ db₁ db₂,
    Runs sampleUuid5 (fun _ => Serial.IsFresh) (fun _ _ _ => True) accountDb db₁ ∧
    accountDb.control.entriesPaused = false ∧ db₁.control.entriesPaused = true ∧
    db₁.control.pausedReason = some "reconciliation required; ambiguous broker outcome" ∧
    Runs sampleUuid5 (fun _ => Serial.IsFresh) (fun _ _ _ => True) db₁ db₂ ∧
    db₂.control.entriesPaused = false ∧ db₂.runs.length = db₁.runs.length := by
  have hadd : Serial.IsFresh (.add (sampleIntent .outboxPending)) := ⟨by decide, by decide⟩
  have hreconcile : Serial.IsFresh (.reconcile ⟨some ⟨"paper", 0, 0, paperId_ok⟩, false, true⟩ secondDay) := trivial
  have hsubmit : Serial.IsFresh (.engine sampleConfig (.submitFromOutbox sampleId)) := trivial
  have hruns : Runs sampleUuid5 (fun _ => Serial.IsFresh) (fun _ _ _ => True) accountDb ambiguousDb :=
    runs_accountAfter (runs_accountAfter (runs_accountAfter (.refl _) hadd none) hreconcile none) hsubmit none
  exact ⟨ambiguousDb, reopenedDb, hruns, rfl, by decide +kernel, by decide +kernel, runs_reopened,
    by decide +kernel, by decide +kernel⟩

/-- The resume above started from tables with the old run. -/
theorem resume_needs_clean_run_sample : ∃ dbr l, Resumable dbr ∧ dbr.runs = ambiguousDb.runs ++ l := by
  have hstep : ∀ s c, (serial (.engine sampleConfig (.submitFromOutbox sampleId)) fun _ _ _ => True).Step s c
      (transact (accountEnv none) c s).1 (transact (accountEnv none) c s).2 :=
    fun s c => ⟨accountEnv none, accountEnv_mild none, fun _ _ => trivial, rfl, rfl⟩
  obtain ⟨p, hreach⟩ := reach_run hstep
    ((Operation.engine sampleConfig (.submitFromOutbox sampleId)).proc sampleUuid5) (.start cleanDb)
  have hpaused : ambiguousDb.control.entriesPaused = true := by decide +kernel
  have hfresh : Serial.IsFresh (.engine sampleConfig (.submitFromOutbox sampleId)) := trivial
  obtain ⟨dbr, l, -, hres, hruns, -⟩ := resume_needs_clean_run sampleUuid5 cleanDb reopenedDb _ _ _ p p hfresh
    hreach hpaused (.refl _ _) runs_reopened (by decide +kernel)
  exact ⟨dbr, l, hres, hruns⟩

end SevenLens
