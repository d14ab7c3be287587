import Mathlib.Data.List.Chain
import Mathlib.Data.List.Pairwise
import Mathlib.Order.Lattice

/-! # Fenced leases

A resource is held by one owner at a time, for a while that the owner may prolong.  Every tenure has a
number, the fencing token, and what is done to the resource is done under the token of a tenure.  A history
lists what was done, with the instant at which it was done and the end of the lease afterwards.  The rule
that relates each event to the one before it (`Follows`) is local; what a holder relies on is about all
events before and after (`IsHistory.fenced`): once a later tenure has begun or the own one was given up,
nothing happens under the old token any more. -/

namespace Lease

variable {ω τ α : Type}

/-- What is done: a tenure begins, is prolonged or given up, or its holder acts on the resource. -/
inductive Kind (α : Type) where
  | acquire | renew | release
  | use (action : α)

/-- Something done at an instant under a token; the lease ends at `expires` if nothing else happens. -/
structure Event (ω τ α : Type) where
  kind : Kind α
  owner : ω
  token : Nat
  time : τ
  expires : τ

/-- The first token that can be given out, and the holder of the last one with the end of the lease. -/
structure State (ω τ : Type) where
  token : Nat
  holder : Option (ω × τ)

/-! ### Fencing -/

/-- What holds of an event and any later one. -/
structure Fences (p e : Event ω τ α) : Prop where
  /-- Tokens never go back. -/
  token_le : p.token ≤ e.token
  /-- A token is given out once. -/
  acquire_lt : e.kind = .acquire → p.token < e.token
  /-- One owner acts under a token. -/
  owner_eq : p.token = e.token → e.owner = p.owner
  /-- Nothing is done under a token that was given up. -/
  released : p.kind = .release → p.token < e.token

theorem Fences.trans {p q e : Event ω τ α} (h : Fences p q) (h' : Fences q e) : Fences p e where
  token_le := h.token_le.trans h'.token_le
  acquire_lt ha := h.token_le.trans_lt (h'.acquire_lt ha)
  owner_eq he := by
    have hq : p.token = q.token := le_antisymm h.token_le (he ▸ h'.token_le)
    exact (h'.owner_eq (hq ▸ he)).trans (h.owner_eq hq)
  released hr := (h.released hr).trans_le h'.token_le

instance fences_trans : IsTrans (Event ω τ α) Fences := ⟨fun _ _ _ => Fences.trans⟩

/-! ### Histories and states -/

/-- The state after an event. -/
def Event.after (e : Event ω τ α) : State ω τ where
  token := e.token
  holder := match e.kind with
    | .release => none
    | _ => some (e.owner, e.expires)

/-- The state after a history. -/
def stateOf (es : List (Event ω τ α)) : State ω τ :=
  match es.getLast? with
  | none => ⟨0, none⟩
  | some e => e.after

theorem Event.holder_after (p : Event ω τ α) {o : ω} {t : τ} :
    p.after.holder = some (o, t) ↔ p.kind ≠ .release ∧ o = p.owner ∧ t = p.expires := by
  cases hk : p.kind <;> simp [Event.after, hk, eq_comm]

theorem stateOf_nil : stateOf ([] : List (Event ω τ α)) = ⟨0, none⟩ := rfl

@[simp] theorem stateOf_append (es : List (Event ω τ α)) (e : Event ω τ α) : stateOf (es ++ [e]) = e.after := by
  simp [stateOf]

/-! ### Histories -/

section Order

variable [LinearOrder τ]

/-- What may come directly after `p`. -/
inductive Follows (p : Event ω τ α) : Event ω τ α → Prop
  | hold {e : Event ω τ α} (running : p.kind ≠ .release) (kind : e.kind ≠ .acquire) (owner : e.owner = p.owner)
      (token : e.token = p.token) (live : e.time < p.expires) (keeps : ∀ a, e.kind = .use a → e.expires = p.expires) :
      Follows p e
  | takeOver {e : Event ω τ α} (kind : e.kind = .acquire) (token : e.token = p.token + 1)
      (ended : p.kind = .release ∨ p.expires ≤ e.time) : Follows p e

/-- What may come first. -/
structure Event.Begins (e : Event ω τ α) : Prop where
  kind : e.kind = .acquire
  token : e.token = 1

/-- The events of one resource from the first tenure on. -/
structure IsHistory (es : List (Event ω τ α)) : Prop where
  begins : ∀ e ∈ es.head?, e.Begins
  follows : es.IsChain Follows

theorem Follows.fences {p e : Event ω τ α} (h : Follows p e) : Fences p e := by
  cases h with
  | hold running kind owner token =>
    exact ⟨token.ge, fun ha => absurd ha kind, fun _ => owner, fun hr => absurd hr running⟩
  | takeOver kind token ended =>
    have hlt : p.token < e.token := by omega
    exact ⟨hlt.le, fun _ => hlt, fun he => absurd he hlt.ne, fun _ => hlt⟩

/-- Every event fences off all earlier ones. -/
theorem IsHistory.fenced {es : List (Event ω τ α)} (h : IsHistory es) : es.Pairwise Fences :=
  List.isChain_iff_pairwise.mp (h.follows.imp fun _ _ => Follows.fences)

/-- What is done under a token is done before the end of the lease that the event before left; a tenure
begins after the end of the one before, or after it was given up. -/
theorem IsHistory.adjacent {before after : List (Event ω τ α)} {p e : Event ω τ α}
    (h : IsHistory (before ++ p :: e :: after)) :
    (e.kind ≠ .acquire → p.kind ≠ .release ∧ e.token = p.token ∧ e.owner = p.owner ∧ e.time < p.expires ∧
        ∀ a, e.kind = .use a → e.expires = p.expires) ∧
      (e.kind = .acquire → e.token = p.token + 1 ∧ (p.kind = .release ∨ p.expires ≤ e.time)) := by
  have hf : Follows p e := by
    have := (List.isChain_append.mp h.follows).2.1
    exact (List.isChain_cons_cons.mp this).1
  cases hf with
  | hold running kind owner token live keeps =>
    exact ⟨fun _ => ⟨running, token, owner, live, keeps⟩, fun ha => absurd ha kind⟩
  | takeOver kind token ended => exact ⟨fun hn => absurd kind hn, fun _ => ⟨token, ended⟩⟩

/-- What may come after a state. -/
inductive Allowed (s : State ω τ) : Event ω τ α → Prop
  | hold {e : Event ω τ α} {end_ : τ} (holder : s.holder = some (e.owner, end_)) (kind : e.kind ≠ .acquire)
      (token : e.token = s.token) (live : e.time < end_) (keeps : ∀ a, e.kind = .use a → e.expires = end_) : Allowed s e
  | takeOver {e : Event ω τ α} (kind : e.kind = .acquire) (token : e.token = s.token + 1)
      (ended : ∀ h ∈ s.holder, h.2 ≤ e.time) : Allowed s e

theorem Allowed.follows {p e : Event ω τ α} (h : Allowed p.after e) : Follows p e := by
  cases h with
  | hold holder kind token live keeps =>
    obtain ⟨hr, howner, hend⟩ := p.holder_after.mp holder
    exact .hold hr kind howner token (hend ▸ live) (hend ▸ keeps)
  | takeOver kind token ended =>
    refine .takeOver kind token ?_
    by_cases hr : p.kind = .release
    · exact Or.inl hr
    · exact Or.inr (ended (p.owner, p.expires) (p.holder_after.mpr ⟨hr, rfl, rfl⟩))

theorem Allowed.begins {e : Event ω τ α} (h : Allowed ⟨0, none⟩ e) : e.Begins := by
  cases h with
  | hold holder => cases holder
  | takeOver kind token => exact ⟨kind, token⟩

/-- A history goes on with whatever the state after it allows. -/
theorem IsHistory.append {es : List (Event ω τ α)} {e : Event ω τ α} (h : IsHistory es) (he : Allowed (stateOf es) e) :
    IsHistory (es ++ [e]) := by
  rcases List.eq_nil_or_concat es with rfl | ⟨init, p, rfl⟩
  · refine ⟨fun x hx => ?_, List.isChain_singleton e⟩
    obtain rfl : e = x := by simpa using hx
    exact he.begins
  · simp only [List.concat_eq_append] at h he ⊢
    rw [stateOf_append] at he
    constructor
    · intro x hx
      refine h.begins x ?_
      cases init <;> simpa using hx
    · refine List.isChain_append.mpr ⟨h.follows, List.isChain_singleton e, fun x hx y hy => ?_⟩
      obtain rfl : p = x := by simpa using hx
      obtain rfl : e = y := by simpa using hy
      exact he.follows

theorem IsHistory.nil : IsHistory ([] : List (Event ω τ α)) := ⟨by simp, List.isChain_nil⟩

end Order

/-! ### Tenures -/

/-- The record of a tenure: when it began, when it was last prolonged, when its lease ends or would have
ended, and when it was closed and whether its holder did that. -/
structure Tenure (ω τ : Type) where
  owner : ω
  token : Nat
  began : τ
  renewed : τ
  expires : τ
  closed : Option (τ × Bool)

namespace Tenure

/-- The record closed at `t`, unless it is closed already. -/
def close (t : τ) (byHolder : Bool) (r : Tenure ω τ) : Tenure ω τ :=
  if r.closed = none then { r with closed := some (t, byHolder) } else r

/-- The record of a lease that is prolonged at `t`, unless it is closed. -/
def prolong (t expires : τ) (r : Tenure ω τ) : Tenure ω τ :=
  if r.closed = none then { r with renewed := t, expires } else r

/-- How a tenure hands over to the next one. -/
def HandsOver [LE τ] (r q : Tenure ω τ) : Prop :=
  (∃ t, r.closed = some (t, true)) ∨ (r.closed = some (q.began, false) ∧ r.expires ≤ q.began)

end Tenure

/-- The record of a tenure that begins with `e`. -/
def Event.tenure (e : Event ω τ α) : Tenure ω τ := ⟨e.owner, e.token, e.time, e.time, e.expires, none⟩

/-- The records after one more event. -/
def recordEvent (rs : List (Tenure ω τ)) (e : Event ω τ α) : List (Tenure ω τ) :=
  match e.kind with
  | .acquire => rs.map (·.close e.time false) ++ [e.tenure]
  | .renew => rs.map (·.prolong e.time e.expires)
  | .release => rs.map (·.close e.time true)
  | .use _ => rs

/-- The records of a history. -/
def tenures (es : List (Event ω τ α)) : List (Tenure ω τ) := es.foldl recordEvent []

@[simp] theorem tenures_append (es : List (Event ω τ α)) (e : Event ω τ α) :
    tenures (es ++ [e]) = recordEvent (tenures es) e := by
  simp [tenures]

/-- Records that fit a state: one for each token, each handed over to the next; the last one is the only one that can be
open, and it is open just when the resource is held, with the owner and the end of the lease. -/
structure Recorded [LE τ] (s : State ω τ) (rs : List (Tenure ω τ)) : Prop where
  tokens : rs.map Tenure.token = List.range' 1 s.token
  handed : rs.IsChain Tenure.HandsOver
  last : ∀ r ∈ rs.getLast?, s.holder = if r.closed = none then some (r.owner, r.expires) else none
  lastClosed : ∀ r ∈ rs.getLast?, ∀ t b, r.closed = some (t, b) → b = true
  unheld : rs = [] → s.holder = none

theorem Recorded.empty [LE τ] : Recorded (⟨0, none⟩ : State ω τ) [] :=
  ⟨rfl, List.isChain_nil, by simp, by simp, fun _ => rfl⟩

theorem Tenure.HandsOver.closed [LE τ] {r q : Tenure ω τ} (h : r.HandsOver q) : r.closed ≠ none := by
  rcases h with ⟨t, h⟩ | ⟨h, -⟩ <;> simp [h]

/-- Before the last record there are closed ones only. -/
theorem closed_of_handed [LE τ] {init : List (Tenure ω τ)} {r : Tenure ω τ} (h : (init ++ [r]).IsChain Tenure.HandsOver) :
    ∀ q ∈ init, q.closed ≠ none := by
  induction init with
  | nil => simp
  | cons q init ih =>
    intro x hx
    rcases List.mem_cons.mp hx with rfl | hx
    · cases init with
      | nil => exact (List.isChain_cons_cons.mp h).1.closed
      | cons y init => exact (List.isChain_cons_cons.mp h).1.closed
    · exact ih (List.isChain_cons.mp h).2 x hx

theorem map_eq_self_of_closed {init : List (Tenure ω τ)} (h : ∀ q ∈ init, q.closed ≠ none) {f : Tenure ω τ → Tenure ω τ}
    (hf : ∀ q, q.closed ≠ none → f q = q) : init.map f = init := by
  rw [List.map_congr_left fun q hq => hf q (h q hq), List.map_id']

theorem isChain_concat_congr [LE τ] {init : List (Tenure ω τ)} {r r' : Tenure ω τ} (h : (init ++ [r]).IsChain Tenure.HandsOver)
    (hbegan : r'.began = r.began) : (init ++ [r']).IsChain Tenure.HandsOver := by
  obtain ⟨hinit, -, hlast⟩ := List.isChain_append.mp h
  refine List.isChain_append.mpr ⟨hinit, List.isChain_singleton r', fun x hx y hy => ?_⟩
  obtain rfl : r' = y := by simpa using hy
  have := hlast x hx r (by simp)
  simpa only [Tenure.HandsOver, hbegan] using this

/-- The one record that can be open. -/
theorem Recorded.of_open [LE τ] {s : State ω τ} {rs : List (Tenure ω τ)} (h : Recorded s rs) {r : Tenure ω τ} (hr : r ∈ rs)
    (ho : r.closed = none) : rs.getLast? = some r ∧ s.holder = some (r.owner, r.expires) ∧ r.token = s.token := by
  rcases List.eq_nil_or_concat rs with rfl | ⟨init, q, rfl⟩
  · cases hr
  · simp only [List.concat_eq_append] at *
    have hmem : r ∉ init := fun hmem => closed_of_handed h.handed r hmem ho
    obtain rfl : r = q := by simpa [hmem] using hr
    have hheld := h.last r (by simp)
    rw [if_pos ho] at hheld
    have htoken := congrArg List.getLast? h.tokens
    rw [List.map_append, List.map_singleton, List.getLast?_concat, List.getLast?_range'] at htoken
    refine ⟨by simp, hheld, ?_⟩
    split at htoken
    · cases htoken
    · have := Option.some.inj htoken
      omega

/-- While the resource is held, one record is open. -/
theorem Recorded.countP_open [LE τ] {s : State ω τ} {rs : List (Tenure ω τ)} (h : Recorded s rs) (hs : s.holder ≠ none) :
    rs.countP (fun r => decide (r.closed.isNone)) = 1 := by
  rcases List.eq_nil_or_concat rs with rfl | ⟨init, q, rfl⟩
  · exact absurd (h.unheld rfl) hs
  · simp only [List.concat_eq_append] at *
    have hclosed := closed_of_handed h.handed
    have hq : q.closed = none := by
      by_contra hne
      have := h.last q (by simp)
      rw [if_neg hne] at this
      exact hs this
    have hinit : init.countP (fun r => decide (r.closed.isNone)) = 0 := by
      rw [List.countP_eq_zero]
      intro x hx
      simpa using hclosed x hx
    rw [List.countP_append, hinit]
    simp [hq]

/-- Records go on to fit. -/
theorem Recorded.step [LinearOrder τ] {s : State ω τ} {rs : List (Tenure ω τ)} {e : Event ω τ α} (h : Recorded s rs) (he : Allowed s e) :
    Recorded e.after (recordEvent rs e) := by
  obtain ⟨htokens, hhanded, hlast, hlastClosed, hunheld⟩ := h
  rcases List.eq_nil_or_concat rs with rfl | ⟨init, r, rfl⟩
  · have htoken : s.token = 0 := by simpa using congrArg List.length htokens.symm
    have hholder := hunheld rfl
    cases he with
    | hold holder => simp [hholder] at holder
    | takeOver kind token ended =>
      have hone : e.token = 1 := by omega
      simp only [recordEvent, kind, List.map_nil, List.nil_append]
      exact ⟨by simp [Event.tenure, Event.after, hone], List.isChain_singleton _, by simp [Event.tenure, Event.after, kind],
        by simp [Event.tenure], by simp⟩
  · simp only [List.concat_eq_append] at *
    have hclosed := closed_of_handed hhanded
    have hheld := hlast r (by simp)
    have hinit : ∀ {f : Tenure ω τ → Tenure ω τ}, (∀ q, q.closed ≠ none → f q = q) → init.map f = init :=
      map_eq_self_of_closed hclosed
    cases he with
    | @hold end_ holder kind token live keeps =>
      -- the resource is held, so that the last record is open
      have hopen : r.closed = none := by
        by_contra hne
        rw [if_neg hne, holder] at hheld
        cases hheld
      rw [if_pos hopen, holder] at hheld
      obtain ⟨howner, hend⟩ := Prod.mk.inj (Option.some.inj hheld)
      cases hk : e.kind with
      | acquire => exact absurd hk kind
      | renew =>
        simp only [recordEvent, hk, List.map_append, List.map_cons, List.map_nil]
        rw [hinit fun q hq => by simp [Tenure.prolong, hq]]
        have hr : r.prolong e.time e.expires = { r with renewed := e.time, expires := e.expires } := if_pos hopen
        rw [hr]
        refine ⟨?_, isChain_concat_congr hhanded rfl, ?_, ?_, by simp⟩
        · simpa [Event.after, token] using htokens
        · simp [Event.after, hk, hopen, howner]
        · simp [hopen]
      | release =>
        simp only [recordEvent, hk, List.map_append, List.map_cons, List.map_nil]
        rw [hinit fun q hq => by simp [Tenure.close, hq]]
        have hr : r.close e.time true = { r with closed := some (e.time, true) } := if_pos hopen
        rw [hr]
        refine ⟨?_, isChain_concat_congr hhanded rfl, ?_, ?_, by simp⟩
        · simpa [Event.after, token] using htokens
        · simp [Event.after, hk]
        · simp
      | use a =>
        simp only [recordEvent, hk]
        refine ⟨?_, hhanded, ?_, hlastClosed, by simp⟩
        · simpa [Event.after, token] using htokens
        · simp [Event.after, hk, hopen, howner, ← hend, keeps a hk]
    | takeOver kind token ended =>
      have hhand : (r.close e.time false).HandsOver e.tenure := by
        by_cases hopen : r.closed = none
        · rw [if_pos hopen] at hheld
          refine Or.inr ⟨?_, ?_⟩
          · simp [Tenure.close, hopen, Event.tenure]
          · simpa [Tenure.close, hopen, Event.tenure] using ended (r.owner, r.expires) hheld
        · obtain ⟨⟨t, b⟩, hc⟩ := Option.ne_none_iff_exists'.mp hopen
          have hb := hlastClosed r (by simp) t b hc
          exact Or.inl ⟨t, by simp [Tenure.close, hc, hb]⟩
      have hr : (r.close e.time false).token = r.token ∧ (r.close e.time false).began = r.began := by
        unfold Tenure.close
        split <;> exact ⟨rfl, rfl⟩
      simp only [recordEvent, kind, List.map_append, List.map_cons, List.map_nil]
      rw [hinit fun q hq => by simp [Tenure.close, hq]]
      refine ⟨?_, ?_, ?_, ?_, by simp⟩
      · rw [List.map_append, List.map_append, List.map_singleton, List.map_singleton, hr.1] at *
        rw [htokens]
        simp [Event.after, Event.tenure, token, List.range'_1_concat, Nat.add_comm]
      · refine List.isChain_append.mpr ⟨isChain_concat_congr hhanded hr.2, List.isChain_singleton _, fun x hx y hy => ?_⟩
        obtain rfl : r.close e.time false = x := by simpa using hx
        obtain rfl : e.tenure = y := by simpa using hy
        exact hhand
      · simp [Event.after, Event.tenure, kind]
      · simp [Event.tenure]

end Lease
