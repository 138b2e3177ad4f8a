import Cheirismos.Dispatches
import Cheirismos.Transitions
import Mathlib.Data.Finset.Order

/-! # The life of an attempt

What every run says of the attempts and reconciliations on record.

* The attempts of a pair are the first steps of its plan, all but the last completed, and no step
  is admitted or dispatched before the one in front of it is completed (`steps_in_order`).
* Records are only added, an attempt moves along `AttemptState.Moves` and gets its receipt once,
  and the reconciliations of an attempt are numbered without gaps, only the last of them open
  (`history_append_only`).
* A revoked grant admits nothing more, and a halted or retired pair stays as it is
  (`closed_stays_closed`). -/

namespace Cheirismos

open Process Store

variable [Platform] {s s' : Store}

/-! ### Steps in order -/

/-- The attempts of the pair are its first `n` steps, all but the last completed. -/
structure StepPrefix (s : Store) (p : Pair) (n : ℕ) : Prop where
  indices : ∀ i, (∃ a, s.Attempt a ∧ a.pair = p ∧ a.operationIndex = i) ↔ i < n
  bounded : 0 < n → ∃ plan ∈ s.plans, plan.id = p.2 ∧ n ≤ plan.operations.length
  completed : ∀ a, s.Attempt a → a.pair = p → a.operationIndex + 1 < n → a.state = .completed
  shared : ∀ a b, s.Attempt a → s.Attempt b → a.pair = p → b.pair = p → a.snapshot = b.snapshot

theorem Store.Regular.stepPrefix (hs : s.Regular) (p : Pair) : ∃ n, StepPrefix s p n := by
  have hshared : ∀ a b, s.Attempt a → s.Attempt b → a.pair = p → b.pair = p →
      a.snapshot = b.snapshot := fun a b ha hb hp hq => hs.snapshot ha hb (hp.trans hq.symm)
  by_cases hsome : ∃ a, s.Attempt a ∧ a.pair = p
  · obtain ⟨a, ha, rfl⟩ := hsome
    obtain ⟨top, htop, hp⟩ := hs.exists_top ha
    refine ⟨top.operationIndex + 1, fun i => ⟨?_, fun hi => ?_⟩, fun _ => ?_, ?_, hshared⟩
    · rintro ⟨b, hb, hbp, rfl⟩
      exact Nat.lt_succ_of_le (htop.2 b hb (hbp.trans hp.symm))
    · rcases Nat.lt_or_eq_of_le (Nat.le_of_lt_succ hi) with hlt | rfl
      · obtain ⟨b, hb, hbp, hbi, _⟩ := hs.earlier htop.1 hlt
        exact ⟨b, hb, hbp.trans hp, hbi⟩
      · exact ⟨top, htop.1, hp, rfl⟩
    · obtain ⟨plan, hm, hid, _, hlt, _⟩ := (hs.admitted top htop.1).plan
      exact ⟨plan, hm, hid.trans (congrArg Prod.snd hp), hlt⟩
    · intro b hb hbp hlt
      obtain ⟨b', hb', hbp', hbi', hdone, _⟩ := hs.earlier htop.1 (Nat.lt_of_succ_lt_succ hlt)
      obtain rfl := hs.step b' b hb' hb (hbp'.trans (hp.trans hbp.symm)) hbi'
      exact hdone
  · refine ⟨0, fun i => ⟨?_, fun hi => absurd hi (Nat.not_lt_zero i)⟩,
      fun h => absurd h (lt_irrefl 0), ?_, hshared⟩
    · rintro ⟨a, ha, hp, _⟩
      exact absurd ⟨a, ha, hp⟩ hsome
    · exact fun a ha hp _ => absurd ⟨a, ha, hp⟩ hsome

/-- When an attempt is admitted, every attempt of its pair is completed, and so is the step in
front of it. -/
theorem InOrder.spec (hs : s.Regular) {a : AttemptRecord} (h : InOrder s a) :
    (∀ b, s.Attempt b → b.pair = a.pair → b.state = .completed) ∧
      ∀ k, a.operationIndex = k + 1 → s.StepDone a.pair k := by
  rcases h with ⟨h0, hnone⟩ | ⟨top, htop, hp, hdone, hindex, _⟩
  · refine ⟨fun b hb hbp => absurd hbp (hnone b hb), fun k hk => ?_⟩
    rw [h0] at hk
    cases hk
  · refine ⟨fun b hb hbp => ?_, fun k hk => ?_⟩
    · by_cases hne : b.state = .completed
      · exact hne
      · obtain rfl := Store.top_inj hs.step (hs.top_of_not_completed hb hne) htop
          (hbp.trans hp.symm)
        exact hdone
    · obtain rfl : top.operationIndex = k := Nat.succ.inj (hindex.symm.trans hk)
      exact ⟨top, htop.1, hp, rfl, hdone⟩

section runs

variable {c : daemon.Config}

/-- The attempts of every pair are the first steps of its plan, all but the last completed and
all with the same profile, plan and resources; a step is admitted only when the whole pair is
completed so far, and dispatched only when the step in front of it is completed. -/
theorem steps_in_order (h : Reachable c) :
    (∀ p, ∃ n, StepPrefix c.state.store p n) ∧
    (∀ c', daemon.Step c c' → ∀ a, c'.state.store.Attempt a →
      (∀ b, c.state.store.Attempt b → b.id ≠ a.id) →
      (∀ b, c.state.store.Attempt b → b.pair = a.pair → b.state = .completed) ∧
        ∀ k, a.operationIndex = k + 1 → c.state.store.StepDone a.pair k) ∧
    ∀ e older, (e :: older) <:+ c.history → ∀ id, Executes id e →
      ∃ a, e.before.store.Attempt a ∧ a.id = id ∧
        ∀ k, a.operationIndex = k + 1 → e.before.store.StepDone a.pair k := by
  refine ⟨fun p => h.good.regular.stepPrefix p, ?_, ?_⟩
  · intro c' hs a ha hnew
    obtain ⟨call, hchange⟩ := h.change hs
    rcases hchange.attempt h.good ha with ⟨b, hb, hbec⟩ | ⟨_, harr⟩
    · exact absurd (AttemptRecord.id_eq hbec.identity).symm (hnew b hb)
    · exact harr.order.spec h.good.regular
  · rintro e older he id ⟨dispatch, hd, rfl⟩
    obtain ⟨claim, since, planned, expiries, hdisp⟩ := h.history.dispatchable he hd
    have hold := h.history.before he
    refine ⟨claim.claimed.attempt, hdisp.held, (hdisp.attempt_eq hold).1.symm, fun k hk => ?_⟩
    obtain ⟨b, hb, hp, hi, hdone, _⟩ := (History.good hold).regular.previous _ k hdisp.held hk
    exact ⟨b, hb, hp, hi, hdone⟩

omit [Platform] in
open Bench in
theorem steps_in_order_bench : ∃ n, StepPrefix (bench routine).state.store (g₁, p₁) n :=
  (@steps_in_order Bench.platform _ (bench_reachable routine)).1 (g₁, p₁)

end runs

/-! ### Append-only history -/

/-- An attempt that has not ended has no receipt. -/
def Store.Unreceipted (s : Store) : Prop :=
  ∀ a, s.Attempt a → a.state = .intent ∨ a.state = .dispatched → a.receipt = none

theorem Change.unreceipted {call : StoreCall} (hg : s.Good) (hu : s.Unreceipted)
    (h : Change s call s') : s'.Unreceipted := by
  intro a' ha' hstate
  rcases h.attempt hg ha' with ⟨a, ha, hbec⟩ | ⟨_, harr⟩
  · cases hbec with
    | kept => exact hu a' ha hstate
    | dispatched claims =>
        rw [claims.receipt]
        exact hu a ha (Or.inl claims.intent)
    | @receipted _ receipt _ hd => cases receipt <;> rcases hstate with h | h <;> cases h
    | abandoned _ _ => rcases hstate with h | h <;> cases h
    | reopened _ => rcases hstate with h | h <;> cases h
    | completed _ _ _ _ => rcases hstate with h | h <;> cases h
    | interrupted _ => rcases hstate with h | h <;> cases h
  · exact harr.intent.2

/-- The reconciliations of each attempt are numbered from zero without gaps, and only the last
one may be open. -/
structure Store.Sequenced (s : Store) : Prop where
  unique : ∀ r r', s.Witness r → s.Witness r' → r'.attempt = r.attempt → r'.ordinal = r.ordinal →
    r' = r
  gapless : ∀ r k, s.Witness r → r.ordinal = k + 1 →
    ∃ r', s.Witness r' ∧ r'.attempt = r.attempt ∧ r'.ordinal = k
  last : ∀ r r', s.Witness r → r.state = .claimed → s.Witness r' → r'.attempt = r.attempt →
    r'.ordinal ≤ r.ordinal

omit [Platform] in
theorem Store.sequenced_empty : Store.Sequenced .empty where
  unique _ _ h := (Table.not_mem_empty _ h).elim
  gapless _ _ h := (Table.not_mem_empty _ h).elim
  last _ _ h := (Table.not_mem_empty _ h).elim

/-- A call keeps what names and numbers a reconciliation, and never opens it again. -/
structure WitnessKeeps (r q : ReconciliationRecord) : Prop where
  request : q.request = r.request
  attempt : q.attempt = r.attempt
  ordinal : q.ordinal = r.ordinal
  claimed : q.state = .claimed → r.state = .claimed

theorem WitnessBecomes.keeps {r q : ReconciliationRecord} {call : StoreCall}
    (h : WitnessBecomes r q call) : WitnessKeeps r q := by
  cases h with
  | kept => exact ⟨rfl, rfl, rfl, fun h => h⟩
  | finished claimed => exact ⟨rfl, rfl, rfl, fun _ => claimed⟩
  | interrupted claimed => exact ⟨rfl, rfl, rfl, fun _ => claimed⟩

theorem Change.sequenced {call : StoreCall} (hg : s.Good) (hq : s.Sequenced)
    (h : Change s call s') : s'.Sequenced := by
  have hold : ∀ q, s'.Witness q → (∃ r, s.Witness r ∧ WitnessKeeps r q) ∨ WitnessArrives s q call :=
    fun q hw => (h.witness hg hw).imp_left fun ⟨r, hr, hb⟩ => ⟨r, hr, hb.keeps⟩
  have hfresh : ∀ {q r}, WitnessArrives s q call → s.Witness r → r.attempt = q.attempt →
      r.ordinal < q.ordinal ∧ r.state ≠ .claimed := by
    rintro q r ⟨claims, rfl⟩ hr he
    rw [claims.recordAttempt] at he
    exact ⟨claims.recordOrdinal.above r hr he, claims.inactive r hr he⟩
  have hsame : ∀ {q q'}, s'.Witness q → s'.Witness q' → WitnessArrives s q call →
      WitnessArrives s q' call → q' = q := by
    intro q q' hw hw' harr harr'
    obtain ⟨_, _, _, rfl⟩ := harr.call
    obtain ⟨_, _, _, he⟩ := harr'.call
    injection he with _ he
    exact Store.witness_inj hw' hw he.symm
  refine ⟨fun q q' hw hw' hatt hord => ?_, fun q k hw hk => ?_, fun q q' hw hclaimed hw' hatt => ?_⟩
  · rcases hold q hw with ⟨r, hr, hk⟩ | harr <;> rcases hold q' hw' with ⟨r', hr', hk'⟩ | harr'
    · have he := hq.unique r r' hr hr' (by rw [← hk'.attempt, ← hk.attempt, hatt])
        (by rw [← hk'.ordinal, ← hk.ordinal, hord])
      exact Store.witness_inj hw' hw (by rw [hk'.request, hk.request, he])
    · have hlt := (hfresh harr' hr (hk.attempt.symm.trans hatt.symm)).1
      rw [← hk.ordinal, hord] at hlt
      exact absurd hlt (lt_irrefl _)
    · have hlt := (hfresh harr hr' (hk'.attempt.symm.trans hatt)).1
      rw [← hk'.ordinal, hord] at hlt
      exact absurd hlt (lt_irrefl _)
    · exact hsame hw hw' harr harr'
  · have hprev : ∃ r, s.Witness r ∧ r.attempt = q.attempt ∧ r.ordinal = k := by
      rcases hold q hw with ⟨r, hr, hkeeps⟩ | harr
      · obtain ⟨r', hr', ha, ho⟩ := hq.gapless r k hr (hkeeps.ordinal.symm.trans hk)
        exact ⟨r', hr', ha.trans hkeeps.attempt.symm, ho⟩
      · obtain ⟨claims, rfl⟩ := harr
        obtain ⟨r, hr, ha, ho⟩ := claims.recordOrdinal.next (by rw [hk]; omega)
        exact ⟨r, hr, ha.trans claims.recordAttempt.symm, by omega⟩
    obtain ⟨r, hr, ha, ho⟩ := hprev
    obtain ⟨r', hr', hc⟩ := (h.evolves hg).witnesses r hr
    exact ⟨r', hr', hc.attempt.trans ha, hc.ordinal.trans ho⟩
  · rcases hold q hw with ⟨r, hr, hk⟩ | harr <;> rcases hold q' hw' with ⟨r', hr', hk'⟩ | harr'
    · have hle := hq.last r r' hr (hk.claimed hclaimed) hr' (by rw [← hk'.attempt, ← hk.attempt, hatt])
      rwa [← hk.ordinal, ← hk'.ordinal] at hle
    · exact absurd (hk.claimed hclaimed) (hfresh harr' hr (hk.attempt.symm.trans hatt.symm)).2
    · have hlt := (hfresh harr hr' (hk'.attempt.symm.trans hatt)).1
      rw [hk'.ordinal]
      exact le_of_lt hlt
    · rw [hsame hw hw' harr harr']

/-- The reconciliations of the attempt are numbered `0` to `n - 1`, only the last one may be
open. -/
structure OrdinalPrefix (s : Store) (id : AttemptId) (n : ℕ) : Prop where
  ordinals : ∀ k, (∃ r, s.Witness r ∧ r.attempt = id ∧ r.ordinal = k) ↔ k < n
  unique : ∀ r r', s.Witness r → s.Witness r' → r.attempt = id → r'.attempt = id →
    r'.ordinal = r.ordinal → r' = r
  claimed : ∀ r, s.Witness r → r.attempt = id → r.state = .claimed → r.ordinal + 1 = n

omit [Platform] in
theorem Store.Sequenced.ordinalPrefix (h : s.Sequenced) (id : AttemptId) :
    ∃ n, OrdinalPrefix s id n := by
  classical
  have hbound : ∃ n, ∀ r, s.Witness r → r.attempt = id → r.ordinal < n := by
    obtain ⟨n, hn⟩ := (s.reconciliations.rows.map (fun row => row.json.ordinal)).toFinset.exists_le
    refine ⟨n + 1, fun r hr _ => Nat.lt_succ_of_le (hn r.ordinal ?_)⟩
    exact List.mem_toFinset.mpr (List.mem_map.mpr ⟨_, hr, rfl⟩)
  -- the least bound is one above the last ordinal
  have hlast : Nat.find hbound ≠ 0 →
      ∃ r, s.Witness r ∧ r.attempt = id ∧ r.ordinal + 1 = Nat.find hbound := by
    intro hne
    by_contra hnone
    refine Nat.find_min hbound (Nat.pred_lt hne) fun r hr ha => ?_
    have hlt := Nat.find_spec hbound r hr ha
    have hneq : r.ordinal + 1 ≠ Nat.find hbound := fun he => hnone ⟨r, hr, ha, he⟩
    rw [Nat.pred_eq_sub_one]
    omega
  have hdown : ∀ d k r, s.Witness r → r.attempt = id → r.ordinal = k + d →
      ∃ q, s.Witness q ∧ q.attempt = id ∧ q.ordinal = k := by
    intro d
    induction d with
    | zero => exact fun k r hr ha ho => ⟨r, hr, ha, ho⟩
    | succ d ih =>
        intro k r hr ha ho
        obtain ⟨q, hq, hqa, hqo⟩ := h.gapless r (k + d) hr ho
        exact ih k q hq (hqa.trans ha) hqo
  refine ⟨Nat.find hbound, fun k => ⟨?_, fun hk => ?_⟩, fun r r' hr hr' ha ha' ho => ?_,
    fun r hr ha hclaimed => ?_⟩
  · rintro ⟨r, hr, ha, rfl⟩
    exact Nat.find_spec hbound r hr ha
  · obtain ⟨r, hr, ha, ho⟩ := hlast (Nat.ne_zero_of_lt hk)
    exact hdown (r.ordinal - k) k r hr ha (by omega)
  · exact h.unique r r' hr hr' (ha'.trans ha.symm) ho
  · obtain ⟨q, hq, hqa, hqo⟩ := hlast (Nat.ne_zero_of_lt (Nat.find_spec hbound r hr ha))
    have hle := h.last r q hr hclaimed hq (hqa.trans ha.symm)
    have hlt := Nat.find_spec hbound r hr ha
    omega

/-- An attempt on record stays, with its identity and, once it has one, its receipt. -/
def AttemptsStay (s s' : Store) : Prop :=
  ∀ a, s.Attempt a → ∃ a', s'.Attempt a' ∧ a'.identity = a.identity ∧
    (a.receipt ≠ none → a'.receipt = a.receipt)

omit [Platform] in
theorem AttemptsStay.trans {s₁ s₂ s₃ : Store} (h : AttemptsStay s₁ s₂) (h' : AttemptsStay s₂ s₃) :
    AttemptsStay s₁ s₃ := by
  intro a ha
  obtain ⟨b, hb, hid, hr⟩ := h a ha
  obtain ⟨b', hb', hid', hr'⟩ := h' b hb
  refine ⟨b', hb', hid'.trans hid, fun hne => ?_⟩
  have hsame := hr hne
  exact (hr' (hsame ▸ hne)).trans hsame

/-- The attempt on record before a call that an attempt after it comes from. -/
theorem Change.origin {call : StoreCall} (hg : s.Good) (h : Change s call s') {a a' : AttemptRecord}
    (ha : s.Attempt a) (ha' : s'.Attempt a') (hid : a'.id = a.id) : Becomes s a a' call := by
  rcases h.attempt hg ha' with ⟨b, hb, hbec⟩ | ⟨hnew, _⟩
  · obtain rfl := Store.attempt_inj hb ha ((AttemptRecord.id_eq hbec.identity).symm.trans hid)
    exact hbec
  · exact absurd hid.symm (hnew a ha)

theorem Change.attemptsStay {call : StoreCall} (hg : s.Good) (hu : s.Unreceipted)
    (h : Change s call s') : AttemptsStay s s' := by
  intro a ha
  obtain ⟨a', ha', hc⟩ := (h.evolves hg).attempts a ha
  refine ⟨a', ha', hc.identity, fun hne => ?_⟩
  have hblank : a.state = .intent ∨ a.state = .dispatched → a'.receipt = a.receipt :=
    fun hs => absurd (hu a ha hs) hne
  cases h.origin hg ha ha' (AttemptRecord.id_eq hc.identity) with
  | kept => rfl
  | dispatched claims => exact claims.receipt
  | receipted hd => exact hblank (Or.inr hd)
  | abandoned hi _ => exact hblank (Or.inl hi)
  | reopened _ => rfl
  | completed _ _ _ _ => rfl
  | interrupted hd => exact hblank (Or.inr hd)

section runs

variable {c : daemon.Config}

theorem Reachable.unreceipted (h : Reachable c) : c.state.store.Unreceipted :=
  h.keeps (fun _ ha => (Table.not_mem_empty _ ha).elim) fun _ _ _ hg hu hc => hc.unreceipted hg hu

theorem Reachable.sequenced (h : Reachable c) : c.state.store.Sequenced :=
  h.keeps Store.sequenced_empty fun _ _ _ hg hq hc => hc.sequenced hg hq

/-- History is append-only.  Along any run attempts and reconciliations stay on record with
their identity; a receipt, once there, and a reconciliation, once ended, never change; one move
of the service moves the state of an attempt only as `AttemptState.Moves` allows; and the
reconciliations of every attempt are numbered without gaps, only the last one open. -/
theorem history_append_only (h : Reachable c) :
    (∀ c', daemon.Run c c' → AttemptsStay c.state.store c'.state.store ∧
      ∀ r, c.state.store.Witness r → ∃ r', c'.state.store.Witness r' ∧ r'.request = r.request ∧
        r'.attempt = r.attempt ∧ r'.ordinal = r.ordinal ∧ (r.state ≠ .claimed → r' = r)) ∧
    (∀ c', daemon.Step c c' → ∀ a a', c.state.store.Attempt a → c'.state.store.Attempt a' →
      a'.id = a.id → a' = a ∨ a.state.Moves a'.state) ∧
    ∀ id, ∃ n, OrdinalPrefix c.state.store id n := by
  refine ⟨fun c' hr => ⟨?_, fun r hwit => ?_⟩, fun c' hs a a' ha ha' hid => ?_,
    fun id => h.sequenced.ordinalPrefix id⟩
  · exact h.follows (fun s a ha => ⟨a, ha, rfl, fun _ => rfl⟩) (fun _ _ _ => .trans)
      (fun d _ _ hd hc => hc.attemptsStay hd.good hd.unreceipted) hr
  · obtain ⟨r', hr', hc⟩ := (h.evolves hr).witnesses r hwit
    exact ⟨r', hr', hc.request, hc.attempt, hc.ordinal, hc.ended⟩
  · obtain ⟨call, hc⟩ := h.change hs
    exact (hc.origin h.good ha ha' hid).moves

omit [Platform] in
open Bench in
set_option maxRecDepth 20000 in
theorem history_append_only_bench :
    (∃ n, 0 < n ∧ OrdinalPrefix (bench skipped).state.store a₁ n) ∧
    ∃ r, (resumed skipped 9).state.store.Witness r ∧ r.attempt = a₁ ∧ r.ordinal = 0 := by
  have hreach := bench_reachable skipped
  obtain ⟨hstay, _, hordinals⟩ := @history_append_only Bench.platform _ hreach
  obtain ⟨w, hwit, hattempt, hordinal⟩ := @Reachable.witness_of_rows Bench.platform _ hreach
    (fun w => w.attempt = a₁ ∧ w.ordinal = 0) (by decide +kernel)
  obtain ⟨n, hn⟩ := hordinals a₁
  obtain ⟨r, hr, _, hattempt', hordinal', _⟩ :=
    (hstay _ (Service.Restart.run (resumed_restart skipped 9))).2 _ hwit
  exact ⟨⟨n, (hn.ordinals 0).mp ⟨w, hwit, hattempt, hordinal⟩, hn⟩, r, hr,
    hattempt'.trans hattempt, hordinal'.trans hordinal⟩

end runs

/-! ### Closed authority -/

/-- The request used the authority of the grant: it admitted an attempt, took over into a new
one, or claimed a dispatch or a reconciliation. -/
inductive Uses (G : GrantId) : Event machine → Prop
  | reserve {t : ℕ} {i : Choice} {w : World} {a : AttemptRecord} {snapshot : AdmissionSnapshot}
      (answered : (performStore (.reserve a snapshot) i w.store).1 = .ok (.reserved a))
      (grant : a.grant = G) : Uses G ⟨t, .store (.reserve a snapshot), i, w⟩
  | takeover {t : ℕ} {i : Choice} {w : World} {a : AttemptRecord} {snapshot : AdmissionSnapshot}
      {run : PlanRun} {recovery : RecoveryTakeoverRecord}
      (answered : (performStore (.takeoverRecovery a snapshot run recovery) i w.store).1 =
        .ok (.reserved a))
      (grant : a.grant = G) : Uses G ⟨t, .store (.takeoverRecovery a snapshot run recovery), i, w⟩
  | dispatch {t : ℕ} {i : Choice} {w : World} {id : AttemptId} {agent : PrincipalId}
      {claimed : ClaimedDispatch}
      (answered : (performStore (.claimDispatch id agent) i w.store).1 = .ok claimed)
      (grant : claimed.attempt.grant = G) : Uses G ⟨t, .store (.claimDispatch id agent), i, w⟩
  | reconcile {t : ℕ} {i : Choice} {w : World} {id : AttemptId} {request : RequestId}
      {principal : PrincipalId} {budget : Option Budget} {claimed : ClaimedReconciliation}
      (answered : (performStore (.claimReconciliation id request principal budget) i w.store).1 =
        .ok (.claimed claimed))
      (grant : claimed.dispatch.attempt.grant = G) :
      Uses G ⟨t, .store (.claimReconciliation id request principal budget), i, w⟩

/-- Authority is used only while the grant is on record and not revoked. -/
theorem Uses.unrevoked {G : GrantId} {e : Event machine} (hg : e.before.store.Good)
    (hl : Legal e.thread ⟨older, e.before⟩ e.request) (h : Uses G e) :
    ∃ g ∈ e.before.store.grants, g.id = G ∧ g.revoked = false := by
  have hc := hg.regular.coherent
  cases h with
  | reserve answered grant =>
      rcases reserve_ok hc (performStore_ok answered) with ⟨_, _, hno, _⟩ | ⟨_, _, hnew⟩
      · cases hno
      · obtain ⟨g, _, _, _, admits, _⟩ := reserveNew_ok hc hnew
        exact ⟨g, admits.grant.mem, admits.grant.id.trans grant, admits.grant.unrevoked⟩
  | takeover answered grant =>
      rcases takeoverRecovery_ok hc (performStore_ok answered) with ⟨_, _, _, _, _, hno, _⟩ |
        ⟨_, _, _, hno, _⟩ | ⟨_, _, _, hnew⟩
      · cases hno
      · cases hno
      · obtain ⟨g, _, _, _, _, _, _, _, admits, _⟩ := transferRecovery_ok hc hl.2.start hnew
        exact ⟨g, admits.grant.mem, admits.grant.id.trans grant, admits.grant.unrevoked⟩
  | dispatch answered grant =>
      obtain ⟨a, claims, _⟩ := claimDispatch_ok hc (performStore_ok answered)
      refine ⟨_, claims.grant.mem, ?_, claims.grant.unrevoked⟩
      rw [claims.grant.id, ← AttemptRecord.grant_eq claims.identity, grant]
  | reconcile answered grant =>
      rcases claimReconciliation_ok hc (performStore_ok answered) with ⟨_, _, hno, _⟩ |
        ⟨claimed, heq, hnew, hfresh⟩
      · cases hno
      · cases heq
        obtain ⟨a, g, _, _, _, claims, _, _, hres⟩ := claimNewReconciliation_ok hc hfresh hnew
        refine ⟨g, claims.grant.mem, ?_, claims.grant.unrevoked⟩
        rw [claims.grant.id, ← grant]
        rcases hres with ⟨_, hd, _⟩ | ⟨_, hd, _⟩
        · rw [hd]
        · rw [hd]
          rfl

section runs

variable {c c' : daemon.Config}

/-- Closed authority stays closed.  Once a grant is revoked it stays so, and no later request
uses its authority; once a pair is halted or retired it stays so, it gets no attempt, none of
its attempts changes, and it never owns a lease. -/
theorem closed_stays_closed (h : Reachable c) (hr : daemon.Run c c') :
    (∀ g ∈ c.state.store.grants, g.revoked = true →
      (∃ g' ∈ c'.state.store.grants, g'.id = g.id) ∧
      (∀ g' ∈ c'.state.store.grants, g'.id = g.id → g'.revoked = true) ∧
      ∀ e older, (e :: older) <:+ c'.history → c.history <:+ older → ¬ Uses g.id e) ∧
    ∀ p, c.state.store.Halted p ∨ c.state.store.Retired p →
      (c'.state.store.Halted p ∨ c'.state.store.Retired p) ∧
      (∀ a, a.pair = p → (c'.state.store.Attempt a ↔ c.state.store.Attempt a)) ∧
      ∀ key, ¬ c'.state.store.Leased key p := by
  have hevo := h.evolves hr
  have h' : Reachable c' := Process.Service.Reachable.run h hr
  refine ⟨fun g hg hrev => ⟨?_, fun g' hg' hid => ?_, fun e older he hpast huse => ?_⟩,
    fun p hp => ⟨hevo.closed hp, fun a ha => hevo.frozen a (ha ▸ hp), fun key => ?_⟩⟩
  · obtain ⟨g', hg', hc⟩ := hevo.grants g hg
    exact ⟨g', hg', hc.id_eq⟩
  · obtain ⟨q, hq, hc⟩ := hevo.grants g hg
    obtain rfl := c'.state.store.grants.eq_of_key_eq hq hg' (hc.id_eq.trans hid.symm)
    exact hc.2 hrev
  · obtain ⟨hs, hold⟩ := Chronicle.recorded h'.history he
    have hlegal : Legal e.thread ⟨older, e.before⟩ e.request := by
      refine hs.resolve_right fun hb => ?_
      cases huse <;> cases hb
    obtain ⟨q, hq, hid, hun⟩ := huse.unrevoked (History.good hold) hlegal
    obtain ⟨q', hq', hc⟩ := (h.evolves_since hr he hpast).grants g hg
    obtain rfl := e.before.store.grants.eq_of_key_eq hq' hq (hc.id_eq.trans hid.symm)
    rw [hc.2 hrev] at hun
    cases hun
  · exact (h'.good.leases p).not_leased_of_closed (hevo.closed hp) key

omit [Platform] in
open Bench in
set_option maxRecDepth 20000 in
theorem closed_stays_closed_bench :
    (∃ g ∈ (bench (relapsed ++ script 15 [(.revokeGrant operator g₂, lost),
      (.submit agent ⟨a₄, r₄, g₁, p₁, 0⟩, lost)])).state.store.grants,
      g.id = g₂ ∧ g.revoked = true) ∧
    ∀ key, ¬ (bench (relapsed ++ script 15 [(.revokeGrant operator g₂, lost),
      (.submit agent ⟨a₄, r₄, g₁, p₁, 0⟩, lost)])).state.store.Leased key (g₁, p₁) := by
  have hrevoked : ∃ g ∈ (bench (relapsed ++ script 15
      [(.revokeGrant operator g₂, lost)])).state.store.grants.rows,
      g.id = g₂ ∧ g.revoked = true := by decide +kernel
  have hretired : ∃ source ∈ (bench (relapsed ++ script 15
      [(.revokeGrant operator g₂, lost)])).state.store.recoverySourceRetirements.rows,
      source.pair = (g₁, p₁) := by decide +kernel
  have hrun : daemon.Run (bench (relapsed ++ script 15 [(.revokeGrant operator g₂, lost)]))
      (bench (relapsed ++ script 15 [(.revokeGrant operator g₂, lost),
        (.submit agent ⟨a₄, r₄, g₁, p₁, 0⟩, lost)])) := by
    have hmore := bench_run (relapsed ++ script 15 [(.revokeGrant operator g₂, lost)])
      (script 16 [(.submit agent ⟨a₄, r₄, g₁, p₁, 0⟩, lost)])
    rw [List.append_assoc] at hmore
    exact hmore
  have hclosed := @closed_stays_closed Bench.platform _ _ (bench_reachable _) hrun
  obtain ⟨g, hg, hid, hrev⟩ := hrevoked
  obtain ⟨⟨g', hg', hid'⟩, hrev', _⟩ := hclosed.1 g hg hrev
  exact ⟨⟨g', hg', hid'.trans hid, hrev' g' hg' hid'⟩,
    (hclosed.2 (g₁, p₁) (Or.inr hretired)).2.2⟩

end runs

end Cheirismos
