import Cheirismos.Conduct

/-! # What histories of legal requests say

Every sanctioned request changes the store by a `Change` (`Sanctioned.change`), so along a
history the store stays good and evolves (`History.evolves`), and the claims in it are unique
(`DispatchClaim.unique`, `WitnessClaim.unique`). -/

namespace Cheirismos

open Process

variable [Platform]

/-! ### Calls that only touch authority records -/

section records

variable {s s' : Store} {call : StoreCall}

/-- A change of the authority records and runs alone. -/
theorem Change.of_records {profiles : Table CommissionedProfile.id} {grants : Table Grant.id}
    {plans : Table (fun plan : ReviewedPlan => plan.id)} {proposals : Table PlanProposal.id}
    {runs : Table PlanRun.id}
    (hprofiles : ∀ p ∈ s.profiles, p ∈ profiles) (hplans : ∀ p ∈ s.plans, p ∈ plans)
    (hgrants : ∀ g ∈ s.grants, ∃ g' ∈ grants, g.Continues g' ∧ g'.remaining = g.remaining)
    (hruns : ∀ r ∈ s.runs, ∃ r' ∈ runs, r.Continues r')
    (hold : ∀ g' ∈ grants, ∃ g ∈ s.grants, g.id = g'.id)
    (hnew : ∀ run ∈ runs, RunChange s run call)
    (hstocked : s.Stocked → (∀ plan ∈ plans, plan.Proper) ∧
      (∀ proposal ∈ proposals, proposal.operations ≠ []) ∧
      ∀ run ∈ runs, ∃ plan ∈ plans, plan.id = run.plan ∧
        run.steps.length = plan.operations.length) :
    Change s call { s with
      profiles := profiles
      grants := grants
      plans := plans
      proposals := proposals
      runs := runs } := by
  refine .records ⟨hprofiles, hplans, fun g hg => ?_, hruns⟩ (fun g' hg' => ?_) hnew
    (fun hs => ⟨(hstocked hs).1, (hstocked hs).2.1, (hstocked hs).2.2⟩) rfl
  · obtain ⟨g', hg', hc, _⟩ := hgrants g hg
    exact ⟨g', hg', hc⟩
  · obtain ⟨g, hg, hid⟩ := hold g' hg'
    obtain ⟨g'', hg'', hc, hrem⟩ := hgrants g hg
    obtain rfl := grants.eq_of_key_eq hg'' hg' (hc.id_eq.trans hid)
    exact ⟨g, hg, hid, hrem⟩

omit [Platform] in
theorem same_grants : ∀ g ∈ s.grants, ∃ g' ∈ s.grants, g.Continues g' ∧
    g'.remaining = g.remaining :=
  fun g hg => ⟨g, hg, .refl g, rfl⟩

omit [Platform] in
theorem old_grants : ∀ g' ∈ s.grants, ∃ g ∈ s.grants, g.id = g'.id := fun g hg => ⟨g, hg, rfl⟩

omit [Platform] in
theorem same_runs : ∀ r ∈ s.runs, ∃ r' ∈ s.runs, r.Continues r' := fun r hr => ⟨r, hr, .refl r⟩

omit [Platform] in
theorem kept_runs : ∀ r ∈ s.runs, RunChange s r call := fun _ hr => .kept hr

theorem same_stock (h : s.Stocked) : (∀ plan ∈ s.plans, plan.Proper) ∧
    (∀ proposal ∈ s.proposals, proposal.operations ≠ []) ∧ ∀ run ∈ s.runs, s.Planned run :=
  ⟨h.plans, h.proposals, h.runs⟩

theorem saveProfile_change {profile : CommissionedProfile} {u : Unit}
    (h : saveProfile profile s = .ok (u, s')) : Change s call s' := by
  rcases insertOnce_ok h with ⟨t, ht, rfl⟩ | ⟨rfl, _⟩
  · exact .of_records (fun _ hp => (Table.mem_insert? ht).mpr (Or.inr hp)) (fun _ hp => hp)
      same_grants same_runs old_grants kept_runs same_stock
  · exact .refl s'

theorem saveGrant_change {grant : Grant} {u : Unit} (h : saveGrant grant s = .ok (u, s')) :
    Change s (.saveGrant grant) s' := by
  rcases insertOnce_ok h with ⟨t, ht, rfl⟩ | ⟨rfl, _⟩
  · exact .issue ht
  · exact .refl s'

theorem saveProposal_change {proposal : PlanProposal} {u : Unit}
    (hp : proposal.operations ≠ []) (h : saveProposal proposal s = .ok (u, s')) :
    Change s call s' := by
  rcases insertOnce_ok h with ⟨t, ht, rfl⟩ | ⟨rfl, _⟩
  · refine .of_records (fun _ hp => hp) (fun _ hp => hp) same_grants same_runs old_grants kept_runs
      fun hs => ⟨hs.plans, fun q hq => ?_, hs.runs⟩
    rcases (Table.mem_insert? ht).mp hq with rfl | hq
    · exact hp
    · exact hs.proposals q hq
  · exact .refl s'

theorem deleteProposal_change {id : PlanId} {u : Unit} (h : deleteProposal id s = .ok (u, s')) :
    Change s call s' := by
  obtain rfl := modify_ok.mp h
  exact .of_records (fun _ hp => hp) (fun _ hp => hp) same_grants same_runs old_grants kept_runs
    fun hs => ⟨hs.plans, fun q hq => hs.proposals q (Table.mem_deleteWhere.mp hq).1, hs.runs⟩

theorem createRun_change {run : PlanRun} {u : Unit} (hp : s.Planned run)
    (h : createRun run s = .ok (u, s')) : Change s (.createRun run) s' := by
  rcases insertOnce_ok h with ⟨t, ht, rfl⟩ | ⟨rfl, _⟩
  · have hmem : ∀ r, r ∈ t ↔ r = run ∨ r ∈ s.runs := fun r => Table.mem_insert? ht
    refine .of_records (fun _ hp => hp) (fun _ hp => hp) same_grants
      (fun r hr => ⟨r, (hmem r).mpr (Or.inr hr), .refl r⟩) old_grants (fun r hr => ?_)
      fun hs => ⟨hs.plans, hs.proposals, fun r hr => ?_⟩
    · rcases (hmem r).mp hr with rfl | hr
      · exact .created (Table.insert?_eq_some ht).1
      · exact .kept hr
    · rcases (hmem r).mp hr with rfl | hr
      · exact hp
      · exact hs.runs r hr
  · exact .refl s'

omit [Platform] in
/-- A plan for a run is also one for the run with another cursor. -/
theorem Store.Planned.continues {r r' : PlanRun} (h : s.Planned r) (hc : r.Continues r') :
    s.Planned r' := by
  obtain ⟨plan, hm, hid, hlen⟩ := h
  exact ⟨plan, hm, hid.trans (congrArg Prod.snd hc.pair_eq).symm, by rw [hc.steps_eq, hlen]⟩

theorem saveRun_change {run r : PlanRun} {u : Unit} (hr : r ∈ s.runs) (hc : r.Continues run)
    (h : saveRun run s = .ok (u, s')) : Change s (.saveRun run) s' := by
  obtain rfl := modify_ok.mp h
  refine .of_records (fun _ hp => hp) (fun _ hp => hp) same_grants (fun q hq => ?_) old_grants
    (fun q hq => ?_) fun hs => ⟨hs.plans, hs.proposals, fun q hq => ?_⟩
  · by_cases hid : q.id = run.id
    · obtain rfl := s.runs.eq_of_key_eq hq hr (hid.trans hc.id_eq)
      exact ⟨run, Table.mem_upsert.mpr (Or.inl rfl), hc⟩
    · exact ⟨q, Table.mem_upsert.mpr (Or.inr ⟨hq, hid⟩), .refl q⟩
  · rcases Table.mem_upsert.mp hq with rfl | ⟨hq, _⟩
    · exact .advanced hr hc
    · exact .kept hq
  · rcases Table.mem_upsert.mp hq with rfl | ⟨hq, _⟩
    · exact (hs.runs r hr).continues hc
    · exact hs.runs q hq

theorem revokeGrant_change {id : GrantId} {u : Unit} (h : revokeGrant id s = .ok (u, s')) :
    Change s call s' := by
  simp only [revokeGrant, updateGrant, get_bind_ok, required_bind_ok, modify_ok] at h
  obtain ⟨grant, hf, rfl⟩ := h
  have hg := (Table.find?_eq_some.mp hf).1
  have hmem : ∀ q, q ∈ s.grants.replace { grant with revoked := true } ↔
      q = { grant with revoked := true } ∨ q ∈ s.grants ∧ q.id ≠ grant.id :=
    fun q => Table.mem_replace hg (by rfl)
  refine .of_records (fun _ hp => hp) (fun _ hp => hp) (fun g hg' => ?_) same_runs
    (fun g' hg' => ?_) kept_runs same_stock
  · by_cases hid : g.id = grant.id
    · obtain rfl := s.grants.eq_of_key_eq hg' hg hid
      exact ⟨{ g with revoked := true }, (hmem _).mpr (Or.inl rfl), .revoked g, rfl⟩
    · exact ⟨g, (hmem _).mpr (Or.inr ⟨hg', hid⟩), .refl g, rfl⟩
  · rcases (hmem g').mp hg' with rfl | ⟨hg', _⟩
    · exact ⟨grant, hg, rfl⟩
    · exact ⟨g', hg', rfl⟩

theorem consumeReviewedProposal_change {id : PlanId} {expected : ArtifactDigest}
    {plan : ReviewedPlan} {u : Unit} (hp : plan.Proper)
    (h : consumeReviewedProposal id expected plan s = .ok (u, s')) : Change s call s' := by
  simp only [consumeReviewedProposal, get_bind_ok, required_bind_ok, refuse_bind_ok] at h
  obtain ⟨_, _, _, h⟩ := h
  obtain ⟨_, s₁, hins, hmod⟩ := Tx.bind_ok.mp h
  obtain rfl := modify_ok.mp hmod
  have hkept : ∀ {t : Store}, t.proposals = s.proposals → s.Stocked →
      ∀ q ∈ t.proposals.deleteWhere (fun row => decide (row.id = id)), q.operations ≠ [] := by
    intro t ht hs q hq
    exact hs.proposals q (ht ▸ (Table.mem_deleteWhere.mp hq).1)
  rcases insertOnce_ok hins with ⟨t, ht, rfl⟩ | ⟨rfl, _⟩
  · have hmem : ∀ q, q ∈ t ↔ q = plan ∨ q ∈ s.plans := fun q => Table.mem_insert? ht
    refine .of_records (fun _ hp => hp) (fun q hq => (hmem q).mpr (Or.inr hq)) same_grants same_runs
      old_grants (fun _ hr => .kept hr) fun hs => ⟨fun q hq => ?_, hkept rfl hs, fun r hr => ?_⟩
    · rcases (hmem q).mp hq with rfl | hq
      · exact hp
      · exact hs.plans q hq
    · obtain ⟨q, hq, hrest⟩ := hs.runs r hr
      exact ⟨q, (hmem q).mpr (Or.inr hq), hrest⟩
  · exact .of_records (fun _ hp => hp) (fun _ hp => hp) same_grants same_runs old_grants
      (fun _ hr => .kept hr) fun hs => ⟨hs.plans, hkept rfl hs, hs.runs⟩

theorem repairRunCursor_change {id : RequestId} {run : PlanRun}
    (h : repairRunCursor id s = .ok (run, s')) : Change s (.repairRunCursor id) s' := by
  simp only [repairRunCursor, updateRun, get_bind_ok, required_bind_ok] at h
  obtain ⟨stored, hf, h⟩ := h
  obtain ⟨hm, rfl⟩ := Table.find?_eq_some.mp hf
  split_ifs at h with hbehind
  · simp only [modify_bind_ok, Tx.pure_ok] at h
    obtain ⟨rfl, rfl⟩ := h
    have hmem : ∀ q, q ∈ s.runs.replace { stored with
        cursor := completedSteps s stored.steps } ↔
        q = { stored with cursor := completedSteps s stored.steps } ∨
          q ∈ s.runs ∧ q.id ≠ stored.id := fun q => Table.mem_replace hm (by rfl)
    refine .of_records (fun _ hp => hp) (fun _ hp => hp) same_grants (fun r hr => ?_) old_grants
      (fun r hr => ?_) fun hs => ⟨hs.plans, hs.proposals, fun r hr => ?_⟩
    · by_cases hid : r.id = stored.id
      · obtain rfl := s.runs.eq_of_key_eq hr hm hid
        exact ⟨_, (hmem _).mpr (Or.inl rfl), rfl⟩
      · exact ⟨r, (hmem r).mpr (Or.inr ⟨hr, hid⟩), .refl r⟩
    · rcases (hmem r).mp hr with rfl | ⟨hr, _⟩
      · exact .repaired hm hbehind rfl
      · exact .kept hr
    · rcases (hmem r).mp hr with rfl | ⟨hr, _⟩
      · exact (hs.runs stored hm).continues rfl
      · exact hs.runs r hr
  · obtain ⟨_, rfl⟩ := Tx.pure_ok.mp h
    exact .refl s

end records

/-! ### Claims -/

theorem DispatchClaim.spec (c : DispatchClaim) (hg : c.before.store.Good) :
    ∃ a, ClaimsDispatch c.before.store (c.choice.clock 0) c.agent a c.claimed ∧
      a.id = c.attempt ∧ c.event.after.store = c.before.store.setAttempt c.claimed.attempt :=
  claimDispatch_ok hg.regular.coherent (performStore_ok c.answered)

/-- Right after the claim the attempt is as it was claimed. -/
theorem DispatchClaim.after (c : DispatchClaim) (hg : c.before.store.Good) :
    c.event.after.store.Attempt c.claimed.attempt ∧ c.claimed.attempt.id = c.attempt ∧
      c.claimed.attempt.state = .dispatched := by
  obtain ⟨a, ha, hid, hs⟩ := c.spec hg
  refine ⟨?_, (AttemptRecord.id_eq ha.identity).trans hid, ha.dispatched⟩
  rw [hs]
  exact (Store.attempt_setAttempt ha.attempt ha.identity).mpr (Or.inl rfl)

/-- The plan of a claimed dispatch is that of its attempt. -/
theorem DispatchClaim.planned (c : DispatchClaim) (hg : c.before.store.Good) :
    c.claimed.plan ∈ c.event.after.store.plans ∧ c.claimed.plan.id = c.claimed.attempt.plan := by
  obtain ⟨a, ha, _, hs⟩ := c.spec hg
  refine ⟨?_, ha.plan.2.1.trans (AttemptRecord.plan_eq ha.identity).symm⟩
  rw [hs]
  exact ha.plan.1

theorem WitnessClaim.spec (c : WitnessClaim) (hg : c.before.store.Good) :
    ∃ a granted grants, ∃ reconciliations : Table ReconciliationRow.requestId,
      a.id = c.attempt ∧
      ClaimsReconciliation c.before.store (c.choice.clock 0) c.request c.principal a granted
        c.claimed ∧
      Charges c.before.store granted c.budget grants ∧
      reconciliations.rows =
        ReconciliationRow.of c.claimed.record :: c.before.store.reconciliations.rows ∧
      ((a.state = .unknown ∧ c.claimed.dispatch.attempt = a ∧
          c.event.after.store =
            { c.before.store with grants := grants, reconciliations := reconciliations }) ∨
        (a.state = .partially ∧ c.claimed.dispatch.attempt = reopened (c.choice.clock 2) a ∧
          c.event.after.store = Store.setAttempt
            { c.before.store with grants := grants, reconciliations := reconciliations }
            (reopened (c.choice.clock 2) a))) := by
  rcases claimReconciliation_ok hg.regular.coherent (performStore_ok c.answered) with
    ⟨_, r, hr, _⟩ | ⟨claimed, hc, hnew, hfresh⟩
  · cases hr
  · cases hc
    exact claimNewReconciliation_ok hg.regular.coherent hfresh hnew

/-- Right after the claim its witness is on record, and its attempt is unknown. -/
theorem WitnessClaim.after (c : WitnessClaim) (hg : c.before.store.Good) :
    c.event.after.store.Witness c.claimed.record ∧ c.claimed.record.request = c.request ∧
      c.event.after.store.Attempt c.claimed.dispatch.attempt ∧
      c.claimed.dispatch.attempt.id = c.claimed.record.attempt := by
  obtain ⟨a, granted, grants, reconciliations, hid, hc, _, hrows, hres⟩ := c.spec hg
  rcases hres with ⟨_, hd, hs⟩ | ⟨_, hd, hs⟩ <;> rw [hs, hd]
  · exact ⟨(Store.witness_of_rows hrows).mpr (Or.inl rfl), hc.recordRequest, hc.attempt,
      hc.recordAttempt.symm⟩
  · refine ⟨(Store.witness_of_rows hrows).mpr (Or.inl rfl), hc.recordRequest, ?_,
      hc.recordAttempt.symm⟩
    exact (Store.attempt_setAttempt hc.attempt (reopened_identity _ a)).mpr (Or.inl rfl)

/-- The plan of a claimed reconciliation is that of its attempt. -/
theorem WitnessClaim.planned (c : WitnessClaim) (hg : c.before.store.Good) :
    c.claimed.dispatch.plan ∈ c.event.after.store.plans ∧
      c.claimed.dispatch.plan.id = c.claimed.dispatch.attempt.plan := by
  obtain ⟨a, granted, grants, reconciliations, _, hc, _, _, hres⟩ := c.spec hg
  rcases hres with ⟨_, hd, hs⟩ | ⟨_, hd, hs⟩ <;> rw [hs, hd]
  · exact ⟨hc.plan.1, hc.plan.2.1⟩
  · exact ⟨hc.plan.1, hc.plan.2.1.trans (AttemptRecord.plan_eq (reopened_identity _ a)).symm⟩

/-! ### Every sanctioned call is a change -/

section change

variable {past : List (Event machine)} {w : World}

/-- The history so far has only evolved the store. -/
def Continuous (past : List (Event machine)) (w : World) : Prop :=
  ∀ e older, (e :: older) <:+ past → Evolves e.after.store w.store

theorem History.good (hist : History past w) : w.store.Good := Chronicle.good_now hist

theorem History.before (hist : History past w) {e : Event machine} {older : List (Event machine)}
    (he : (e :: older) <:+ past) : History older e.before := (hist.recorded he).2

theorem History.good_before (hist : History past w) {e : Event machine}
    {older : List (Event machine)} (he : (e :: older) <:+ past) : e.before.store.Good :=
  History.good (hist.recorded he).2

/-- A receipt is recorded with the right lease flag. -/
theorem Receipts.releases (hist : History past w) (hcont : Continuous past w) {t : ℕ}
    {id : AttemptId} {receipt : OperationReceipt} {release : Bool} {c : DispatchClaim}
    {since : List (Event machine)} (h : Receipts t ⟨past, w⟩ id receipt release c since)
    {a : AttemptRecord} (ha : w.store.Attempt a) (hid : a.id = id) :
    Releases w.store a receipt.state release := by
  have hin : c.In past := ⟨since, h.past.symm⟩
  have hg := hist.good_before hin
  obtain ⟨hatt, hcid, _⟩ := c.after hg
  obtain ⟨hplan, hpid⟩ := c.planned hg
  have hevo := hcont _ _ hin
  obtain ⟨a', ha', hcontinues⟩ := hevo.attempts _ hatt
  obtain rfl : a' = a := Store.attempt_inj ha' ha (by
    rw [AttemptRecord.id_eq hcontinues.identity, hcid, h.subject, hid])
  refine ⟨c.claimed.plan, hevo.plans _ hplan, ?_, ?_⟩
  · rw [AttemptRecord.plan_eq hcontinues.identity]
    exact hpid
  · rw [AttemptRecord.index_eq hcontinues.identity]
    exact h.flag

/-- A completed reconciliation ends with the right lease flag. -/
theorem Finishing.releases (hist : History past w) (hcont : Continuous past w) {t : ℕ}
    {request : RequestId} {receipt : Option OperationReceipt} {completed release : Bool}
    {c : WitnessClaim} {since : List (Event machine)}
    (h : Finishing t ⟨past, w⟩ request receipt completed release c since)
    {r : ReconciliationRecord} {a : AttemptRecord} (hr : w.store.Witness r)
    (hreq : r.request = request) (ha : w.store.Attempt a) (hid : a.id = r.attempt)
    (hcompleted : completed = true) : Releases w.store a .completed release := by
  have hin : c.In past := ⟨since, h.past.symm⟩
  have hg := hist.good_before hin
  obtain ⟨hwit, hcreq, hatt, hcid⟩ := c.after hg
  obtain ⟨hplan, hpid⟩ := c.planned hg
  have hevo := hcont _ _ hin
  obtain ⟨r', hr', hrc⟩ := hevo.witnesses _ hwit
  obtain rfl : r' = r := Store.witness_inj hr' hr (by
    rw [hrc.request, hcreq, h.subject, hreq])
  obtain ⟨a', ha', hac⟩ := hevo.attempts _ hatt
  obtain rfl : a' = a := Store.attempt_inj ha' ha (by
    rw [AttemptRecord.id_eq hac.identity, hcid, hid, hrc.attempt])
  refine ⟨c.claimed.dispatch.plan, hevo.plans _ hplan, ?_, ?_⟩
  · rw [AttemptRecord.plan_eq hac.identity]
    exact hpid
  · rw [AttemptRecord.index_eq hac.identity, h.flag hcompleted]
    simp

theorem reserve_change {s s' : Store} (hg : s.Good) {clock : ℕ → Timestamp} {a : AttemptRecord}
    {snapshot : AdmissionSnapshot} (hp : Proposed s a snapshot) {outcome : ReservationOutcome}
    (h : reserve clock a snapshot s = .ok (outcome, s')) : Change s (.reserve a snapshot) s' := by
  rcases reserve_ok hg.regular.coherent h with ⟨rfl, _⟩ | ⟨_, _, hnew⟩
  · exact .refl s'
  · obtain ⟨grant, remaining, leases, attempts, h1, h2, h3, h4, rfl⟩ :=
      reserveNew_ok hg.regular.coherent hnew
    exact .reserve hp h1 h2 h3 h4

theorem takeoverRecovery_change {s s' : Store} (hg : s.Good) {clock : ℕ → Timestamp}
    {a : AttemptRecord} {snapshot : AdmissionSnapshot} {run : PlanRun}
    {recovery : RecoveryTakeoverRecord} (hp : Proposed s a snapshot) (hr : Recovers a snapshot run recovery)
    {outcome : ReservationOutcome}
    (h : takeoverRecovery clock a snapshot run recovery s = .ok (outcome, s')) :
    Change s (.takeoverRecovery a snapshot run recovery) s' := by
  rcases takeoverRecovery_ok hg.regular.coherent h with ⟨rfl, _⟩ | ⟨rfl, _⟩ | ⟨_, _, _, hnew⟩
  · exact .refl s'
  · exact .refl s'
  · obtain ⟨grant, remaining, owners, leases, retirements, attempts, runs, takeovers, h1, h2, h3,
      h4, h5, h6, h7, h8, rfl⟩ := transferRecovery_ok hg.regular.coherent hr.start hnew
    exact .takeover hp hr h1 h2 h3 h4 h5 h6 h7 h8

theorem abandonHaltedRun_change {s s' : Store} (hg : s.Good) {clock : ℕ → Timestamp}
    {record result : HaltedRunAbandonmentRecord}
    (h : abandonHaltedRun clock record s = .ok (result, s')) :
    Change s (.abandonHaltedRun record) s' := by
  rcases abandonHaltedRun_ok h with ⟨rfl, _⟩ | ⟨_, hnew⟩
  · exact .refl s'
  · obtain ⟨s₁, leases, abandonments, h1, h2, h3, h4, h5, h6, h7, rfl⟩ :=
      abandonNew_ok hg.regular.coherent hnew
    exact .abandon h1 h2 h3 h4 h5 h6 h7

theorem claimReconciliation_change {s s' : Store} (hg : s.Good) {clock : ℕ → Timestamp}
    {id : AttemptId} {request : RequestId} {principal : PrincipalId} {budget : Option Budget}
    (hb : Budgeted s id budget) {claim : ReconciliationClaim}
    (h : claimReconciliation clock id request principal budget s = .ok (claim, s')) :
    Change s (.claimReconciliation id request principal budget) s' := by
  rcases claimReconciliation_ok hg.regular.coherent h with ⟨rfl, _⟩ | ⟨claimed, _, hnew, hfresh⟩
  · exact .refl s'
  · obtain ⟨a, granted, grants, reconciliations, hid, hc, hcharge, hrows, hres⟩ :=
      claimNewReconciliation_ok hg.regular.coherent hfresh hnew
    obtain ⟨a', plan, planned, ha', hid', hm, hpid, hstep, hbudget⟩ := hb
    obtain rfl := Store.attempt_inj ha' hc.attempt (hid'.trans hid.symm)
    obtain rfl := Store.plan_inj hm hc.plan.1 (hpid.trans hc.plan.2.1.symm)
    have hresult := hres.imp (fun h => And.intro h.1 h.2.2) (fun h => And.intro h.1 h.2.2)
    rw [← hid]
    exact .investigate hc ⟨planned, hstep, hbudget⟩ hcharge hrows hresult

/-- A store call that succeeds after a history of legal requests. -/
theorem transact_change (hist : History past w) (hcont : Continuous past w) {t : ℕ}
    {call : StoreCall} (hs : Sanctioned t ⟨past, w⟩ (.store call)) {clock : ℕ → Timestamp}
    {output : call.Output} {s' : Store} (hok : call.transact clock w.store = .ok (output, s')) :
    Change w.store call s' := by
  have hg := hist.good
  by_cases hread : call.reads = true
  · obtain rfl := StoreCall.transact_reads hread hok
    exact .refl _
  cases call with
  | saveProfile profile => exact saveProfile_change hok
  | saveGrant grant => exact saveGrant_change hok
  | revokeGrant id => exact revokeGrant_change hok
  | saveProposal proposal => exact saveProposal_change (hs.resolve_right hread) hok
  | consumeReviewedProposal id expected plan =>
      exact consumeReviewedProposal_change (hs.resolve_right hread) hok
  | deleteProposal id => exact deleteProposal_change hok
  | createRun run => exact createRun_change (hs.resolve_right hread).2 hok
  | saveRun run =>
      obtain ⟨r, hr, hc⟩ := (hs.resolve_right hread).same
      exact saveRun_change hr hc hok
  | repairRunCursor id => exact repairRunCursor_change hok
  | abandonHaltedRun proposed => exact abandonHaltedRun_change hg hok
  | reserve proposed snapshot => exact reserve_change hg (hs.resolve_right hread) hok
  | takeoverRecovery proposed snapshot run recovery =>
      obtain ⟨hp, hr⟩ := hs.resolve_right hread
      exact takeoverRecovery_change hg hp hr hok
  | claimDispatch id agent =>
      obtain ⟨a, hc, rfl, rfl⟩ := claimDispatch_ok hg.regular.coherent hok
      exact .dispatch hc
  | recordReceipt id receipt release =>
      obtain ⟨c, since, hr⟩ := hs.resolve_right hread
      obtain ⟨a, ha, rfl, hd, rfl, hres⟩ := recordReceipt_ok hg.regular.coherent hok
      exact .receipt ha hd (hr.releases hist hcont ha rfl) hres
  | claimReconciliation id request principal budget =>
      exact claimReconciliation_change hg (hs.resolve_right hread) hok
  | finishReconciliation request receipt completed release =>
      obtain ⟨c, since, hf⟩ := hs.resolve_right hread
      obtain ⟨r, a, hr, rfl, hstate, ha, hid, hfin⟩ :=
        finishReconciliation_ok hg.regular.coherent hok
      exact .conclude hr hstate ha hid (hf.releases hist hcont hr rfl ha hid) hfin
  | updateAttempt a' =>
      obtain ⟨a, now, ha, hd, rfl⟩ := hs.resolve_left (fun hl => hl)
      obtain rfl := modify_ok.mp hok
      exact .interrupt (a := a) ha hd
  | updateReconciliation r' =>
      obtain ⟨r, now, hr, hstate, rfl⟩ := hs.resolve_left (fun hl => hl)
      obtain rfl := modify_ok.mp hok
      exact .interruptWitness hr hstate
  | _ => exact absurd rfl hread

/-- A sanctioned store call is a change of the store. -/
theorem Sanctioned.call (hist : History past w) (hcont : Continuous past w) {t : ℕ}
    {call : StoreCall} (hs : Sanctioned t ⟨past, w⟩ (.store call)) (choice : Choice) :
    Change w.store call (performStore call choice w.store).2 := by
  cases hr : (performStore call choice w.store).1 with
  | error e =>
      rw [performStore_error hr]
      exact .refl _
  | ok output => exact transact_change hist hcont hs (performStore_ok hr)

/-- Every sanctioned request is a change of the store, by its call if it changes anything. -/
theorem Sanctioned.change (hist : History past w) (hcont : Continuous past w) {t : ℕ}
    {r : Request} (hs : Sanctioned t ⟨past, w⟩ r) (choice : Choice) :
    ∃ call, (r = .store call ∨ (perform r choice w).2.store = w.store) ∧
      Change w.store call (perform r choice w).2.store := by
  cases r with
  | store call => exact ⟨call, Or.inl rfl, hs.call hist hcont choice⟩
  | _ => exact ⟨.dispatchedAttempts, Or.inr rfl, .refl _⟩

theorem History.continuous (hist : History past w) : Continuous past w := by
  intro e older he
  refine Chronicle.follows (E := fun a b : World => Evolves a.store b.store)
    (fun a => .refl a.store) (fun a b c h h' => h.trans h') ?_ ?_ hist he
  · intro e older hold hcont hs
    obtain ⟨_, _, hchange⟩ := hs.change hold hcont e.choice
    exact hchange.evolves (History.good hold)
  · intro a b hab
    rw [show b.store = a.store from hab]
    exact .refl _

/-- The store evolves from any recorded request to the present. -/
theorem History.evolves (hist : History past w) {e : Event machine}
    {older : List (Event machine)} (he : (e :: older) <:+ past) :
    Evolves e.after.store w.store :=
  hist.continuous e older he

/-- Every recorded store call is a change of the store. -/
theorem History.changes (hist : History past w) {e : Event machine} {older : List (Event machine)}
    (he : (e :: older) <:+ past) {call : StoreCall} (hr : e.request = .store call) :
    Change e.before.store call e.after.store := by
  obtain ⟨hs, hold⟩ := hist.recorded he
  rw [hr] at hs
  have hc := hs.call hold (History.continuous hold) e.choice
  unfold Event.after
  rw [hr]
  exact hc

/-- What holds at first, and is kept by every sanctioned call and by every request that changes
no store, holds of the store after every history. -/
theorem History.keeps {P : List (Event machine) → Store → Prop} (h₀ : P [] .empty)
    (hquiet : ∀ e older s, P older s → P (e :: older) s)
    (hcall : ∀ (e : Event machine) older call, History older e.before → P older e.before.store →
      e.request = .store call → Sanctioned e.thread ⟨older, e.before⟩ (.store call) →
      Change e.before.store call e.after.store → P (e :: older) e.after.store)
    (hist : History past w) : P past w.store := by
  refine Chronicle.invariant (P := fun past w => P past w.store) h₀ ?_ ?_ hist
  · intro past a b hp hab
    rw [show b.store = a.store from hab]
    exact hp
  · intro e older hold hp hs
    obtain ⟨call, hr | hsame, hc⟩ := hs.change hold (History.continuous hold) e.choice
    · rw [hr] at hs
      exact hcall e older call hold hp hr hs hc
    · rw [show e.after.store = e.before.store from hsame]
      exact hquiet e older _ hp

/-- What every change keeps lasts from before any recorded request to the present. -/
theorem History.lasts {P : Store → Prop}
    (hstep : ∀ s call s', s.Good → P s → Change s call s' → P s') (hist : History past w)
    {e : Event machine} {older : List (Event machine)} (he : (e :: older) <:+ past)
    (hp : P e.before.store) : P w.store := by
  have hact : ∀ (e : Event machine) older, History older e.before →
      Sanctioned e.thread ⟨older, e.before⟩ e.request → P e.before.store → P e.after.store := by
    intro e older hold hs hp
    obtain ⟨call, _, hc⟩ := hs.change hold (History.continuous hold) e.choice
    exact hstep _ call _ hold.good hp hc
  have hrest : P e.after.store → P w.store := by
    refine Chronicle.follows (E := fun a b : World => P a.store → P b.store) (fun _ hp => hp)
      (fun _ _ _ h h' hp => h' (h hp)) (fun e older hold _ hs => hact e older hold hs) ?_ hist he
    intro a b hab hp
    rw [show b.store = a.store from hab]
    exact hp
  exact hrest (hact e older (hist.before he) (hist.recorded he).1 hp)

/-! ### Claims are unique -/

/-- No later claim of an attempt that is already claimed. -/
theorem DispatchClaim.not_before {c c' : DispatchClaim} (hist : History past w)
    (hc' : c'.In past) (he : c.attempt = c'.attempt) : ¬ c.In c'.older := by
  intro hc
  have hist' := (hist.recorded hc').2
  have hg' := History.good hist'
  obtain ⟨a', ha', hid', _⟩ := c'.spec hg'
  obtain ⟨hatt, hid, hstate⟩ := c.after (History.good_before hist' hc)
  obtain ⟨b, hb, hcont⟩ := (History.evolves hist' hc).attempts _ hatt
  obtain rfl : b = a' := Store.attempt_inj hb ha'.attempt (by
    rw [AttemptRecord.id_eq hcont.identity, hid, hid', he])
  have hintent := hcont.state.intent_back ha'.intent
  rw [hstate] at hintent
  cases hintent

/-- An attempt is claimed for dispatch at most once. -/
theorem DispatchClaim.unique {c c' : DispatchClaim} (hist : History past w) (hc : c.In past)
    (hc' : c'.In past) (he : c.attempt = c'.attempt) :
    c.event = c'.event ∧ c.older = c'.older := by
  rcases suffix_trichotomy hc hc' with h | h | h
  · exact h
  · exact absurd h (DispatchClaim.not_before hist hc' he)
  · exact absurd h (DispatchClaim.not_before hist hc he.symm)

/-- No later claim of a reconciliation request that is already claimed. -/
theorem WitnessClaim.not_before {c c' : WitnessClaim} (hist : History past w)
    (hc' : c'.In past) (he : c.request = c'.request) : ¬ c.In c'.older := by
  intro hc
  have hist' := (hist.recorded hc').2
  obtain ⟨_, _, _, _, _, hclaims, _⟩ := c'.spec (History.good hist')
  obtain ⟨hwit, hreq, _⟩ := c.after (History.good_before hist' hc)
  obtain ⟨r, hr, hcont⟩ := (History.evolves hist' hc).witnesses _ hwit
  exact hclaims.fresh r hr (hcont.request.trans (hreq.trans he))

/-- A reconciliation request is claimed at most once. -/
theorem WitnessClaim.unique {c c' : WitnessClaim} (hist : History past w) (hc : c.In past)
    (hc' : c'.In past) (he : c.request = c'.request) : c.event = c'.event ∧ c.older = c'.older := by
  rcases suffix_trichotomy hc hc' with h | h | h
  · exact h
  · exact absurd h (WitnessClaim.not_before hist hc' he)
  · exact absurd h (WitnessClaim.not_before hist hc he.symm)

end change

/-! ### The discipline -/

/-- What thread `t` may rely on: the store evolves, and attempts it has claimed stay as they
were claimed. -/
structure Rely (t : ℕ) (x y : Moment machine) : Prop where
  past : x.past <:+ y.past
  evolves : Evolves x.state.store y.state.store
  held : ∀ c : DispatchClaim, c.thread = t → c.In x.past →
    x.state.store.Attempt c.claimed.attempt → y.state.store.Attempt c.claimed.attempt

namespace Rely

variable {t : ℕ} {x y z : Moment machine}

/-- Steps that keep the store can be relied on. -/
theorem of_store_eq (hp : x.past <:+ y.past) (h : y.state.store = x.state.store) :
    Rely t x y where
  past := hp
  evolves := by
    rw [h]
    exact .refl _
  held c _ _ hatt := by
    rw [h]
    exact hatt

theorem refl (t : ℕ) (x : Moment machine) : Rely t x x := of_store_eq List.suffix_rfl rfl

theorem trans (h : Rely t x y) (h' : Rely t y z) : Rely t x z where
  past := h.past.trans h'.past
  evolves := h.evolves.trans h'.evolves
  held c ht hc hatt := h'.held c ht (List.IsSuffix.trans hc h.past) (h.held c ht hc hatt)

end Rely

/-- No dispatch and no reconciliation is under way. -/
structure Store.Quiescent (s : Store) : Prop where
  attempts : ∀ a, s.Attempt a → a.state ≠ .dispatched
  witnesses : ∀ r, s.Witness r → r.state ≠ .claimed

/-- The discipline of the supervisor's service. -/
def discipline : Discipline daemon where
  good w := w.store.Good
  sanctioned := Sanctioned
  legal := Legal
  bootLegal _ := BootLegal
  rely := Rely
  post reply x := ∀ ticket, reply.HandsPlan ticket → Orderly x.past → x.state.store.Tickets ticket
  booted x := x.state.store.Quiescent

theorem Sanctioned.evolves {t : ℕ} {x : Moment machine} (hx : discipline.Inv x) {r : Request}
    (hr : Sanctioned t x r) (i : Choice) :
    Evolves x.state.store (x.step t r i).state.store := by
  obtain ⟨_, _, hc⟩ := hr.change hx (History.continuous hx) i
  exact hc.evolves (History.good hx)

omit [Platform] in
/-- A ticket stays one for its run and attempt. -/
theorem Store.Tickets.evolve {s s' : Store} {ticket : PlanTicket} (h : s.Tickets ticket)
    (he : Evolves s s') : s'.Tickets ticket := by
  obtain ⟨⟨run, hrun, hid, hpair⟩, a, ha, haid, hap, hai⟩ := h
  obtain ⟨run', hrun', hc⟩ := he.runs run hrun
  obtain ⟨a', ha', hac⟩ := he.attempts a ha
  exact ⟨⟨run', hrun', hc.id_eq.trans hid, hc.pair_eq.trans hpair⟩, a', ha',
    (AttemptRecord.id_eq hac.identity).trans haid, (AttemptRecord.pair_eq hac.identity).trans hap,
    (AttemptRecord.index_eq hac.identity).trans hai⟩

omit [Platform] in
theorem Store.Tickets.backs {s : Store} {ticket : PlanTicket} (h : s.Tickets ticket) :
    s.Backs ticket := by
  obtain ⟨_, a, ha, hid, hpair, _⟩ := h
  exact ⟨a, ha, hid, hpair⟩

omit [Platform] in
/-- An attempt stays in its pair. -/
theorem Store.Backs.evolve {s s' : Store} {ticket : PlanTicket} (h : s.Backs ticket)
    (he : Evolves s s') : s'.Backs ticket := by
  obtain ⟨a, ha, haid, hap⟩ := h
  obtain ⟨a', ha', hac⟩ := he.attempts a ha
  exact ⟨a', ha', (AttemptRecord.id_eq hac.identity).trans haid,
    (AttemptRecord.pair_eq hac.identity).trans hap⟩

omit [Platform] in
/-- A completed attempt of a step makes the step done, later too. -/
theorem Store.StepDone.evolve {s s' : Store} {p : Pair} {index : ℕ} (h : s.StepDone p index)
    (he : Evolves s s') : s'.StepDone p index := by
  obtain ⟨a, ha, hp, hi, hd⟩ := h
  exact ⟨a, he.settled ha (Or.inl hd), hp, hi, hd⟩

/-- A legal request leaves the attempts that other threads have claimed alone. -/
theorem Legal.spares {t u : ℕ} {x : Moment machine} (hx : discipline.Inv x) {r : Request}
    (hl : Legal t x r) (i : Choice) (hut : u ≠ t) {c : DispatchClaim} (hu : c.thread = u)
    (hin : c.In x.past) (hatt : x.state.store.Attempt c.claimed.attempt) :
    (x.step t r i).state.store.Attempt c.claimed.attempt := by
  obtain ⟨call, rfl | hsame, hc⟩ := Sanctioned.change hx (History.continuous hx) (Or.inl hl) i
  rotate_left
  · change (perform r i x.state).2.store.Attempt _
    rw [hsame]
    exact hatt
  obtain ⟨_, hid, hstate⟩ := c.after (History.good_before hx hin)
  refine hc.spares (History.good hx) hatt hstate fun hs => ?_
  -- only a receipt settles, and only of the attempt that its own thread has claimed
  cases call with
  | recordReceipt id receipt release =>
      obtain ⟨c', since, hr⟩ := hl
      have hc' : c'.In x.past := ⟨since, hr.past.symm⟩
      have heq : c.attempt = c'.attempt := by
        rw [← hid, ← Option.some.inj hs, hr.subject]
      have hev := (DispatchClaim.unique hx hin hc' heq).1
      have hthread : c.thread = c'.thread := congrArg Event.thread hev
      exact hut (hu.symm.trans (hthread.trans hr.thread))
  | updateAttempt a => exact hl
  | _ => cases hs

theorem discipline_stable : discipline.Stable where
  refl := Rely.refl
  trans _ _ _ _ := Rely.trans
  initial := Store.good_empty
  environment w w' hg hw := by
    have he : w'.store = w.store := hw
    change w'.store.Good
    rw [he]
    exact hg
  environment_rely t x w' _ hw := .of_store_eq List.suffix_rfl hw
  environment_post reply x w' _ hw hpost ticket hands ho := by
    have he : w'.store = x.state.store := hw
    change w'.store.Tickets ticket
    rw [he]
    exact hpost ticket hands ho
  legal_sanctioned _ _ _ _ hl := Or.inl hl
  boot_sanctioned _ _ _ _ hb := Or.inr hb
  keep t x r i hx hr := by
    obtain ⟨_, _, hc⟩ := Sanctioned.change hx (History.continuous hx) hr i
    exact hc.good (History.good hx)
  guarantee t u x r i hx hl hut :=
    ⟨List.suffix_cons _ _, Sanctioned.evolves hx (Or.inl hl) i,
      fun _ hu hin hatt => hl.spares hx i hut hu hin hatt⟩
  post_stable t reply x r i hx hl hpost ticket hands ho :=
    (hpost ticket hands (ho.of_subset fun _ he => List.mem_cons_of_mem _ he)).evolve
      (Sanctioned.evolves hx (Or.inl hl) i)

end Cheirismos
