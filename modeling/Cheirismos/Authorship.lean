import Cheirismos.Budgets

/-! # Where the records on file come from

Profiles, proposals, reviewed plans and grants are put on file by one store call each, and every
other call leaves them alone, except that a grant is debited and revoked.

`Files s call s'` says so of one call.  `History.authored` says of a whole history that every record
on file was put there by a recorded request, and a plan only by the review of a proposal that an
earlier recorded request had put on file. -/

namespace Cheirismos

open Process

variable [Platform]

/-! ### One call -/

/-- What a call puts on file. -/
structure Files (s : Store) (call : StoreCall) (s' : Store) : Prop where
  profiles : ∀ p ∈ s'.profiles, p ∈ s.profiles ∨ call = .saveProfile p
  proposals : ∀ p ∈ s'.proposals, p ∈ s.proposals ∨ call = .saveProposal p
  plans : ∀ p ∈ s'.plans, p ∈ s.plans ∨ ∃ proposal ∈ s.proposals,
    call = .consumeReviewedProposal proposal.id proposal.digest p

namespace Files

variable {s s' : Store} {call : StoreCall}

/-- A call that leaves the three tables alone. -/
theorem same (hprofiles : s'.profiles = s.profiles) (hproposals : s'.proposals = s.proposals)
    (hplans : s'.plans = s.plans) : Files s call s' where
  profiles _ hp := Or.inl (hprofiles ▸ hp)
  proposals _ hp := Or.inl (hproposals ▸ hp)
  plans _ hp := Or.inl (hplans ▸ hp)

theorem saveProfile {profile : CommissionedProfile} {u : Unit}
    (h : saveProfile profile s = .ok (u, s')) : Files s (.saveProfile profile) s' := by
  rcases insertOnce_ok h with ⟨t, ht, rfl⟩ | ⟨rfl, _⟩
  · refine ⟨fun p hp => ?_, fun _ hp => Or.inl hp, fun _ hp => Or.inl hp⟩
    rcases (Table.mem_insert? ht).mp hp with rfl | hp
    · exact Or.inr rfl
    · exact Or.inl hp
  · exact same rfl rfl rfl

theorem saveGrant {grant : Grant} {u : Unit} (h : saveGrant grant s = .ok (u, s')) :
    Files s call s' := by
  rcases insertOnce_ok h with ⟨t, ht, rfl⟩ | ⟨rfl, _⟩ <;> exact same rfl rfl rfl

theorem saveProposal {proposal : PlanProposal} {u : Unit}
    (h : saveProposal proposal s = .ok (u, s')) : Files s (.saveProposal proposal) s' := by
  rcases insertOnce_ok h with ⟨t, ht, rfl⟩ | ⟨rfl, _⟩
  · refine ⟨fun _ hp => Or.inl hp, fun p hp => ?_, fun _ hp => Or.inl hp⟩
    rcases (Table.mem_insert? ht).mp hp with rfl | hp
    · exact Or.inr rfl
    · exact Or.inl hp
  · exact same rfl rfl rfl

theorem deleteProposal {id : PlanId} {u : Unit} (h : deleteProposal id s = .ok (u, s')) :
    Files s call s' := by
  obtain rfl := modify_ok.mp h
  exact ⟨fun _ hp => Or.inl hp, fun _ hp => Or.inl (Table.mem_deleteWhere.mp hp).1,
    fun _ hp => Or.inl hp⟩

theorem consumeReviewedProposal {id : PlanId} {expected : ArtifactDigest} {plan : ReviewedPlan}
    {u : Unit} (h : consumeReviewedProposal id expected plan s = .ok (u, s')) :
    Files s (.consumeReviewedProposal id expected plan) s' := by
  simp only [Cheirismos.consumeReviewedProposal, get_bind_ok, required_bind_ok, refuse_bind_ok,
    ne_eq, not_not] at h
  obtain ⟨proposal, hf, rfl, h⟩ := h
  obtain ⟨hm, rfl⟩ := Table.find?_eq_some.mp hf
  obtain ⟨_, s₁, hins, hmod⟩ := Tx.bind_ok.mp h
  obtain rfl := modify_ok.mp hmod
  rcases insertOnce_ok hins with ⟨t, ht, rfl⟩ | ⟨rfl, _⟩
  · refine ⟨fun _ hp => Or.inl hp, fun _ hp => Or.inl (Table.mem_deleteWhere.mp hp).1,
      fun p hp => ?_⟩
    rcases (Table.mem_insert? ht).mp hp with rfl | hp
    · exact Or.inr ⟨proposal, hm, rfl⟩
    · exact Or.inl hp
  · exact ⟨fun _ hp => Or.inl hp, fun _ hp => Or.inl (Table.mem_deleteWhere.mp hp).1,
      fun _ hp => Or.inl hp⟩

theorem createRun {run : PlanRun} {u : Unit} (h : createRun run s = .ok (u, s')) :
    Files s call s' := by
  rcases insertOnce_ok h with ⟨t, ht, rfl⟩ | ⟨rfl, _⟩ <;> exact same rfl rfl rfl

theorem revokeGrant {id : GrantId} {u : Unit} (h : revokeGrant id s = .ok (u, s')) :
    Files s call s' := by
  simp only [Cheirismos.revokeGrant, updateGrant, get_bind_ok, required_bind_ok, modify_ok] at h
  obtain ⟨grant, _, rfl⟩ := h
  exact same rfl rfl rfl

theorem repairRunCursor {id : RequestId} {run : PlanRun}
    (h : repairRunCursor id s = .ok (run, s')) : Files s call s' := by
  simp only [Cheirismos.repairRunCursor, updateRun, get_bind_ok, required_bind_ok] at h
  obtain ⟨stored, _, h⟩ := h
  split_ifs at h
  · simp only [modify_bind_ok, Tx.pure_ok] at h
    obtain ⟨_, rfl⟩ := h
    exact same rfl rfl rfl
  · obtain ⟨_, rfl⟩ := Tx.pure_ok.mp h
    exact same rfl rfl rfl

theorem reserve (hc : s.Coherent) {clock : ℕ → Timestamp} {a : AttemptRecord}
    {snapshot : AdmissionSnapshot} {outcome : ReservationOutcome}
    (h : reserve clock a snapshot s = .ok (outcome, s')) : Files s call s' := by
  rcases reserve_ok hc h with ⟨rfl, _⟩ | ⟨_, _, hnew⟩
  · exact same rfl rfl rfl
  · obtain ⟨_, _, _, _, _, _, _, _, rfl⟩ := reserveNew_ok hc hnew
    exact same rfl rfl rfl

theorem takeoverRecovery (hc : s.Coherent) {clock : ℕ → Timestamp} {a : AttemptRecord}
    {snapshot : AdmissionSnapshot} {run : PlanRun} {recovery : RecoveryTakeoverRecord}
    (h0 : a.operationIndex = 0) {outcome : ReservationOutcome}
    (h : takeoverRecovery clock a snapshot run recovery s = .ok (outcome, s')) :
    Files s call s' := by
  rcases takeoverRecovery_ok hc h with ⟨rfl, _⟩ | ⟨rfl, _⟩ | ⟨_, _, _, hnew⟩
  · exact same rfl rfl rfl
  · exact same rfl rfl rfl
  · obtain ⟨_, _, _, _, _, _, _, _, _, _, _, _, _, _, _, _, rfl⟩ := transferRecovery_ok hc h0 hnew
    exact same rfl rfl rfl

theorem abandonHaltedRun (hc : s.Coherent) {clock : ℕ → Timestamp}
    {record result : HaltedRunAbandonmentRecord}
    (h : abandonHaltedRun clock record s = .ok (result, s')) : Files s call s' := by
  rcases abandonHaltedRun_ok h with ⟨rfl, _⟩ | ⟨_, hnew⟩
  · exact same rfl rfl rfl
  · obtain ⟨s₁, leases, abandonments, _, _, hrejects, _, _, _, _, rfl⟩ := abandonNew_ok hc hnew
    have hframe := (RejectsIntent.back hc hrejects).2.1
    exact same (by rw [hframe]) (by rw [hframe]) (by rw [hframe])

theorem recordReceipt (hc : s.Coherent) {clock : ℕ → Timestamp} {id : AttemptId}
    {receipt : OperationReceipt} {release : Bool} {result : AttemptRecord}
    (h : recordReceipt clock id receipt release s = .ok (result, s')) : Files s call s' := by
  obtain ⟨_, _, _, _, _, ⟨_, _, rfl⟩ | ⟨_, rfl⟩⟩ := recordReceipt_ok hc h <;>
    exact same rfl rfl rfl

theorem claimReconciliation (hc : s.Coherent) {clock : ℕ → Timestamp} {id : AttemptId}
    {request : RequestId} {principal : PrincipalId} {budget : Option Budget}
    {claim : ReconciliationClaim}
    (h : claimReconciliation clock id request principal budget s = .ok (claim, s')) :
    Files s call s' := by
  rcases claimReconciliation_ok hc h with ⟨rfl, _⟩ | ⟨_, _, hnew, hfresh⟩
  · exact same rfl rfl rfl
  · obtain ⟨_, _, _, _, _, _, _, _, ⟨_, _, rfl⟩ | ⟨_, _, rfl⟩⟩ :=
      claimNewReconciliation_ok hc hfresh hnew <;> exact same rfl rfl rfl

theorem finishReconciliation (hc : s.Coherent) {clock : ℕ → Timestamp} {request : RequestId}
    {receipt : Option OperationReceipt} {completed release : Bool} {result : AttemptRecord}
    (h : finishReconciliation clock request receipt completed release s = .ok (result, s')) :
    Files s call s' := by
  obtain ⟨r, a, _, _, _, _, _, hfinishes⟩ := finishReconciliation_ok hc h
  cases hfinishes <;> exact same rfl rfl rfl

end Files

/-! ### A history -/

section history

variable {past : List (Event machine)} {w : World}

/-- A sanctioned store call that succeeds files what it says. -/
theorem transact_files (hist : History past w) {t : ℕ} {call : StoreCall}
    (hs : Sanctioned t ⟨past, w⟩ (.store call)) {clock : ℕ → Timestamp} {output : call.Output}
    {s' : Store} (hok : call.transact clock w.store = .ok (output, s')) : Files w.store call s' := by
  have hc := hist.good.regular.coherent
  by_cases hread : call.reads = true
  · obtain rfl := StoreCall.transact_reads hread hok
    exact .same rfl rfl rfl
  cases call with
  | saveProfile profile => exact .saveProfile hok
  | saveGrant grant => exact .saveGrant hok
  | revokeGrant id => exact .revokeGrant hok
  | saveProposal proposal => exact .saveProposal hok
  | consumeReviewedProposal id expected plan => exact .consumeReviewedProposal hok
  | deleteProposal id => exact .deleteProposal hok
  | createRun run => exact .createRun hok
  | saveRun run =>
      obtain rfl := modify_ok.mp hok
      exact .same rfl rfl rfl
  | repairRunCursor id => exact .repairRunCursor hok
  | abandonHaltedRun proposed => exact .abandonHaltedRun hc hok
  | reserve proposed snapshot => exact .reserve hc hok
  | takeoverRecovery proposed snapshot run recovery =>
      exact .takeoverRecovery hc (hs.resolve_right hread).2.start hok
  | claimDispatch id agent =>
      obtain ⟨_, _, _, rfl⟩ := claimDispatch_ok hc hok
      exact .same rfl rfl rfl
  | recordReceipt id receipt release => exact .recordReceipt hc hok
  | claimReconciliation id request principal budget => exact .claimReconciliation hc hok
  | finishReconciliation request receipt completed release => exact .finishReconciliation hc hok
  | updateAttempt a =>
      obtain rfl := modify_ok.mp hok
      exact .same rfl rfl rfl
  | updateReconciliation r =>
      obtain rfl := modify_ok.mp hok
      exact .same rfl rfl rfl
  | _ => exact absurd rfl hread

theorem Sanctioned.files (hist : History past w) {t : ℕ} {call : StoreCall}
    (hs : Sanctioned t ⟨past, w⟩ (.store call)) (choice : Choice) :
    Files w.store call (performStore call choice w.store).2 := by
  cases hr : (performStore call choice w.store).1 with
  | error e =>
      rw [performStore_error hr]
      exact .same rfl rfl rfl
  | ok output => exact transact_files hist hs (performStore_ok hr)

/-- The recorded requests that put the records on file. -/
structure Authored (past : List (Event machine)) (s : Store) : Prop where
  profiles : ∀ p ∈ s.profiles, ∃ e ∈ past, e.request = .store (.saveProfile p)
  proposals : ∀ p ∈ s.proposals, ∃ e ∈ past, e.request = .store (.saveProposal p)
  plans : ∀ p ∈ s.plans, ∃ e ∈ past, ∃ proposal : PlanProposal,
    e.request = .store (.consumeReviewedProposal proposal.id proposal.digest p) ∧
      ∃ e' ∈ past, e'.request = .store (.saveProposal proposal)

/-- Requests that are recorded stay recorded. -/
theorem Authored.mono {past past' : List (Event machine)} {s : Store} (h : Authored past s)
    (hsub : past ⊆ past') : Authored past' s where
  profiles p hp := by
    obtain ⟨e, he, hr⟩ := h.profiles p hp
    exact ⟨e, hsub he, hr⟩
  proposals p hp := by
    obtain ⟨e, he, hr⟩ := h.proposals p hp
    exact ⟨e, hsub he, hr⟩
  plans p hp := by
    obtain ⟨e, he, proposal, hr, e', he', hr'⟩ := h.plans p hp
    exact ⟨e, hsub he, proposal, hr, e', hsub he', hr'⟩

theorem Authored.call {e : Event machine} {older : List (Event machine)} {call : StoreCall}
    {s' : Store} (h : Authored older e.before.store) (hr : e.request = .store call)
    (hf : Files e.before.store call s') : Authored (e :: older) s' := by
  have hkept := h.mono (List.subset_cons_self e older)
  refine ⟨fun p hp => ?_, fun p hp => ?_, fun p hp => ?_⟩
  · rcases hf.profiles p hp with hp | rfl
    · exact hkept.profiles p hp
    · exact ⟨e, List.mem_cons_self, hr⟩
  · rcases hf.proposals p hp with hp | rfl
    · exact hkept.proposals p hp
    · exact ⟨e, List.mem_cons_self, hr⟩
  · rcases hf.plans p hp with hp | ⟨proposal, hm, rfl⟩
    · exact hkept.plans p hp
    · obtain ⟨e', he', hr'⟩ := hkept.proposals proposal hm
      exact ⟨e, List.mem_cons_self, proposal, hr, e', he', hr'⟩

theorem History.authored (hist : History past w) : Authored past w.store := by
  refine hist.keeps ⟨fun _ hm => (Table.not_mem_empty _ hm).elim,
    fun _ hm => (Table.not_mem_empty _ hm).elim, fun _ hm => (Table.not_mem_empty _ hm).elim⟩ ?_ ?_
  · exact fun e older s h => h.mono (List.subset_cons_self e older)
  · intro e older call hold hp hr hs _
    have hf := hs.files hold e.choice
    have hafter : e.after.store = (performStore call e.choice e.before.store).2 := by
      unfold Event.after
      rw [hr]
      rfl
    rw [hafter]
    exact hp.call hr hf

/-- Every grant on file was issued, and has only been debited and revoked since. -/
theorem History.issued (hist : History past w) {g : Grant} (hg : g ∈ w.store.grants) :
    ∃ e ∈ past, ∃ issued : Grant, e.request = .store (.saveGrant issued) ∧ issued.Continues g := by
  obtain ⟨e, issued, he, hissues, hid, _⟩ := hist.funded g hg
  obtain ⟨older, hsuf⟩ := exists_suffix_of_mem he
  obtain ⟨g', hg', hcont⟩ := (hist.evolves hsuf).grants issued hissues.recorded
  obtain rfl := w.store.grants.eq_of_key_eq hg' hg (hcont.id_eq.trans hid)
  exact ⟨e, he, issued, hissues.request, hcont⟩

end history

end Cheirismos
