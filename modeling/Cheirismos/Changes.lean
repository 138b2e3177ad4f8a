import Cheirismos.Leases
import Cheirismos.Supervisor

/-! # The changes of the store and its invariant

`Change s settled s'` lists once what a store call can do to the store: one constructor for each
transaction that changes anything, with the guards that hold when it succeeds.  Every
invariant and every monotonicity of the store is derived from it by cases.

Some guards are not checked by the transaction but by its caller, the supervisor: that a
proposed attempt was made from the records it names (`Proposed`), that the records of a
takeover belong together (`Recovers`), and that the lease is released with a rejected receipt
or the completion of the last step and never else (`Releases`).

`Store.Good` is the whole invariant, and `Change.good` says that every change keeps it. -/

namespace Cheirismos

variable [Platform]

/-! ### What the supervisor guarantees of its calls -/

/-- The attempt is fresh and made from the snapshot, which is on record. -/
structure Proposed (s : Store) (a : AttemptRecord) (snapshot : AdmissionSnapshot) : Prop where
  intent : a.state = .intent
  unreceipted : a.receipt = none
  plan : snapshot.plan ∈ s.plans ∧ snapshot.plan.id = a.plan ∧ snapshot.plan.digest = a.planDigest
  index : a.operationIndex < snapshot.plan.operations.length
  first : a.operationIndex = 0 → worstCase snapshot.plan.operations = some a.reserved
  later : a.operationIndex ≠ 0 → a.reserved = Budget.zero
  profile : snapshot.profile ∈ s.profiles ∧ snapshot.profile.id = a.profile ∧
    snapshot.profile.digest = a.profileDigest ∧
    snapshot.profile.physicalResources = a.leasedResources

theorem Proposed.admitted {s : Store} {a : AttemptRecord} {snapshot : AdmissionSnapshot}
    (h : Proposed s a snapshot) {now : Timestamp} {agent : PrincipalId} {granted : Grant}
    (hg : Active s now a.grant agent a.profile granted) : Admitted s a.identity where
  plan := ⟨_, h.plan.1, h.plan.2.1, h.plan.2.2, h.index, h.first, h.later⟩
  profile := ⟨_, h.profile⟩
  grant := ⟨granted, hg.mem, hg.id, hg.profile⟩

/-- The run and the record of a takeover are about its first attempt. -/
structure Recovers (a : AttemptRecord) (snapshot : AdmissionSnapshot) (run : PlanRun)
    (recovery : RecoveryTakeoverRecord) : Prop where
  start : a.operationIndex = 0
  runPair : run.pair = a.pair
  runSteps : run.steps.length = snapshot.plan.operations.length
  runCursor : run.cursor = 0
  request : recovery.request = a.request
  run : run.id = recovery.run
  first : recovery.firstAttempt = a.id
  pair : recovery.pair = a.pair
  resources : recovery.resources = a.leasedResources

/-- The lease is released with a rejected receipt or the completion of the last step. -/
def Releases (s : Store) (a : AttemptRecord) (state : AttemptState) (release : Bool) : Prop :=
  ∃ plan ∈ s.plans, plan.id = a.plan ∧
    (release = true ↔ state = .rejected ∨
      state = .completed ∧ a.operationIndex + 1 = plan.operations.length)

/-- An attempt whose dispatch a restart interrupted. -/
def interrupted (now : Timestamp) (a : AttemptRecord) : AttemptRecord :=
  { a with
    state := .unknown
    receipt := some (.unknown "process interrupted after dispatch; reconciliation required" none)
    updatedAt := Platform.renderTimestamp now }

theorem interrupted_identity (now : Timestamp) (a : AttemptRecord) :
    (interrupted now a).identity = a.identity := rfl

/-- A witness that a restart interrupted. -/
def interruptedWitness (now : Timestamp) (r : ReconciliationRecord) : ReconciliationRecord :=
  { r with state := .unknown, endedAt := some (Platform.renderTimestamp now) }

/-! ### Changes -/

/-- The dispatched attempt that a call settles. -/
def StoreCall.settles : StoreCall → Option AttemptId
  | recordReceipt id _ _ => some id
  | updateAttempt a => some a.id
  | _ => none

/-- A plan as a review makes it. -/
structure ReviewedPlan.Proper (plan : ReviewedPlan) : Prop where
  operations : plan.operations ≠ []
  reviewed : plan.reviewDigest = plan.digest
  independent : plan.reviewedBy ≠ plan.requestedBy

/-- The plan of the run is on record, and the run has a step for each of its operations. -/
def Store.Planned (s : Store) (run : PlanRun) : Prop :=
  ∃ plan ∈ s.plans, plan.id = run.plan ∧ run.steps.length = plan.operations.length

/-- Plans, proposals and runs are on record as the supervisor makes them. -/
structure Store.Stocked (s : Store) : Prop where
  plans : ∀ plan ∈ s.plans, plan.Proper
  proposals : ∀ proposal ∈ s.proposals, proposal.operations ≠ []
  runs : ∀ run ∈ s.runs, s.Planned run

/-- Where a run on record after a call comes from. -/
inductive RunChange (s : Store) (run : PlanRun) : StoreCall → Prop
  | kept {call : StoreCall} (old : run ∈ s.runs) : RunChange s run call
  | created (fresh : ∀ r ∈ s.runs, r.id ≠ run.id) : RunChange s run (.createRun run)
  | advanced {r : PlanRun} (old : r ∈ s.runs) (same : r.Continues run) :
      RunChange s run (.saveRun run)
  | repaired {r : PlanRun} (old : r ∈ s.runs) (behind : r.cursor < completedSteps s r.steps)
      (result : run = { r with cursor := completedSteps s r.steps }) :
      RunChange s run (.repairRunCursor r.id)
  | recovered {a : AttemptRecord} {snapshot : AdmissionSnapshot}
      {recovery : RecoveryTakeoverRecord} (fresh : ∀ r ∈ s.runs, r.id ≠ run.id) :
      RunChange s run (.takeoverRecovery a snapshot run recovery)

/-- What a store call can do to the store. -/
inductive Change (s : Store) : StoreCall → Store → Prop
  | records {call : StoreCall} {s' : Store} (records : Extends s s')
      (budgets : ∀ g' ∈ s'.grants, ∃ g ∈ s.grants, g.id = g'.id ∧ g'.remaining = g.remaining)
      (runs : ∀ run ∈ s'.runs, RunChange s run call) (stocked : s.Stocked → s'.Stocked)
      (frame : s' = { s with
        profiles := s'.profiles
        grants := s'.grants
        plans := s'.plans
        proposals := s'.proposals
        runs := s'.runs }) : Change s call s'
  | issue {g : Grant} {grants : Table Grant.id} (inserted : s.grants.insert? g = some grants) :
      Change s (.saveGrant g) { s with grants := grants }
  | reserve {now : Timestamp} {a : AttemptRecord} {snapshot : AdmissionSnapshot} {granted : Grant}
      {remaining : Budget} {leases : Table LeaseRow.resourceKey} {attempts : Table AttemptRow.id}
      (proposed : Proposed s a snapshot) (admits : Admits s now a snapshot granted remaining)
      (order : InOrder s a) (takes : TakesLeases s a leases)
      (places : PlacesAttempt s a attempts) :
      Change s (.reserve a snapshot) { s with
        planLeases := leases
        grants := s.grants.replace { granted with remaining := remaining }
        attempts := attempts }
  | takeover {now : Timestamp} {a : AttemptRecord} {snapshot : AdmissionSnapshot}
      {granted : Grant} {remaining : Budget} {run : PlanRun} {recovery : RecoveryTakeoverRecord}
      {owners : List Pair} {leases : Table LeaseRow.resourceKey}
      {retirements : Table RetirementRow.pair} {attempts : Table AttemptRow.id}
      {runs : Table PlanRun.id} {takeovers : Table RecoveryTakeoverRecord.request}
      (proposed : Proposed s a snapshot) (recovers : Recovers a snapshot run recovery)
      (admits : Admits s now a snapshot granted remaining)
      (named : ∀ id ∈ recovery.unresolved, ∃ b, Source s a.leasedResources id b ∧ b.pair ∈ owners)
      (owned : ∀ q ∈ owners, ∃ id ∈ recovery.unresolved, ∃ b, Source s a.leasedResources id b ∧
        b.pair = q)
      (moves : MovesLeases s a owners leases)
      (retires : ∀ row, row ∈ retirements ↔ row ∈ s.recoverySourceRetirements ∨
        row.takeoverRequest = recovery.request ∧ row.pair ∈ owners)
      (places : PlacesAttempt s a attempts) (runInserted : s.runs.insert? run = some runs)
      (recorded : s.recoveryTakeovers.insert? recovery = some takeovers) :
      Change s (.takeoverRecovery a snapshot run recovery) { s with
        planLeases := leases
        recoverySourceRetirements := retirements
        grants := s.grants.replace { granted with remaining := remaining }
        attempts := attempts
        runs := runs
        recoveryTakeovers := takeovers }
  | abandon {record : HaltedRunAbandonmentRecord} {s₁ : Store}
      {leases : Table LeaseRow.resourceKey}
      {abandonments : Table HaltedRunAbandonmentRecord.request}
      (unhalted : ¬ s.Halted record.pair) (noDestination : ¬ s.Destination record.pair)
      (rejects : Relation.ReflTransGen (RejectsIntent record.pair) s s₁)
      (resolved : ∀ a, s.Attempt a → a.pair = record.pair →
        a.state = .completed ∨ a.state = .rejected ∨ a.state = .intent)
      (settled : ∀ a, s₁.Attempt a → a.pair = record.pair →
        a.state = .completed ∨ a.state = .rejected)
      (released : ∀ key q, (⟨key, q⟩ : LeaseRow) ∈ leases ↔ s.Leased key q ∧ q ≠ record.pair)
      (recorded : abandonments.rows = record :: s.haltedRunAbandonments.rows) :
      Change s (.abandonHaltedRun record) { s₁ with planLeases := leases, haltedRunAbandonments := abandonments }
  | dispatch {now : Timestamp} {agent : PrincipalId} {a : AttemptRecord}
      {claimed : ClaimedDispatch} (claims : ClaimsDispatch s now agent a claimed) :
      Change s (.claimDispatch a.id agent) (s.setAttempt claimed.attempt)
  | receipt {now : Timestamp} {receipt : OperationReceipt} {a : AttemptRecord} {release : Bool}
      {s' : Store} (attempt : s.Attempt a) (dispatched : a.state = .dispatched)
      (flag : Releases s a receipt.state release)
      (result :
        (release = true ∧ (receipt.state ≠ .rejected ∨ ¬ s.Destination a.pair) ∧
          s' = (s.setAttempt (receipted now receipt a)).releaseLeases (receipted now receipt a)) ∨
        (¬ (release = true ∧ (receipt.state ≠ .rejected ∨ ¬ s.Destination a.pair)) ∧
          s' = s.setAttempt (receipted now receipt a))) :
      Change s (.recordReceipt a.id receipt release) s'
  | investigate {now now' : Timestamp} {request : RequestId} {principal : PrincipalId}
      {budget : Option Budget} {a : AttemptRecord} {granted : Grant} {grants : Table Grant.id}
      {claimed : ClaimedReconciliation} {reconciliations : Table ReconciliationRow.requestId}
      {s' : Store} (claims : ClaimsReconciliation s now request principal a granted claimed)
      (configuration : ∃ planned, claimed.dispatch.plan.operations[a.operationIndex]? =
        some planned ∧ budget = Supervisor.configurationBudget claimed.dispatch.plan planned)
      (charges : Charges s granted budget grants)
      (opened : reconciliations.rows =
        ReconciliationRow.of claimed.record :: s.reconciliations.rows)
      (result :
        (a.state = .unknown ∧
          s' = { s with grants := grants, reconciliations := reconciliations }) ∨
        (a.state = .partially ∧
          s' = Store.setAttempt { s with grants := grants, reconciliations := reconciliations }
            (reopened now' a))) : Change s (.claimReconciliation a.id request principal budget) s'
  | conclude {now now' : Timestamp} {receipt : Option OperationReceipt}
      {completed release : Bool} {r : ReconciliationRecord} {a result : AttemptRecord}
      {s' : Store} (witness : s.Witness r) (claimed : r.state = .claimed) (attempt : s.Attempt a)
      (subject : a.id = r.attempt)
      (flag : completed = true → Releases s a .completed release)
      (finishes : Finishes (s.setReconciliation (finished now receipt completed r)) now' a
        completed release result s') :
      Change s (.finishReconciliation r.request receipt completed release) s'
  | interrupt {now : Timestamp} {a : AttemptRecord} (attempt : s.Attempt a)
      (dispatched : a.state = .dispatched) :
      Change s (.updateAttempt (interrupted now a)) (s.setAttempt (interrupted now a))
  | interruptWitness {now : Timestamp} {r : ReconciliationRecord} (witness : s.Witness r)
      (claimed : r.state = .claimed) :
      Change s (.updateReconciliation (interruptedWitness now r))
        (s.setReconciliation (interruptedWitness now r))

/-- A call that changes nothing. -/
theorem Change.refl (s : Store) {call : StoreCall} : Change s call s :=
  .records (.refl s) (fun g hg => ⟨g, hg, rfl, rfl⟩) (fun _ hr => .kept hr) (fun hs => hs) rfl

omit [Platform] in
/-- Issuing a grant. -/
theorem Extends.issue {s : Store} {g : Grant} {grants : Table Grant.id}
    (h : s.grants.insert? g = some grants) : Extends s { s with grants := grants } where
  profiles _ hp := hp
  plans _ hp := hp
  grants q hq := ⟨q, (Table.mem_insert? h).mpr (Or.inr hq), .refl q⟩
  runs r hr := ⟨r, hr, rfl⟩

/-! ### The invariant -/

/-- What every reachable store satisfies. -/
structure Store.Good (s : Store) : Prop where
  regular : s.Regular
  leases : s.LeaseLaw
  stocked : s.Stocked

theorem Store.good_empty : Store.Good .empty where
  regular := Store.regular_empty
  leases := Store.leaseLaw_empty
  stocked := ⟨fun _ h => (Table.not_mem_empty _ h).elim, fun _ h => (Table.not_mem_empty _ h).elim,
    fun _ h => (Table.not_mem_empty _ h).elim⟩

section facts

variable {s s' : Store}

omit [Platform] in
/-- A charge continues the grant it debits. -/
theorem Charges.extends {granted : Grant} {budget : Option Budget} {grants : Table Grant.id}
    (h : Charges s granted budget grants) (hg : granted ∈ s.grants) :
    Extends s { s with grants := grants } := by
  cases budget with
  | none =>
      obtain rfl := h
      exact .refl s
  | some amount =>
      obtain ⟨remaining, _, rfl⟩ := h
      exact .replaceGrant hg (.debited granted remaining)

namespace Store.Regular

variable (h : s.Regular)

include h

theorem open_of_dispatched {a : AttemptRecord} (ha : s.Attempt a) (hd : a.state = .dispatched) :
    ¬ s.Closed a.pair := by
  rintro (hh | hr)
  · rcases (h.halted _ hh).2 a ha rfl with e | e <;> rw [hd] at e <;> cases e
  · exact (h.retired _ hr).1 a ha rfl hd

/-- The target is among the resources of every attempt. -/
theorem exists_leaseKey {a : AttemptRecord} (ha : s.Attempt a) : ∃ key, a.LeaseKey key := by
  obtain ⟨profile, _, _, _, hres⟩ := (h.admitted a ha).profile
  refine ⟨_, .target profile.targetFingerprint, ?_, rfl⟩
  rw [show a.leasedResources = profile.physicalResources from hres.symm]
  simp [CommissionedProfile.physicalResources]

/-- The plan on record for an attempt. -/
theorem plan_of {a : AttemptRecord} (ha : s.Attempt a) {plan : ReviewedPlan} (hm : plan ∈ s.plans)
    (hid : plan.id = a.plan) : a.operationIndex < plan.operations.length := by
  obtain ⟨plan', hm', hid', _, hlt, _⟩ := (h.admitted a ha).plan
  obtain rfl := plan_inj hm hm' (hid.trans hid'.symm)
  exact hlt

/-- The release flag agrees with whether the attempt's pair keeps its lease. -/
theorem releases_iff {a a' : AttemptRecord} (ha : s.Attempt a) (hid : a'.identity = a.identity)
    {release : Bool} (hf : Releases s a a'.state release) (hopen : ¬ s.Closed a.pair)
    (hs : a'.state ≠ .intent ∧ a'.state ≠ .dispatched) :
    s.Holding a' ↔ ¬ (release = true ∧ (a'.state ≠ .rejected ∨ ¬ s.Destination a.pair)) := by
  obtain ⟨plan, hm, hpid, hiff⟩ := hf
  have hlt := h.plan_of ha hm hpid
  have hmore : (∃ plan ∈ s.plans, plan.id = a'.plan ∧
      a'.operationIndex + 1 < plan.operations.length) ↔
      a.operationIndex + 1 ≠ plan.operations.length := by
    rw [AttemptRecord.plan_eq hid, AttemptRecord.index_eq hid]
    constructor
    · rintro ⟨plan', hm', hid', hlt'⟩
      obtain rfl := plan_inj hm hm' (hpid.trans hid'.symm)
      exact ne_of_lt hlt'
    · exact fun hne => ⟨plan, hm, hpid, by omega⟩
  unfold Holding
  rw [AttemptRecord.pair_eq hid, hmore, hiff]
  cases hst : a'.state <;> simp_all

end Store.Regular

end facts

/-! ### Every change keeps the invariant -/

section keeping

variable {s s' : Store}

open Store

/-- The pair of a takeover had no attempt. -/
theorem takeover_fresh (hs : s.Regular) {a : AttemptRecord} {attempts : Table AttemptRow.id}
    (h0 : a.operationIndex = 0) (places : PlacesAttempt s a attempts) :
    ∀ b, s.Attempt b → b.pair ≠ a.pair := by
  intro b hb hp
  obtain ⟨c, hc, hcp, hci, _⟩ := hs.first hb
  exact places.step c hc (hcp.trans hp) (hci.trans h0.symm)

/-- Rejecting undispatched attempts of an open pair keeps the part without leases. -/
theorem RejectsIntent.regular {p : Pair} (hopen : ¬ s.Closed p) (hs : s.Regular)
    (h : Relation.ReflTransGen (RejectsIntent p) s s') : s'.Regular := by
  have hclosed : ∀ {t : Store}, t = { s with attempts := t.attempts } → ¬ t.Closed p := by
    intro t ht
    rw [ht]
    exact hopen
  induction h with
  | refl => exact hs
  | @tail t _ hsteps hstep ih =>
      obtain ⟨a, now, ha, hp, hstate, rfl⟩ := hstep
      have hframe := (RejectsIntent.back hs.coherent hsteps).2.1
      refine ih.restate ha (abandoned_identity now a) (hp ▸ hclosed hframe) ?_ ?_
      · intro he
        rw [hstate] at he
        cases he
      · intro r hr hrs hra
        have := (ih.claimed r a hr hrs ha hra.symm).1
        rw [hstate] at this
        cases this

/-- A pair that can be abandoned is not retired either. -/
theorem open_of_abandon (hs : s.Regular) {p : Pair} (hhalt : ¬ s.Halted p)
    (hdest : ¬ s.Destination p)
    (hres : ∀ a, s.Attempt a → a.pair = p →
      a.state = .completed ∨ a.state = .rejected ∨ a.state = .intent) : ¬ s.Closed p := by
  rintro (hh | hr)
  · exact hhalt hh
  · obtain ⟨a, ha, hp, hstate⟩ := (hs.retired p hr).2.resolve_left hdest
    rcases hres a ha hp with e | e | e <;> rw [e] at hstate <;> rcases hstate with e' | e' <;>
      cases e'

theorem ClaimsReconciliation.open_pair (hg : s.Good) {now : Timestamp} {request : RequestId}
    {principal : PrincipalId} {a : AttemptRecord} {granted : Grant}
    {claimed : ClaimedReconciliation}
    (h : ClaimsReconciliation s now request principal a granted claimed) : ¬ s.Closed a.pair := by
  obtain ⟨key, hkey⟩ := hg.regular.exists_leaseKey h.attempt
  exact fun hc => (hg.leases a.pair).not_leased_of_closed hc key (h.leased key hkey)

theorem finished_state {now : Timestamp} {receipt : Option OperationReceipt} {completed : Bool}
    {r : ReconciliationRecord} : (finished now receipt completed r).state ≠ .claimed := by
  unfold finished
  cases completed <;> cases receipt <;> simp

/-- No witness of the attempt is open once its open witness is closed. -/
theorem no_claim_after_finish (hs : s.Regular) {now : Timestamp}
    {receipt : Option OperationReceipt} {completed : Bool} {r : ReconciliationRecord}
    (hr : s.Witness r) (hstate : r.state = .claimed) {q : ReconciliationRecord}
    (hq : (s.setReconciliation (finished now receipt completed r)).Witness q)
    (hqs : q.state = .claimed) : q.attempt ≠ r.attempt := by
  intro he
  have hcase : q = finished now receipt completed r ∨ s.Witness q ∧ q.request ≠ r.request :=
    (witness_setReconciliation hr (by rfl) (by rfl) (by rfl)).mp hq
  rcases hcase with rfl | ⟨hq, hne⟩
  · exact finished_state hqs
  · exact hne (congrArg ReconciliationRecord.request (hs.claim q r hq hr hqs hstate he))

namespace Store.Regular

variable (hs : s.Regular)

include hs

theorem releaseLeases (a : AttemptRecord) : (s.releaseLeases a).Regular :=
  hs.extend ⟨fun _ h => h, fun _ h => h, fun g h => ⟨g, h, .refl g⟩, fun r h => ⟨r, h, rfl⟩⟩ rfl

/-- A dispatched attempt may get any other state. -/
theorem settle {a a' : AttemptRecord} (ha : s.Attempt a) (hd : a.state = .dispatched)
    (hid : a'.identity = a.identity) : (s.setAttempt a').Regular := by
  refine hs.restate ha hid (hs.open_of_dispatched ha hd) ?_ ?_
  · intro he
    rw [hd] at he
    cases he
  · intro r hr hrs hra
    have := (hs.claimed r a hr hrs ha hra.symm).1
    rw [hd] at this
    cases this

/-- The attempt of a witness that ends may become completed. -/
theorem conclude (now now' : Timestamp) (receipt : Option OperationReceipt) (completed : Bool)
    {r : ReconciliationRecord} {a : AttemptRecord} (hr : s.Witness r) (hc : r.state = .claimed)
    (ha : s.Attempt a) (hid : a.id = r.attempt) :
    ((s.setReconciliation (finished now receipt completed r)).setAttempt
      (completedBy now' a)).Regular := by
  have hs₁ : (s.setReconciliation (finished now receipt completed r)).Regular :=
    hs.closeWitness hr rfl rfl rfl finished_state
  refine hs₁.restate ha rfl (hs.claimed r a hr hc ha hid).2 (fun _ => rfl) ?_
  intro q hq hqs hqa
  exact absurd (hqa.trans hid) (no_claim_after_finish hs hr hc hq hqs)

end Store.Regular

theorem Change.regular {call : StoreCall} (hg : s.Good) (h : Change s call s') : s'.Regular := by
  have hs := hg.regular
  cases h with
  | records records budgets runs stocked frame =>
      refine hs.extend records ?_
      rw [frame]
  | issue inserted => exact hs.extend (.issue inserted) rfl
  | @reserve now a snapshot granted remaining leases attempts proposed admits order takes places =>
      have hext : Extends s { s with
          planLeases := leases
          grants := s.grants.replace { granted with remaining := remaining } } := by
        obtain ⟨h1, h2, h3, h4⟩ := Extends.replaceGrant admits.grant.mem
          (.debited granted remaining)
        exact ⟨h1, h2, h3, h4⟩
      refine (hs.extend hext rfl).admission ⟨places.rows, places.id, places.request, places.step⟩
        ((proposed.admitted admits.grant).extend hext) order ?_
      rintro (hh | hr)
      · exact admits.unhalted hh
      · exact admits.unretired hr
  | @takeover now a snapshot granted remaining run recovery owners leases retirements attempts
      runs takeovers proposed recovers admits named owned moves retires places runInserted
      recorded =>
      have hext : Extends s { s with
          planLeases := leases
          grants := s.grants.replace { granted with remaining := remaining } } := by
        obtain ⟨h1, h2, h3, h4⟩ := Extends.replaceGrant admits.grant.mem
          (.debited granted remaining)
        exact ⟨h1, h2, h3, h4⟩
      have hopen : ¬ s.Closed a.pair := by
        rintro (hh | hr)
        · exact admits.unhalted hh
        · exact admits.unretired hr
      have hnone : ∀ b, s.Attempt b → b.pair ≠ a.pair := takeover_fresh hs recovers.start places
      have hadmit := (hs.extend hext rfl).admission
        ⟨places.rows, places.id, places.request, places.step⟩
        ((proposed.admitted admits.grant).extend hext) (Or.inl ⟨recovers.start, hnone⟩) hopen
      have hsource : ∀ id b, Source s a.leasedResources id b →
          Source { s with
            planLeases := leases
            grants := s.grants.replace { granted with remaining := remaining }
            attempts := attempts } a.leasedResources id b := by
        intro id b hb
        refine ⟨places.mem.mpr (Or.inr hb.attempt), hb.id, hb.unretired, ?_, ?_, hb.uncertain,
          hb.resources⟩
        · intro c hc hp
          rcases places.mem.mp hc with rfl | hc
          · rw [proposed.intent]
            decide
          · exact hb.settled c hc hp
        · intro r c hr hrs hc hcid
          rcases places.mem.mp hc with rfl | hc
          · exact fun hp => hnone b hb.attempt hp.symm
          · exact hb.unclaimed r c hr hrs hc hcid
      refine hadmit.takeOver (places.mem.mpr (Or.inl rfl)) recovers.start hopen recovers.first
        recovers.pair recovers.resources recovers.run recovers.runPair ?_ ?_ ?_ retires runInserted
        recorded
      · intro hown
        obtain ⟨_, _, b, hb, hp⟩ := owned _ hown
        exact hnone b hb.attempt hp
      · intro id hid
        obtain ⟨b, hb, hbo⟩ := named id hid
        exact ⟨b, hsource id b hb, hbo⟩
      · intro q hq
        obtain ⟨id, hid, b, hb, hbq⟩ := owned q hq
        exact ⟨id, hid, b, hsource id b hb, hbq⟩
  | @abandon record s₁ leases abandonments unhalted noDestination rejects resolved settled
      released recorded =>
      have hopen := open_of_abandon hs unhalted noDestination resolved
      have hs₁ := RejectsIntent.regular hopen hs rejects
      have hframe := (RejectsIntent.back hs.coherent rejects).2.1
      have hrows : abandonments.rows = record :: s₁.haltedRunAbandonments.rows := by
        rw [recorded, hframe]
      have hdest : ¬ s₁.Destination record.pair := by
        rw [hframe]
        exact noDestination
      exact (hs₁.abandon hrows hdest settled).extend
        ⟨fun _ h => h, fun _ h => h, fun g h => ⟨g, h, .refl g⟩, fun r h => ⟨r, h, rfl⟩⟩ rfl
  | dispatch claims =>
      refine hs.restate claims.attempt claims.identity ?_ ?_ ?_
      · rintro (hh | hr)
        · exact claims.unhalted hh
        · exact claims.unretired hr
      · intro he
        rw [claims.intent] at he
        cases he
      · intro r hr hrs hra
        have := (hs.claimed r _ hr hrs claims.attempt hra.symm).1
        rw [claims.intent] at this
        cases this
  | @receipt now receipt a release _ attempt dispatched flag result =>
      have hset := hs.settle attempt dispatched (receipted_identity now receipt a)
      rcases result with ⟨_, _, rfl⟩ | ⟨_, rfl⟩
      · exact hset.releaseLeases _
      · exact hset
  | @investigate now now' request principal budget a granted grants claimed reconciliations _
      claims configuration charges opened result =>
      have hopen := claims.open_pair hg
      have hext := charges.extends claims.grant.mem
      have hs₁ : Regular { s with grants := grants } := hs.extend hext rfl
      rcases result with ⟨hstate, rfl⟩ | ⟨hstate, rfl⟩
      · refine hs₁.openWitness opened claims.attempt claims.recordAttempt.symm hstate hopen ?_
        intro r hr hra
        exact claims.inactive r hr (hra.trans claims.recordAttempt)
      · have hs₂ : (Store.setAttempt { s with grants := grants } (reopened now' a)).Regular := by
          refine hs₁.restate claims.attempt rfl hopen ?_ (fun _ _ _ _ => rfl)
          intro he
          rw [hstate] at he
          cases he
        have ha' : (Store.setAttempt { s with grants := grants } (reopened now' a)).Attempt
            (reopened now' a) :=
          (attempt_setAttempt claims.attempt (reopened_identity now' a)).mpr (Or.inl rfl)
        refine hs₂.openWitness opened ha' claims.recordAttempt.symm rfl hopen ?_
        intro r hr hra
        exact claims.inactive r hr (hra.trans claims.recordAttempt)
  | @conclude now now' receipt completed release r a result _ witness claimed attempt subject flag
      finishes =>
      obtain ⟨hunknown, hopen⟩ := hs.claimed r a witness claimed attempt subject
      cases finishes with
      | released => exact (hs.conclude _ _ _ _ witness claimed attempt subject).releaseLeases _
      | kept => exact hs.conclude _ _ _ _ witness claimed attempt subject
      | reopened _ hpart =>
          rw [hunknown] at hpart
          cases hpart
      | unchanged _ _ => exact hs.closeWitness witness rfl rfl rfl finished_state
  | interrupt attempt dispatched =>
      exact hs.settle attempt dispatched (interrupted_identity _ _)
  | interruptWitness witness claimed =>
      refine hs.closeWitness witness rfl rfl rfl ?_
      simp [interruptedWitness]

omit [Platform] in
theorem Store.holding_of_open {a : AttemptRecord} (hopen : ¬ s.Closed a.pair)
    (h : a.state = .intent ∨ a.state = .dispatched ∨ a.state = .partially ∨ a.state = .unknown) :
    s.Holding a := by
  refine ⟨hopen, ?_⟩
  rcases h with h | h | h | h
  · exact Or.inl h
  · exact Or.inr (Or.inl h)
  · exact Or.inr (Or.inr (Or.inl h))
  · exact Or.inr (Or.inr (Or.inr (Or.inl h)))

/-- The law after the highest attempt of a pair got a final or uncertain state and the lease
was released or kept with the flag. -/
theorem leaseLaw_release {s s₁ : Store} (hs : s.Regular) (hl : s.LeaseLaw)
    {a a' : AttemptRecord} (hs₁ : (s.setAttempt a').Regular)
    (hs₁' : ((s.setAttempt a').releaseLeases a').Regular) (ha : s.Top a) (hid : a'.identity = a.identity)
    (hhold : s.Holding a) {release : Bool} (hf : Releases s a a'.state release)
    (hst : a'.state ≠ .intent ∧ a'.state ≠ .dispatched)
    (hresult : (release = true ∧ (a'.state ≠ .rejected ∨ ¬ s.Destination a.pair) ∧
        s₁ = (s.setAttempt a').releaseLeases a') ∨
      (¬ (release = true ∧ (a'.state ≠ .rejected ∨ ¬ s.Destination a.pair)) ∧
        s₁ = s.setAttempt a')) : s₁.LeaseLaw := by
  have hiff := hs.releases_iff ha.1 hid hf hhold.1 hst
  rcases hresult with ⟨h1, h2, rfl⟩ | ⟨h1, rfl⟩
  · refine leaseLaw_restate hs hs₁' hl ha hid (fun _ => Iff.rfl) (fun _ => Iff.rfl)
      (fun _ => Iff.rfl) (fun _ hp => hp) (fun key q hq => ?_) (fun key => ?_)
    · rw [leased_releaseLeases]
      refine ⟨fun hk => hk.1, fun hk => ⟨hk, fun hcon => hq ?_⟩⟩
      exact hcon.2.trans (AttemptRecord.pair_eq hid)
    · refine iff_of_false ?_ (fun hk => hiff.mp hk.1 ⟨h1, h2⟩)
      rw [leased_releaseLeases]
      rintro ⟨hk, hnot⟩
      refine hnot ⟨?_, (AttemptRecord.pair_eq hid).symm⟩
      exact (AttemptRecord.leaseKey_iff hid key).mpr ((hl a.pair).leaseKey hs hk ha.1 rfl)
  · exact leaseLaw_keep hs hs₁ hl ha hid (fun _ => Iff.rfl) (fun _ => Iff.rfl)
      (fun _ => Iff.rfl) (fun _ hp => hp) (fun _ _ => Iff.rfl) hhold (hiff.mpr h1)

theorem Change.leaseLaw {call : StoreCall} (hg : s.Good) (h : Change s call s') : s'.LeaseLaw := by
  have hs := hg.regular
  have hl := hg.leases
  have hs' := h.regular hg
  cases h with
  | records records budgets runs stocked frame =>
      refine leaseLaw_extend hs hl (fun b => ?_) (fun q => ?_) (fun q => ?_) records.plans
        (fun key q => ?_) <;> rw [frame] <;> rfl
  | issue inserted =>
      exact leaseLaw_extend hs hl (fun _ => Iff.rfl) (fun _ => Iff.rfl) (fun _ => Iff.rfl)
        (fun _ hp => hp) (fun _ _ => Iff.rfl)
  | @reserve now a snapshot granted remaining leases attempts proposed admits order takes places =>
      have hopen : ¬ s.Closed a.pair := by
        rintro (hh | hr)
        · exact admits.unhalted hh
        · exact admits.unretired hr
      intro q
      by_cases hq : q = a.pair
      · subst hq
        have htop : Store.Top { s with
            planLeases := leases
            grants := s.grants.replace { granted with remaining := remaining }
            attempts := attempts } a := by
          refine ⟨places.mem.mpr (Or.inl rfl), fun b hb hp => ?_⟩
          rcases places.mem.mp hb with rfl | hb
          · exact le_rfl
          · rcases order with ⟨_, hnone⟩ | ⟨c, hc, hcp, _, hci, _⟩
            · exact absurd hp (hnone b hb)
            · have := hc.2 b hb (hp.trans hcp.symm)
              omega
        refine (leaseLawAt_of_top hs' htop).mpr fun key => ?_
        refine (takes.1 key a.pair).trans ?_
        have hhold : Store.Holding { s with
            planLeases := leases
            grants := s.grants.replace { granted with remaining := remaining }
            attempts := attempts } a := holding_of_open hopen (Or.inl proposed.intent)
        constructor
        · rintro (hk | ⟨_, hk⟩)
          · refine ⟨hhold, ?_⟩
            rcases order with ⟨_, hnone⟩ | ⟨_, _, _, _, _, f, hf, hfp, _, hfs⟩
            · exact absurd hk ((hl a.pair).not_leased_of_none hnone key)
            · exact (AttemptRecord.leaseKey_of_snapshot hfs key).mp
                ((hl a.pair).leaseKey hs hk hf hfp)
          · exact ⟨hhold, hk⟩
        · exact fun hk => Or.inr ⟨rfl, hk.2⟩
      · refine Agree.leaseLawAt (s := s) ⟨fun b hb => ?_, Iff.rfl, Iff.rfl, fun key => ?_, fun _ h => h⟩
          hs (hl q)
        · refine places.mem.trans ⟨fun hcase => hcase.resolve_left ?_, Or.inr⟩
          rintro rfl
          exact hq hb.symm
        · refine (takes.1 key q).trans ⟨fun hcase => hcase.resolve_right ?_, Or.inl⟩
          exact fun hcase => hq hcase.1
  | @takeover now a snapshot granted remaining run recovery owners leases retirements attempts
      runs takeovers proposed recovers admits named owned moves retires places runInserted
      recorded =>
      have hopen : ¬ s.Closed a.pair := by
        rintro (hh | hr)
        · exact admits.unhalted hh
        · exact admits.unretired hr
      have hnone : ∀ b, s.Attempt b → b.pair ≠ a.pair := takeover_fresh hs recovers.start places
      have hown : a.pair ∉ owners := by
        intro hmem
        obtain ⟨_, _, b, hb, hp⟩ := owned _ hmem
        exact hnone b hb.attempt hp
      -- what an old owner holds is among the resources that move
      have hmoved : ∀ q ∈ owners, ∀ key, s.Leased key q → a.LeaseKey key := by
        intro q hq key hk
        obtain ⟨_, _, b, hb, hp⟩ := owned q hq
        obtain ⟨r, hr, hrk⟩ := (hl q).leaseKey hs hk hb.attempt hp
        exact ⟨r, hb.resources ▸ hr, hrk⟩
      have hret : ∀ p, (∃ row ∈ retirements, row.pair = p) ↔ s.Retired p ∨ p ∈ owners :=
        fun p => retired_of_rows retires
      intro q
      by_cases hq : q = a.pair
      · subst hq
        have htop : Store.Top { s with
            planLeases := leases
            recoverySourceRetirements := retirements
            grants := s.grants.replace { granted with remaining := remaining }
            attempts := attempts
            runs := runs
            recoveryTakeovers := takeovers } a := by
          refine ⟨places.mem.mpr (Or.inl rfl), fun b hb hp => ?_⟩
          rcases places.mem.mp hb with rfl | hb
          · exact le_rfl
          · exact absurd hp (hnone b hb)
        refine (leaseLawAt_of_top hs' htop).mpr fun key => ?_
        refine (moves.1 key a.pair).trans ?_
        constructor
        · rintro (⟨_, hk⟩ | ⟨hk, _⟩)
          · refine ⟨holding_of_open ?_ (Or.inl proposed.intent), hk⟩
            rintro (hh | hr)
            · exact hopen (Or.inl hh)
            · exact ((hret _).mp hr).elim (fun hr => hopen (Or.inr hr)) hown
          · exact absurd hk ((hl a.pair).not_leased_of_none hnone key)
        · exact fun hk => Or.inl ⟨rfl, hk.2⟩
      · by_cases hqo : q ∈ owners
        · refine leaseLawAt_of_closed (Or.inr ((hret q).mpr (Or.inr hqo))) fun key hk => ?_
          rcases (moves.1 key q).mp hk with ⟨he, _⟩ | ⟨hk, hnot⟩
          · exact hq he
          · exact hnot (hmoved q hqo key hk)
        · refine Agree.leaseLawAt (s := s) ⟨fun b hb => ?_, ?_, ?_, fun key => ?_, fun _ h => h⟩ hs (hl q)
          · refine places.mem.trans ⟨fun hcase => hcase.resolve_left ?_, Or.inr⟩
            rintro rfl
            exact hq hb.symm
          · refine or_congr Iff.rfl ((hret q).trans ⟨fun hcase => hcase.resolve_right hqo, Or.inl⟩)
          · constructor
            · rintro ⟨t, ht, htp⟩
              rcases (Table.mem_insert? recorded).mp ht with rfl | ht
              · exact absurd (htp.symm.trans recovers.pair) hq
              · exact ⟨t, ht, htp⟩
            · rintro ⟨t, ht, htp⟩
              exact ⟨t, (Table.mem_insert? recorded).mpr (Or.inr ht), htp⟩
          · refine (moves.1 key q).trans ⟨?_, fun hk => Or.inr ⟨hk, fun hkey => hqo ?_⟩⟩
            · rintro (⟨he, _⟩ | ⟨hk, _⟩)
              · exact absurd he hq
              · exact hk
            · obtain ⟨o, ho, hok⟩ := moves.2 key hkey
              rw [leased_inj hk hok]
              exact ho
  | @abandon record s₁ leases abandonments unhalted noDestination rejects resolved settled
      released recorded =>
      have hback := RejectsIntent.back hs.coherent rejects
      have hframe := hback.2.1
      have hhalt : ∀ p, (∃ row ∈ abandonments, row.pair = p) ↔ p = record.pair ∨ s.Halted p :=
        fun p => halted_of_rows recorded
      intro q
      by_cases hq : q = record.pair
      · refine leaseLawAt_of_closed (Or.inl ((hhalt q).mpr (Or.inl hq))) fun key hk => ?_
        exact ((released key q).mp hk).2 hq
      · refine Agree.leaseLawAt (s := s) ⟨fun b hb => ?_, ?_, ?_, fun key => ?_, ?_⟩ hs (hl q)
        · constructor
          · intro hm
            obtain ⟨c, hc, hid, rfl | ⟨hp, _⟩⟩ := hback.2.2 b hm
            · exact hc
            · exact absurd (hb.symm.trans ((AttemptRecord.pair_eq hid).trans hp)) hq
          · intro hm
            obtain ⟨c, hc, hid, rfl | ⟨hp, _⟩⟩ := RejectsIntent.forth rejects hm
            · exact hc
            · exact absurd (hb.symm.trans hp) hq
        · refine or_congr ((hhalt q).trans ⟨fun hcase => hcase.resolve_left hq, Or.inr⟩) ?_
          rw [hframe]
          rfl
        · rw [hframe]
          rfl
        · exact (released key q).trans ⟨fun hk => hk.1, fun hk => ⟨hk, hq⟩⟩
        · rw [hframe]
          exact fun _ hp => hp
  | @dispatch now agent a claimed claims =>
      have hopen : ¬ s.Closed a.pair := by
        rintro (hh | hr)
        · exact claims.unhalted hh
        · exact claims.unretired hr
      have htop := hs.top_of_not_completed claims.attempt (by rw [claims.intent]; decide)
      refine leaseLaw_keep hs hs' hl htop claims.identity (fun _ => Iff.rfl) (fun _ => Iff.rfl)
        (fun _ => Iff.rfl) (fun _ hp => hp) (fun _ _ => Iff.rfl)
        (holding_of_open hopen (Or.inl claims.intent)) (holding_of_open ?_ ?_)
      · rw [AttemptRecord.pair_eq claims.identity]
        exact hopen
      · exact Or.inr (Or.inl claims.dispatched)
  | @receipt now receipt a release _ attempt dispatched flag result =>
      have hopen := hs.open_of_dispatched attempt dispatched
      have htop := hs.top_of_not_completed attempt (by rw [dispatched]; decide)
      have hset := hs.settle attempt dispatched (receipted_identity now receipt a)
      exact leaseLaw_release hs hl hset (hset.releaseLeases _) htop
        (receipted_identity now receipt a) (holding_of_open hopen (Or.inr (Or.inl dispatched)))
        flag receipt.state_settled result
  | @investigate now now' request principal budget a granted grants claimed reconciliations _
      claims configuration charges opened result =>
      have hopen := claims.open_pair hg
      have hplans : ∀ plan ∈ s.plans, plan ∈ s.plans := fun _ hp => hp
      rcases result with ⟨_, rfl⟩ | ⟨hstate, rfl⟩
      · exact leaseLaw_extend hs hl (fun _ => Iff.rfl) (fun _ => Iff.rfl) (fun _ => Iff.rfl)
          hplans (fun _ _ => Iff.rfl)
      · have htop := hs.top_of_not_completed claims.attempt (by rw [hstate]; decide)
        exact leaseLaw_keep hs hs' hl htop (reopened_identity now' a) (fun _ => Iff.rfl)
          (fun _ => Iff.rfl) (fun _ => Iff.rfl) hplans (fun _ _ => Iff.rfl)
          (holding_of_open hopen (Or.inr (Or.inr (Or.inl hstate))))
          (holding_of_open hopen (Or.inr (Or.inr (Or.inr rfl))))
  | @conclude now now' receipt completed release r a result _ witness claimed attempt subject flag
      finishes =>
      obtain ⟨hunknown, hopen⟩ := hs.claimed r a witness claimed attempt subject
      have hs₁ : (s.setReconciliation (finished now receipt completed r)).Regular :=
        hs.closeWitness witness rfl rfl rfl finished_state
      have hl₁ : (s.setReconciliation (finished now receipt completed r)).LeaseLaw :=
        leaseLaw_extend hs hl (fun _ => Iff.rfl) (fun _ => Iff.rfl) (fun _ => Iff.rfl)
          (fun _ hp => hp) (fun _ _ => Iff.rfl)
      have htop := hs₁.top_of_not_completed attempt (by rw [hunknown]; decide)
      have hhold := holding_of_open hopen (Or.inr (Or.inr (Or.inr hunknown)))
      have hset := hs.conclude now now' receipt completed witness claimed attempt subject
      cases finishes with
      | released =>
          exact leaseLaw_release hs₁ hl₁ hset (hset.releaseLeases _) htop rfl hhold (flag rfl)
            (by simp [completedBy]) (Or.inl ⟨rfl, Or.inl (by simp [completedBy]), rfl⟩)
      | kept =>
          exact leaseLaw_release hs₁ hl₁ hset (hset.releaseLeases _) htop rfl hhold (flag rfl)
            (by simp [completedBy]) (Or.inr ⟨by simp, rfl⟩)
      | reopened _ hpart =>
          rw [hunknown] at hpart
          cases hpart
      | unchanged _ _ => exact hl₁
  | @interrupt now a attempt dispatched =>
      have hopen := hs.open_of_dispatched attempt dispatched
      have htop := hs.top_of_not_completed attempt (by rw [dispatched]; decide)
      exact leaseLaw_keep hs hs' hl htop (interrupted_identity now a) (fun _ => Iff.rfl)
        (fun _ => Iff.rfl) (fun _ => Iff.rfl) (fun _ hp => hp) (fun _ _ => Iff.rfl)
        (holding_of_open hopen (Or.inr (Or.inl dispatched)))
        (holding_of_open hopen (Or.inr (Or.inr (Or.inr rfl))))
  | interruptWitness witness claimed =>
      exact leaseLaw_extend hs hl (fun _ => Iff.rfl) (fun _ => Iff.rfl) (fun _ => Iff.rfl)
        (fun _ hp => hp) (fun _ _ => Iff.rfl)

theorem Change.stocked {call : StoreCall} (hg : s.Good) (h : Change s call s') : s'.Stocked := by
  have hs := hg.stocked
  cases h with
  | records records budgets runs stocked frame => exact stocked hs
  | takeover proposed recovers admits named owned moves retires places runInserted recorded =>
      refine ⟨hs.plans, hs.proposals, fun r hr => ?_⟩
      rcases (Table.mem_insert? runInserted).mp hr with rfl | hr
      · refine ⟨_, proposed.plan.1, proposed.plan.2.1.trans ?_, recovers.runSteps⟩
        exact (congrArg Prod.snd recovers.runPair).symm
      · exact hs.runs r hr
  | abandon unhalted noDestination rejects resolved settled released recorded =>
      have hframe := (RejectsIntent.back hg.regular.coherent rejects).2.1
      rw [hframe]
      exact ⟨hs.plans, hs.proposals, hs.runs⟩
  | receipt attempt dispatched flag result =>
      rcases result with ⟨_, _, rfl⟩ | ⟨_, rfl⟩
      · exact ⟨hs.plans, hs.proposals, hs.runs⟩
      · exact ⟨hs.plans, hs.proposals, hs.runs⟩
  | investigate claims configuration charges opened result =>
      rcases result with ⟨_, rfl⟩ | ⟨_, rfl⟩
      · exact ⟨hs.plans, hs.proposals, hs.runs⟩
      · exact ⟨hs.plans, hs.proposals, hs.runs⟩
  | conclude witness claimed attempt subject flag finishes =>
      cases finishes <;> exact ⟨hs.plans, hs.proposals, hs.runs⟩
  | _ => exact ⟨hs.plans, hs.proposals, hs.runs⟩

/-- Every change keeps the invariant. -/
theorem Change.good {call : StoreCall} (hg : s.Good) (h : Change s call s') :
    s'.Good := ⟨h.regular hg, h.leaseLaw hg, h.stocked hg⟩

end keeping

end Cheirismos
