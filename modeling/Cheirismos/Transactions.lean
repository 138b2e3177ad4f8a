import Cheirismos.Schema

/-! # The transactions of the store

The methods of `SqliteStore`, each as one `Tx`: a method holds the connection for its whole
body, so it is one atomic step, and an error leaves no change.  (`advance_run` takes the
connection twice; it is the two steps `run` and `saveRun`, put together by the supervisor.)

`clock n` is the `n`-th reading of `Timestamp::now()` inside one method.  Checks are made in the
order of the source, and the checks that several methods repeat are one definition:
`activeGrant` (the grant is the caller's, for this profile, unrevoked and unexpired),
`pinnedProfile` and `pinnedPlan` (the stored record still has the digests), and
`requireLeases` (the pair owns every leased resource). -/

namespace Cheirismos

structure AdmissionSnapshot where
  agent : PrincipalId
  profile : CommissionedProfile
  plan : ReviewedPlan

structure ClaimedDispatch where
  attempt : AttemptRecord
  grant : Grant
  profile : CommissionedProfile
  plan : ReviewedPlan

structure ClaimedReconciliation where
  record : ReconciliationRecord
  dispatch : ClaimedDispatch

inductive ReconciliationClaim where
  | existing (record : ReconciliationRecord)
  | claimed (claim : ClaimedReconciliation)

inductive ReservationOutcome where
  | existing (attempt : AttemptRecord)
  | reserved (attempt : AttemptRecord)

/-- The attempt an outcome is about. -/
def ReservationOutcome.attempt : ReservationOutcome → AttemptRecord
  | existing attempt => attempt
  | reserved attempt => attempt

variable [Platform]

/-! ### Saving records -/

/-- Insert a row; if its key is taken, the row there has to be the same. -/
def insertOnce {κ ρ : Type} [DecidableEq κ] {key : ρ → κ} (table : Store → Table key)
    (put : Table key → Store → Store) (row : ρ) (same : ρ → Bool) (kind id : String) :
    Tx Unit := do
  if ← insertOrNothing table put row then
    return ()
  let existing ← Tx.required ((table (← get)).find? (key row)) (.missing kind id)
  Tx.refuse (same existing = false) (.conflict kind id)

def saveProfile (profile : CommissionedProfile) : Tx Unit :=
  insertOnce Store.profiles (fun t s => { s with profiles := t }) profile
    (fun existing => Platform.encodeProfile existing == Platform.encodeProfile profile)
    "immutable record" profile.id.value

def saveGrant (grant : Grant) : Tx Unit :=
  insertOnce Store.grants (fun t s => { s with grants := t }) grant
    (fun existing => Platform.encodeGrant existing == Platform.encodeGrant grant)
    "immutable record" grant.id.value

def saveProposal (proposal : PlanProposal) : Tx Unit :=
  insertOnce Store.proposals (fun t s => { s with proposals := t }) proposal
    (fun existing => existing.digest == proposal.digest)
    "proposal" proposal.id.value

def createRun (run : PlanRun) : Tx Unit :=
  insertOnce Store.runs (fun t s => { s with runs := t }) run
    (fun existing => existing.agent == run.agent && existing.grant == run.grant &&
      existing.plan == run.plan && existing.steps == run.steps)
    "run" run.id.value

/-- `save_entity` on the runs. -/
def saveRun (run : PlanRun) : Tx Unit :=
  modify fun s => { s with runs := s.runs.upsert run }

def revokeGrant (id : GrantId) : Tx Unit := do
  let grant ← Tx.required ((← get).grants.find? id) (.missing "grant" id.value)
  updateGrant { grant with revoked := true }

def deleteProposal (id : PlanId) : Tx Unit :=
  modify fun s => { s with
    proposals := s.proposals.deleteWhere (fun row => decide (row.id = id)) }

def consumeReviewedProposal (proposalId : PlanId) (expectedDigest : ArtifactDigest)
    (plan : ReviewedPlan) : Tx Unit := do
  let proposal ← Tx.required ((← get).proposals.find? proposalId)
    (.missing "proposal" proposalId.value)
  Tx.refuse (proposal.digest ≠ expectedDigest) (.reviewDigestMismatch proposalId)
  insertOnce Store.plans (fun t s => { s with plans := t }) plan
    (fun existing => existing.digest == plan.digest) "plan" plan.id.value
  modify fun s => { s with
    proposals := s.proposals.deleteWhere (fun row => decide (row.id = proposalId)) }

/-- The completed steps in front of the first one that is not. -/
def completedSteps (s : Store) : List (AttemptId × RequestId) → ℕ
  | [] => 0
  | (attempt, _) :: steps =>
      match s.loadAttempt attempt with
      | some record => if record.state = .completed then completedSteps s steps + 1 else 0
      | none => 0

def repairRunCursor (id : RequestId) : Tx PlanRun := do
  let run ← Tx.required ((← get).runs.find? id) (.missing "run" id.value)
  let completed := completedSteps (← get) run.steps
  if run.cursor < completed then
    let run := { run with cursor := completed }
    updateRun run
    return run
  else return run

/-! ### Shared checks -/

def activeGrant (clock : ℕ → Timestamp) (id : GrantId) (agent : PrincipalId)
    (profile : ProfileId) : Tx Grant := do
  let grant ← Tx.required ((← get).grants.find? id) (.missing "grant" id.value)
  Tx.refuse (grant.agent ≠ agent ∨ grant.profile ≠ profile) (.conflict "grant" grant.id.value)
  Tx.refuse (grant.revoked = true) (.revoked grant.id)
  let expiresAt ← Tx.required (Platform.parseTimestamp grant.expiresAt) (.expired grant.id)
  Tx.refuse (expiresAt ≤ clock 0) (.expired grant.id)
  return grant

def pinnedProfile (id : ProfileId) (digests : List ArtifactDigest) : Tx CommissionedProfile := do
  let profile ← Tx.required ((← get).profiles.find? id) (.missing "profile" id.value)
  Tx.refuse (∃ digest ∈ digests, profile.digest ≠ digest) (.conflict "profile" id.value)
  return profile

def pinnedPlan (id : PlanId) (digests : List ArtifactDigest) : Tx ReviewedPlan := do
  let plan ← Tx.required ((← get).plans.find? id) (.missing "plan" id.value)
  Tx.refuse (∃ digest ∈ digests, plan.digest ≠ digest) (.conflict "plan" id.value)
  return plan

/-- Every resource is leased to the pair. -/
def requireLeases (pair : Pair) : List PhysicalResource → Tx Unit
  | [] => return ()
  | resource :: resources => do
      let owner := (← get).planLeases.find? resource.key
      Tx.refuse (owner.map LeaseRow.pair ≠ some pair) (.leaseBusy resource.key)
      requireLeases pair resources

def debit (grant : Grant) (amount : Budget) : Tx Grant := do
  let remaining ← Tx.required (grant.remaining.checkedSub amount) (.budgetExhausted grant.id)
  let grant := { grant with remaining := remaining }
  updateGrant grant
  return grant

/-! ### Reservation -/

/-- The index the next step of the pair must have. -/
def nextStep (pair : Pair) : Tx ℕ := do
  match ((← get).stepRows pair).getLast? with
  | none => return 0
  | some row =>
      Tx.refuse (row.state ≠ "completed") .outOfOrder
      return (← storedIndex "attempt operation index" row.operationIndex) + 1

/-- A later step repeats the snapshot of the first. -/
def requireRunSnapshot (proposed : AttemptRecord) : Tx Unit := do
  let first ← Tx.required ((← get).attemptAtStep proposed.pair 0)
    (.sqlite "Query returned no rows")
  Tx.refuse (first.profile ≠ proposed.profile ∨ first.profileDigest ≠ proposed.profileDigest ∨
      first.leasedResources ≠ proposed.leasedResources ∨ first.planDigest ≠ proposed.planDigest)
    (.conflict "run snapshot" proposed.plan.value)

/-- Lease every resource to the pair, unless another pair holds it. -/
def takeLeases (pair : Pair) : List PhysicalResource → Tx Unit
  | [] => return ()
  | resource :: resources => do
      match (← get).planLeases.find? resource.key with
      | some lease => Tx.refuse (lease.pair ≠ pair) (.leaseBusy resource.key)
      | none =>
          insertRow Store.planLeases (fun t s => { s with planLeases := t })
            ⟨resource.key, pair⟩ "plan_leases.resource_key"
      takeLeases pair resources

/-- `reserve` for a request id without an attempt. -/
def reserveNew (clock : ℕ → Timestamp) (proposed : AttemptRecord) (snapshot : AdmissionSnapshot) :
    Tx Unit := do
  Tx.refuse ((← get).haltedPairExists proposed.pair = true)
    (.conflict "halted grant plan" proposed.plan.value)
  Tx.refuse ((← get).recoverySourceRetired proposed.pair = true)
    (.conflict "retired recovery source" proposed.plan.value)
  let grant ← activeGrant clock proposed.grant snapshot.agent proposed.profile
  let _ ← pinnedProfile proposed.profile [proposed.profileDigest, snapshot.profile.digest]
  let _ ← pinnedPlan proposed.plan [proposed.planDigest, snapshot.plan.digest]
  let expected ← nextStep proposed.pair
  Tx.refuse (proposed.operationIndex ≠ expected) .outOfOrder
  if 0 < proposed.operationIndex then
    requireRunSnapshot proposed
  takeLeases proposed.pair proposed.leasedResources.elems
  let _ ← debit grant proposed.reserved
  let index ← sqliteIndex "attempt operation index" proposed.operationIndex
  insertAttempt { AttemptRow.of proposed with operationIndex := index }

def reserve (clock : ℕ → Timestamp) (proposed : AttemptRecord) (snapshot : AdmissionSnapshot) :
    Tx ReservationOutcome := do
  match (← get).loadAttemptByRequest proposed.request with
  | some existing =>
      Tx.refuse (existing.id ≠ proposed.id ∨ existing.grant ≠ proposed.grant ∨
          existing.plan ≠ proposed.plan ∨ existing.operationIndex ≠ proposed.operationIndex ∨
          existing.planDigest ≠ proposed.planDigest)
        (.conflict "request" proposed.request.value)
      return .existing existing
  | none =>
      reserveNew clock proposed snapshot
      return .reserved proposed

/-! ### Takeover -/

def sameRecoveryTakeover (left right : RecoveryTakeoverRecord) : Bool :=
  left.request == right.request && left.run == right.run &&
    left.firstAttempt == right.firstAttempt && left.unresolved == right.unresolved &&
    left.grant == right.grant && left.plan == right.plan && left.resources == right.resources &&
    left.justificationEvidence == right.justificationEvidence &&
    left.authorizedBy == right.authorizedBy

/-- The attempt can be a source of a takeover with these resources. -/
def admitSource (resources : OrdSet PhysicalResource) (sourceId : AttemptId) :
    Tx AttemptRecord := do
  let source ← Tx.required ((← get).loadAttempt sourceId)
    (.missing "unresolved attempt" sourceId.value)
  let inheritedCarrier := (← get).recoveryDestinationExists source.pair
  Tx.refuse ((← get).recoverySourceRetired source.pair = true)
    (.conflict "retired recovery source" source.plan.value)
  Tx.refuse ((← get).sourcePairHasDispatched source.pair = true) (.notDispatchable source.id)
  Tx.refuse ((← get).sourcePairHasActiveReconciliation source.pair = true)
    (.conflict "active reconciliation" source.plan.value)
  let ordinaryUncertainty := source.state = .partially ∨ source.state = .unknown
  let inheritedPreEffect := inheritedCarrier = true ∧
    (source.state = .intent ∨ source.state = .rejected ∨ source.state = .completed)
  Tx.refuse (¬ ordinaryUncertainty ∧ ¬ inheritedPreEffect) (.notDispatchable source.id)
  Tx.refuse (source.leasedResources ≠ resources) (.conflict "recovery resources" source.id.value)
  Tx.refuse (((← get).loadActiveReconciliation source.id).isSome = true)
    (.conflict "active reconciliation" source.id.value)
  return source

/-- Check the sources in order and collect their pairs. -/
def admitSources (resources : OrdSet PhysicalResource) : List AttemptId → Tx (List Pair)
  | [] => return []
  | sourceId :: sources => do
      let source ← admitSource resources sourceId
      let owners ← admitSources resources sources
      return owners.insert source.pair

/-- Move the lease on every resource from an old owner to the pair. -/
def moveLeases (owners : List Pair) (pair : Pair) : List PhysicalResource → Tx Unit
  | [] => return ()
  | resource :: resources => do
      let owner ← Tx.required ((← get).planLeases.find? resource.key) (.leaseBusy resource.key)
      Tx.refuse (owner.pair ∉ owners) (.leaseBusy resource.key)
      modify fun s => { s with planLeases := s.planLeases.replace ⟨resource.key, pair⟩ }
      moveLeases owners pair resources

/-- Retire the old owners. -/
def retireSources (request : RequestId) : List Pair → Tx Unit
  | [] => return ()
  | owner :: owners => do
      insertRow Store.recoverySourceRetirements
        (fun t s => { s with recoverySourceRetirements := t }) ⟨owner, request⟩
        "recovery_source_retirements.grant_id, recovery_source_retirements.plan_id"
      retireSources request owners

/-- `takeover_recovery` past its two idempotency exits. -/
def transferRecovery (clock : ℕ → Timestamp) (proposed : AttemptRecord)
    (snapshot : AdmissionSnapshot) (run : PlanRun) (recovery : RecoveryTakeoverRecord) :
    Tx Unit := do
  Tx.refuse ((← get).haltedPairExists proposed.pair = true ∨
      (← get).recoverySourceRetired proposed.pair = true)
    (.conflict "closed recovery authority" proposed.plan.value)
  let grant ← activeGrant clock proposed.grant snapshot.agent proposed.profile
  let _ ← pinnedProfile proposed.profile [proposed.profileDigest, snapshot.profile.digest]
  let _ ← pinnedPlan proposed.plan [proposed.planDigest, snapshot.plan.digest]
  let owners ← admitSources proposed.leasedResources recovery.unresolved
  moveLeases owners proposed.pair proposed.leasedResources.elems
  retireSources recovery.request owners
  let _ ← debit grant proposed.reserved
  insertAttempt { AttemptRow.of proposed with operationIndex := 0 }
  insertRow Store.runs (fun t s => { s with runs := t }) run "runs.id"
  insertRow Store.recoveryTakeovers (fun t s => { s with recoveryTakeovers := t }) recovery
    "recovery_takeovers.request_id"

def takeoverRecovery (clock : ℕ → Timestamp) (proposed : AttemptRecord)
    (snapshot : AdmissionSnapshot) (run : PlanRun) (recovery : RecoveryTakeoverRecord) :
    Tx ReservationOutcome := do
  match (← get).recoveryTakeovers.find? recovery.request with
  | some existing =>
      Tx.refuse (sameRecoveryTakeover existing recovery = false)
        (.conflict "recovery takeover" recovery.request.value)
      let attempt ← Tx.required ((← get).loadAttempt recovery.firstAttempt)
        (.missing "recovery attempt" recovery.firstAttempt.value)
      return .existing attempt
  | none =>
      match (← get).loadAttemptByRequest proposed.request with
      | some existing =>
          if existing.id = proposed.id ∧ existing.grant = proposed.grant ∧
              existing.plan = proposed.plan then
            return .existing existing
          else throw (.conflict "request" proposed.request.value)
      | none =>
          transferRecovery clock proposed snapshot run recovery
          return .reserved proposed

/-! ### Abandonment -/

def sameHaltedRunAbandonment (left right : HaltedRunAbandonmentRecord) : Bool :=
  left.request == right.request && left.run == right.run && left.grant == right.grant &&
    left.plan == right.plan && left.resources == right.resources &&
    left.justificationEvidence == right.justificationEvidence &&
    left.authorizedBy == right.authorizedBy

/-- Reject the attempts that were never dispatched; an unresolved one is an error. -/
def closeAttempts (clock : ℕ → Timestamp) : ℕ → List AttemptRecord → Tx Unit
  | _, [] => return ()
  | n, attempt :: attempts =>
      match attempt.state with
      | .completed | .rejected => closeAttempts clock n attempts
      | .intent => do
          updateAttempt { attempt with
            state := .rejected
            receipt := some (.rejected "operator abandoned halted run before dispatch")
            updatedAt := Platform.renderTimestamp (clock n) }
          closeAttempts clock (n + 1) attempts
      | .dispatched | .partially | .unknown => throw (.notDispatchable attempt.id)

/-- `abandon_halted_run` for a request id without a record. -/
def abandonNew (clock : ℕ → Timestamp) (proposed : HaltedRunAbandonmentRecord) : Tx Unit := do
  Tx.refuse (((← get).loadHaltedRunAbandonmentByRun proposed.run).isSome = true)
    (.conflict "halted run abandonment" proposed.run.value)
  Tx.refuse ((← get).haltedPairExists proposed.pair = true)
    (.conflict "halted grant plan" proposed.plan.value)
  Tx.refuse ((← get).recoveryDestinationExists proposed.pair = true)
    (.conflict "recovery destination abandonment" proposed.plan.value)
  let run ← Tx.required ((← get).runs.find? proposed.run) (.missing "run" proposed.run.value)
  Tx.refuse (run.grant ≠ proposed.grant ∨ run.plan ≠ proposed.plan)
    (.conflict "run" proposed.run.value)
  let attempts := (← get).attemptsForPair proposed.pair
  Tx.refuse (attempts = []) (.missing "attempt for halted run" proposed.run.value)
  closeAttempts clock 0 attempts
  let resources := (← get).leaseKeysForPair proposed.pair
  Tx.refuse (resources ≠ proposed.resources) (.conflict "halted run resources" proposed.run.value)
  modify (Store.dropLeases · proposed.pair (fun key => decide (key ∈ resources)))
  insertHaltedRunAbandonment proposed

def abandonHaltedRun (clock : ℕ → Timestamp) (proposed : HaltedRunAbandonmentRecord) :
    Tx HaltedRunAbandonmentRecord := do
  match (← get).haltedRunAbandonments.find? proposed.request with
  | some existing =>
      Tx.refuse (sameHaltedRunAbandonment existing proposed = false)
        (.conflict "halted run abandonment" proposed.request.value)
      return existing
  | none =>
      abandonNew clock proposed
      return proposed

/-! ### Dispatch -/

def claimDispatch (clock : ℕ → Timestamp) (id : AttemptId) (agent : PrincipalId) :
    Tx ClaimedDispatch := do
  let attempt ← Tx.required ((← get).loadAttempt id) (.missing "attempt" id.value)
  Tx.refuse (attempt.state ≠ .intent) (.notDispatchable id)
  Tx.refuse ((← get).haltedPairExists attempt.pair = true) (.notDispatchable id)
  Tx.refuse ((← get).recoverySourceRetired attempt.pair = true) (.notDispatchable id)
  let grant ← activeGrant clock attempt.grant agent attempt.profile
  let profile ← pinnedProfile attempt.profile [attempt.profileDigest]
  let plan ← pinnedPlan attempt.plan [attempt.planDigest]
  requireLeases attempt.pair attempt.leasedResources.elems
  let ordinal ← Tx.required (u64CheckedAdd attempt.evidenceOrdinal 1)
    (.conflict "attempt" attempt.id.value)
  let attempt := { attempt with
    state := .dispatched
    evidenceOrdinal := ordinal
    evidenceChallenge := sha256Text (attempt.id.value ++ ":" ++ attempt.updatedAt ++ ":" ++
      toString ordinal.toNat)
    updatedAt := Platform.renderTimestamp (clock 1) }
  updateAttempt attempt
  return ⟨attempt, grant, profile, plan⟩

def recordReceipt (clock : ℕ → Timestamp) (id : AttemptId) (receipt : OperationReceipt)
    (releaseLease : Bool) : Tx AttemptRecord := do
  let attempt ← Tx.required ((← get).loadAttempt id) (.missing "attempt" id.value)
  Tx.refuse (attempt.state ≠ .dispatched) (.notDispatchable id)
  let attempt := { attempt with
    state := receipt.state
    receipt := some receipt
    updatedAt := Platform.renderTimestamp (clock 0) }
  updateAttempt attempt
  if releaseLease = true ∧ (attempt.state ≠ .rejected ∨
      (← get).recoveryDestinationExists attempt.pair = false) then
    releaseLeases attempt
  return attempt

/-! ### Reconciliation -/

/-- No reconciliation of the attempt is open. -/
def requireInactive (attemptId : AttemptId) : Tx Unit := do
  match (← get).loadActiveReconciliation attemptId with
  | some existing => throw (.conflict "active reconciliation" existing.request.value)
  | none => return ()

/-- The grant and the instrument allow a configuration during reconciliation. -/
def requireConfigurationAuthority (attempt : AttemptRecord) (grant : Grant)
    (profile : CommissionedProfile) (plan : ReviewedPlan) : Tx Unit := do
  let operation ← Tx.required plan.operations[attempt.operationIndex]?
    (.conflict "plan operation" attempt.plan.value)
  let instrument ← Tx.required operation.operation.instrument
    (.conflict "instrument configuration" attempt.id.value)
  let binding ← Tx.required (profile.instrument instrument)
    (.conflict "instrument" instrument.value)
  Tx.refuse (.instrumentConfigure ∉ grant.effectPermissions ∨
      .instrumentConfigure ∉ binding.qualifiedEffectPermissions)
    (.conflict "instrument configuration authority" attempt.id.value)

/-- The same, if the reconciliation configures at all. -/
def admitConfiguration (configurationBudget : Option Budget) (attempt : AttemptRecord)
    (grant : Grant) (profile : CommissionedProfile) (plan : ReviewedPlan) : Tx Unit :=
  match configurationBudget with
  | some _ => requireConfigurationAuthority attempt grant profile plan
  | none => return ()

/-- Charge the configuration, if there is one. -/
def chargeConfiguration (configurationBudget : Option Budget) (grant : Grant) : Tx Grant :=
  match configurationBudget with
  | some budget => debit grant budget
  | none => return grant

/-- An investigation turns a partial effect into an unknown one. -/
def reopen (now : Timestamp) (attempt : AttemptRecord) : Tx AttemptRecord := do
  if attempt.state = .partially then
    let attempt := { attempt with
      state := .unknown
      updatedAt := Platform.renderTimestamp now }
    updateAttempt attempt
    return attempt
  else return attempt

/-- `COALESCE(MAX(ordinal) + 1, 0)`; past the 64-bit range SQLite gives a real number. -/
def nextOrdinal (s : Store) (attempt : AttemptId) : Except StoreError ℤ :=
  match ((s.reconciliations.rows.filter (fun row => row.attemptId = attempt)).map
      ReconciliationRow.ordinal).max? with
  | none => .ok 0
  | some ordinal =>
      if ordinal + 1 < 2 ^ 63 then .ok (ordinal + 1)
      else .error (.sqlite "Invalid column type Real at index: 0")

/-- The witness that a claim opens. -/
def claimedRecord (attempt : AttemptId) (request : RequestId) (principal : PrincipalId)
    (ordinal : ℕ) (now : String) : ReconciliationRecord where
  request := request
  attempt := attempt
  ordinal := ordinal
  challenge := sha256Text ("reconcile:" ++ attempt.value ++ ":" ++ request.value ++ ":" ++
    toString ordinal ++ ":" ++ now)
  principal := principal
  state := .claimed
  receipt := none
  startedAt := now
  endedAt := none

/-- `claim_reconciliation` for a request id without a record. -/
def claimNewReconciliation (clock : ℕ → Timestamp) (attemptId : AttemptId) (request : RequestId)
    (principal : PrincipalId) (configurationBudget : Option Budget) :
    Tx ClaimedReconciliation := do
  requireInactive attemptId
  let attempt ← Tx.required ((← get).loadAttempt attemptId) (.missing "attempt" attemptId.value)
  Tx.refuse (attempt.state ≠ .unknown ∧ attempt.state ≠ .partially) (.notDispatchable attempt.id)
  let grant ← activeGrant clock attempt.grant principal attempt.profile
  let profile ← pinnedProfile attempt.profile [attempt.profileDigest]
  let plan ← pinnedPlan attempt.plan [attempt.planDigest]
  admitConfiguration configurationBudget attempt grant profile plan
  requireLeases attempt.pair attempt.leasedResources.elems
  let updatedGrant ← chargeConfiguration configurationBudget grant
  let storedOrdinal ← (nextOrdinal (← get) attempt.id : Except StoreError ℤ)
  let ordinal ← storedUnsigned "reconciliation ordinal" storedOrdinal
  let record := claimedRecord attempt.id request principal ordinal
    (Platform.renderTimestamp (clock 1))
  let index ← sqliteUnsigned "reconciliation ordinal" ordinal
  insertReconciliation { ReconciliationRow.of record with ordinal := index }
  let attempt ← reopen (clock 2) attempt
  return ⟨record, ⟨attempt, updatedGrant, profile, plan⟩⟩

def claimReconciliation (clock : ℕ → Timestamp) (attemptId : AttemptId) (request : RequestId)
    (principal : PrincipalId) (configurationBudget : Option Budget) :
    Tx ReconciliationClaim := do
  match (← get).loadReconciliationByRequest request with
  | some existing =>
      Tx.refuse (existing.attempt ≠ attemptId ∨ existing.principal ≠ principal)
        (.conflict "reconciliation request" request.value)
      return .existing existing
  | none => return .claimed (← claimNewReconciliation clock attemptId request principal
      configurationBudget)

def finishReconciliation (clock : ℕ → Timestamp) (request : RequestId)
    (receipt : Option OperationReceipt) (completed releaseLease : Bool) : Tx AttemptRecord := do
  let record ← Tx.required ((← get).loadReconciliationByRequest request)
    (.missing "reconciliation" request.value)
  Tx.refuse (record.state ≠ .claimed) (.notDispatchable record.attempt)
  let attempt ← Tx.required ((← get).loadAttempt record.attempt)
    (.missing "attempt" record.attempt.value)
  updateReconciliation { record with
    receipt := receipt
    endedAt := some (Platform.renderTimestamp (clock 0))
    state := if completed then .completed else if receipt.isSome then .unknown else .failed }
  if completed then
    let attempt := { attempt with
      state := .completed
      updatedAt := Platform.renderTimestamp (clock 1) }
    updateAttempt attempt
    if releaseLease then
      releaseLeases attempt
    return attempt
  else reopen (clock 1) attempt

end Cheirismos
