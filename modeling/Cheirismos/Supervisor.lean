import Cheirismos.Interlocks

/-! # The operations of the supervisor

`supervisor/mod.rs`: the public operations of `Supervisor`, each as a program over the
surroundings.  A program makes the requests of the source in the source's order, and each
request is a step of its own: other clients may act between any two of them.

Tickets are the in-memory capabilities that `submit`, `admit_plan`, `takeover_recovery`,
`resume_plan` and `execute_next` hand out. -/

namespace Cheirismos

/-! ### Requests, tickets and replies -/

structure SubmitRequest where
  attempt : AttemptId
  request : RequestId
  grant : GrantId
  plan : PlanId
  operationIndex : ℕ

structure PlanAdmissionRequest where
  run : RequestId
  firstAttempt : AttemptId
  grant : GrantId
  plan : PlanId

structure RecoveryTakeoverRequest where
  request : RequestId
  run : RequestId
  firstAttempt : AttemptId
  unresolved : List AttemptId
  grant : GrantId
  plan : PlanId
  justificationEvidence : ArtifactDigest

structure HaltedRunAbandonmentRequest where
  request : RequestId
  run : RequestId
  grant : GrantId
  plan : PlanId
  justificationEvidence : ArtifactDigest

structure DispatchTicket where
  attempt : AttemptId
deriving DecidableEq

structure PlanTicket where
  run : RequestId
  grant : GrantId
  plan : PlanId
  dispatch : DispatchTicket
  operationIndex : ℕ
deriving DecidableEq

structure PlanProgress where
  attempt : AttemptRecord
  next : Option PlanTicket

inductive Submission where
  | existing (attempt : AttemptRecord)
  | admitted (ticket : DispatchTicket)

variable [Platform]

/-! ### Loading what must exist -/

namespace Sup

def profile (id : ProfileId) : Sup CommissionedProfile := do
  required (← store (.profile id)) (missing "profile" id.value)

def grant (id : GrantId) : Sup Grant := do
  required (← store (.grant id)) (missing "grant" id.value)

def plan (id : PlanId) : Sup ReviewedPlan := do
  required (← store (.plan id)) (missing "plan" id.value)

def run (id : RequestId) : Sup PlanRun := do
  required (← store (.run id)) (missing "run" id.value)

def attempt (id : AttemptId) : Sup AttemptRecord := do
  required (← store (.attempt id)) (missing "attempt" id.value)

end Sup

namespace Supervisor

/-! ### Authority records -/

def commission (authority : Principal) (profile : CommissionedProfile) : Sup Unit := do
  Sup.check (requireAuthority authority)
  Sup.store (.saveProfile profile)

def issueGrant (authority agent : Principal) (grant : Grant) : Sup Unit := do
  Sup.check (requireAuthority authority)
  Sup.refuse (agent.role ≠ .agent ∨ grant.agent ≠ agent.id ∨ grant.issuedBy ≠ authority.id)
    .grantPrincipal
  let profile ← Sup.profile grant.profile
  Sup.refuse (profile.target ≠ grant.target) (.outOfBounds "grant target differs from profile")
  Sup.store (.saveGrant grant)

def revokeGrant (authority : Principal) (id : GrantId) : Sup Unit := do
  Sup.check (requireAuthority authority)
  Sup.store (.revokeGrant id)

def proposePlan (agent : Principal) (proposal : PlanProposal) : Sup PlanProposal := do
  Sup.check (requireAgent agent)
  Sup.refuse (proposal.requestedBy ≠ agent.id ∨ proposal.operations = []) .unreviewedPlan
  Sup.store (.saveProposal proposal)
  return proposal

/-- The plan that a reviewer's approval of a proposal makes. -/
def reviewed (proposal : PlanProposal) (reviewer : PrincipalId) : ReviewedPlan :=
  let pending : ReviewedPlan :=
    { proposal with reviewedBy := reviewer, reviewDigest := sha256Text "pending-review" }
  { pending with reviewDigest := pending.digest }

def reviewProposal (reviewer : Principal) (id : PlanId) (expectedDigest : ArtifactDigest) :
    Sup ReviewedPlan := do
  let proposal ← Sup.required (← Sup.store (.proposal id)) (missing "proposal" id.value)
  Sup.refuse (reviewer.role ≠ .reviewer ∨ reviewer.id = proposal.requestedBy) .unreviewedPlan
  Sup.refuse (proposal.digest ≠ expectedDigest) (.store (.reviewDigestMismatch id))
  let plan := reviewed proposal reviewer.id
  Sup.store (.consumeReviewedProposal id expectedDigest plan)
  return plan

/-! ### Admission -/

/-- A new attempt in state `Intent`, made from the stored records. -/
def proposedAttempt (id : AttemptId) (request : RequestId) (grant : GrantId) (planId : PlanId)
    (operationIndex : ℕ) (reserved : Budget) (profile : CommissionedProfile)
    (plan : ReviewedPlan) (now : String) : AttemptRecord where
  id := id
  request := request
  grant := grant
  plan := planId
  operationIndex := operationIndex
  planDigest := plan.digest
  reserved := reserved
  profile := profile.id
  profileDigest := profile.digest
  leasedResources := profile.physicalResources
  evidenceChallenge := sha256Text (id.value ++ ":" ++ now ++ ":0")
  evidenceOrdinal := 0
  state := .intent
  receipt := none
  createdAt := now
  updatedAt := now

def submit (agent : Principal) (request : SubmitRequest) : Sup Submission := do
  Sup.check (requireAgent agent)
  let grant ← Sup.grant request.grant
  Sup.refuse (grant.agent ≠ agent.id) .grantPrincipal
  let profile ← Sup.profile grant.profile
  let plan ← Sup.plan request.plan
  let operation ← Sup.required plan.operations[request.operationIndex]?
    (.outOfBounds "operation index is absent")
  Sup.check (authorize grant profile plan operation)
  let reserved ← if request.operationIndex = 0 then
      Sup.required (worstCase plan.operations) (.outOfBounds "plan budget overflow")
    else pure Budget.zero
  let now := Platform.renderTimestamp (← Sup.now)
  let proposed := proposedAttempt request.attempt request.request request.grant request.plan
    request.operationIndex reserved profile plan now
  match ← Sup.store (.reserve proposed ⟨agent.id, profile, plan⟩) with
  | .existing attempt => return .existing attempt
  | .reserved _ => return .admitted ⟨proposed.id⟩

/-- Derived identities of the later steps of a run. -/
def laterSteps (run : RequestId) : List ℕ → Except SupervisorError (List (AttemptId × RequestId))
  | [] => .ok []
  | index :: indices => do
      let token := sha256Text ("plan-step:" ++ run.value ++ ":" ++ toString index)
      let attempt ← match Identifier.tryFrom "attempt id" ("a" ++ token.value) with
        | .ok id => .ok id
        | .error _ => .error (.outOfBounds "cannot derive plan step id")
      let request ← match Identifier.tryFrom "request id" ("r" ++ token.value) with
        | .ok id => .ok id
        | .error _ => .error (.outOfBounds "cannot derive plan request id")
      return (attempt, request) :: (← laterSteps run indices)

def planSteps (run : RequestId) (firstAttempt : AttemptId) (firstRequest : RequestId)
    (operationCount : ℕ) : Except SupervisorError (List (AttemptId × RequestId)) := do
  return (firstAttempt, firstRequest) :: (← laterSteps run (List.range' 1 (operationCount - 1)))

/-- Resolve every artifact in turn. -/
def resolveAll : List ArtifactDigest → Sup Unit
  | [] => return ()
  | digest :: digests => do
      Sup.resolve digest
      resolveAll digests

/-- The artifact that a flash operation takes its bytes from. -/
def flashSource : Operation → List ArtifactDigest
  | .flashWrite _ _ _ source _ | .flashVerify _ _ _ source _ => [source]
  | _ => []

def preflight (operation : Operation) (profile : CommissionedProfile) : Sup Unit := do
  match ← Sup.ask (.preflight operation profile) with
  | .ok () => return ()
  | .error source => throw (.backend source)

def preflightOperations (grant : Grant) (profile : CommissionedProfile) (plan : ReviewedPlan) :
    List PlannedOperation → Sup Unit
  | [] => return ()
  | planned :: rest => do
      Sup.check (authorize grant profile plan planned)
      resolveAll (flashSource planned.operation)
      preflight planned.operation profile
      preflightOperations grant profile plan rest

def preflightPlan (grant : Grant) (profile : CommissionedProfile) (plan : ReviewedPlan) :
    Sup Unit := do
  Sup.check (validatePlan profile plan)
  resolveAll (plan.candidateDigest :: plan.toolDigest :: plan.preconditions)
  preflightOperations grant profile plan plan.operations

/-- The ticket of a step that was admitted now, or earlier and not yet dispatched. -/
def stepTicket (submission : Submission) (resumable : String) :
    Except SupervisorError DispatchTicket :=
  match submission with
  | .admitted ticket => .ok ticket
  | .existing attempt =>
      if attempt.state = .intent then .ok ⟨attempt.id⟩ else .error (.outOfBounds resumable)

def admitPlan (agent : Principal) (request : PlanAdmissionRequest) : Sup PlanTicket := do
  Sup.check (requireAgent agent)
  let grant ← Sup.grant request.grant
  Sup.refuse (grant.agent ≠ agent.id) .grantPrincipal
  let closed : SupervisorError :=
    .outOfBounds "plan authority was closed by abandonment or recovery takeover"
  Sup.refuse ((← Sup.store (.isHaltedPair (request.grant, request.plan))) = true) closed
  Sup.refuse ((← Sup.store (.isRecoverySourceRetired (request.grant, request.plan))) = true) closed
  let profile ← Sup.profile grant.profile
  let plan ← Sup.plan request.plan
  preflightPlan grant profile plan
  let steps ← Sup.check
    (planSteps request.run request.firstAttempt request.run plan.operations.length)
  Sup.store (.createRun ⟨request.run, agent.id, request.grant, request.plan, steps, 0⟩)
  let submission ← submit agent
    ⟨request.firstAttempt, request.run, request.grant, request.plan, 0⟩
  let dispatch ← Sup.check (stepTicket submission "run already has a non-resumable first step")
  return ⟨request.run, request.grant, request.plan, dispatch, 0⟩

/-! ### Takeover and abandonment -/

def takeoverRecovery (authority : Principal) (request : RecoveryTakeoverRequest) :
    Sup PlanTicket := do
  Sup.check (requireAuthority authority)
  Sup.refuse (request.unresolved = [])
    (.outOfBounds "recovery must name an unresolved attempt")
  Sup.resolve request.justificationEvidence
  let grant ← Sup.grant request.grant
  let profile ← Sup.profile grant.profile
  let plan ← Sup.plan request.plan
  preflightPlan grant profile plan
  let steps ← Sup.check
    (planSteps request.run request.firstAttempt request.request plan.operations.length)
  let now := Platform.renderTimestamp (← Sup.now)
  let reserved ← Sup.required (worstCase plan.operations) (.outOfBounds "plan budget overflow")
  let proposed := proposedAttempt request.firstAttempt request.request request.grant request.plan 0
    reserved profile plan now
  let record : RecoveryTakeoverRecord :=
    { request := request.request
      run := request.run
      firstAttempt := request.firstAttempt
      unresolved := request.unresolved
      grant := request.grant
      plan := request.plan
      resources := proposed.leasedResources
      justificationEvidence := request.justificationEvidence
      authorizedBy := authority.id
      authorizedAt := Platform.renderTimestamp (← Sup.now) }
  let outcome ← Sup.store (.takeoverRecovery proposed ⟨grant.agent, profile, plan⟩
    ⟨request.run, grant.agent, request.grant, request.plan, steps, 0⟩ record)
  return ⟨request.run, request.grant, request.plan, ⟨outcome.attempt.id⟩, 0⟩

def abandonHaltedRun (authority : Principal) (request : HaltedRunAbandonmentRequest) :
    Sup HaltedRunAbandonmentRecord := do
  Sup.check (requireAuthority authority)
  Sup.resolve request.justificationEvidence
  let run ← Sup.run request.run
  Sup.refuse (run.grant ≠ request.grant ∨ run.plan ≠ request.plan)
    (.outOfBounds "abandonment identity differs from the durable run")
  let resources ← match ← Sup.store (.haltedRunAbandonmentRequest request.request) with
    | some existing => pure existing.resources
    | none => Sup.store (.haltedPairResources (request.grant, request.plan))
  let now ← Sup.now
  Sup.store (.abandonHaltedRun
    { request := request.request
      run := request.run
      grant := request.grant
      plan := request.plan
      resources := resources
      justificationEvidence := request.justificationEvidence
      authorizedBy := authority.id
      authorizedAt := Platform.renderTimestamp now })

/-! ### Execution -/

/-- The dispatch of a planned operation under a profile. -/
def dispatchRequest (attempt : AttemptId) (planned : PlannedOperation)
    (profile : CommissionedProfile) (challenge : ArtifactDigest) (phase : EvidencePhase)
    (configureInstrument : Bool) : DispatchRequest where
  attempt := attempt
  operation := planned.operation
  deadlineMilliseconds := planned.maxMilliseconds
  expectedTargetFingerprint := profile.targetFingerprint
  expectedInstrumentFingerprints := profile.instruments.mapValues InstrumentBinding.fingerprint
  expectedInstrumentConfigurations :=
    profile.instruments.mapValues InstrumentBinding.configurationDigest
  expectedInstrumentPhysicalIdentities :=
    profile.instruments.mapValues InstrumentBinding.physicalIdentity
  expectedFixtureRevision := profile.fixtureRevision
  evidenceChallenge := challenge
  evidencePhase := phase
  configureInstrument := configureInstrument
  interlocksValidUntil := none

def dispatchFromSnapshot (claimed : ClaimedDispatch) (phase : EvidencePhase) :
    Except SupervisorError DispatchRequest := do
  match claimed.plan.operations[claimed.attempt.operationIndex]? with
  | none => .error (.outOfBounds "operation index is absent")
  | some planned =>
      authorize claimed.grant claimed.profile claimed.plan planned
      return dispatchRequest claimed.attempt.id planned claimed.profile
        claimed.attempt.evidenceChallenge phase true

/-- The checks between the claim and the backend call. -/
def prepareDispatch (claimed : ClaimedDispatch) : Sup DispatchRequest := do
  if claimed.attempt.operationIndex = 0 then
    preflightPlan claimed.grant claimed.profile claimed.plan
  let dispatch ← Sup.check (dispatchFromSnapshot claimed .execution)
  let validUntil ← checkLiveInterlocks claimed.attempt claimed.profile claimed.plan
  return { dispatch with interlocksValidUntil := validUntil }

def verifyReceiptEvidence (attempt : AttemptId) (dispatch : DispatchRequest)
    (receipt : OperationReceipt) : Sup OperationReceipt := do
  match receipt.observation with
  | none => return receipt
  | some observation =>
      verifyEnvelope attempt dispatch.evidenceChallenge dispatch.evidencePhase observation
        "accepted receipt lacks evidence" "evidence envelope does not bind this receipt"
      return receipt

/-- The reviewed postconditions of a step.  The index is in range wherever this is used: a
dispatch was built from the same step. -/
def postconditionsAt (plan : ReviewedPlan) (index : ℕ) : List ObservationCheck :=
  match plan.operations[index]? with
  | some planned => planned.postconditions
  | none => []

/-- The lease of a step is released with a rejected receipt, or with the completion of the last
step. -/
def releasesLease (claimed : ClaimedDispatch) (receipt : OperationReceipt) : Bool :=
  receipt.state = .rejected ∨ receipt.state = .completed ∧
    claimed.attempt.operationIndex + 1 = claimed.plan.operations.length

/-- Call the backend and record what it did. -/
def dispatchAndRecord (claimed : ClaimedDispatch) (dispatch : DispatchRequest) :
    Sup AttemptRecord := do
  let receipt : OperationReceipt := match ← Sup.ask (.execute dispatch) with
    | .ok receipt => receipt
    | .error error => .unknown error.toString none
  let receipt : OperationReceipt :=
    match ← Sup.outcome (verifyReceiptEvidence claimed.attempt.id dispatch receipt) with
    | .ok receipt => receipt
    | .error error => .unknown error.toString none
  let receipt := checkPostconditions
    (postconditionsAt claimed.plan claimed.attempt.operationIndex) receipt
  Sup.store (.recordReceipt claimed.attempt.id receipt (releasesLease claimed receipt))

def execute (agent : Principal) (ticket : DispatchTicket) : Sup AttemptRecord := do
  Sup.check (requireAgent agent)
  let claimed ← Sup.store (.claimDispatch ticket.attempt agent.id)
  match ← Sup.outcome (prepareDispatch claimed) with
  | .error error =>
      Sup.store (.recordReceipt claimed.attempt.id (.rejected error.toString) true)
  | .ok dispatch => dispatchAndRecord claimed dispatch

/-- `advance_run`: one lock section reads the run, another writes it back. -/
def advanceRun (id : RequestId) (cursor : ℕ) : Sup Unit := do
  let run ← Sup.run id
  Sup.refuse (run.cursor ≠ cursor) (.store (.conflict "run cursor" id.value))
  Sup.refuse (2 ^ 64 ≤ run.cursor + 1) (.store (.conflict "run cursor" id.value))
  Sup.store (.saveRun { run with cursor := run.cursor + 1 })

def executeNext (agent : Principal) (ticket : PlanTicket) : Sup PlanProgress := do
  let attempt ← execute agent ticket.dispatch
  if attempt.state ≠ .completed then
    return ⟨attempt, none⟩
  advanceRun ticket.run ticket.operationIndex
  let run ← Sup.run ticket.run
  let nextIndex := ticket.operationIndex + 1
  if nextIndex = run.steps.length then
    return ⟨attempt, none⟩
  let (nextAttempt, nextRequest) ← Sup.required run.steps[nextIndex]?
    (.outOfBounds "run lacks next step identity")
  let submission ← submit agent ⟨nextAttempt, nextRequest, ticket.grant, ticket.plan, nextIndex⟩
  let dispatch ← Sup.check (stepTicket submission "next plan step is non-resumable")
  return ⟨attempt, some { ticket with dispatch := dispatch, operationIndex := nextIndex }⟩

/-- The first step of a run that is not completed. -/
def resumeStep (agent : Principal) (run : PlanRun) :
    ℕ → List (AttemptId × RequestId) → Sup PlanTicket
  | _, [] => throw (.outOfBounds "plan run is complete")
  | index, (attemptId, requestId) :: steps => do
      let ticket (dispatch : DispatchTicket) : PlanTicket :=
        ⟨run.id, run.grant, run.plan, dispatch, index⟩
      match ← Sup.store (.attempt attemptId) with
      | some attempt =>
          if attempt.state = .completed then resumeStep agent run (index + 1) steps
          else if attempt.state = .intent then return ticket ⟨attempt.id⟩
          else throw (.outOfBounds "plan is held by an unresolved step")
      | none =>
          let submission ← submit agent ⟨attemptId, requestId, run.grant, run.plan, index⟩
          let dispatch ← Sup.check
            (stepTicket submission "durable run step is non-resumable")
          return ticket dispatch

def resumePlan (agent : Principal) (runId : RequestId) : Sup PlanTicket := do
  Sup.check (requireAgent agent)
  let run ← Sup.store (.repairRunCursor runId)
  Sup.refuse (run.agent ≠ agent.id) .grantPrincipal
  let closed : SupervisorError :=
    .outOfBounds "plan run was closed by abandonment or recovery takeover"
  Sup.refuse ((← Sup.store (.haltedRunAbandonment run.id)).isSome = true) closed
  Sup.refuse ((← Sup.store (.isRecoverySourceRetired run.pair)) = true) closed
  resumeStep agent run 0 run.steps

def resume (agent : Principal) (request : RequestId) : Sup AttemptRecord := do
  Sup.check (requireAgent agent)
  let attempt ← Sup.required (← Sup.store (.attemptForRequest request))
    (missing "request" request.value)
  Sup.refuse (attempt.state ≠ .intent)
    (.outOfBounds "only an undispatched durable intent can resume")
  execute agent ⟨attempt.id⟩

def executePlan (agent : Principal) : List SubmitRequest → Sup (List AttemptRecord)
  | [] => return []
  | request :: requests => do
      match ← submit agent request with
      | .admitted ticket =>
          let attempt ← execute agent ticket
          if attempt.state ≠ .completed then
            return [attempt]
          return attempt :: (← executePlan agent requests)
      | .existing attempt =>
          Sup.refuse (attempt.state ≠ .completed)
            (.outOfBounds "plan has a durable non-completed step")
          return attempt :: (← executePlan agent requests)

/-! ### Reconciliation -/

/-- The budget that a reconciliation of the step is charged. -/
def configurationBudget (plan : ReviewedPlan) (planned : PlannedOperation) : Option Budget :=
  match plan.reconciliationSetup with
  | .applyReviewedInstrumentConfiguration => some ⟨1, 0, planned.maxMilliseconds⟩
  | .observationOnly => none

/-- The dispatch of a reconciliation, unless its configuration is interlocked. -/
def reconciliationDispatch (claimed : ClaimedReconciliation) (configure : Bool) :
    Except SupervisorError DispatchRequest := do
  match claimed.dispatch.plan.operations[claimed.dispatch.attempt.operationIndex]? with
  | none => .error (.outOfBounds "operation index is absent")
  | some planned =>
      deny (configure = true ∧ ∃ interlock ∈ claimed.dispatch.profile.liveInterlocks,
          EffectPermission.instrumentConfigure ∈ interlock.effects)
        (.outOfBounds ("interlocked configuration requires a reviewed recovery plan with a " ++
          "fresh observation after the uncertain effect"))
      return dispatchRequest claimed.dispatch.attempt.id planned claimed.dispatch.profile
        claimed.record.challenge .reconciliation configure

/-- Close the witness without a receipt and fail. -/
def failReconciliation {α : Type} (request : RequestId) (error : SupervisorError) : Sup α := do
  let _ ← Sup.store (.finishReconciliation request none false false)
  throw error

/-- Call the backend for a claimed witness and record what it found. -/
def reconcileClaimed (request : RequestId) (planned : PlannedOperation) (configure : Bool)
    (claimed : ClaimedReconciliation) : Sup AttemptRecord := do
  match reconciliationDispatch claimed configure with
  | .error error => failReconciliation request error
  | .ok dispatch =>
  match ← Sup.ask (.reconcile request ⟨claimed.dispatch.attempt.id, dispatch⟩) with
  | .error source => failReconciliation request (.backend source)
  | .ok receipt =>
  if receipt.observation = none then
    failReconciliation request (.outOfBounds "reconciliation outcome lacks fresh evidence")
  else
  match ← Sup.outcome (verifyReceiptEvidence claimed.dispatch.attempt.id dispatch receipt) with
  | .error error => failReconciliation request error
  | .ok receipt =>
  let receipt := checkPostconditions planned.postconditions receipt
  let completed : Bool := receipt.state = .completed
  let releaseLease : Bool := receipt.state = .completed ∧
    claimed.dispatch.attempt.operationIndex + 1 = claimed.dispatch.plan.operations.length
  Sup.store (.finishReconciliation request (some receipt) completed releaseLease)

def reconcile (principal : Principal) (attemptId : AttemptId) (requestId : RequestId) :
    Sup AttemptRecord := do
  Sup.check (requireAgent principal)
  let attempt ← Sup.attempt attemptId
  let grant ← Sup.grant attempt.grant
  Sup.refuse (principal.id ≠ grant.agent) .grantPrincipal
  if attempt.state ≠ .unknown ∧ attempt.state ≠ .partially then
    let history ← Sup.store (.reconciliationHistory attemptId)
    Sup.refuse (¬ ∃ record ∈ history, record.request = requestId) .notUnknown
    return attempt
  let plan ← Sup.plan attempt.plan
  let planned ← Sup.required plan.operations[attempt.operationIndex]?
    (.outOfBounds "operation index is absent")
  let budget := configurationBudget plan planned
  match ← Sup.store (.claimReconciliation attemptId requestId principal.id budget) with
  | .existing _ => Sup.attempt attemptId
  | .claimed claimed => reconcileClaimed requestId planned budget.isSome claimed

end Supervisor

end Cheirismos
