import Cheirismos.Transactions
import Cheirismos.Evidence
import Cheirismos.Process

/-! # What the supervisor asks of its surroundings

The interface between the supervisor's code and everything around it, and the machine that
answers.

* **Requests.** One call of a method of the store (`StoreCall`), a read of the artifact store,
  a reading of the clock, and the three calls of a `Backend`.  `Backend::reconcile` is recorded
  with the request id it is made for, which the backend itself does not see.
* **The world** is the durable store and the artifact directory.  Only store calls change the
  store; the directory is changed by others (`environment`), and nothing is assumed of how.
* **Choices.** Whatever the code does not control is chosen anew at each request: the clock
  readings, failures of SQLite and of the file system, and every answer of the backend. -/

namespace Cheirismos

open Process

theorem except_bind_ok {ε α β : Type} {x : Except ε α} {f : α → Except ε β} {b : β} :
    (x >>= f) = .ok b ↔ ∃ a, x = .ok a ∧ f a = .ok b := by
  cases x with
  | error e => simp [bind, Except.bind]
  | ok a => simp [bind, Except.bind]

/-! ### Dispatches and backend answers -/

inductive BackendError where
  | malformed (message : String)
  | timeout (message : String)
  | transport (message : String)
deriving DecidableEq

def BackendError.toString : BackendError → String
  | malformed message => "backend returned malformed data: " ++ message
  | timeout message => "backend timed out: " ++ message
  | transport message => "backend transport failed: " ++ message

structure DispatchRequest where
  attempt : AttemptId
  operation : Operation
  deadlineMilliseconds : UInt64
  expectedTargetFingerprint : ArtifactDigest
  expectedInstrumentFingerprints : OrdMap InstrumentId ArtifactDigest
  expectedInstrumentConfigurations : OrdMap InstrumentId ArtifactDigest
  expectedInstrumentPhysicalIdentities : OrdMap InstrumentId ArtifactDigest
  expectedFixtureRevision : ArtifactDigest
  evidenceChallenge : ArtifactDigest
  evidencePhase : EvidencePhase
  configureInstrument : Bool
  interlocksValidUntil : Option Timestamp

structure ReconciliationRequest where
  attempt : AttemptId
  dispatch : DispatchRequest

/-! ### Store calls -/

inductive StoreCall where
  | saveProfile (profile : CommissionedProfile)
  | profile (id : ProfileId)
  | saveGrant (grant : Grant)
  | grant (id : GrantId)
  | revokeGrant (id : GrantId)
  | saveProposal (proposal : PlanProposal)
  | proposal (id : PlanId)
  | deleteProposal (id : PlanId)
  | consumeReviewedProposal (id : PlanId) (expectedDigest : ArtifactDigest) (plan : ReviewedPlan)
  | plan (id : PlanId)
  | createRun (run : PlanRun)
  | run (id : RequestId)
  | saveRun (run : PlanRun)
  | repairRunCursor (id : RequestId)
  | haltedRunAbandonment (run : RequestId)
  | haltedRunAbandonmentRequest (request : RequestId)
  | isHaltedPair (pair : Pair)
  | isRecoverySourceRetired (pair : Pair)
  | haltedPairResources (pair : Pair)
  | abandonHaltedRun (proposed : HaltedRunAbandonmentRecord)
  | reserve (proposed : AttemptRecord) (snapshot : AdmissionSnapshot)
  | takeoverRecovery (proposed : AttemptRecord) (snapshot : AdmissionSnapshot) (run : PlanRun)
      (recovery : RecoveryTakeoverRecord)
  | attemptForRequest (id : RequestId)
  | attempt (id : AttemptId)
  | attemptAtStep (pair : Pair) (index : ℕ)
  | claimDispatch (id : AttemptId) (agent : PrincipalId)
  | recordReceipt (id : AttemptId) (receipt : OperationReceipt) (releaseLease : Bool)
  | claimReconciliation (attempt : AttemptId) (request : RequestId) (principal : PrincipalId)
      (configurationBudget : Option Budget)
  | finishReconciliation (request : RequestId) (receipt : Option OperationReceipt)
      (completed releaseLease : Bool)
  | reconciliationHistory (attempt : AttemptId)
  -- the statements of `recover_interrupted_dispatches`
  | dispatchedAttempts
  | updateAttempt (attempt : AttemptRecord)
  | claimedReconciliations
  | updateReconciliation (record : ReconciliationRecord)

namespace StoreCall

/-- What a store call returns. -/
abbrev Output : StoreCall → Type
  | saveProfile _ | saveGrant _ | revokeGrant _ | saveProposal _ => Unit
  | deleteProposal _ | consumeReviewedProposal _ _ _ | createRun _ | saveRun _ => Unit
  | updateAttempt _ | updateReconciliation _ => Unit
  | profile _ => Option CommissionedProfile
  | grant _ => Option Grant
  | proposal _ => Option PlanProposal
  | plan _ => Option ReviewedPlan
  | run _ => Option PlanRun
  | repairRunCursor _ => PlanRun
  | haltedRunAbandonment _ | haltedRunAbandonmentRequest _ => Option HaltedRunAbandonmentRecord
  | isHaltedPair _ | isRecoverySourceRetired _ => Bool
  | haltedPairResources _ => Finset String
  | abandonHaltedRun _ => HaltedRunAbandonmentRecord
  | reserve _ _ | takeoverRecovery _ _ _ _ => ReservationOutcome
  | attemptForRequest _ | attempt _ | attemptAtStep _ _ => Option AttemptRecord
  | claimDispatch _ _ => ClaimedDispatch
  | recordReceipt _ _ _ | finishReconciliation _ _ _ _ => AttemptRecord
  | claimReconciliation _ _ _ _ => ReconciliationClaim
  | reconciliationHistory _ | claimedReconciliations => List ReconciliationRecord
  | dispatchedAttempts => List AttemptRecord

/-- Read something of the store. -/
def select {α : Type} (f : Store → α) : Tx α := do return f (← get)

/-- The body of a store call. -/
def transact [Platform] (clock : ℕ → Timestamp) : (call : StoreCall) → Tx call.Output
  | saveProfile p => Cheirismos.saveProfile p
  | profile id => select (fun s => s.profiles.find? id)
  | saveGrant g => Cheirismos.saveGrant g
  | grant id => select (fun s => s.grants.find? id)
  | revokeGrant id => Cheirismos.revokeGrant id
  | saveProposal p => Cheirismos.saveProposal p
  | proposal id => select (fun s => s.proposals.find? id)
  | deleteProposal id => Cheirismos.deleteProposal id
  | consumeReviewedProposal id expected p => Cheirismos.consumeReviewedProposal id expected p
  | plan id => select (fun s => s.plans.find? id)
  | createRun r => Cheirismos.createRun r
  | run id => select (fun s => s.runs.find? id)
  | saveRun r => Cheirismos.saveRun r
  | repairRunCursor id => Cheirismos.repairRunCursor id
  | haltedRunAbandonment r => select (fun s => s.loadHaltedRunAbandonmentByRun r)
  | haltedRunAbandonmentRequest r => select (fun s => s.haltedRunAbandonments.find? r)
  | isHaltedPair pair => select (fun s => s.haltedPairExists pair)
  | isRecoverySourceRetired pair => select (fun s => s.recoverySourceRetired pair)
  | haltedPairResources pair => select (fun s => s.leaseKeysForPair pair)
  | abandonHaltedRun proposed => Cheirismos.abandonHaltedRun clock proposed
  | reserve proposed snapshot => Cheirismos.reserve clock proposed snapshot
  | takeoverRecovery proposed snapshot r recovery =>
      Cheirismos.takeoverRecovery clock proposed snapshot r recovery
  | attemptForRequest id => select (fun s => s.loadAttemptByRequest id)
  | attempt id => select (fun s => s.loadAttempt id)
  | attemptAtStep pair index => do
      let column ← sqliteIndex "attempt operation index" index
      select (fun s => s.attemptAtStep pair column)
  | claimDispatch id agent => Cheirismos.claimDispatch clock id agent
  | recordReceipt id receipt release => Cheirismos.recordReceipt clock id receipt release
  | claimReconciliation id request principal budget =>
      Cheirismos.claimReconciliation clock id request principal budget
  | finishReconciliation request receipt completed release =>
      Cheirismos.finishReconciliation clock request receipt completed release
  | reconciliationHistory id => select (fun s => s.reconciliationHistory id)
  | dispatchedAttempts => select (fun s =>
      (s.attempts.rows.filter (fun row => row.state = "dispatched")).map AttemptRow.json)
  | updateAttempt a => Cheirismos.updateAttempt a
  | claimedReconciliations => select (fun s =>
      (s.reconciliations.rows.filter (fun row => row.state = "claimed")).map
        ReconciliationRow.json)
  | updateReconciliation r => Cheirismos.updateReconciliation r

end StoreCall

/-! ### The machine -/

inductive Request where
  | store (call : StoreCall)
  | resolve (digest : ArtifactDigest)
  | verifySource (digest : ArtifactDigest) (source : EvidenceSource)
  | now
  | preflight (operation : Operation) (profile : CommissionedProfile)
  | execute (dispatch : DispatchRequest)
  | reconcile (request : RequestId) (reconciliation : ReconciliationRequest)

variable [Platform]

abbrev Answer : Request → Type
  | .store call => Except StoreError call.Output
  | .resolve _ | .verifySource _ _ => Except EvidenceError VerifiedArtifact
  | .now => Timestamp
  | .preflight _ _ => Except BackendError Unit
  | .execute _ | .reconcile _ _ => Except BackendError OperationReceipt

/-- The requests of the supervisor. -/
abbrev surroundings : Interface := ⟨Request, Answer⟩

structure World where
  store : Store
  artifacts : ArtifactStore

/-- A store call that fails before it does anything. -/
inductive StoreFault where
  | sqlite (message : String)
  | poisoned

def StoreFault.error : StoreFault → StoreError
  | sqlite message => .sqlite message
  | poisoned => .poisoned

/-- What the code does not control, at one request. -/
structure Choice where
  clock : ℕ → Timestamp
  storeFault : Option StoreFault
  evidenceFault : Option EvidenceError
  preflight : Except BackendError Unit
  receipt : Except BackendError OperationReceipt

/-- Run a store call; an error keeps the store. -/
def performStore (call : StoreCall) (choice : Choice) (s : Store) :
    Except StoreError call.Output × Store :=
  match choice.storeFault with
  | some fault => (.error fault.error, s)
  | none =>
      match call.transact choice.clock s with
      | .ok (output, s') => (.ok output, s')
      | .error error => (.error error, s)

def perform : (request : Request) → Choice → World → Answer request × World
  | .store call, choice, w =>
      ((performStore call choice w.store).1, { w with store := (performStore call choice w.store).2 })
  | .resolve digest, choice, w => (w.artifacts.read choice.evidenceFault digest, w)
  | .verifySource digest source, choice, w =>
      (w.artifacts.verifySource choice.evidenceFault digest source, w)
  | .now, choice, w => (choice.clock 0, w)
  | .preflight _ _, choice, w => (choice.preflight, w)
  | .execute _, choice, w => (choice.receipt, w)
  | .reconcile _ _, choice, w => (choice.receipt, w)

/-- The store and the artifact directory, answering the supervisor. -/
abbrev machine : Machine surroundings where
  State := World
  Choice := Choice
  initial := ⟨.empty, ⟨"", fun _ => none, fun _ _ => none⟩⟩
  perform := perform
  environment w w' := w'.store = w.store

/-- A store call that fails keeps the store. -/
theorem performStore_error {call : StoreCall} {choice : Choice} {s : Store} {e : StoreError}
    (h : (performStore call choice s).1 = .error e) : (performStore call choice s).2 = s := by
  unfold performStore at h ⊢
  split at h
  · rfl
  · split at h
    · cases h
    · rfl

/-- A store call that succeeds ran its transaction. -/
theorem performStore_ok {call : StoreCall} {i : Choice} {s : Store} {output : call.Output}
    (h : (performStore call i s).1 = .ok output) :
    call.transact i.clock s = .ok (output, (performStore call i s).2) := by
  unfold performStore at h ⊢
  split at h
  · cases h
  · split at h
    · next o s' ht => cases h; exact ht
    · cases h

end Cheirismos
