import Cheirismos.Daemon
import Cheirismos.Evolution
import Cheirismos.RelyGuarantee

/-! # What a thread may ask for

The discipline under which the supervisor's operations are verified.

* **Claims.** `DispatchClaim` and `WitnessClaim` are successful claims as the history records
  them.  Claims are unique: an attempt is claimed for dispatch once (`DispatchClaim.unique`), a
  reconciliation request once (`WitnessClaim.unique`), so whoever holds one is alone.
* **Evidence.** `Verified events …` says that one of the events read the evidence of an
  observation and that it binds the observation to an attempt, a challenge and a phase;
  `Gate` says that a live interlock was found satisfied.
* **Legal requests** (`Legal`).  Most requests may be made at any time.  A reservation or
  takeover must be made from records of the store, a receipt only be recorded by the thread
  that claimed the attempt, with its evidence verified and its postconditions evaluated, and the
  backend only be called by the thread that holds the claim and has done nothing but read
  since.  `BootLegal` are the requests of a restart.

`Sanctioned.change` says that every legal request changes the store by a `Change`, so the
store stays good and evolves. -/

namespace Cheirismos

open Process

variable [Platform]

/-! ### Reading requests -/

namespace StoreCall

/-- The call only reads. -/
def reads : StoreCall → Bool
  | profile _ | grant _ | proposal _ | plan _ | run _ | haltedRunAbandonment _ => true
  | haltedRunAbandonmentRequest _ | isHaltedPair _ | isRecoverySourceRetired _ => true
  | haltedPairResources _ | attemptForRequest _ | attempt _ | attemptAtStep _ _ => true
  | reconciliationHistory _ | dispatchedAttempts | claimedReconciliations => true
  | _ => false

theorem transact_reads {call : StoreCall} (h : call.reads = true) {clock : ℕ → Timestamp}
    {s s' : Store} {output : call.Output} (hok : call.transact clock s = .ok (output, s')) :
    s' = s := by
  cases call <;> simp only [reads, Bool.false_eq_true] at h
  case attemptAtStep pair index =>
      obtain ⟨_, _, hlift, hsel⟩ := Tx.bind_ok.mp hok
      obtain ⟨_, rfl⟩ := Tx.liftExcept_ok.mp hlift
      exact (select_ok.mp hsel).2.symm
  all_goals exact (select_ok.mp hok).2.symm

/-- A reading call keeps the store, whether it fails or not. -/
theorem performStore_reads {call : StoreCall} (h : call.reads = true) (choice : Choice)
    (s : Store) : (performStore call choice s).2 = s := by
  cases hr : (performStore call choice s).1 with
  | error e => exact performStore_error hr
  | ok output => exact transact_reads h (performStore_ok hr)

end StoreCall

/-- The request changes no store and calls no device. -/
def Quiet : Request → Prop
  | .store call => call.reads = true
  | .execute _ | .reconcile _ _ => False
  | _ => True

theorem Quiet.store_eq {r : Request} (h : Quiet r) (choice : Choice) (w : World) :
    (perform r choice w).2.store = w.store := by
  cases r with
  | store call => exact StoreCall.performStore_reads h choice w.store
  | execute dispatch => exact h.elim
  | reconcile request reconciliation => exact h.elim
  | resolve digest => rfl
  | verifySource digest source => rfl
  | now => rfl
  | preflight operation profile => rfl

/-! ### Claims -/

/-- A successful claim of a dispatch, as the history records it. -/
structure DispatchClaim where
  thread : ℕ
  attempt : AttemptId
  agent : PrincipalId
  choice : Choice
  before : World
  older : List (Event machine)
  claimed : ClaimedDispatch
  answered : (performStore (.claimDispatch attempt agent) choice before.store).1 = .ok claimed

namespace DispatchClaim

variable (c : DispatchClaim)

def event : Event machine := ⟨c.thread, .store (.claimDispatch c.attempt c.agent), c.choice, c.before⟩

/-- The claim is part of the history. -/
def In (past : List (Event machine)) : Prop := (c.event :: c.older) <:+ past

end DispatchClaim

/-- A successful claim of a reconciliation, as the history records it. -/
structure WitnessClaim where
  thread : ℕ
  attempt : AttemptId
  request : RequestId
  principal : PrincipalId
  budget : Option Budget
  choice : Choice
  before : World
  older : List (Event machine)
  claimed : ClaimedReconciliation
  answered : (performStore (.claimReconciliation attempt request principal budget) choice
    before.store).1 = .ok (.claimed claimed)

namespace WitnessClaim

variable (c : WitnessClaim)

def event : Event machine :=
  ⟨c.thread, .store (.claimReconciliation c.attempt c.request c.principal c.budget), c.choice,
    c.before⟩

/-- The claim is part of the history. -/
def In (past : List (Event machine)) : Prop := (c.event :: c.older) <:+ past

end WitnessClaim

/-! ### Evidence -/

/-- One of the events read the evidence that the observation names, and it binds the
observation to the attempt, the challenge and the phase. -/
def Verified (events : List (Event machine)) (attempt : AttemptId) (challenge : ArtifactDigest)
    (phase : EvidencePhase) (observation : Observation) : Prop :=
  ∃ digest artifact envelope t choice before, observation.evidence = some digest ∧
    (⟨t, .verifySource digest (.attempt attempt), choice, before⟩ : Event machine) ∈ events ∧
    before.artifacts.verifySource choice.evidenceFault digest (.attempt attempt) = .ok artifact ∧
    Platform.decodeEnvelope artifact.bytes = .ok envelope ∧
    envelope.Binds attempt challenge phase observation

theorem Verified.mono {events events' : List (Event machine)} {attempt : AttemptId}
    {challenge : ArtifactDigest} {phase : EvidencePhase} {observation : Observation}
    (h : Verified events attempt challenge phase observation)
    (hsub : ∀ e ∈ events, e ∈ events') : Verified events' attempt challenge phase observation := by
  obtain ⟨digest, artifact, envelope, t, choice, before, h1, h2, h3⟩ := h
  exact ⟨digest, artifact, envelope, t, choice, before, h1, hsub _ h2, h3⟩

/-- The observation is that of a completed receipt of the attempt: its own, or one of its
completed reconciliations; with the challenge and phase it answers. -/
def Completing (s : Store) (a : AttemptRecord) (challenge : ArtifactDigest)
    (phase : EvidencePhase) (observation : Observation) : Prop :=
  (a.receipt = some (.completed observation) ∧ challenge = a.evidenceChallenge ∧
    phase = .execution) ∨
  ∃ r, s.Witness r ∧ r.attempt = a.id ∧ r.state = .completed ∧
    r.receipt = some (.completed observation) ∧ challenge = r.challenge ∧ phase = .reconciliation

omit [Platform] in
theorem Completing.evolve {s s' : Store} (he : Evolves s s') {a : AttemptRecord}
    {challenge : ArtifactDigest} {phase : EvidencePhase} {observation : Observation}
    (h : Completing s a challenge phase observation) :
    Completing s' a challenge phase observation := by
  rcases h with h | ⟨r, hr, hra, hrs, hrest⟩
  · exact Or.inl h
  · obtain ⟨r', hr', hc⟩ := he.witnesses r hr
    obtain rfl := hc.ended (by rw [hrs]; decide)
    exact Or.inr ⟨r', hr', hra, hrs, hrest⟩

/-- The interlock was found satisfied for a step of the plan, by the observation `observation`
of the earlier step `index`, captured at `captured` and read at the age `age`. -/
structure GateBy (events : List (Event machine)) (s : Store) (attempt : AttemptRecord)
    (plan : ReviewedPlan) (interlock : LiveInterlock) (expiry : Timestamp) (index : ℕ)
    (witness : AttemptRecord) (observation : Observation) (captured : Timestamp)
    (age : UInt64) : Prop where
  step : observationStep plan.operations interlock attempt.operationIndex = .ok index
  recorded : s.Attempt witness
  pair : witness.pair = attempt.pair
  position : witness.operationIndex = index
  completed : witness.state = .completed
  evidence : ∃ challenge phase, Completing s witness challenge phase observation ∧
    Verified events witness.id challenge phase observation
  capture : Platform.parseTimestamp observation.capturedAt = some captured
  read : ∃ t choice before, (⟨t, .now, choice, before⟩ : Event machine) ∈ events ∧
    observationAge (choice.clock 0) captured = some age
  satisfied : ∃ planned, plan.operations[index]? = some planned ∧
    validateInterlockObservation interlock planned.operation observation age = .ok ()
  expires : interlockExpiry interlock captured = .ok expiry

/-- The interlock was found satisfied, and its observation expires at `expiry`. -/
def Gate (events : List (Event machine)) (s : Store) (attempt : AttemptRecord)
    (plan : ReviewedPlan) (interlock : LiveInterlock) (expiry : Timestamp) : Prop :=
  ∃ index witness observation captured age,
    GateBy events s attempt plan interlock expiry index witness observation captured age

theorem Gate.mono {events events' : List (Event machine)} {s s' : Store}
    {attempt : AttemptRecord} {plan : ReviewedPlan} {interlock : LiveInterlock}
    {expiry : Timestamp} (h : Gate events s attempt plan interlock expiry)
    (hsub : ∀ e ∈ events, e ∈ events') (he : Evolves s s') :
    Gate events' s' attempt plan interlock expiry := by
  obtain ⟨index, witness, observation, captured, age, h⟩ := h
  refine ⟨index, witness, observation, captured, age, h.step,
    he.settled h.recorded (Or.inl h.completed), h.pair, h.position, h.completed, ?_, h.capture, ?_,
    h.satisfied, h.expires⟩
  · obtain ⟨challenge, phase, hcomp, hver⟩ := h.evidence
    exact ⟨challenge, phase, hcomp.evolve he, hver.mono hsub⟩
  · obtain ⟨t, choice, before, hm, hage⟩ := h.read
    exact ⟨t, choice, before, hsub _ hm, hage⟩

/-! ### Runs in order -/

/-- The identity of every step of a run is that of no attempt but the step's own. -/
def Store.Aligned (s : Store) : Prop :=
  ∀ run ∈ s.runs, ∀ index id request, run.steps[index]? = some (id, request) →
    ∀ a, s.Attempt a → a.id = id → a.pair = run.pair ∧ a.operationIndex = index

/-- A takeover with this record would be answered from an ordinary attempt. -/
def Store.Collides (s : Store) (a : AttemptRecord) (recovery : RecoveryTakeoverRecord) : Prop :=
  (∀ t ∈ s.recoveryTakeovers, t.request ≠ recovery.request) ∧
    ∃ b, s.Attempt b ∧ b.request = a.request ∧ b.id = a.id ∧ b.pair = a.pair

/-- So far the identities of steps were kept apart, and no takeover was answered from an
ordinary attempt. -/
def Orderly (past : List (Event machine)) : Prop :=
  ∀ e ∈ past, e.before.store.Aligned ∧ ∀ a snapshot run recovery,
    e.request = .store (.takeoverRecovery a snapshot run recovery) →
      ¬ e.before.store.Collides a recovery

theorem Orderly.of_subset {past past' : List (Event machine)} (h : Orderly past')
    (hsub : ∀ e ∈ past, e ∈ past') : Orderly past := fun e he => h e (hsub e he)

/-- The attempt of the pair at this index is completed. -/
def Store.StepDone (s : Store) (p : Pair) (index : ℕ) : Prop :=
  ∃ a, s.Attempt a ∧ a.pair = p ∧ a.operationIndex = index ∧ a.state = .completed

/-- The last thing that thread `t` did was to read this run. -/
def LastRead (t : ℕ) (past : List (Event machine)) (run : PlanRun) : Prop :=
  ∃ between e older, past = between ++ e :: older ∧ e.thread = t ∧
    e.request = .store (.run run.id) ∧ run ∈ e.before.store.runs ∧ ∀ e' ∈ between, e'.thread ≠ t

/-- The run is one on record with another cursor, past a completed step and one past the cursor
that the thread has just read. -/
structure Advances (t : ℕ) (x : Moment machine) (run : PlanRun) : Prop where
  same : ∃ r ∈ x.state.store.runs, r.Continues run
  done : Orderly x.past → ∃ index, run.cursor = index + 1 ∧
    x.state.store.StepDone run.pair index
  read : ∃ r, LastRead t x.past r ∧ run = { r with cursor := r.cursor + 1 }

/-- The ticket is for a run on record and an attempt of its pair. -/
def Store.Tickets (s : Store) (ticket : PlanTicket) : Prop :=
  (∃ run ∈ s.runs, run.id = ticket.run ∧ run.pair = (ticket.grant, ticket.plan)) ∧
    ∃ a, s.Attempt a ∧ a.id = ticket.dispatch.attempt ∧ a.pair = (ticket.grant, ticket.plan) ∧
      a.operationIndex = ticket.operationIndex

/-- The attempt of the ticket is on record, for the pair of the ticket. -/
def Store.Backs (s : Store) (ticket : PlanTicket) : Prop :=
  ∃ a, s.Attempt a ∧ a.id = ticket.dispatch.attempt ∧ a.pair = (ticket.grant, ticket.plan)

/-! ### Preflights -/

/-- The whole plan was found valid and authorized, and the backend's preflight accepted every
operation in one of the events. -/
structure Preflighted (events : List (Event machine)) (grant : Grant)
    (profile : CommissionedProfile) (plan : ReviewedPlan) : Prop where
  valid : validatePlan profile plan = .ok ()
  operations : ∀ planned ∈ plan.operations, Authorized grant profile plan planned ∧
    ∃ t choice before,
      (⟨t, .preflight planned.operation profile, choice, before⟩ : Event machine) ∈ events ∧
      choice.preflight = .ok ()

theorem Preflighted.mono {events events' : List (Event machine)} {grant : Grant}
    {profile : CommissionedProfile} {plan : ReviewedPlan}
    (h : Preflighted events grant profile plan) (hsub : ∀ e ∈ events, e ∈ events') :
    Preflighted events' grant profile plan where
  valid := h.valid
  operations planned hp := by
    obtain ⟨hauth, t, choice, before, he, hok⟩ := h.operations planned hp
    exact ⟨hauth, t, choice, before, hsub _ he, hok⟩

/-! ### Legal requests -/

/-- Thread `t` may record the receipt: it claimed the attempt, the lease flag is right, and the
observation of the receipt came from a call of the backend, is verified and evaluated. -/
structure Receipts (t : ℕ) (x : Moment machine) (id : AttemptId) (receipt : OperationReceipt)
    (release : Bool) (c : DispatchClaim) (since : List (Event machine)) : Prop where
  thread : c.thread = t
  past : x.past = since ++ c.event :: c.older
  subject : c.attempt = id
  flag : release = true ↔ receipt.state = .rejected ∨ receipt.state = .completed ∧
    c.claimed.attempt.operationIndex + 1 = c.claimed.plan.operations.length
  called : receipt.observation ≠ none → ∃ e ∈ since, ∃ dispatch, e.request = .execute dispatch ∧
    dispatch.attempt = id
  evidence : ∀ observation, receipt.observation = some observation →
    Verified since id c.claimed.attempt.evidenceChallenge .execution observation
  postconditions : ∀ observation, receipt = .completed observation →
    evaluateChecks observation (Supervisor.postconditionsAt c.claimed.plan
      c.claimed.attempt.operationIndex) = .ok ()

/-- Thread `t` may call the backend with this dispatch: it claimed the attempt and has only
read since, the attempt is still as it was claimed, and the dispatch is that of the reviewed
operation, which is authorized and whose interlocks are satisfied; and before the first
operation the whole plan was preflighted. -/
structure Dispatchable (t : ℕ) (x : Moment machine) (dispatch : DispatchRequest)
    (c : DispatchClaim) (since : List (Event machine)) (planned : PlannedOperation)
    (expiries : List Timestamp) : Prop where
  thread : c.thread = t
  past : x.past = since ++ c.event :: c.older
  quiet : ∀ e ∈ since, e.thread = t → Quiet e.request
  held : x.state.store.Attempt c.claimed.attempt
  step : c.claimed.plan.operations[c.claimed.attempt.operationIndex]? = some planned
  authorized : Authorized c.claimed.grant c.claimed.profile c.claimed.plan planned
  preflighted : c.claimed.attempt.operationIndex = 0 →
    Preflighted since c.claimed.grant c.claimed.profile c.claimed.plan
  content : dispatch =
    { Supervisor.dispatchRequest c.claimed.attempt.id planned c.claimed.profile
        c.claimed.attempt.evidenceChallenge .execution true with
      interlocksValidUntil := expiries.min? }
  gated : List.Forall₂ (Gate since x.state.store c.claimed.attempt c.claimed.plan)
    (c.claimed.profile.liveInterlocks.filter (fun interlock => interlock.Gates planned.operation))
    expiries

/-- The budget is what the reconciliation of the attempt's reviewed step is charged. -/
def Budgeted (s : Store) (id : AttemptId) (budget : Option Budget) : Prop :=
  ∃ a plan planned, s.Attempt a ∧ a.id = id ∧ plan ∈ s.plans ∧ plan.id = a.plan ∧
    plan.operations[a.operationIndex]? = some planned ∧
    budget = Supervisor.configurationBudget plan planned

/-- Thread `t` may call the backend for the reconciliation request: it claimed the witness and
has only read since. -/
structure Reconcilable (t : ℕ) (x : Moment machine) (request : RequestId) (c : WitnessClaim)
    (since : List (Event machine)) : Prop where
  thread : c.thread = t
  past : x.past = since ++ c.event :: c.older
  subject : c.request = request
  quiet : ∀ e ∈ since, e.thread = t → Quiet e.request

/-- Thread `t` may end the reconciliation: it claimed the witness, the flags agree with the
receipt, and the observation of the receipt is verified and evaluated. -/
structure Finishing (t : ℕ) (x : Moment machine) (request : RequestId)
    (receipt : Option OperationReceipt) (completed release : Bool) (c : WitnessClaim)
    (since : List (Event machine)) : Prop where
  thread : c.thread = t
  past : x.past = since ++ c.event :: c.older
  subject : c.request = request
  completes : completed = true ↔ ∃ observation, receipt = some (.completed observation)
  flag : completed = true → (release = true ↔
    c.claimed.dispatch.attempt.operationIndex + 1 = c.claimed.dispatch.plan.operations.length)
  evidence : ∀ r observation, receipt = some r → r.observation = some observation →
    Verified since c.claimed.record.attempt c.claimed.record.challenge .reconciliation observation
  postconditions : ∀ observation, receipt = some (.completed observation) →
    evaluateChecks observation (Supervisor.postconditionsAt c.claimed.dispatch.plan
      c.claimed.dispatch.attempt.operationIndex) = .ok ()

/-- What a client's thread may ask for. -/
def Legal (t : ℕ) (x : Moment machine) : Request → Prop
  | .store (.saveProposal proposal) => proposal.operations ≠ []
  | .store (.consumeReviewedProposal _ _ plan) => plan.Proper
  | .store (.createRun run) => run.cursor = 0 ∧ x.state.store.Planned run
  | .store (.saveRun run) => Advances t x run
  | .store (.reserve proposed snapshot) => Proposed x.state.store proposed snapshot
  | .store (.takeoverRecovery proposed snapshot run recovery) =>
      Proposed x.state.store proposed snapshot ∧ Recovers proposed snapshot run recovery
  | .store (.recordReceipt id receipt release) => ∃ c since, Receipts t x id receipt release c since
  | .store (.claimReconciliation id _ _ budget) => Budgeted x.state.store id budget
  | .store (.finishReconciliation request receipt completed release) =>
      ∃ c since, Finishing t x request receipt completed release c since
  | .store (.updateAttempt _) | .store (.updateReconciliation _) => False
  | .execute dispatch => ∃ c since planned expiries,
      Dispatchable t x dispatch c since planned expiries
  | .reconcile request _ => ∃ c since, Reconcilable t x request c since
  | _ => True

/-- What a restart may ask for. -/
def BootLegal (x : Moment machine) : Request → Prop
  | .store (.updateAttempt a') => ∃ a now, x.state.store.Attempt a ∧ a.state = .dispatched ∧
      a' = interrupted now a
  | .store (.updateReconciliation r') => ∃ r now, x.state.store.Witness r ∧ r.state = .claimed ∧
      r' = interruptedWitness now r
  | .store call => call.reads = true
  | .now => True
  | _ => False

def Sanctioned (t : ℕ) (x : Moment machine) (r : Request) : Prop := Legal t x r ∨ BootLegal x r

/-- The histories of the service. -/
abbrev History (past : List (Event machine)) (w : World) : Prop :=
  Chronicle (M := machine) (fun w => w.store.Good) Sanctioned past w

end Cheirismos
