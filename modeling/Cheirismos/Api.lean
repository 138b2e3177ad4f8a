import Cheirismos.Bench
import Cheirismos.Credentials
import Cheirismos.Entitlements
import Cheirismos.Firmware
import Cheirismos.Frontends

/-! # The service's interface

`service/api.rs` over the supervisor's process: the closed request families, what `handle` does
with each for the principal that `serve_client` has authenticated, and the detached executions that
it leaves behind.

* **Handlers.** A handler of an experiment, transaction or authority request makes one call of the
  supervisor; the call of a takeover comes after a look at the grant, whose agent is to execute the
  plan.  The other families, and the requests that only look something up, call no operation of
  the supervisor.
* **Executions.** When the call of `Execute`, `Resume` or `RecoveryTakeover` has returned a ticket,
  `spawn_plan_execution` calls `execute_next` until there is no further ticket.
* **The front end.** `api` puts both on the supervisor's process as a `Frontend`: a session is a
  request with its execution.  A client that goes away stops neither.

Between the look at the grant and the start of the takeover's own requests others may act; as the
start is no request, both are one step here. -/

namespace Cheirismos

open Process

/-! ### Requests -/

inductive CaseFact where
  | observation (digest : ArtifactDigest)
  | claim (statement : String) (evidence : List ArtifactDigest)
  | hypothesis (statement : String) (supporting : List ArtifactDigest)
deriving DecidableEq

inductive CaseRequest where
  | append (caseId : CaseId) (fact : CaseFact)
  | get (caseId : CaseId)

inductive EvidenceRequest where
  | importBytes (caseId : CaseId) (bytesBase64 : String)
  | fetch (artifact : ArtifactDigest) (offset : UInt64) (maxBytes : UInt32)

inductive InstrumentRequest where
  | inspect (instrument : InstrumentId)

inductive ExperimentRequest where
  | propose (proposal : PlanProposal)
  | review (plan : PlanId) (expectedDigest : ArtifactDigest)
  | execute (grant : GrantId) (plan : PlanId) (run : RequestId) (firstAttempt : AttemptId)
  | resume (run : RequestId)
  | attempt (attempt : AttemptId)

inductive TransactionRequest where
  | get (attempt : AttemptId)
  | reconciliationHistory (attempt : AttemptId)
  | reconcile (request : RequestId) (attempt : AttemptId)
  | recoveryTakeover (recovery : RecoveryTakeoverRequest)
  | abandonHaltedRun (abandonment : HaltedRunAbandonmentRequest)

inductive AuthorityRequest where
  | commission (profile : CommissionedProfile)
  | issueGrant (agent : PrincipalId) (grant : Grant)
  | revokeGrant (grant : GrantId)

inductive FirmwareRequest where
  | inspect (artifact : ArtifactDigest)
  | diff (left right : ArtifactDigest) (maxRanges : ℕ)
  | buildCandidate (caseId : CaseId) (original : ArtifactDigest) (patches : List Firmware.ImagePatch)
      (protectedRanges : List Firmware.ByteRange)

inductive SystemRequest where
  | status

inductive ServiceRequest where
  | caseFamily (request : CaseRequest)
  | evidence (request : EvidenceRequest)
  | instrument (request : InstrumentRequest)
  | experiment (request : ExperimentRequest)
  | transaction (request : TransactionRequest)
  | authority (request : AuthorityRequest)
  | firmware (request : FirmwareRequest)
  | system (request : SystemRequest)

/-- A request as it arrives: the local user at the other end of the socket, and the envelope. -/
structure Incoming where
  peerUid : UInt32
  token : String
  request : ServiceRequest

/-- The refusals of `api.rs` itself, and those of the supervisor. -/
inductive ApiError where
  | unknownPrincipal
  | recoveryAgentUnavailable
  | supervisor (source : SupervisorError)

def ApiError.toString : ApiError → String
  | unknownPrincipal => "grant recipient is not a configured local principal"
  | recoveryAgentUnavailable => "recovery grant recipient is not a configured agent principal"
  | supervisor source => "supervisor operation failed: " ++ source.toString

section service

variable [Platform]

/-! ### Handlers -/

/-- What a handler does with the result of its call: report it, or execute the admitted plan for
the agent. -/
inductive Task where
  | report
  | execution (agent : Principal)

/-- The call that a handler makes, if it makes one. -/
abbrev Handled := Except ApiError (Option (Call × Task))

def handleExperiment (principal : Principal) : ExperimentRequest → Handled
  | .propose proposal => .ok (some (.proposePlan principal proposal, .report))
  | .review plan expectedDigest =>
      .ok (some (.reviewProposal principal plan expectedDigest, .report))
  | .execute grant plan run firstAttempt =>
      .ok (some (.admitPlan principal ⟨run, firstAttempt, grant, plan⟩, .execution principal))
  | .resume run => .ok (some (.resumePlan principal run, .execution principal))
  | .attempt _ => .ok none

/-- The configured agent that is to execute the plan of a takeover. -/
def recoveryAgent (bindings : List CredentialBinding) (grant : GrantId) (choice : Choice)
    (w : World) : Except ApiError Principal :=
  match (performStore (.grant grant) choice w.store).1 with
  | .error source => .error (.supervisor (.store source))
  | .ok none => .error .recoveryAgentUnavailable
  | .ok (some grant) =>
      match (principals bindings grant.agent).filter (fun p => p.role = .agent) with
      | some agent => .ok agent
      | none => .error .recoveryAgentUnavailable

def handleTransaction (bindings : List CredentialBinding) (principal : Principal) (choice : Choice)
    (w : World) : TransactionRequest → Handled
  | .get _ | .reconciliationHistory _ => .ok none
  | .reconcile request attempt => .ok (some (.reconcile principal attempt request, .report))
  | .recoveryTakeover recovery => do
      let agent ← recoveryAgent bindings recovery.grant choice w
      return some (.takeoverRecovery principal recovery, .execution agent)
  | .abandonHaltedRun abandonment =>
      .ok (some (.abandonHaltedRun principal abandonment, .report))

def handleAuthority (bindings : List CredentialBinding) (principal : Principal) :
    AuthorityRequest → Handled
  | .commission profile => .ok (some (.commission principal profile, .report))
  | .issueGrant agent grant =>
      match principals bindings agent with
      | some agent => .ok (some (.issueGrant principal agent grant, .report))
      | none => .error .unknownPrincipal
  | .revokeGrant grant => .ok (some (.revokeGrant principal grant, .report))

def handle (bindings : List CredentialBinding) (principal : Principal) (choice : Choice) (w : World) :
    ServiceRequest → Handled
  | .experiment request => handleExperiment principal request
  | .transaction request => handleTransaction bindings principal choice w request
  | .authority request => handleAuthority bindings principal request
  | .caseFamily _ | .evidence _ | .instrument _ | .firmware _ | .system _ => .ok none

/-! ### The front end -/

/-- `serve_client` up to the call of the supervisor. -/
def serveClient (bindings : List CredentialBinding) (incoming : Incoming) (choice : Choice)
    (w : World) : Option (Call × Task) :=
  match authenticate bindings incoming.token incoming.peerUid with
  | .error _ => none
  | .ok principal =>
      match handle bindings principal choice w incoming.request with
      | .ok next => next
      | .error _ => none

/-- `spawn_plan_execution`: the next call of an execution. -/
def spawnPlanExecution : Task → Reply → Option (Call × Task)
  | .execution agent, .ticket (.ok ticket) => some (.executeNext agent ticket, .execution agent)
  | .execution agent, .progress (.ok ⟨_, some ticket⟩) =>
      some (.executeNext agent ticket, .execution agent)
  | _, _ => none

def api (bindings : List CredentialBinding) : Frontend daemon where
  Request := Incoming
  State := Task
  opens := serveClient bindings
  resumes := spawnPlanExecution

/-- The call can hand out a plan ticket that is then executed for the agent. -/
def Call.Opens (agent : Principal) : Call → Prop
  | .admitPlan agent' _ | .resumePlan agent' _ | .executeNext agent' _ => agent' = agent
  | .takeoverRecovery _ _ => True
  | _ => False

/-- The request was made with the token of the principal. -/
def Incoming.By (bindings : List CredentialBinding) (incoming : Incoming) (p : Principal) : Prop :=
  authenticate bindings incoming.token incoming.peerUid = .ok p

section facts

variable {bindings : List CredentialBinding}

omit [Platform] in
theorem spawnPlanExecution_some {task task' : Task} {reply : Reply} {q : Call}
    (h : spawnPlanExecution task reply = some (q, task')) :
    ∃ agent ticket, task = .execution agent ∧ reply.HandsPlan ticket ∧
      q = .executeNext agent ticket ∧ task' = .execution agent := by
  unfold spawnPlanExecution at h
  split at h
  · cases h
    exact ⟨_, _, rfl, rfl, rfl, rfl⟩
  · cases h
    exact ⟨_, _, rfl, rfl, rfl, rfl⟩
  · cases h

theorem recoveryAgent_ok {grant : GrantId} {choice : Choice} {w : World} {agent : Principal}
    (h : recoveryAgent bindings grant choice w = .ok agent) :
    ∃ binding ∈ bindings, binding.identity = agent := by
  unfold recoveryAgent at h
  split at h
  · cases h
  · cases h
  · split at h
    · next found hf =>
        cases h
        obtain ⟨binding, hb, hid, _⟩ := principals_some (Option.filter_eq_some_iff.mp hf).1
        exact ⟨binding, hb, hid⟩
    · cases h

/-- A handler calls for the principal it was given, and it lets a plan be executed for this
principal, or, in a takeover, for another configured one. -/
theorem handle_ok {principal : Principal} {choice : Choice} {w : World} {request : ServiceRequest}
    {q : Call} {task : Task} (h : handle bindings principal choice w request = .ok (some (q, task))) :
    q.principal = some principal ∧ ∀ agent, task = .execution agent → q.Opens agent ∧
      (agent = principal ∨ (∃ binding ∈ bindings, binding.identity = agent) ∧
        ∃ recovery, q = .takeoverRecovery principal recovery) := by
  have hreport : ∀ {agent}, Task.report = .execution agent → False := fun h => by cases h
  cases request with
  | experiment request =>
      cases request with
      | propose proposal =>
          cases h
          exact ⟨rfl, fun _ ht => (hreport ht).elim⟩
      | review plan expectedDigest =>
          cases h
          exact ⟨rfl, fun _ ht => (hreport ht).elim⟩
      | execute grant plan run firstAttempt =>
          cases h
          refine ⟨rfl, fun agent ht => ?_⟩
          cases ht
          exact ⟨rfl, Or.inl rfl⟩
      | resume run =>
          cases h
          refine ⟨rfl, fun agent ht => ?_⟩
          cases ht
          exact ⟨rfl, Or.inl rfl⟩
      | attempt attempt => cases h
  | transaction request =>
      cases request with
      | get attempt => cases h
      | reconciliationHistory attempt => cases h
      | reconcile request attempt =>
          cases h
          exact ⟨rfl, fun _ ht => (hreport ht).elim⟩
      | recoveryTakeover recovery =>
          obtain ⟨agent, hagent, h⟩ := except_bind_ok.mp h
          cases h
          refine ⟨rfl, fun a ha => ?_⟩
          cases ha
          exact ⟨trivial, Or.inr ⟨recoveryAgent_ok hagent, recovery, rfl⟩⟩
      | abandonHaltedRun abandonment =>
          cases h
          exact ⟨rfl, fun _ ht => (hreport ht).elim⟩
  | authority request =>
      cases request with
      | commission profile =>
          cases h
          exact ⟨rfl, fun _ ht => (hreport ht).elim⟩
      | issueGrant agent grant =>
          simp only [handle, handleAuthority] at h
          split at h
          · cases h
            exact ⟨rfl, fun _ ht => (hreport ht).elim⟩
          · cases h
      | revokeGrant grant =>
          cases h
          exact ⟨rfl, fun _ ht => (hreport ht).elim⟩
  | _ => cases h

theorem serveClient_some {incoming : Incoming} {choice : Choice} {w : World} {q : Call} {task : Task}
    (h : serveClient bindings incoming choice w = some (q, task)) :
    ∃ p, incoming.By bindings p ∧ handle bindings p choice w incoming.request = .ok (some (q, task)) := by
  unfold serveClient at h
  split at h
  · cases h
  · next p hp =>
      split at h
      · next next hn =>
          cases h
          exact ⟨p, hp, hn⟩
      · cases h

end facts

end service

/-! ### The service on the bench -/

namespace Bench

/-- The people of the bench, whose tokens are their names. -/
def credentials : List CredentialBinding :=
  [operator, reviewer, agent].map fun p => ⟨p.id, p.role, p.authenticationFingerprint, 0⟩

def sent (p : Principal) (request : ServiceRequest) : Incoming := ⟨0, p.id.value, request⟩

abbrev Exchange := List (Frontend.Move (api credentials))

/-- The whole call of a thread, and what its session does with the result. -/
def carried (t : ℕ) (i : Choice) : Exchange := List.replicate 60 (.act t i) ++ [.follow t]

/-- Requests one after the other, each with the choices for the calls of its session, the first of
them as thread `t`. -/
def exchange (t : ℕ) : List (Incoming × List Choice) → Exchange
  | [] => []
  | (incoming, choices) :: rest =>
      .accept incoming lost :: (choices.zipIdx t).flatMap (fun call => carried call.2 call.1) ++
        exchange (t + choices.length) rest

/-- A plan of two steps is proposed, reviewed and executed. -/
def correspondence : Exchange :=
  .interfere (fun w => { w with artifacts := holding (contents [a₁] []) }) (fun _ => rfl) ::
    List.replicate 2 (.boot lost) ++ [.serve] ++
  exchange 1 [(sent operator (.authority (.commission profile)), [lost]),
    (sent operator (.authority (.issueGrant agent.id (grant g₁))), [lost]),
    (sent agent (.experiment (.propose (proposal p₁ [rest, rest]))), [lost]),
    (sent reviewer (.experiment (.review p₁ (proposal p₁ [rest, rest]).digest)),
      [lost]),
    (sent agent (.experiment (.execute g₁ p₁ r₁ a₁)), [lost, completing a₁, lost])]

/-- Where the requests lead from the first start. -/
def corresponded : (api credentials).Config :=
  (api credentials).play (api credentials).start correspondence

theorem corresponded_reachable : (api credentials).Reachable corresponded :=
  Frontend.play_run _ correspondence

end Bench

end Cheirismos
