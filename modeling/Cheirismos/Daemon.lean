import Cheirismos.Supervisor

/-! # The service

The supervisor's process as a `Service`: it starts by `recover_interrupted_dispatches`, then
any number of clients call the public operations of `Supervisor`, and the store's own
`delete_proposal`, concurrently.

A ticket is a value without a public constructor, so a call that takes one is admitted only
if the ticket is among the results handed out since the last start.  The read-only accessors of
`Supervisor` (`profile`, `grant`, `plan`, `attempt`, `reconciliation_history`) and the case facts
are left out: no other operation depends on them. -/

namespace Cheirismos

open Process

variable [Platform]

/-! ### Start -/

namespace Supervisor

/-- Every dispatched attempt becomes unknown, one row at a time. -/
def recoverAttempts : List AttemptRecord → Sup Unit
  | [] => return ()
  | attempt :: attempts => do
      let now ← Sup.now
      Sup.store (.updateAttempt { attempt with
        state := .unknown
        receipt := some
          (.unknown "process interrupted after dispatch; reconciliation required" none)
        updatedAt := Platform.renderTimestamp now })
      recoverAttempts attempts

/-- Every claimed reconciliation becomes unknown, one row at a time. -/
def recoverReconciliations : List ReconciliationRecord → Sup Unit
  | [] => return ()
  | record :: records => do
      let now ← Sup.now
      Sup.store (.updateReconciliation { record with
        state := .unknown
        endedAt := some (Platform.renderTimestamp now) })
      recoverReconciliations records

def recoverInterruptedDispatches : Sup Unit := do
  recoverAttempts (← Sup.store .dispatchedAttempts)
  recoverReconciliations (← Sup.store .claimedReconciliations)

/-- Opening the store; `false` when it fails. -/
def boot : Program surroundings Bool := do
  match ← ExceptT.run recoverInterruptedDispatches with
  | .ok () => return true
  | .error _ => return false

end Supervisor

/-! ### Calls -/

inductive Call where
  | commission (authority : Principal) (profile : CommissionedProfile)
  | issueGrant (authority agent : Principal) (grant : Grant)
  | revokeGrant (authority : Principal) (id : GrantId)
  | proposePlan (agent : Principal) (proposal : PlanProposal)
  | reviewProposal (reviewer : Principal) (id : PlanId) (expectedDigest : ArtifactDigest)
  | deleteProposal (id : PlanId)
  | submit (agent : Principal) (request : SubmitRequest)
  | admitPlan (agent : Principal) (request : PlanAdmissionRequest)
  | takeoverRecovery (authority : Principal) (request : RecoveryTakeoverRequest)
  | abandonHaltedRun (authority : Principal) (request : HaltedRunAbandonmentRequest)
  | executeNext (agent : Principal) (ticket : PlanTicket)
  | execute (agent : Principal) (ticket : DispatchTicket)
  | resumePlan (agent : Principal) (run : RequestId)
  | resume (agent : Principal) (request : RequestId)
  | executePlan (agent : Principal) (requests : List SubmitRequest)
  | reconcile (principal : Principal) (attempt : AttemptId) (request : RequestId)

inductive Reply where
  | done (result : Except SupervisorError Unit)
  | proposal (result : Except SupervisorError PlanProposal)
  | plan (result : Except SupervisorError ReviewedPlan)
  | submission (result : Except SupervisorError Submission)
  | ticket (result : Except SupervisorError PlanTicket)
  | abandonment (result : Except SupervisorError HaltedRunAbandonmentRecord)
  | progress (result : Except SupervisorError PlanProgress)
  | attempt (result : Except SupervisorError AttemptRecord)
  | attempts (result : Except SupervisorError (List AttemptRecord))

/-- Run an operation and wrap its result. -/
def Sup.reply {α : Type} (wrap : Except SupervisorError α → Reply) (x : Sup α) :
    Program surroundings Reply :=
  Functor.map wrap (ExceptT.run x)

def Call.body : Call → Program surroundings Reply
  | commission authority profile => Sup.reply .done (Supervisor.commission authority profile)
  | issueGrant authority agent grant =>
      Sup.reply .done (Supervisor.issueGrant authority agent grant)
  | revokeGrant authority id => Sup.reply .done (Supervisor.revokeGrant authority id)
  | proposePlan agent proposal => Sup.reply .proposal (Supervisor.proposePlan agent proposal)
  | reviewProposal reviewer id expectedDigest =>
      Sup.reply .plan (Supervisor.reviewProposal reviewer id expectedDigest)
  | deleteProposal id => Sup.reply .done (Sup.store (.deleteProposal id))
  | submit agent request => Sup.reply .submission (Supervisor.submit agent request)
  | admitPlan agent request => Sup.reply .ticket (Supervisor.admitPlan agent request)
  | takeoverRecovery authority request =>
      Sup.reply .ticket (Supervisor.takeoverRecovery authority request)
  | abandonHaltedRun authority request =>
      Sup.reply .abandonment (Supervisor.abandonHaltedRun authority request)
  | executeNext agent ticket => Sup.reply .progress (Supervisor.executeNext agent ticket)
  | execute agent ticket => Sup.reply .attempt (Supervisor.execute agent ticket)
  | resumePlan agent run => Sup.reply .ticket (Supervisor.resumePlan agent run)
  | resume agent request => Sup.reply .attempt (Supervisor.resume agent request)
  | executePlan agent requests => Sup.reply .attempts (Supervisor.executePlan agent requests)
  | reconcile principal attempt request =>
      Sup.reply .attempt (Supervisor.reconcile principal attempt request)

/-- The dispatch tickets that a reply hands out. -/
def Reply.Hands (ticket : DispatchTicket) : Reply → Prop
  | submission (.ok (.admitted handed)) => handed = ticket
  | _ => False

/-- The plan tickets that a reply hands out. -/
def Reply.HandsPlan (planTicket : PlanTicket) : Reply → Prop
  | ticket (.ok handed) => handed = planTicket
  | progress (.ok ⟨_, some handed⟩) => handed = planTicket
  | _ => False

/-- A call with a ticket needs the ticket. -/
def Call.admitted (replies : List Reply) : Call → Prop
  | execute _ ticket => ∃ reply ∈ replies, reply.Hands ticket
  | executeNext _ ticket => ∃ reply ∈ replies, reply.HandsPlan ticket
  | _ => True

instance (handed : DispatchTicket) : (reply : Reply) → Decidable (reply.Hands handed)
  | .submission (.ok (.admitted ticket)) => inferInstanceAs (Decidable (ticket = handed))
  | .submission (.ok (.existing _)) | .submission (.error _) => isFalse id
  | .done _ | .proposal _ | .plan _ | .ticket _ | .abandonment _ | .progress _ | .attempt _
  | .attempts _ => isFalse id

instance (handed : PlanTicket) : (reply : Reply) → Decidable (reply.HandsPlan handed)
  | .ticket (.ok ticket) => inferInstanceAs (Decidable (ticket = handed))
  | .progress (.ok ⟨_, some ticket⟩) => inferInstanceAs (Decidable (ticket = handed))
  | .ticket (.error _) | .progress (.error _) | .progress (.ok ⟨_, none⟩) => isFalse id
  | .done _ | .proposal _ | .plan _ | .submission _ | .abandonment _ | .attempt _
  | .attempts _ => isFalse id

instance (replies : List Reply) : (q : Call) → Decidable (q.admitted replies)
  | .execute _ ticket => inferInstanceAs (Decidable (∃ reply ∈ replies, reply.Hands ticket))
  | .executeNext _ ticket => inferInstanceAs (Decidable (∃ reply ∈ replies, reply.HandsPlan ticket))
  | .commission .. | .issueGrant .. | .revokeGrant .. | .proposePlan .. | .reviewProposal ..
  | .deleteProposal .. | .submit .. | .admitPlan .. | .takeoverRecovery .. | .abandonHaltedRun ..
  | .resumePlan .. | .resume .. | .executePlan .. | .reconcile .. => isTrue trivial

/-- The supervisor's process over its durable store. -/
abbrev daemon : Service machine where
  Call := Call
  Result := Reply
  boot := Supervisor.boot
  body := Call.body
  admits := Call.admitted

end Cheirismos
