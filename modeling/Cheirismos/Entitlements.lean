import Cheirismos.Surveys

/-! # What a call is entitled to

Every call names the principal it is made for, and the operations of the supervisor check the role
of this principal before they act.

`Call.Entitled q r` says which of the requests that matter the call `q` may make, and for whom: only
an operator or an admin commissions, issues and revokes grants, takes over and abandons; only an
agent proposes, reserves, claims and calls the backend, with a ticket only for the attempt of the
ticket; only a reviewer makes a plan of a proposal, and of one with the digest it was given.
`Call.entitled` proves it of every request of every call, whatever the surroundings answer. -/

namespace Cheirismos

open Process

variable [Platform]

/-! ### Parts that only look -/

section quiet

theorem Sup.profile_asks (id : ProfileId) : Sup.Asks Quiet (Sup.profile id) :=
  .bind (.store rfl) fun _ => .required

theorem Sup.grant_asks (id : GrantId) : Sup.Asks Quiet (Sup.grant id) :=
  .bind (.store rfl) fun _ => .required

theorem Sup.plan_asks (id : PlanId) : Sup.Asks Quiet (Sup.plan id) :=
  .bind (.store rfl) fun _ => .required

theorem Sup.run_asks (id : RequestId) : Sup.Asks Quiet (Sup.run id) :=
  .bind (.store rfl) fun _ => .required

theorem Sup.attempt_asks (id : AttemptId) : Sup.Asks Quiet (Sup.attempt id) :=
  .bind (.store rfl) fun _ => .required

theorem Sup.resolve_asks (digest : ArtifactDigest) : Sup.Asks Quiet (Sup.resolve digest) := by
  refine .ask (r := .resolve digest) trivial ?_
  rintro (e | artifact) <;> exact trivial

theorem Sup.verifySource_asks (digest : ArtifactDigest) (source : EvidenceSource) :
    Sup.Asks Quiet (Sup.verifySource digest source) := by
  refine .ask (r := .verifySource digest source) trivial ?_
  rintro (e | artifact) <;> exact trivial

theorem verifyEnvelope_asks (attempt : AttemptId) (challenge : ArtifactDigest)
    (phase : EvidencePhase) (observation : Observation) (lacking unbound : String) :
    Sup.Asks Quiet (verifyEnvelope attempt challenge phase observation lacking unbound) := by
  refine .bind .required fun digest => .bind (Sup.verifySource_asks _ _) fun artifact => ?_
  cases Platform.decodeEnvelope artifact.bytes with
  | error e => exact .throw
  | ok envelope => exact .refuse

theorem completedObservation_asks (attempt : AttemptRecord) :
    Sup.Asks Quiet (completedObservation attempt) := by
  refine .bind (.store rfl) fun history => ?_
  rcases completingReceipt attempt history with ⟨receipt, challenge, phase⟩
  simp only
  split
  · exact .bind (verifyEnvelope_asks _ _ _ _ _ _) fun _ => .pure
  · exact .throw

theorem checkInterlock_asks (attempt : AttemptRecord) (plan : ReviewedPlan)
    (interlock : LiveInterlock) : Sup.Asks Quiet (checkInterlock attempt plan interlock) := by
  refine .bind .check fun index => .bind (.store rfl) fun _ => .bind .required fun witness => ?_
  refine .bind .refuse fun _ => .bind (completedObservation_asks witness) fun observation => ?_
  refine .bind .required fun captured => .bind (.ask (r := .now) trivial fun _ => .pure) fun now => ?_
  refine .bind .required fun age => .bind .required fun planned => ?_
  cases validateInterlockObservation interlock planned.operation observation age with
  | error e => exact .throw
  | ok u => exact .check

theorem checkInterlocks_asks (attempt : AttemptRecord) (plan : ReviewedPlan)
    (operation : Operation) (interlocks : List LiveInterlock) : ∀ earliest,
    Sup.Asks Quiet (checkInterlocks attempt plan operation interlocks earliest) := by
  induction interlocks with
  | nil => exact fun _ => .pure
  | cons interlock interlocks ih =>
      intro earliest
      rw [checkInterlocks]
      split
      · exact .bind (checkInterlock_asks _ _ _) fun _ => ih _
      · exact ih _

theorem checkLiveInterlocks_asks (attempt : AttemptRecord) (profile : CommissionedProfile)
    (plan : ReviewedPlan) : Sup.Asks Quiet (checkLiveInterlocks attempt profile plan) :=
  .bind .required fun _ => checkInterlocks_asks _ _ _ _ _

namespace Supervisor

theorem resolveAll_asks (digests : List ArtifactDigest) : Sup.Asks Quiet (resolveAll digests) := by
  induction digests with
  | nil => exact .pure
  | cons digest digests ih => exact .bind (Sup.resolve_asks digest) fun _ => ih

theorem preflight_asks (operation : Operation) (profile : CommissionedProfile) :
    Sup.Asks Quiet (preflight operation profile) := by
  refine .ask (r := .preflight operation profile) trivial ?_
  rintro (e | u) <;> exact trivial

theorem preflightOperations_asks (grant : Grant) (profile : CommissionedProfile)
    (plan : ReviewedPlan) (operations : List PlannedOperation) :
    Sup.Asks Quiet (preflightOperations grant profile plan operations) := by
  induction operations with
  | nil => exact .pure
  | cons planned rest ih =>
      exact .bind .check fun _ => .bind (resolveAll_asks _) fun _ =>
        .bind (preflight_asks _ _) fun _ => ih

theorem preflightPlan_asks (grant : Grant) (profile : CommissionedProfile) (plan : ReviewedPlan) :
    Sup.Asks Quiet (preflightPlan grant profile plan) :=
  .bind .check fun _ => .bind (resolveAll_asks _) fun _ => preflightOperations_asks _ _ _ _

theorem prepareDispatch_asks (claimed : ClaimedDispatch) :
    Sup.Asks Quiet (prepareDispatch claimed) := by
  have hrest : Sup.Asks Quiet (do
      let dispatch ← Sup.check (dispatchFromSnapshot claimed .execution)
      let validUntil ← checkLiveInterlocks claimed.attempt claimed.profile claimed.plan
      return { dispatch with interlocksValidUntil := validUntil }) :=
    .bind .check fun _ => .bind (checkLiveInterlocks_asks _ _ _) fun _ => .pure
  unfold prepareDispatch
  split_ifs
  · exact .bind (preflightPlan_asks _ _ _) fun _ => hrest
  · exact hrest

theorem verifyReceiptEvidence_asks (attempt : AttemptId) (dispatch : DispatchRequest)
    (receipt : OperationReceipt) :
    Sup.Asks Quiet (verifyReceiptEvidence attempt dispatch receipt) := by
  unfold verifyReceiptEvidence
  split
  · exact .pure
  · exact .bind (verifyEnvelope_asks _ _ _ _ _ _) fun _ => .pure

end Supervisor

end quiet

/-! ### Principals of calls -/

/-- The principal that a call is made for. -/
def Call.principal : Call → Option Principal
  | commission authority _ | issueGrant authority _ _ | revokeGrant authority _ => some authority
  | takeoverRecovery authority _ | abandonHaltedRun authority _ => some authority
  | proposePlan agent _ | submit agent _ | admitPlan agent _ | executeNext agent _ => some agent
  | execute agent _ | resumePlan agent _ | resume agent _ | executePlan agent _ => some agent
  | reviewProposal reviewer _ _ => some reviewer
  | reconcile principal _ _ => some principal
  | deleteProposal _ => none

/-- What an agent may ask for before a step is dispatched and after it has ended. -/
def Principal.Prepares (agent : Principal) : Request → Prop
  | .store (.createRun run) => run.agent = agent.id
  | .store (.reserve _ snapshot) => snapshot.agent = agent.id
  | .store (.saveRun _) | .store (.repairRunCursor _) => True
  | r => Quiet r

/-- What an agent may ask for, when `claims` are the attempts that it may dispatch. -/
def Principal.Acts (agent : Principal) (claims : AttemptId → Prop) : Request → Prop
  | .store (.claimDispatch attempt id) => claims attempt ∧ id = agent.id
  | .store (.claimReconciliation _ _ id _) => id = agent.id
  | .store (.recordReceipt _ _ _) | .store (.finishReconciliation _ _ _ _) | .execute _
  | .reconcile _ _ => True
  | r => agent.Prepares r

omit [Platform] in
theorem Principal.prepares_of_quiet {agent : Principal} {r : Request} (h : Quiet r) :
    agent.Prepares r := by
  cases r with
  | store call =>
      have hr : call.reads = true := h
      cases call <;> first | exact trivial | exact hr | cases hr
  | execute dispatch => exact h.elim
  | reconcile request reconciliation => exact h.elim
  | _ => exact h

section acts

variable {agent : Principal} {claims claims' : AttemptId → Prop} {r : Request}

omit [Platform] in
theorem Principal.acts_of_prepares (h : agent.Prepares r) : agent.Acts claims r := by
  cases r with
  | store call => cases call <;> first | exact h | trivial
  | execute dispatch => exact trivial
  | reconcile request reconciliation => exact trivial
  | _ => exact h

omit [Platform] in
theorem Principal.acts_of_quiet (h : Quiet r) : agent.Acts claims r :=
  acts_of_prepares (prepares_of_quiet h)

omit [Platform] in
theorem Principal.Acts.mono (h : agent.Acts claims r) (hclaims : ∀ id, claims id → claims' id) :
    agent.Acts claims' r := by
  cases r with
  | store call => cases call <;> first | exact h | exact ⟨hclaims _ h.1, h.2⟩
  | _ => exact h

end acts

/-- The calls that use the hardware. -/
def Call.Dispatches : Call → Prop
  | executeNext _ _ | execute _ _ | resume _ _ | executePlan _ _ | reconcile _ _ _ => True
  | _ => False

/-- The attempts that a call may dispatch: with a ticket, the attempt of the ticket. -/
def Call.Claims : Call → AttemptId → Prop
  | executeNext _ ticket, id => id = ticket.dispatch.attempt
  | execute _ ticket, id => id = ticket.attempt
  | _, _ => True

/-- The requests that a call may make for its principal. -/
def Call.Entitled (q : Call) : Request → Prop
  | .store (.saveProfile profile) => ∃ authority, q = .commission authority profile ∧
      authority.Governs
  | .store (.saveGrant grant) => ∃ authority agent, q = .issueGrant authority agent grant ∧
      authority.Governs ∧ agent.role = .agent ∧ grant.agent = agent.id ∧ grant.issuedBy = authority.id
  | .store (.revokeGrant id) => ∃ authority, q = .revokeGrant authority id ∧ authority.Governs
  | .store (.saveProposal proposal) => ∃ agent, q = .proposePlan agent proposal ∧
      agent.role = .agent ∧ proposal.requestedBy = agent.id
  | .store (.consumeReviewedProposal id expected plan) => ∃ reviewer,
      q = .reviewProposal reviewer id expected ∧ reviewer.role = .reviewer ∧
      plan.reviewedBy = reviewer.id ∧ plan.toPlanProposal.digest = expected
  | .store (.deleteProposal id) => q = .deleteProposal id
  | .store (.takeoverRecovery _ _ _ recovery) => ∃ authority request,
      q = .takeoverRecovery authority request ∧ authority.Governs ∧
      recovery.authorizedBy = authority.id
  | .store (.abandonHaltedRun record) => ∃ authority request,
      q = .abandonHaltedRun authority request ∧ authority.Governs ∧
      record.authorizedBy = authority.id
  | r => Quiet r ∨ ∃ agent, q.principal = some agent ∧ agent.role = .agent ∧
      agent.Acts q.Claims r ∧ (q.Dispatches ∨ agent.Prepares r)

theorem Call.entitled_of_quiet {q : Call} {r : Request} (h : Quiet r) : q.Entitled r := by
  cases r with
  | store call =>
      have hr : call.reads = true := h
      cases call <;> first | exact Or.inl h | cases hr
  | _ => exact Or.inl h

theorem Call.entitled_of_acts {q : Call} {agent : Principal} (hq : q.principal = some agent)
    (hrole : agent.role = .agent) {r : Request} (h : agent.Acts q.Claims r)
    (huse : q.Dispatches ∨ agent.Prepares r) : q.Entitled r := by
  cases r with
  | store call =>
      cases call <;> first | exact Or.inr ⟨agent, hq, hrole, h, huse⟩ | exact Bool.noConfusion h
  | _ => exact Or.inr ⟨agent, hq, hrole, h, huse⟩

/-! ### Operations of an agent -/

namespace Supervisor

variable {agent : Principal} {claims : AttemptId → Prop}

theorem submit_asks (request : SubmitRequest) :
    Sup.Asks (fun r => agent.role = .agent ∧ agent.Prepares r) (submit agent request) := by
  refine .checked fun _ hrole => ?_
  have hagent := requireAgent_ok.mp hrole
  have hquiet : ∀ r, Quiet r → agent.role = .agent ∧ agent.Prepares r :=
    fun r h => ⟨hagent, Principal.prepares_of_quiet h⟩
  refine .bind ((Sup.grant_asks _).mono hquiet) fun grant => .bind .refuse fun _ => ?_
  refine .bind ((Sup.profile_asks _).mono hquiet) fun profile => ?_
  refine .bind ((Sup.plan_asks _).mono hquiet) fun plan => .bind .required fun operation => ?_
  refine .bind .check fun _ => ?_
  simp only [ite_bind]
  refine .bind ?_ fun reserved => .bind (.ask (r := .now) (hquiet _ trivial) fun _ => .pure)
    fun now => .bind (.store ⟨hagent, rfl⟩) ?_
  · split
    · exact .required
    · exact .pure
  · rintro (attempt | attempt) <;> exact .pure

theorem dispatchAndRecord_asks (claimed : ClaimedDispatch) (dispatch : DispatchRequest) :
    Sup.Asks (agent.Acts claims) (dispatchAndRecord claimed dispatch) := by
  refine .ask (r := .execute dispatch) trivial fun answer => ?_
  refine .bind (.outcome ((verifyReceiptEvidence_asks _ _ _).mono
    fun _ => Principal.acts_of_quiet)) fun verified => ?_
  exact .store trivial

theorem execute_asks (ticket : DispatchTicket) :
    Sup.Asks (fun r => agent.role = .agent ∧ agent.Acts (· = ticket.attempt) r)
      (execute agent ticket) := by
  refine .checked fun _ hrole => ?_
  have hagent := requireAgent_ok.mp hrole
  refine .bind (.store ⟨hagent, rfl, rfl⟩) fun claimed => ?_
  refine .bind (.outcome ((prepareDispatch_asks claimed).mono
    fun _ h => ⟨hagent, Principal.acts_of_quiet h⟩)) ?_
  rintro (error | dispatch)
  · exact .store ⟨hagent, trivial⟩
  · exact (dispatchAndRecord_asks claimed dispatch).mono fun _ h => ⟨hagent, h⟩

theorem advanceRun_asks (id : RequestId) (cursor : ℕ) :
    Sup.Asks agent.Prepares (advanceRun id cursor) :=
  .bind ((Sup.run_asks id).mono fun _ => Principal.prepares_of_quiet) fun _ =>
    .bind .refuse fun _ => .bind .refuse fun _ => .store trivial

theorem executeNext_asks (ticket : PlanTicket) :
    Sup.Asks (fun r => agent.role = .agent ∧ agent.Acts (· = ticket.dispatch.attempt) r)
      (executeNext agent ticket) := by
  by_cases hagent : agent.role = .agent
  · refine .bind (execute_asks _) fun attempt => ?_
    split_ifs
    · exact .pure
    · have hacts : ∀ r, agent.role = .agent ∧ agent.Prepares r →
          agent.role = .agent ∧ agent.Acts (· = ticket.dispatch.attempt) r :=
        fun _ h => ⟨h.1, Principal.acts_of_prepares h.2⟩
      refine .bind ((advanceRun_asks _ _).mono fun r h => hacts r ⟨hagent, h⟩) fun _ => ?_
      refine .bind ((Sup.run_asks _).mono fun _ h => ⟨hagent, Principal.acts_of_quiet h⟩) fun run => ?_
      simp only
      split
      · exact .pure
      · refine .bind .required fun step => .bind ((submit_asks _).mono hacts) fun submission => ?_
        exact .bind .check fun _ => .pure
  · have hrefused : requireAgent agent = .error (.role agent.id.value "agent") := by
      rw [requireAgent, deny, if_pos hagent]
    rw [executeNext, execute, hrefused]
    exact trivial

theorem resumeStep_asks (hagent : agent.role = .agent) (run : PlanRun)
    (steps : List (AttemptId × RequestId)) : ∀ index,
    Sup.Asks (fun r => agent.role = .agent ∧ agent.Prepares r) (resumeStep agent run index steps) := by
  induction steps with
  | nil => exact fun _ => .throw
  | cons step steps ih =>
      intro index
      obtain ⟨attemptId, requestId⟩ := step
      refine .bind (.store ⟨hagent, rfl⟩) fun found => ?_
      cases found with
      | some attempt =>
          simp only
          split
          · exact ih _
          · split
            · exact .pure
            · exact .throw
      | none => exact .bind (submit_asks _) fun _ => .bind .check fun _ => .pure

theorem admitPlan_asks (request : PlanAdmissionRequest) :
    Sup.Asks (fun r => agent.role = .agent ∧ agent.Prepares r) (admitPlan agent request) := by
  refine .checked fun _ hrole => ?_
  have hagent := requireAgent_ok.mp hrole
  have hquiet : ∀ r, Quiet r → agent.role = .agent ∧ agent.Prepares r :=
    fun r h => ⟨hagent, Principal.prepares_of_quiet h⟩
  refine .bind ((Sup.grant_asks _).mono hquiet) fun grant => .bind .refuse fun _ => ?_
  refine .bind (.store (hquiet _ rfl)) fun _ => .bind .refuse fun _ => ?_
  refine .bind (.store (hquiet _ rfl)) fun _ => .bind .refuse fun _ => ?_
  refine .bind ((Sup.profile_asks _).mono hquiet) fun profile => ?_
  refine .bind ((Sup.plan_asks _).mono hquiet) fun plan => ?_
  refine .bind ((preflightPlan_asks _ _ _).mono hquiet) fun _ => .bind .check fun steps => ?_
  exact .bind (.store ⟨hagent, rfl⟩) fun _ => .bind (submit_asks _) fun _ => .bind .check fun _ => .pure

theorem resumePlan_asks (runId : RequestId) :
    Sup.Asks (fun r => agent.role = .agent ∧ agent.Prepares r) (resumePlan agent runId) := by
  refine .checked fun _ hrole => ?_
  have hagent := requireAgent_ok.mp hrole
  refine .bind (.store ⟨hagent, trivial⟩) fun run => .bind .refuse fun _ => ?_
  refine .bind (.store ⟨hagent, rfl⟩) fun _ => .bind .refuse fun _ => ?_
  exact .bind (.store ⟨hagent, rfl⟩) fun _ => .bind .refuse fun _ => resumeStep_asks hagent _ _ _

theorem resume_asks (request : RequestId) :
    Sup.Asks (fun r => agent.role = .agent ∧ agent.Acts (fun _ => True) r)
      (resume agent request) := by
  refine .checked fun _ hrole => ?_
  have hagent := requireAgent_ok.mp hrole
  exact .bind (.store ⟨hagent, rfl⟩) fun _ => .bind .required fun _ => .bind .refuse fun _ =>
    (execute_asks _).mono fun _ h => ⟨h.1, h.2.mono fun _ _ => trivial⟩

theorem executePlan_asks (requests : List SubmitRequest) :
    Sup.Asks (fun r => agent.role = .agent ∧ agent.Acts (fun _ => True) r)
      (executePlan agent requests) := by
  induction requests with
  | nil => exact .pure
  | cons request requests ih =>
      refine .bind ((submit_asks _).mono fun _ h => ⟨h.1, Principal.acts_of_prepares h.2⟩) ?_
      rintro (attempt | ticket)
      · exact .bind .refuse fun _ => .bind ih fun _ => .pure
      · refine .bind ((execute_asks _).mono fun _ h => ⟨h.1, h.2.mono fun _ _ => trivial⟩)
          fun attempt => ?_
        split_ifs
        · exact .pure
        · exact .bind ih fun _ => .pure

theorem failReconciliation_asks {α : Type} (request : RequestId) (error : SupervisorError) :
    Sup.Asks (agent.Acts claims) (failReconciliation (α := α) request error) :=
  .bind (.store trivial) fun _ => .throw

theorem reconcileClaimed_asks (request : RequestId) (planned : PlannedOperation) (configure : Bool)
    (claimed : ClaimedReconciliation) :
    Sup.Asks (agent.Acts claims) (reconcileClaimed request planned configure claimed) := by
  unfold reconcileClaimed
  split
  · exact failReconciliation_asks _ _
  · refine .ask (r := .reconcile request _) trivial ?_
    rintro (source | receipt)
    · exact failReconciliation_asks _ _
    · simp only
      split
      · exact failReconciliation_asks _ _
      · refine .bind (.outcome ((verifyReceiptEvidence_asks _ _ _).mono
          fun _ => Principal.acts_of_quiet)) ?_
        rintro (error | receipt)
        · exact failReconciliation_asks _ _
        · exact .store trivial

theorem reconcile_asks (attemptId : AttemptId) (requestId : RequestId) :
    Sup.Asks (fun r => agent.role = .agent ∧ agent.Acts claims r)
      (reconcile agent attemptId requestId) := by
  refine .checked fun _ hrole => ?_
  have hagent := requireAgent_ok.mp hrole
  have hquiet : ∀ r, Quiet r → agent.role = .agent ∧ agent.Acts claims r :=
    fun r h => ⟨hagent, Principal.acts_of_quiet h⟩
  refine .bind ((Sup.attempt_asks _).mono hquiet) fun attempt => ?_
  refine .bind ((Sup.grant_asks _).mono hquiet) fun grant => .bind .refuse fun _ => ?_
  split_ifs
  · exact .bind (.store (hquiet _ rfl)) fun _ => .bind .refuse fun _ => .pure
  · refine .bind ((Sup.plan_asks _).mono hquiet) fun plan => .bind .required fun planned => ?_
    refine .bind (.store ⟨hagent, rfl⟩) ?_
    rintro (record | claimed)
    · exact (Sup.attempt_asks _).mono hquiet
    · exact (reconcileClaimed_asks _ _ _ _).mono fun _ h => ⟨hagent, h⟩

end Supervisor

/-! ### Every call -/

/-- What the wrapped operation asks for is what the call asks for. -/
theorem reply_asks {α : Type} {P : Request → Prop} {wrap : Except SupervisorError α → Reply}
    {x : Sup α} (h : Sup.Asks P x) : (Sup.reply wrap x).Asks P :=
  Program.Asks.bind h fun _ => trivial

/-- An operation that uses the hardware for an agent. -/
theorem agent_asks {α : Type} {q : Call} {agent : Principal} (hq : q.principal = some agent)
    (huse : q.Dispatches) {wrap : Except SupervisorError α → Reply} {x : Sup α}
    (h : Sup.Asks (fun r => agent.role = .agent ∧ agent.Acts q.Claims r) x) :
    (Sup.reply wrap x).Asks q.Entitled :=
  reply_asks (h.mono fun _ hr => Call.entitled_of_acts hq hr.1 hr.2 (Or.inl huse))

/-- An operation that is run for an agent and does not use the hardware. -/
theorem preparing_asks {α : Type} {q : Call} {agent : Principal} (hq : q.principal = some agent)
    {wrap : Except SupervisorError α → Reply} {x : Sup α}
    (h : Sup.Asks (fun r => agent.role = .agent ∧ agent.Prepares r) x) :
    (Sup.reply wrap x).Asks q.Entitled :=
  reply_asks (h.mono fun _ hr =>
    Call.entitled_of_acts hq hr.1 (Principal.acts_of_prepares hr.2) (Or.inr hr.2))

namespace Supervisor

theorem takeoverRecovery_asks (authority : Principal) (request : RecoveryTakeoverRequest) :
    Sup.Asks (Call.takeoverRecovery authority request).Entitled
      (takeoverRecovery authority request) := by
  refine .checked fun _ hrole => .bind .refuse fun _ => ?_
  have hquiet : ∀ r, Quiet r → (Call.takeoverRecovery authority request).Entitled r :=
    fun _ => Call.entitled_of_quiet
  refine .bind ((Sup.resolve_asks _).mono hquiet) fun _ => ?_
  refine .bind ((Sup.grant_asks _).mono hquiet) fun grant => ?_
  refine .bind ((Sup.profile_asks _).mono hquiet) fun profile => ?_
  refine .bind ((Sup.plan_asks _).mono hquiet) fun plan => ?_
  refine .bind ((preflightPlan_asks _ _ _).mono hquiet) fun _ => .bind .check fun steps => ?_
  refine .bind (.ask (r := .now) (hquiet _ trivial) fun _ => .pure) fun now => ?_
  refine .bind .required fun reserved => ?_
  refine .bind (.ask (r := .now) (hquiet _ trivial) fun _ => .pure) fun authorizedAt => ?_
  exact .bind (.store ⟨authority, request, rfl, requireAuthority_ok.mp hrole, rfl⟩) fun _ => .pure

theorem abandonHaltedRun_asks (authority : Principal) (request : HaltedRunAbandonmentRequest) :
    Sup.Asks (Call.abandonHaltedRun authority request).Entitled
      (abandonHaltedRun authority request) := by
  refine .checked fun _ hrole => ?_
  have hquiet : ∀ r, Quiet r → (Call.abandonHaltedRun authority request).Entitled r :=
    fun _ => Call.entitled_of_quiet
  refine .bind ((Sup.resolve_asks _).mono hquiet) fun _ => ?_
  refine .bind ((Sup.run_asks _).mono hquiet) fun run => .bind .refuse fun _ => ?_
  refine .bind (.store (hquiet _ rfl)) fun existing => ?_
  have hrest : ∀ resources, Sup.Asks (Call.abandonHaltedRun authority request).Entitled (do
      let now ← Sup.now
      Sup.store (.abandonHaltedRun
        { request := request.request
          run := request.run
          grant := request.grant
          plan := request.plan
          resources := resources
          justificationEvidence := request.justificationEvidence
          authorizedBy := authority.id
          authorizedAt := Platform.renderTimestamp now })) := fun resources =>
    .bind (.ask (r := .now) (hquiet _ trivial) fun _ => .pure) fun _ =>
      .store ⟨authority, request, rfl, requireAuthority_ok.mp hrole, rfl⟩
  cases existing with
  | some record => exact hrest _
  | none => exact .bind (.store (hquiet _ rfl)) fun resources => hrest resources

theorem reviewProposal_asks (reviewer : Principal) (id : PlanId) (expected : ArtifactDigest) :
    Sup.Asks (Call.reviewProposal reviewer id expected).Entitled
      (reviewProposal reviewer id expected) := by
  refine .bind (.store (Call.entitled_of_quiet rfl)) fun _ => .bind .required fun proposal => ?_
  refine .refused fun hrole => .refused fun hdigest => ?_
  push Not at hrole hdigest
  exact .bind (.store ⟨reviewer, rfl, hrole.1, rfl, hdigest⟩) fun _ => .pure

end Supervisor

/-- Every request of a call is one that the call is entitled to, whatever is answered. -/
theorem Call.entitled (q : Call) : q.body.Asks q.Entitled := by
  cases q with
  | commission authority profile =>
      exact reply_asks (.checked fun _ hrole =>
        .store ⟨authority, rfl, requireAuthority_ok.mp hrole⟩)
  | issueGrant authority agent grant =>
      refine reply_asks (.checked fun _ hrole => .refused fun hbad => ?_)
      push Not at hbad
      refine .bind ((Sup.profile_asks _).mono fun _ => Call.entitled_of_quiet) fun profile => ?_
      exact .bind .refuse fun _ => .store
        ⟨authority, agent, rfl, requireAuthority_ok.mp hrole, hbad.1, hbad.2.1, hbad.2.2⟩
  | revokeGrant authority id =>
      exact reply_asks (.checked fun _ hrole =>
        .store ⟨authority, rfl, requireAuthority_ok.mp hrole⟩)
  | proposePlan agent proposal =>
      refine reply_asks (.checked fun _ hrole => .refused fun hbad => ?_)
      push Not at hbad
      exact .bind (.store ⟨agent, rfl, requireAgent_ok.mp hrole, hbad.1⟩) fun _ => .pure
  | reviewProposal reviewer id expected =>
      exact reply_asks (Supervisor.reviewProposal_asks reviewer id expected)
  | deleteProposal id => exact reply_asks (.store rfl)
  | submit agent request => exact preparing_asks rfl (Supervisor.submit_asks request)
  | admitPlan agent request => exact preparing_asks rfl (Supervisor.admitPlan_asks request)
  | takeoverRecovery authority request =>
      exact reply_asks (Supervisor.takeoverRecovery_asks authority request)
  | abandonHaltedRun authority request =>
      exact reply_asks (Supervisor.abandonHaltedRun_asks authority request)
  | executeNext agent ticket => exact agent_asks rfl (by trivial) (Supervisor.executeNext_asks ticket)
  | execute agent ticket => exact agent_asks rfl (by trivial) (Supervisor.execute_asks ticket)
  | resumePlan agent run => exact preparing_asks rfl (Supervisor.resumePlan_asks run)
  | resume agent request => exact agent_asks rfl (by trivial) (Supervisor.resume_asks request)
  | executePlan agent requests => exact agent_asks rfl (by trivial) (Supervisor.executePlan_asks requests)
  | reconcile principal attempt request =>
      exact agent_asks rfl (by trivial) (Supervisor.reconcile_asks attempt request)

/-! ### Restarts -/

/-- What the boot program asks for. -/
def Restores : Request → Prop
  | .store (.updateAttempt _) | .store (.updateReconciliation _) => True
  | r => Quiet r

theorem restores_boot : Supervisor.boot.Asks Restores := by
  have hattempts : ∀ attempts, Sup.Asks Restores (Supervisor.recoverAttempts attempts) := by
    intro attempts
    induction attempts with
    | nil => exact .pure
    | cons attempt attempts ih =>
        exact .bind (.ask (r := .now) trivial fun _ => .pure) fun _ =>
          .bind (.store trivial) fun _ => ih
  have hrecords : ∀ records, Sup.Asks Restores (Supervisor.recoverReconciliations records) := by
    intro records
    induction records with
    | nil => exact .pure
    | cons record records ih =>
        exact .bind (.ask (r := .now) trivial fun _ => .pure) fun _ =>
          .bind (.store trivial) fun _ => ih
  have hrecover : Sup.Asks Restores Supervisor.recoverInterruptedDispatches :=
    .bind (.store rfl) fun _ => .bind (hattempts _) fun _ => .bind (.store rfl) fun _ => hrecords _
  refine Program.Asks.bind hrecover ?_
  rintro (e | u) <;> exact trivial

end Cheirismos
