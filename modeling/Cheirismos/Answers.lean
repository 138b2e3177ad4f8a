import Cheirismos.Conformance
import Cheirismos.Entitlements
import Cheirismos.Traces

/-! # Receipts are answers

What the supervisor records of an operation is what the backend has answered to the same thread.
`Supported` says so of three kinds of requests: a completed receipt is recorded, and a
reconciliation is finished as completed, only with an observation that the thread's own call of
the backend returned as completed; and a backend is called for a reconciliation only with the
dispatch of the claim that the thread has been given.  `Call.supported` shows it of every call, and
`Reachable.supported` of every request in every run. -/

namespace Cheirismos

open Process

variable [Platform]

/-- What a thread has heard before it says how an operation ended, or calls the backend for a
reconciliation. -/
def Supported (past : List (Exchange surroundings)) : Request → Prop
  | .store (.recordReceipt id receipt _) => ∀ observation, receipt = .completed observation →
      ∃ dispatch, dispatch.attempt = id ∧
        (⟨.execute dispatch, some (.ok (.completed observation))⟩ : Exchange surroundings) ∈ past
  | .store (.finishReconciliation request receipt completed _) => completed = true →
      ∃ observation reconciliation, receipt = some (.completed observation) ∧
        (⟨.reconcile request reconciliation, some (.ok (.completed observation))⟩ :
          Exchange surroundings) ∈ past
  | .reconcile request reconciliation => ∃ attempt principal budget claimed configure,
      (⟨.store (.claimReconciliation attempt request principal budget),
        some (.ok (.claimed claimed))⟩ : Exchange surroundings) ∈ past ∧
      Supervisor.reconciliationDispatch claimed configure = .ok reconciliation.dispatch
  | _ => True

theorem supported_of_quiet {past : List (Exchange surroundings)} {r : Request} (h : Quiet r) :
    Supported past r := by
  cases r with
  | store call => cases call <;> trivial
  | reconcile request reconciliation => exact h.elim
  | _ => trivial

theorem supported_of_prepares {past : List (Exchange surroundings)} {agent : Principal}
    {r : Request} (h : agent.Prepares r) : Supported past r := by
  cases r with
  | store call => cases call <;> trivial
  | reconcile request reconciliation => exact h.elim
  | _ => trivial

/-! ### Rules -/

/-- Every request of the operation is supported by what its thread has heard. -/
def Sup.Supported {α : Type} (past : List (Exchange surroundings)) (x : Sup α) : Prop :=
  Program.Recalls (F := surroundings) Cheirismos.Supported past (ExceptT.run x)

namespace Sup.Supported

variable {α β : Type} {past : List (Exchange surroundings)} {x : Sup α} {f : α → Sup β}

theorem of_asks {P : Request → Prop} (hP : ∀ r, P r → ∀ past, Cheirismos.Supported past r)
    (h : Sup.Asks P x) : Sup.Supported past x :=
  Program.Asks.recalls (Program.Asks.mono hP h)

theorem of_quiet (h : Sup.Asks Quiet x) : Sup.Supported past x :=
  of_asks (fun _ hr _ => supported_of_quiet hr) h

theorem of_prepares {agent : Principal}
    (h : Sup.Asks (fun r => agent.role = .agent ∧ agent.Prepares r) x) : Sup.Supported past x :=
  of_asks (fun _ hr _ => supported_of_prepares hr.2) h

protected theorem pure {a : α} : Sup.Supported past (pure a : Sup α) := trivial

protected theorem bind (hx : Sup.Supported past x)
    (hf : ∀ a past', past <:+ past' → Sup.Supported past' (f a)) :
    Sup.Supported past (x >>= f) := by
  refine Program.Recalls.bind hx ?_
  rintro (e | a) past' h
  · exact trivial
  · exact hf a past' h

/-- What is known of the outcome of an operation. -/
theorem settled {Q : Except SupervisorError α → Prop} {f : Except SupervisorError α → Sup β}
    (hx : Sup.Supported past x) (hq : Program.Ends (F := surroundings) Q (ExceptT.run x))
    (hf : ∀ r past', Q r → past <:+ past' → Sup.Supported past' (f r)) :
    Sup.Supported past (Sup.outcome x >>= f) := by
  refine Program.Recalls.ends (Q := fun r => ∃ r', r = .ok r' ∧ Q r')
    (Program.Recalls.bind hx fun _ _ _ => trivial) (Program.Ends.bind hq fun r h => ⟨r, rfl, h⟩) ?_
  rintro r past' ⟨r', rfl, h⟩ hsuf
  exact hf r' past' h hsuf

protected theorem ask {r : Request} {g : Answer r → Sup β} (hr : Cheirismos.Supported past r)
    (h : ∀ v, Sup.Supported (⟨r, some v⟩ :: past) (g v)) : Sup.Supported past (Sup.ask r >>= g) :=
  ⟨hr, h⟩

/-- A call of the store whose answer is used. -/
theorem stored {call : StoreCall} {g : call.Output → Sup β}
    (hr : Cheirismos.Supported past (.store call))
    (h : ∀ output, Sup.Supported (⟨.store call, some (.ok output)⟩ :: past) (g output)) :
    Sup.Supported past (Sup.store call >>= g) := by
  refine ⟨hr, ?_⟩
  rintro (e | output)
  · exact trivial
  · exact h output

protected theorem store {call : StoreCall} (hr : Cheirismos.Supported past (.store call)) :
    Sup.Supported past (Sup.store call) := by
  refine ⟨hr, ?_⟩
  rintro (e | output) <;> exact trivial

end Sup.Supported

/-! ### Operations that use the hardware -/

namespace Supervisor

variable {past : List (Exchange surroundings)}

/-- Evidence is verified or not; the receipt stays what it is. -/
theorem verifyReceiptEvidence_returns (attempt : AttemptId) (dispatch : DispatchRequest)
    (receipt : OperationReceipt) : Program.Ends (F := surroundings)
      (fun r => ∀ receipt', r = .ok receipt' → receipt' = receipt)
      (ExceptT.run (verifyReceiptEvidence attempt dispatch receipt)) := by
  unfold verifyReceiptEvidence
  split
  · exact fun receipt' h => by cases h; rfl
  · refine Program.Ends.bind (Program.ends_any _) ?_
    rintro (e | u) _ receipt' h
    · cases h
    · cases h
      rfl

theorem dispatchAndRecord_supported (claimed : ClaimedDispatch) {dispatch : DispatchRequest}
    (hdispatch : dispatch.attempt = claimed.attempt.id) :
    Sup.Supported past (dispatchAndRecord claimed dispatch) := by
  refine .ask (r := .execute dispatch) trivial fun answer => ?_
  refine .settled (.of_quiet (verifyReceiptEvidence_asks _ _ _))
    (verifyReceiptEvidence_returns _ _ _) fun verified past' hverified hsuf => .store ?_
  intro observation hcompleted
  obtain ⟨hkept, _⟩ := checkPostconditions_completed hcompleted
  refine ⟨dispatch, hdispatch, hsuf.subset ?_⟩
  cases verified with
  | error e => cases hkept
  | ok receipt =>
      have hanswer := (hverified receipt rfl).symm.trans hkept
      cases answer with
      | error e => cases hanswer
      | ok receipt' =>
          obtain rfl : receipt' = .completed observation := hanswer
          exact List.mem_cons_self

theorem prepareDispatch_attempt (claimed : ClaimedDispatch) : Program.Ends (F := surroundings)
    (fun r => ∀ dispatch, r = .ok dispatch → dispatch.attempt = claimed.attempt.id)
    (ExceptT.run (prepareDispatch claimed)) := by
  have hrest : Program.Ends (F := surroundings)
      (fun r => ∀ dispatch, r = .ok dispatch → dispatch.attempt = claimed.attempt.id)
      (ExceptT.run (do
        let dispatch ← Sup.check (dispatchFromSnapshot claimed .execution)
        let validUntil ← checkLiveInterlocks claimed.attempt claimed.profile claimed.plan
        return { dispatch with interlocksValidUntil := validUntil } : Sup DispatchRequest)) := by
    refine Program.Ends.bind (P := fun r => ∀ dispatch, r = .ok dispatch →
      dispatch.attempt = claimed.attempt.id) (fun dispatch h => ?_) ?_
    · unfold dispatchFromSnapshot at h
      split at h
      · cases h
      · obtain ⟨_, _, hd⟩ := except_bind_ok.mp h
        cases hd
        rfl
    · rintro (e | dispatch) hattempt
      · exact fun dispatch h => by cases h
      · refine Program.Ends.bind (Program.ends_any _) ?_
        rintro (e | validUntil) _
        · exact fun dispatch h => by cases h
        · rintro _ h
          cases h
          exact hattempt dispatch rfl
  unfold prepareDispatch
  split_ifs
  · refine Program.Ends.bind (Program.ends_any _) ?_
    rintro (e | u) _
    · exact fun dispatch h => by cases h
    · exact hrest
  · exact hrest

theorem execute_supported (agent : Principal) (ticket : DispatchTicket) :
    Sup.Supported past (execute agent ticket) := by
  refine .bind (.of_quiet .check) fun _ _ _ => .bind (.store trivial) fun claimed _ _ => ?_
  refine .settled (.of_quiet (prepareDispatch_asks claimed)) (prepareDispatch_attempt claimed) ?_
  rintro (error | dispatch) past' hprepared _
  · exact .store fun observation h => by cases h
  · exact dispatchAndRecord_supported claimed (hprepared dispatch rfl)

theorem executeNext_supported (agent : Principal) (ticket : PlanTicket) :
    Sup.Supported past (executeNext agent ticket) := by
  by_cases hagent : agent.role = .agent
  · refine .bind (execute_supported agent _) fun attempt _ _ => ?_
    split_ifs
    · exact .pure
    · have hadvance : ∀ id cursor, Sup.Asks agent.Prepares (advanceRun id cursor) :=
        advanceRun_asks
      refine .bind (.of_asks (fun _ hr _ => supported_of_prepares hr) (hadvance _ _))
        fun _ _ _ => ?_
      refine .bind (.of_quiet (Sup.run_asks _)) fun run _ _ => ?_
      simp only
      split
      · exact .pure
      · refine .bind (.of_quiet .required) fun step _ _ => ?_
        refine .bind (.of_prepares (submit_asks _)) fun submission _ _ => ?_
        exact .bind (.of_quiet .check) fun _ _ _ => .pure
  · have hrefused : requireAgent agent = .error (.role agent.id.value "agent") := by
      rw [requireAgent, deny, if_pos hagent]
    rw [executeNext, execute, hrefused]
    exact trivial

theorem executePlan_supported (agent : Principal) (requests : List SubmitRequest) :
    Sup.Supported past (executePlan agent requests) := by
  induction requests generalizing past with
  | nil => exact .pure
  | cons request requests ih =>
      refine .bind (.of_prepares (submit_asks _)) ?_
      rintro (attempt | ticket) _ _
      · exact .bind (.of_quiet .refuse) fun _ _ _ => .bind ih fun _ _ _ => .pure
      · refine .bind (execute_supported agent _) fun attempt _ _ => ?_
        split_ifs
        · exact .pure
        · exact .bind ih fun _ _ _ => .pure

theorem failReconciliation_supported {α : Type} (request : RequestId) (error : SupervisorError) :
    Sup.Supported past (failReconciliation (α := α) request error) := by
  refine .bind (.store fun h => ?_) fun _ _ _ => trivial
  cases h

/-- The backend is called with the dispatch of the claim. -/
theorem reconcileClaimed_supported {attempt : AttemptId} {request : RequestId}
    {principal : PrincipalId} {budget : Option Budget} (planned : PlannedOperation)
    (configure : Bool) (claimed : ClaimedReconciliation)
    (hclaimed : (⟨.store (.claimReconciliation attempt request principal budget),
      some (.ok (.claimed claimed))⟩ : Exchange surroundings) ∈ past) :
    Sup.Supported past (reconcileClaimed request planned configure claimed) := by
  unfold reconcileClaimed
  split
  · exact failReconciliation_supported _ _
  · next dispatch hdispatch =>
      refine .ask (r := .reconcile request _)
        ⟨attempt, principal, budget, claimed, configure, hclaimed, hdispatch⟩ ?_
      rintro (source | receipt)
      · exact failReconciliation_supported _ _
      · simp only
        split
        · exact failReconciliation_supported _ _
        · refine .settled (.of_quiet (verifyReceiptEvidence_asks _ _ _))
            (verifyReceiptEvidence_returns _ _ _) ?_
          rintro (error | receipt') past' hverified hsuf
          · exact failReconciliation_supported _ _
          · obtain rfl := hverified receipt' rfl
            refine .store fun hcompleted => ?_
            obtain ⟨observation, hchecked⟩ :=
              OperationReceipt.state_completed_iff.mp (of_decide_eq_true hcompleted)
            obtain ⟨hkept, _⟩ := checkPostconditions_completed hchecked
            rw [hkept] at hsuf
            exact ⟨observation, _, congrArg some hchecked, hsuf.subset List.mem_cons_self⟩

theorem reconcile_supported (principal : Principal) (attemptId : AttemptId)
    (requestId : RequestId) : Sup.Supported past (reconcile principal attemptId requestId) := by
  refine .bind (.of_quiet .check) fun _ _ _ => .bind (.of_quiet (Sup.attempt_asks _))
    fun attempt _ _ => ?_
  refine .bind (.of_quiet (Sup.grant_asks _)) fun grant _ _ => .bind (.of_quiet .refuse)
    fun _ _ _ => ?_
  split_ifs
  · exact .bind (.store trivial) fun _ _ _ => .bind (.of_quiet .refuse) fun _ _ _ => .pure
  · refine .bind (.of_quiet (Sup.plan_asks _)) fun plan _ _ => ?_
    refine .bind (.of_quiet .required) fun planned _ _ => ?_
    refine .stored trivial ?_
    rintro (record | claimed)
    · exact .of_quiet (Sup.attempt_asks _)
    · exact reconcileClaimed_supported planned _ claimed List.mem_cons_self

end Supervisor

/-! ### Every call -/

/-- What the wrapped operation recalls, the call recalls. -/
theorem reply_supported {α : Type} {past : List (Exchange surroundings)}
    {wrap : Except SupervisorError α → Reply} {x : Sup α} (h : Sup.Supported past x) :
    Program.Recalls Supported past (Sup.reply wrap x) :=
  Program.Recalls.bind h fun _ _ _ => trivial

/-- A call that does not use the hardware makes none of these requests. -/
theorem Call.supported_of_entitled {q : Call} (hq : ¬ q.Dispatches)
    {past : List (Exchange surroundings)} {r : Request} (h : q.Entitled r) : Supported past r := by
  have hdefault : (Quiet r ∨ ∃ agent, q.principal = some agent ∧ agent.role = .agent ∧
      agent.Acts q.Claims r ∧ (q.Dispatches ∨ agent.Prepares r)) → Supported past r := by
    rintro (hquiet | ⟨agent, _, _, _, huse | hprepares⟩)
    · exact supported_of_quiet hquiet
    · exact absurd huse hq
    · exact supported_of_prepares hprepares
  cases r with
  | store call => cases call <;> first | trivial | exact hdefault h
  | reconcile request reconciliation => exact hdefault h
  | _ => trivial

/-- Every request of a call is supported by what its thread has heard. -/
theorem Call.supported (q : Call) : q.body.Recalls Supported [] := by
  by_cases hq : q.Dispatches
  · cases q with
    | executeNext agent ticket =>
        exact reply_supported (Supervisor.executeNext_supported agent ticket)
    | execute agent ticket => exact reply_supported (Supervisor.execute_supported agent ticket)
    | resume agent request =>
        refine reply_supported (.bind (.of_quiet .check) fun _ _ _ =>
          .bind (.store trivial) fun _ _ _ => ?_)
        exact .bind (.of_quiet .required) fun _ _ _ => .bind (.of_quiet .refuse) fun _ _ _ =>
          Supervisor.execute_supported agent _
    | executePlan agent requests =>
        exact reply_supported (Supervisor.executePlan_supported agent requests)
    | reconcile principal attempt request =>
        exact reply_supported (Supervisor.reconcile_supported principal attempt request)
    | _ => exact hq.elim
  · exact Program.Asks.recalls (q.entitled.mono fun _ h _ => Call.supported_of_entitled hq h)

/-- Every request of every run is supported by what its thread had heard. -/
theorem Reachable.supported {c : daemon.Config} (h : Reachable c) {e : Event machine}
    {older : List (Event machine)} (he : (e :: older) <:+ c.history) :
    Supported (heard e.thread older) e.request := by
  refine Service.Reachable.recalls Call.supported ?_ h he
  refine Program.Asks.recalls (restores_boot.mono fun r hr past => ?_)
  cases r with
  | store call => cases call <;> trivial
  | reconcile request reconciliation => exact hr.elim
  | _ => trivial

end Cheirismos
