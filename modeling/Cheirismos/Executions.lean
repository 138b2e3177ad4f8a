import Cheirismos.Operations

/-! # Execution, resumption and reconciliation, step by step

The operations of the supervisor that may call the backend, and those that hand out tickets for
later steps, under the same judgements as in `Operations`.

* `execute` and `reconcile` hold a claim from their claiming transaction to their last request;
  everything they have found out since then allows the backend call (`Dispatchable`,
  `Reconcilable`) and the record of its outcome (`Receipts`, `Finishing`).
* `executeNext` moves the cursor past the step that it has just completed, and `resumePlan`
  answers that a run is complete only after it has seen a completed attempt for every step
  (`resumePlan_yields`). -/

namespace Cheirismos

open Process

variable [Platform] {t : ℕ} {m : Moment machine}

namespace Supervisor

/-! ### Dispatch -/

/-- The past after a survey that started some time after an event. -/
theorem past_of_onward {es older : List (Event machine)} {e : Event machine} {y : Moment machine}
    (hpast : m.past = es ++ e :: older) (h : Onward t m y) :
    y.past = (since m y ++ es) ++ e :: older := by
  rw [h.past, hpast, List.append_assoc]

section execution

variable {c : DispatchClaim} {events : List (Event machine)}

/-- A receipt without an observation may be recorded by whoever claimed the attempt. -/
theorem receipts_of_blank (hist : discipline.Inv m) (hthread : c.thread = t)
    (hpast : m.past = events ++ c.event :: c.older) {receipt : OperationReceipt} {release : Bool}
    (hblank : receipt.observation = none)
    (hflag : release = true ↔ receipt.state = .rejected ∨ receipt.state = .completed ∧
      c.claimed.attempt.operationIndex + 1 = c.claimed.plan.operations.length) :
    Receipts t m c.claimed.attempt.id receipt release c events where
  thread := hthread
  past := hpast
  subject := ((c.after (History.good_before hist ⟨events, hpast.symm⟩)).2.1).symm
  flag := hflag
  called hsome := absurd hblank hsome
  evidence o ho := by
    rw [hblank] at ho
    cases ho
  postconditions o ho := by
    rw [ho] at hblank
    cases hblank

/-- Recording what the backend did, after the call. -/
theorem record_legal (hm : discipline.Inv m) (hthread : c.thread = t)
    (hpast : m.past = events ++ c.event :: c.older)
    (hcalled : ∃ e ∈ events, ∃ dispatch, e.request = .execute dispatch ∧
      dispatch.attempt = c.claimed.attempt.id) {receipt : OperationReceipt}
    (hev : ∀ observation, receipt.observation = some observation →
      Verified events c.claimed.attempt.id c.claimed.attempt.evidenceChallenge .execution
        observation) :
    Legal t m (.store (.recordReceipt c.claimed.attempt.id
      (checkPostconditions (postconditionsAt c.claimed.plan c.claimed.attempt.operationIndex)
        receipt)
      (releasesLease c.claimed (checkPostconditions
        (postconditionsAt c.claimed.plan c.claimed.attempt.operationIndex) receipt)))) := by
  refine ⟨c, events, hthread, hpast,
    ((c.after (History.good_before hm ⟨events, hpast.symm⟩)).2.1).symm, ?_, fun _ => hcalled, ?_, ?_⟩
  · simp [releasesLease]
  · intro o ho
    rw [checkPostconditions_observation] at ho
    exact hev o ho
  · exact fun o ho => (checkPostconditions_completed ho).2

/-- What allows a dispatch stays while the thread only reads. -/
theorem dispatchable_later {dispatch : DispatchRequest} {planned : PlannedOperation}
    {expiries : List Timestamp} {y : Moment machine}
    (h : Dispatchable t m dispatch c events planned expiries) (ho : Onward t m y) :
    Dispatchable t y dispatch c (since m y ++ events) planned expiries where
  thread := h.thread
  past := past_of_onward h.past ho
  quiet e he ht := (List.mem_append.mp he).elim (fun he => ho.quiet e he ht)
    (fun he => h.quiet e he ht)
  held := ho.rely.held c h.thread ⟨events, h.past.symm⟩ h.held
  step := h.step
  authorized := h.authorized
  preflighted h0 := (h.preflighted h0).mono fun _ he => List.mem_append_right _ he
  content := h.content
  gated := h.gated.imp fun _ _ hg =>
    hg.mono (fun _ he => List.mem_append_right _ he) ho.evolves

/-- The attempt that an execution returns is on record, for good if it is completed. -/
def Executed (ticket : DispatchTicket) (a : AttemptRecord) (z : Moment machine) : Prop :=
  a.id = ticket.attempt ∧ (a.state = .completed → z.state.store.Attempt a)

/-- Recording a receipt ends an execution. -/
theorem record_ensures {id : AttemptId} {receipt : OperationReceipt} {release : Bool}
    (hl : ∀ y, discipline.Inv y → Onward t m y →
      Legal t y (.store (.recordReceipt id receipt release))) :
    Ensures .free t m (Sup.store (.recordReceipt id receipt release)) (Executed ⟨id⟩) := by
  refine .store (fun y hy ho => ⟨hl y hy ho, trivial⟩) fun y i a z hy _ _ hok hz => ?_
  obtain ⟨ha, hid⟩ := recordReceipt_recorded (History.good hy).regular.coherent (performStore_ok hok)
  exact ⟨hid, fun hdone => hz.evolves.settled ha (Or.inl hdone)⟩

theorem dispatchAndRecord_ensures {dispatch : DispatchRequest}
    {planned : PlannedOperation} {expiries : List Timestamp}
    (h : Dispatchable t m dispatch c events planned expiries) :
    Ensures .free t m (dispatchAndRecord c.claimed dispatch)
      (Executed ⟨c.claimed.attempt.id⟩) := by
  refine .ask (r := .execute dispatch) (fun y _ ho => ⟨⟨c, _, planned, expiries,
    dispatchable_later h ho⟩, trivial⟩) fun y i hy ho hstep => ?_
  have hpast : (y.step t (.execute dispatch) i).past =
      (⟨t, .execute dispatch, i, y.state⟩ :: (since m y ++ events)) ++ c.event :: c.older := by
    rw [List.cons_append, ← past_of_onward h.past ho]
    rfl
  have hsubject : dispatch.attempt = c.claimed.attempt.id := by
    rw [h.content]
    rfl
  have hcalled : ∀ es : List (Event machine), ∃ e ∈ es ++
      (⟨t, .execute dispatch, i, y.state⟩ :: (since m y ++ events)), ∃ dispatch,
      e.request = .execute dispatch ∧ dispatch.attempt = c.claimed.attempt.id :=
    fun es => ⟨_, List.mem_append_right _ List.mem_cons_self, dispatch, rfl, hsubject⟩
  refine .after hstep (.outcome hstep (verifyReceiptEvidence_surveys hstep ..)) ?_
  rintro (error | receipt) z hz hoz ⟨z', hz', hzz, hver⟩
  · refine record_ensures fun w hw how => record_legal hw h.thread
      (past_of_onward hpast (hoz.trans how)) (hcalled _) fun o ho => ?_
    cases ho
  · obtain ⟨hsame, hver⟩ := hver receipt rfl
    refine record_ensures fun w hw how => record_legal hw h.thread
      (past_of_onward hpast (hoz.trans how)) (hcalled _) fun o ho' => ?_
    have hv := hver o (hsame ▸ ho')
    rw [h.content] at hv
    exact hv.mono fun e he => List.mem_append_left _ (hz'.since_left (hzz.trans how) he)

theorem execute_ensures (hm : discipline.Inv m) (agent : Principal) (ticket : DispatchTicket) :
    Ensures .free t m (execute agent ticket) (Executed ticket) := by
  refine .checked hm fun _ y₁ _ h₁ _ => ?_
  refine .call (fun _ _ _ => ⟨trivial, trivial⟩) fun x i claimed hx _ hy hclaimed => ?_
  let c : DispatchClaim := ⟨t, ticket.attempt, agent.id, i, x.state, x.past, claimed, hclaimed⟩
  let y := x.step t (.store (.claimDispatch ticket.attempt agent.id)) i
  have hin : c.In y.past := List.suffix_rfl
  obtain ⟨hheld, hid, _⟩ := c.after (History.good hx)
  have hticket : ticket = ⟨claimed.attempt.id⟩ := by
    rw [show claimed.attempt.id = ticket.attempt from hid]
  rw [show Executed ticket = Executed ⟨claimed.attempt.id⟩ from congrArg Executed hticket]
  refine .after hy (.outcome hy (prepareDispatch_surveys hy claimed)) ?_
  rintro (error | dispatch) z hz hoz ⟨z', hyz', hzz, hprepared⟩
  · refine record_ensures fun w hw how => ⟨c, since y w, ?_⟩
    exact receipts_of_blank (c := c) hw rfl (hoz.trans how).past rfl
      ⟨fun _ => Or.inl rfl, fun _ => rfl⟩
  · obtain ⟨planned, expiries, hp⟩ := hprepared dispatch rfl
    refine dispatchAndRecord_ensures (c := c)
      ⟨rfl, hoz.past, hoz.quiet, hoz.rely.held c rfl hin hheld, hp.step, hp.authorized, ?_,
        hp.content, ?_⟩
    · exact fun h0 => (hp.preflighted h0).mono fun _ he => hyz'.since_left hzz he
    · exact hp.gated.imp fun _ _ hg => hg.mono (fun _ he => hyz'.since_left hzz he) hzz.evolves

theorem resume_ensures (hm : discipline.Inv m) (agent : Principal) (request : RequestId) :
    Ensures .free t m (resume agent request) (fun _ _ => True) := by
  refine .checked hm fun _ y₁ _ h₁ _ => ?_
  refine .after h₁ (.store (by rfl) h₁) fun _ y₂ h₂ _ _ => ?_
  refine .after h₂ .required fun attempt y₃ h₃ _ _ => .refused h₃ fun y₄ _ h₄ _ => ?_
  exact (execute_ensures h₄ _ _).weaken fun _ _ _ _ => trivial

theorem executePlan_ensures (hm : discipline.Inv m) (agent : Principal)
    (requests : List SubmitRequest) :
    Ensures .free t m (executePlan agent requests) (fun _ _ => True) := by
  induction requests generalizing m with
  | nil => exact .pure fun _ _ _ => trivial
  | cons request requests ih =>
      refine .bind hm (submit_ensures hm _ _ fun _ _ _ _ _ _ => trivial) ?_
      rintro (attempt | ticket) y₁ h₁ _ _
      · refine .refused h₁ fun y₂ _ h₂ _ => ?_
        exact .bind h₂ (ih h₂) fun _ _ _ _ _ => .pure fun _ _ _ => trivial
      · refine .bind h₁ (execute_ensures h₁ _ _) fun attempt y₂ h₂ _ _ => ?_
        split_ifs
        · exact .pure fun _ _ _ => trivial
        · exact .bind h₂ (ih h₂) fun _ _ _ _ _ => .pure fun _ _ _ => trivial

end execution

/-! ### The cursor of a run -/

/-- The cursor of a run is moved past a step that is done. -/
theorem advanceRun_ensures {id : RequestId} {cursor : ℕ}
    (hdone : ∀ y r, discipline.Inv y → Follows m y → Orderly y.past → r ∈ y.state.store.runs →
      r.id = id → y.state.store.StepDone r.pair cursor) :
    Ensures .free t m (advanceRun id cursor) (fun _ _ => True) := by
  unfold advanceRun Sup.run
  rw [Sup.bind_assoc]
  refine .reading (q := .run id) rfl fun x i found hx hmx hread hsx ostep => ?_
  cases found with
  | none => exact fun _ _ _ => .error
  | some run =>
      obtain ⟨hr, hid⟩ := Table.find?_eq_some.mp (select_ok.mp hread).1
      refine .here (r := .ok run) fun _ hfound => ?_
      cases hfound
      refine .here fun _ hcursor => .here fun _ _ => .next fun y hy hlater => ⟨?_, trivial⟩
      have hsince := Onward.of_later hlater
      obtain ⟨r, hr', hc⟩ := (ostep.trans hsince).evolves.runs run hr
      refine ⟨⟨r, hr', by rw [PlanRun.Continues, hc]⟩, fun horder => ⟨cursor, ?_, ?_⟩, run, ?_, rfl⟩
      · exact congrArg (· + 1) (not_not.mp (deny_ok.mp hcursor))
      · have hd := hdone y r hy (.of_onward (hmx.trans (ostep.trans hsince))) horder hr'
          (hc.id_eq.trans hid)
        rw [hc.pair_eq] at hd
        exact hd
      · obtain ⟨⟨es, hpast, hes⟩, _⟩ := hlater
        refine ⟨es, ⟨t, .store (.run id), i, x.state⟩, x.past, hpast, rfl, ?_, hr, hes⟩
        rw [hid]

/-- After one step of a plan the cursor has moved, and the ticket is for the next step; that its
attempt is one of the ticket's pair depends on nothing. -/
theorem executeNext_ensures (hm : discipline.Inv m) (agent : Principal) {ticket : PlanTicket}
    (hticket : Orderly m.past → m.state.store.Tickets ticket) :
    Ensures .free t m (executeNext agent ticket) (fun progress z => ∀ next,
      progress.next = some next → z.state.store.Backs next ∧
        (Orderly z.past → z.state.store.Tickets next)) := by
  refine .bind hm (execute_ensures hm _ _) fun attempt y₁ h₁ f₁ hexec => ?_
  split_ifs with hstate
  · exact .pure fun _ _ _ _ hnone => by cases hnone
  obtain ⟨haid, hatt⟩ := hexec
  have hdone : ∀ y r, discipline.Inv y → Follows y₁ y → Orderly y.past → r ∈ y.state.store.runs →
      r.id = ticket.run → y.state.store.StepDone r.pair ticket.operationIndex := by
    intro y r hy f horder hr hid
    have hall := f₁.trans f
    obtain ⟨⟨run, hrun, hrid, hpair⟩, a, ha, haid', hap, hai⟩ := hticket (hall.orderly horder)
    obtain ⟨run', hrun', hrc⟩ := hall.evolves.runs run hrun
    obtain rfl := y.state.store.runs.eq_of_key_eq hrun' hr ((hrc.id_eq.trans hrid).trans hid.symm)
    obtain ⟨a', ha', hac⟩ := hall.evolves.attempts a ha
    have hcompleted := f.evolves.settled (hatt (not_not.mp hstate)) (Or.inl (not_not.mp hstate))
    obtain rfl := Store.attempt_inj ha' hcompleted
      ((AttemptRecord.id_eq hac.identity).trans (haid'.trans haid.symm))
    refine ⟨a', ha', ?_, (AttemptRecord.index_eq hac.identity).trans hai, not_not.mp hstate⟩
    rw [AttemptRecord.pair_eq hac.identity, hap, hrc.pair_eq, hpair]
  refine .bind h₁ (advanceRun_ensures hdone) fun _ y₂ h₂ f₂ _ => ?_
  refine .after h₂ (Sup.run_surveys h₂ _) fun run y₃ h₃ o₃ _ => ?_
  simp only
  split_ifs with hlast
  · exact .pure fun _ _ _ _ hnone => by cases hnone
  refine .after h₃ .required fun step y₄ h₄ o₄ _ => ?_
  refine .bind h₄ (submit_ensures h₄ _ _ fun _ _ _ _ _ _ => trivial)
    fun submission y₅ h₅ f₅ hsub => ?_
  refine .checked h₅ fun dispatch y₆ hdispatch h₆ o₆ => .pure fun z _ oz => ?_
  rintro next hnext
  cases hnext
  have hend := o₆.trans oz
  have h₁z := (f₂.trans (.of_onward (o₃.trans o₄))).trans (f₅.trans (.of_onward hend))
  obtain ⟨a, ha, hnames, rfl⟩ := stepTicket_ok hsub hdispatch
  obtain ⟨a', ha', hac⟩ := hend.evolves.attempts a ha
  have hnames' := hnames.congr hac.identity
  refine ⟨⟨a', ha', AttemptRecord.id_eq hac.identity, hnames'.pair⟩, fun horder => ?_⟩
  refine ⟨?_, a', ha', AttemptRecord.id_eq hac.identity, hnames'.pair, hnames'.index⟩
  exact ((hticket ((f₁.trans h₁z).orderly horder)).evolve (f₁.trans h₁z).evolves).1

/-! ### Errors that an operation avoids -/

/-- The operation never fails with the error. -/
def Avoids {α : Type} (e : SupervisorError) (x : Sup α) : Prop :=
  (ExceptT.run x).Ends (fun r => r ≠ .error e)

namespace Avoids

variable {α β : Type} {e e' : SupervisorError} {x : Sup α} {f : α → Sup β}

protected theorem pure {a : α} : Avoids e (pure a : Sup α) := fun h => by cases h

protected theorem throw (h : e' ≠ e) : Avoids e (throw e' : Sup α) :=
  fun he => h (Except.error.inj he)

protected theorem bind (hx : Avoids e x) (hf : ∀ a, Avoids e (f a)) : Avoids e (x >>= f) := by
  refine Program.Ends.bind hx ?_
  rintro (e' | a) hr
  · exact fun he => hr (by rw [Except.error.inj he])
  · exact hf a

protected theorem check {result : Except SupervisorError α} (h : result ≠ .error e) :
    Avoids e (Sup.check result) := h

protected theorem refuse {bad : Prop} [Decidable bad] (h : e' ≠ e) :
    Avoids e (Sup.refuse bad e') := by
  refine .check fun he => ?_
  exact h (deny_error he).symm

protected theorem required {value : Option α} (h : e' ≠ e) : Avoids e (Sup.required value e') := by
  cases value with
  | none => exact .throw h
  | some a => exact .pure

protected theorem ask {r : Request} {g : Answer r → Sup β} (h : ∀ v, Avoids e (g v)) :
    Avoids e (Sup.ask r >>= g) := fun v => h v

protected theorem store {call : StoreCall} (h : ∀ source, .store source ≠ e) :
    Avoids e (Sup.store call) := by
  refine .ask (r := .store call) ?_
  rintro (source | output)
  · exact .throw (h source)
  · exact .pure

end Avoids

/-- The answer that a run is complete. -/
def runComplete : SupervisorError := .outOfBounds "plan run is complete"

omit [Platform] in
theorem except_bind_ne {ε α β : Type} {x : Except ε α} {f : α → Except ε β} {e : ε}
    (hx : x ≠ .error e) (hf : ∀ a, f a ≠ .error e) : (x >>= f) ≠ .error e := by
  cases x with
  | error e' => exact fun h => hx (by rw [← Except.error.inj h])
  | ok a => exact hf a

omit [Platform] in
theorem deny_ne {bad : Prop} [Decidable bad] {e e' : SupervisorError} (h : e ≠ e') :
    deny bad e ≠ .error e' := fun he => h (deny_error he).symm

omit [Platform] in
theorem limitExceeded_ne {profile : CommissionedProfile} {planned : PlannedOperation} :
    limitExceeded profile planned ≠ some "plan run is complete" := by
  unfold limitExceeded
  split
  all_goals first | (split_ifs <;> decide) | decide

omit [Platform] in
theorem authorizeInstrument_ne {profile : CommissionedProfile} {plan : ReviewedPlan}
    {operation : Operation} :
    authorizeInstrument profile plan operation ≠ .error runComplete := by
  unfold authorizeInstrument
  split
  · exact fun h => by cases h
  · split
    · decide
    · exact deny_ne (by decide)

theorem authorize_ne {grant : Grant} {profile : CommissionedProfile} {plan : ReviewedPlan}
    {planned : PlannedOperation} :
    authorize grant profile plan planned ≠ .error runComplete := by
  refine except_bind_ne (deny_ne (by decide)) fun _ => ?_
  refine except_bind_ne (deny_ne (by decide)) fun _ => ?_
  refine except_bind_ne (deny_ne (by decide)) fun _ => ?_
  refine except_bind_ne (deny_ne (by decide)) fun _ => ?_
  refine except_bind_ne (deny_ne (by decide)) fun _ => ?_
  refine except_bind_ne (deny_ne (by decide)) fun _ => ?_
  refine except_bind_ne (deny_ne (by decide)) fun _ => ?_
  refine except_bind_ne authorizeInstrument_ne fun _ => ?_
  split
  · next reason hreason =>
      intro h
      injection h with h
      injection h with h
      exact limitExceeded_ne (h ▸ hreason)
  · exact deny_ne (by decide)

theorem submit_avoids (agent : Principal) (request : SubmitRequest) :
    Avoids runComplete (submit agent request) := by
  have hload : ∀ {call : StoreCall}, Avoids runComplete (Sup.store call) :=
    .store fun source h => by cases h
  have hmissing : ∀ kind id, missing kind id ≠ runComplete := fun kind id h => by cases h
  refine .bind (.check (deny_ne fun h => by cases h)) fun _ => ?_
  refine .bind (.bind hload fun _ => .required (hmissing _ _)) fun grant => ?_
  refine .bind (.refuse (by decide)) fun _ => ?_
  refine .bind (.bind hload fun _ => .required (hmissing _ _)) fun profile => ?_
  refine .bind (.bind hload fun _ => .required (hmissing _ _)) fun plan => ?_
  refine .bind (.required (by decide)) fun operation => .bind (.check authorize_ne) fun _ => ?_
  simp only [ite_bind]
  refine .bind ?_ fun reserved => .bind (.ask (r := .now) fun _ => .pure) fun now => ?_
  · split_ifs
    · exact .required (by decide)
    · exact .pure
  · refine .bind hload ?_
    rintro (attempt | attempt) <;> exact .pure

/-! ### Resuming a run -/

/-- Either the ticket is for a step of the run, or the run is complete and every step is done, or
there is nothing to tell. -/
def Resumes (run : PlanRun) (index : ℕ) :
    Except SupervisorError PlanTicket → Moment machine → Prop
  | .ok ticket, z => Orderly z.past → z.state.store.Tickets ticket
  | .error e, z => e = runComplete → Orderly z.past →
      ∀ i, index ≤ i → i < run.steps.length → z.state.store.StepDone run.pair i

theorem resumeStep_yields (agent : Principal) (run : PlanRun) :
    ∀ (steps : List (AttemptId × RequestId)) (index : ℕ) {m : Moment machine},
    discipline.Inv m → (∃ r ∈ m.state.store.runs, run.Continues r) →
    run.steps.drop index = steps →
    Yields .free t m (resumeStep agent run index steps) (Resumes run index) := by
  intro steps
  induction steps with
  | nil =>
      intro index m hm _ hdrop
      refine .throw fun y hy _ _ _ i hi hlt => ?_
      have hlen := List.drop_eq_nil_iff.mp hdrop
      omega
  | cons step steps ih =>
      intro index m hm hrun hdrop
      obtain ⟨attemptId, requestId⟩ := step
      have hstep : run.steps[index]? = some (attemptId, requestId) := by
        rw [← List.head?_drop, hdrop]
        rfl
      refine .reading (q := .attempt attemptId) rfl (fun e y _ _ h => by cases h) ?_
      rintro x i found hx hmx hok hsx hstepx
      -- the moment of the reading is part of the past from here on
      have haligned : ∀ z : Moment machine, Follows (x.step t (.store (.attempt attemptId)) i) z →
          Orderly z.past → x.state.store.Aligned :=
        fun z hz ho => (ho _ (hz.past.subset List.mem_cons_self)).1
      obtain ⟨r, hr, hrc⟩ := hrun
      obtain ⟨r₁, hr₁, hrc₁⟩ := hmx.evolves.runs r hr
      have hrc := hrc.trans hrc₁
      have hown : ∀ z a, Follows (x.step t (.store (.attempt attemptId)) i) z → Orderly z.past →
          x.state.store.Attempt a → a.id = attemptId → a.pair = run.pair ∧ a.operationIndex = index := by
        intro z a hz ho ha hid
        have h := haligned z hz ho r₁ hr₁ index attemptId requestId (by rw [hrc.steps_eq]; exact hstep)
          a ha hid
        rwa [hrc.pair_eq] at h
      have hevo : Evolves x.state.store
          (x.step t (.store (.attempt attemptId)) i).state.store := hstepx.evolves
      obtain ⟨r₂, hr₂, hrc₂⟩ := hevo.runs r₁ hr₁
      have hrun₂ : ∀ z, Follows (x.step t (.store (.attempt attemptId)) i) z →
          ∃ r ∈ z.state.store.runs, r.id = run.id ∧ r.pair = (run.grant, run.plan) := by
        intro z hz
        obtain ⟨r₃, hr₃, hrc₃⟩ := hz.evolves.runs r₂ hr₂
        have hrc := hrc.trans (hrc₂.trans hrc₃)
        exact ⟨r₃, hr₃, hrc.id_eq, hrc.pair_eq⟩
      cases found with
      | none =>
          refine Yields.bind hsx (Yields.ends
            (Ensures.along (submit_ensures hsx _ _ fun _ _ _ _ _ _ => trivial))
            (submit_avoids _ _)) ?_ ?_
          · exact fun e y z _ hr _ he => absurd (congrArg Except.error he) hr.2
          · intro submission y hy hr
            obtain ⟨hsub, hfy⟩ := hr.1 submission rfl
            refine .checked hy (fun e z he _ _ h => ?_) fun dispatch z hticket hz oz => ?_
            · refine absurd he ?_
              rw [h]
              cases submission with
              | admitted ticket => exact fun h => by cases h
              | existing attempt =>
                  simp only [stepTicket]
                  split_ifs
                  · exact fun h => by cases h
                  · exact fun h => absurd (Except.error.inj h) (by decide)
            · refine .pure fun w _ ow _ => ⟨?_, ?_⟩
              · exact hrun₂ w (hfy.trans (.of_onward (oz.trans ow)))
              · obtain ⟨a, ha, hnames, rfl⟩ := stepTicket_ok hsub hticket
                obtain ⟨a', ha', hac⟩ := (oz.trans ow).evolves.attempts a ha
                have hn := hnames.congr hac.identity
                exact ⟨a', ha', AttemptRecord.id_eq hac.identity, hn.pair, hn.index⟩
      | some attempt =>
          have hload : x.state.store.loadAttempt attemptId = some attempt := (select_ok.mp hok).1
          obtain ⟨hatt, hid⟩ := (History.good hx).regular.coherent.loadAttempt_eq_some.mp hload
          simp only
          split_ifs with hdone hintent
          · have hrest : run.steps.drop (index + 1) = steps := by
              rw [← List.tail_drop, hdrop]
              rfl
            refine Yields.weaken (Yields.follows
              (ih (index + 1) hsx ⟨r₂, hr₂, hrc.trans hrc₂⟩ hrest)) ?_
            rintro (e | ticket) z _ ⟨hres, hfz⟩
            · intro he horder j hj hlt
              rcases Nat.eq_or_lt_of_le hj with rfl | hj
              · obtain ⟨hp, hi⟩ := hown z attempt hfz horder hatt hid
                exact Store.StepDone.evolve ⟨attempt, hatt, hp, hi, hdone⟩ (hevo.trans hfz.evolves)
              · exact hres he horder j hj hlt
            · exact hres
          · refine .pure fun z _ oz horder => ⟨hrun₂ z (.of_onward oz), ?_⟩
            obtain ⟨hp, hi⟩ := hown z attempt (.of_onward oz) horder hatt hid
            obtain ⟨a', ha', hac⟩ := (hevo.trans oz.evolves).attempts attempt hatt
            exact ⟨a', ha', AttemptRecord.id_eq hac.identity,
              (AttemptRecord.pair_eq hac.identity).trans hp,
              (AttemptRecord.index_eq hac.identity).trans hi⟩
          · exact .throw fun z _ _ h => absurd h (by decide)

/-- What resuming a run answers: a ticket for one of its steps, or that every step is done. -/
def Resumed (runId : RequestId) : Except SupervisorError PlanTicket → Moment machine → Prop
  | .ok ticket, z => Orderly z.past → z.state.store.Tickets ticket
  | .error e, z => e = runComplete → ∃ run ∈ z.state.store.runs, run.id = runId ∧
      (Orderly z.past → ∀ i, i < run.steps.length → z.state.store.StepDone run.pair i)

theorem resumePlan_yields (hm : discipline.Inv m) (agent : Principal) (runId : RequestId) :
    Yields .free t m (resumePlan agent runId) (Resumed runId) := by
  have herr : ∀ {e} z, e ≠ runComplete → Resumed runId (.error e) z := fun _ hne h => absurd h hne
  refine .checked hm (fun e y he _ _ => herr y fun h => ?_) fun _ y₁ _ h₁ _ => ?_
  · rw [h] at he
    exact absurd he (deny_ne fun h => by cases h)
  refine .call (fun _ _ _ => ⟨trivial, trivial⟩) (fun y _ _ z _ _ _ _ _ => herr z fun h => by cases h) ?_
  intro y i run hy _ h₂ hok
  refine .refused h₂ (fun z _ _ => herr z (by decide)) fun y₃ _ h₃ o₃ => ?_
  refine .reading rfl (fun e z _ _ => herr z fun h => by cases h) fun y₄ i₄ _ _ o₄ _ h₄' o₄' => ?_
  refine .refused h₄' (fun z _ _ => herr z (by decide)) fun y₅ _ h₅ o₅ => ?_
  refine .reading rfl (fun e z _ _ => herr z fun h => by cases h) fun y₆ i₆ _ _ o₆ _ h₆' o₆' => ?_
  refine .refused h₆' (fun z _ _ => herr z (by decide)) fun y₇ _ h₇ o₇ => ?_
  obtain ⟨hrun, hid⟩ := repairRunCursor_recorded (performStore_ok hok)
  have h₂₇ := o₃.trans (o₄.trans (o₄'.trans (o₅.trans (o₆.trans (o₆'.trans o₇)))))
  obtain ⟨r, hr, hrc⟩ := h₂₇.evolves.runs run hrun
  refine Yields.weaken (Yields.follows (resumeStep_yields agent run run.steps 0 h₇ ⟨r, hr, hrc⟩ rfl))
    ?_
  rintro (e | ticket) z _ ⟨hres, hfz⟩
  · intro he
    obtain ⟨r', hr', hrc'⟩ := hfz.evolves.runs r hr
    have hsame := hrc.trans hrc'
    refine ⟨r', hr', hsame.id_eq.trans hid, fun horder i hlt => ?_⟩
    rw [hsame.pair_eq]
    rw [hsame.steps_eq] at hlt
    exact hres he horder i (Nat.zero_le i) hlt
  · exact hres

/-! ### Reconciliation -/

section reconciliation

variable {c : WitnessClaim} {events : List (Event machine)} {request : RequestId}

/-- A reconciliation may always be given up by whoever claimed it. -/
theorem failReconciliation_ensures {α : Type} (hthread : c.thread = t)
    (hsubject : c.request = request) (hpast : m.past = events ++ c.event :: c.older)
    (error : SupervisorError) :
    Ensures .free t m (failReconciliation request error : Sup α) (fun _ _ => True) := by
  refine .call (fun y _ ho => ⟨?_, trivial⟩) fun _ _ _ _ _ _ _ => .throw
  refine ⟨c, since m y ++ events, hthread, past_of_onward hpast ho, hsubject, ?_, ?_, ?_, ?_⟩
  · simp
  · intro h
    cases h
  · intro r _ hr
    cases hr
  · intro o ho
    cases ho

omit [Platform] in
theorem reconciliationDispatch_ok {claimed : ClaimedReconciliation} {configure : Bool}
    {dispatch : DispatchRequest} (h : reconciliationDispatch claimed configure = .ok dispatch) :
    dispatch.evidenceChallenge = claimed.record.challenge ∧
      dispatch.evidencePhase = .reconciliation := by
  unfold reconciliationDispatch at h
  split at h
  · cases h
  · obtain ⟨_, _, hd⟩ := except_bind_ok.mp h
    cases hd
    exact ⟨rfl, rfl⟩

/-- Ending a reconciliation with a receipt that carries verified evidence. -/
theorem finishing_of_receipt (hm : discipline.Inv m) (hthread : c.thread = t)
    (hsubject : c.request = request) (hpast : m.past = events ++ c.event :: c.older)
    {planned : PlannedOperation}
    (hplanned : c.claimed.dispatch.plan.operations[c.claimed.dispatch.attempt.operationIndex]? =
      some planned) {receipt : OperationReceipt}
    (hev : ∀ observation, receipt.observation = some observation →
      Verified events c.claimed.dispatch.attempt.id c.claimed.record.challenge .reconciliation
        observation) :
    let checked := checkPostconditions planned.postconditions receipt
    Legal t m (.store (.finishReconciliation request (some checked)
      (decide (checked.state = .completed))
      (decide (checked.state = .completed ∧ c.claimed.dispatch.attempt.operationIndex + 1 =
        c.claimed.dispatch.plan.operations.length)))) := by
  intro checked
  obtain ⟨_, _, _, hid⟩ := c.after (History.good_before hm ⟨events, hpast.symm⟩)
  refine ⟨c, events, hthread, hpast, hsubject, ?_, ?_, ?_, ?_⟩
  · simp only [decide_eq_true_eq, OperationReceipt.state_completed_iff, Option.some.injEq, checked]
  · intro hdone
    rw [decide_eq_true_eq] at hdone ⊢
    exact ⟨fun h => h.2, fun h => ⟨hdone, h⟩⟩
  · intro r o hr ho
    cases hr
    rw [checkPostconditions_observation] at ho
    rw [← hid]
    exact hev o ho
  · intro o ho
    rw [postconditionsAt, hplanned]
    exact (checkPostconditions_completed (Option.some.inj ho)).2

theorem reconcileClaimed_ensures (hthread : c.thread = t)
    (hsubject : c.request = request) (hpast : m.past = c.event :: c.older)
    {planned : PlannedOperation} {configure : Bool}
    (hplanned : c.claimed.dispatch.plan.operations[c.claimed.dispatch.attempt.operationIndex]? =
      some planned) :
    Ensures .free t m (reconcileClaimed request planned configure c.claimed) (fun _ _ => True) := by
  unfold reconcileClaimed
  cases hd : reconciliationDispatch c.claimed configure with
  | error e => exact failReconciliation_ensures hthread hsubject (hpast.trans (List.nil_append _).symm) e
  | ok dispatch =>
      obtain ⟨hchallenge, hphase⟩ := reconciliationDispatch_ok hd
      refine .ask (fun y _ ho => ⟨⟨c, since m y, hthread, ?_, hsubject, ho.quiet⟩, trivial⟩)
        fun y i hy ho hstep => ?_
      · rw [ho.past, hpast]
      · have hpast' : (y.step t (.reconcile request ⟨c.claimed.dispatch.attempt.id, dispatch⟩) i).past
            = (⟨t, .reconcile request ⟨c.claimed.dispatch.attempt.id, dispatch⟩, i, y.state⟩ ::
              since m y) ++ c.event :: c.older := by
          rw [List.cons_append, ← hpast, ← ho.past]
          rfl
        cases (perform (.reconcile request ⟨c.claimed.dispatch.attempt.id, dispatch⟩) i y.state).1 with
        | error source => exact failReconciliation_ensures hthread hsubject hpast' _
        | ok receipt =>
            simp only
            split_ifs with hblank
            · exact failReconciliation_ensures hthread hsubject hpast' _
            · refine .after hstep (.outcome hstep (verifyReceiptEvidence_surveys hstep ..)) ?_
              rintro (error | receipt') z hz hoz ⟨z', hz', hzz, hver⟩
              · exact failReconciliation_ensures hthread hsubject (past_of_onward hpast' hoz) _
              · obtain ⟨rfl, hver⟩ := hver receipt' rfl
                refine .store (fun w hw how => ⟨?_, trivial⟩) fun _ _ _ _ _ _ _ _ _ => trivial
                refine finishing_of_receipt hw hthread hsubject
                  (past_of_onward hpast' (hoz.trans how)) hplanned fun o hobs => ?_
                have hv := hver o hobs
                rw [hchallenge, hphase] at hv
                exact hv.mono fun e he =>
                  List.mem_append_left _ (hz'.since_left (hzz.trans how) he)

/-- The step that a claimed witness is about is the one that its caller looked up. -/
theorem claimed_step {c : WitnessClaim} (hg : c.before.store.Good) {a : AttemptRecord}
    {plan : ReviewedPlan} (ha : c.before.store.Attempt a) (hid : a.id = c.attempt)
    (hplan : plan ∈ c.before.store.plans) (hpid : plan.id = a.plan) :
    c.claimed.dispatch.plan = plan ∧
      c.claimed.dispatch.attempt.operationIndex = a.operationIndex := by
  obtain ⟨a', granted, grants, reconciliations, hid', hc, _, _, hres⟩ := c.spec hg
  obtain rfl := Store.attempt_inj ha hc.attempt (hid.trans hid'.symm)
  refine ⟨Store.plan_inj hc.plan.1 hplan (hc.plan.2.1.trans hpid.symm), ?_⟩
  rcases hres with ⟨_, hd, _⟩ | ⟨_, hd, _⟩
  · rw [hd]
  · rw [hd]
    rfl

/-- A reconciliation of the attempt under the request is on record. -/
def Reconciled (s : Store) (id : AttemptId) (request : RequestId) : Prop :=
  ∃ r, s.Witness r ∧ r.request = request ∧ r.attempt = id

omit [Platform] in
theorem Reconciled.evolve {s s' : Store} {id : AttemptId} {request : RequestId}
    (h : Reconciled s id request) (he : Evolves s s') : Reconciled s' id request := by
  obtain ⟨r, hr, hreq, hid⟩ := h
  obtain ⟨r', hr', hc⟩ := he.witnesses r hr
  exact ⟨r', hr', hc.request.trans hreq, hc.attempt.trans hid⟩

theorem reconcile_ensures {G : Guard} (hm : discipline.Inv m) (principal : Principal)
    (attemptId : AttemptId) (requestId : RequestId)
    (hclaim : ∀ y budget, discipline.Inv y → Follows m y →
      G.allows t y (.store (.claimReconciliation attemptId requestId principal.id budget)))
    (hclaimed : ∀ (c : WitnessClaim) (y : Moment machine) (planned : PlannedOperation)
      (configure : Bool), c.thread = t → c.request = requestId →
      discipline.Inv ⟨c.older, c.before⟩ → Follows m ⟨c.older, c.before⟩ → y.past = c.event :: c.older →
      c.claimed.dispatch.plan.operations[c.claimed.dispatch.attempt.operationIndex]? =
        some planned →
      Ensures G t y (reconcileClaimed requestId planned configure c.claimed) (fun _ _ => True)) :
    Ensures G t m (reconcile principal attemptId requestId)
      (fun _ z => Reconciled z.state.store attemptId requestId) := by
  refine .checked hm fun _ y₁ _ h₁ o₁ => ?_
  refine .after h₁ (Sup.attempt_surveys h₁ _) ?_
  rintro attempt y₂ h₂ o₂ ⟨hid, b, hb, hident⟩
  refine .after h₂ (Sup.grant_surveys h₂ _) fun grant y₃ h₃ o₃ _ => ?_
  refine .refused h₃ fun y₄ _ h₄ o₄ => ?_
  simp only
  split_ifs with hstate
  · refine .after h₄ (.store (q := .reconciliationHistory attemptId) rfl h₄) ?_
    rintro history y₅ h₅ o₅ ⟨x, clock, hx, _, hxy, hok⟩
    refine .refused h₅ fun y₆ hin h₆ o₆ => .pure fun z _ oz => ?_
    obtain ⟨r, hr, hreq⟩ := not_not.mp hin
    obtain rfl := (select_ok.mp hok).1
    obtain ⟨hwit, hra⟩ := (History.good hx).regular.coherent.mem_reconciliationHistory.mp hr
    exact Reconciled.evolve ⟨r, hwit, hreq, hra⟩ (hxy.trans (o₆.trans oz)).evolves
  · refine .after h₄ (Sup.plan_surveys h₄ _) fun plan y₅ h₅ o₅ hplan => ?_
    refine .after h₅ .required fun planned y₆ h₆ o₆ hplanned => ?_
    have m₆ := o₁.trans (o₂.trans (o₃.trans (o₄.trans (o₅.trans o₆))))
    -- the attempt and the plan that were read are still what they were at the claim
    have hnow : ∀ x, Onward t y₆ x → ∃ b', x.state.store.Attempt b' ∧ b'.id = attemptId ∧
        plan ∈ x.state.store.plans ∧ plan.id = b'.plan ∧
        b'.operationIndex = attempt.operationIndex := by
      intro x hx
      obtain ⟨b', hb', hc⟩ :=
        (o₃.trans (o₄.trans (o₅.trans (o₆.trans hx)))).evolves.attempts b hb
      have hi := hc.identity.trans hident
      exact ⟨b', hb', (AttemptRecord.id_eq hi).trans hid, (o₆.trans hx).plan hplan.1,
        hplan.2.trans (AttemptRecord.plan_eq hi).symm, AttemptRecord.index_eq hi⟩
    have hlegal : ∀ x, Onward t y₆ x → Legal t x (.store (.claimReconciliation attemptId requestId
        principal.id (configurationBudget plan planned))) := by
      intro x ox
      obtain ⟨b', hb', hid', hm', hp', hi'⟩ := hnow x ox
      exact ⟨b', plan, planned, hb', hid', hm', hp', hi' ▸ hplanned, rfl⟩
    refine .call (fun x hx ox => ⟨hlegal x ox, hclaim x _ hx (.of_onward (m₆.trans ox))⟩) ?_
    rintro x i (record | claimed) hx ox hstep hanswer
    · refine .of_surveys ((Sup.attempt_surveys hstep _).weaken fun _ y _ oy _ => ?_)
      have hevo := (Follows.step hx (hlegal x ox) i).trans (.of_onward oy)
      rcases claimReconciliation_ok (History.good hx).regular.coherent (performStore_ok hanswer) with
        ⟨_, r, _, hr, hreq, hra⟩ | ⟨_, hno, _⟩
      · exact Reconciled.evolve ⟨r, hr, hreq, hra⟩ hevo.evolves
      · cases hno
    · let c : WitnessClaim := ⟨t, attemptId, requestId, principal.id,
        configurationBudget plan planned, i, x.state, x.past, claimed, hanswer⟩
      obtain ⟨b', hb', hid', hm', hp', hi'⟩ := hnow x ox
      obtain ⟨hcp, hci⟩ := claimed_step (c := c) (History.good hx) hb' hid' hm' hp'
      have hstep' : c.claimed.dispatch.plan.operations[c.claimed.dispatch.attempt.operationIndex]?
          = some planned := by
        rw [hcp, hci, hi']
        exact hplanned
      refine (hclaimed c _ planned _ rfl rfl hx (.of_onward (m₆.trans ox)) rfl hstep').along.weaken ?_
      rintro _ z _ ⟨_, hfz⟩
      obtain ⟨hwit, hreq, _⟩ := c.after (History.good hx)
      obtain ⟨a, _, _, _, hca, hc, _⟩ := c.spec (History.good hx)
      exact Reconciled.evolve ⟨_, hwit, hreq, hc.recordAttempt.trans hca⟩ hfz.evolves

end reconciliation

end Supervisor

end Cheirismos
