import Cheirismos.Readings

/-! # The operations of the supervisor, step by step

For every public operation: each of its requests is legal when it is made, whatever the other
threads do in between, and what a success says about the store (`Ensures`).

* The operations that submit, take over, abandon and reconcile are followed under an arbitrary
  guard `G` on the one call that changes the store.  With the free guard that is the
  discipline; with `Guard.harmless` it is the statement that a repeated request changes
  nothing.
* `SubmitRequest.Names` says which attempt a submission is about, `Submitted` what it leaves
  behind; an admission ends with a run on record and a ticket for its first step, and every
  ticket handed out later is again one for a step of a run on record (`Store.Tickets`).
* Cursors are only moved past a step that is completed, as long as the run is in order
  (`Orderly`). -/

namespace Cheirismos

open Process

variable [Platform] {t : ℕ} {m : Moment machine}

namespace Supervisor

/-! ### Authority records -/

section authority

variable {G : Guard} (hm : discipline.Inv m)

include hm

theorem commission_ensures (authority : Principal) (profile : CommissionedProfile) :
    Ensures .free t m (commission authority profile) (fun _ _ => True) :=
  .checked hm fun _ _ _ _ _ => .store (fun _ _ _ => ⟨trivial, trivial⟩) fun _ _ _ _ _ _ _ _ _ => trivial

theorem issueGrant_ensures (authority agent : Principal) (grant : Grant) :
    Ensures .free t m (issueGrant authority agent grant) (fun _ _ => True) := by
  refine .checked hm fun _ y₁ _ h₁ _ => .refused h₁ fun y₂ _ h₂ _ => ?_
  refine .after h₂ (Sup.profile_surveys h₂ _) fun profile y₃ h₃ _ _ => ?_
  exact .refused h₃ fun _ _ _ _ =>
    .store (fun _ _ _ => ⟨trivial, trivial⟩) fun _ _ _ _ _ _ _ _ _ => trivial

theorem revokeGrant_ensures (authority : Principal) (id : GrantId) :
    Ensures .free t m (revokeGrant authority id) (fun _ _ => True) :=
  .checked hm fun _ _ _ _ _ => .store (fun _ _ _ => ⟨trivial, trivial⟩) fun _ _ _ _ _ _ _ _ _ => trivial

theorem proposePlan_ensures (agent : Principal) (proposal : PlanProposal) :
    Ensures .free t m (proposePlan agent proposal) (fun _ _ => True) := by
  refine .checked hm fun _ y₁ _ h₁ _ => .refused h₁ fun y₂ hbad h₂ _ => ?_
  exact .call (fun _ _ _ => ⟨fun he => hbad (Or.inr he), trivial⟩)
    fun _ _ _ _ _ _ _ => .pure fun _ _ _ => trivial

omit hm in
theorem deleteProposal_ensures (id : PlanId) :
    Ensures .free t m (Sup.store (.deleteProposal id)) (fun _ _ => True) :=
  .store (fun _ _ _ => ⟨trivial, trivial⟩) fun _ _ _ _ _ _ _ _ _ => trivial

omit hm in
/-- A plan that a review makes is proper. -/
theorem reviewed_proper {proposal : PlanProposal} {reviewer : PrincipalId}
    (hops : proposal.operations ≠ []) (hother : reviewer ≠ proposal.requestedBy) :
    (reviewed proposal reviewer).Proper where
  operations := hops
  reviewed := rfl
  independent := hother

/-- A review that succeeds has consumed the proposal as it was read. -/
theorem reviewProposal_ensures (reviewer : Principal) (id : PlanId)
    (expectedDigest : ArtifactDigest) :
    Ensures .free t m (reviewProposal reviewer id expectedDigest) (fun plan z =>
      ∃ proposal, plan = reviewed proposal reviewer.id ∧ proposal.id = id ∧
        proposal.digest = expectedDigest ∧ reviewer.role = .reviewer ∧
        reviewer.id ≠ proposal.requestedBy ∧
        Called t m (.consumeReviewedProposal id expectedDigest plan) () z) := by
  refine .after hm (.store (q := .proposal id) rfl hm) ?_
  rintro found y₁ h₁ o₁ ⟨x, clock, hx, _, _, hok⟩
  refine .after h₁ .required ?_
  rintro proposal y₂ h₂ o₂ rfl
  have hfound : x.state.store.proposals.find? id = some proposal := (select_ok.mp hok).1
  obtain ⟨hmem, hid⟩ := Table.find?_eq_some.mp hfound
  have hops := (History.good hx).stocked.proposals _ hmem
  refine .refused h₂ fun y₃ hrole h₃ o₃ => .refused h₃ fun y₄ hdigest h₄ o₄ => ?_
  rw [not_or, not_not] at hrole
  have hlegal : ∀ y, Legal t y (.store (.consumeReviewedProposal id expectedDigest
      (reviewed proposal reviewer.id))) := fun _ => reviewed_proper hops hrole.2
  refine .call (fun y _ _ => ⟨hlegal y, trivial⟩) fun y i _ hy hoy _ hanswer => ?_
  refine .pure fun z _ hz => ⟨proposal, rfl, hid, not_not.mp hdigest, hrole.1, hrole.2, ?_⟩
  exact ⟨y, i, hy, o₁.trans (o₂.trans (o₃.trans (o₄.trans hoy))), hlegal y, hanswer, hz⟩

end authority

/-! ### Submission -/

/-- An attempt made from stored records is proposed as the discipline wants it. -/
theorem proposed_of_stored {s : Store} {id : AttemptId} {request : RequestId} {grant : GrantId}
    {planId : PlanId} {index : ℕ} {reserved : Budget} {profile : CommissionedProfile}
    {plan : ReviewedPlan} {now : String} {agent : PrincipalId} {planned : PlannedOperation}
    (hprofile : profile ∈ s.profiles) (hplan : plan ∈ s.plans ∧ plan.id = planId)
    (hstep : plan.operations[index]? = some planned)
    (hfirst : index = 0 → worstCase plan.operations = some reserved)
    (hlater : index ≠ 0 → reserved = Budget.zero) :
    Proposed s (proposedAttempt id request grant planId index reserved profile plan now)
      ⟨agent, profile, plan⟩ where
  intent := rfl
  unreceipted := rfl
  plan := ⟨hplan.1, hplan.2, rfl⟩
  index := by
    obtain ⟨hlt, _⟩ := List.getElem?_eq_some_iff.mp hstep
    exact hlt
  first := hfirst
  later := hlater
  profile := ⟨hprofile, rfl, rfl, rfl⟩

end Supervisor

/-- The attempt that a request submits. -/
structure SubmitRequest.Names (request : SubmitRequest) (a : AttemptRecord) : Prop where
  id : a.id = request.attempt
  key : a.request = request.request
  pair : a.pair = (request.grant, request.plan)
  index : a.operationIndex = request.operationIndex

omit [Platform] in
theorem SubmitRequest.Names.congr {request : SubmitRequest} {a b : AttemptRecord}
    (h : request.Names a) (hid : b.identity = a.identity) : request.Names b where
  id := (AttemptRecord.id_eq hid).trans h.id
  key := (AttemptRecord.request_eq hid).trans h.key
  pair := (AttemptRecord.pair_eq hid).trans h.pair
  index := (AttemptRecord.index_eq hid).trans h.index

/-- The attempt of the request is on record, and the submission is about it. -/
def Submitted (s : Store) (request : SubmitRequest) (submission : Submission) : Prop :=
  ∃ a, s.Attempt a ∧ request.Names a ∧
    (submission = .admitted ⟨a.id⟩ ∨ ∃ b, submission = .existing b ∧ b.identity = a.identity)

namespace Supervisor

omit [Platform] in
/-- The ticket of a submission is for its attempt. -/
theorem stepTicket_ok {s : Store} {request : SubmitRequest} {submission : Submission}
    {text : String} {ticket : DispatchTicket} (h : Submitted s request submission)
    (hok : stepTicket submission text = .ok ticket) :
    ∃ a, s.Attempt a ∧ request.Names a ∧ ticket = ⟨a.id⟩ := by
  obtain ⟨a, ha, hn, rfl | ⟨b, rfl, hid⟩⟩ := h
  · cases hok
    exact ⟨a, ha, hn, rfl⟩
  · simp only [stepTicket] at hok
    split_ifs at hok
    cases hok
    exact ⟨a, ha, hn, by rw [AttemptRecord.id_eq hid]⟩

/-- How a submission ends: its attempt is on record, and unless it has been admitted just now
nothing was changed. -/
def Submits (t : ℕ) (m : Moment machine) (request : SubmitRequest) :
    Except SupervisorError Submission → Moment machine → Prop
  | .error _, z => Leaves (fun _ => False) t m z
  | .ok (.existing b), z =>
      Submitted z.state.store request (.existing b) ∧ Leaves (fun _ => False) t m z
  | .ok (.admitted ticket), z => Submitted z.state.store request (.admitted ticket)

theorem submit_yields {G : Guard} (hm : discipline.Inv m) (agent : Principal)
    (request : SubmitRequest)
    (hG : ∀ y a snapshot, discipline.Inv y → Follows m y → request.Names a →
      G.allows t y (.store (.reserve a snapshot))) :
    Yields G t m (submit agent request) (Submits t m request) := by
  have herr : ∀ {y} e z, discipline.Inv z → Onward t m y → Onward t y z →
      Submits t m request (.error e) z := fun e z _ ho oz =>
        Leaves.of_onward (P := fun _ => False) (ho.trans oz)
  refine .checked hm (fun e y _ hy ho => herr e y hy (.refl t m) ho) fun _ y₁ _ h₁ m₁ => ?_
  refine .after h₁ (Sup.grant_surveys h₁ _) (fun e y hy ho => herr e y hy m₁ ho)
    fun grant y₂ h₂ o₂ _ => ?_
  have m₂ := m₁.trans o₂
  refine .refused h₂ (fun y hy ho => herr _ y hy m₂ ho) fun y₃ _ h₃ o₃ => ?_
  have m₃ := m₂.trans o₃
  refine .after h₃ (Sup.profile_surveys h₃ _) (fun e y hy ho => herr e y hy m₃ ho)
    fun profile y₄ h₄ o₄ hprofile => ?_
  have m₄ := m₃.trans o₄
  refine .after h₄ (Sup.plan_surveys h₄ _) (fun e y hy ho => herr e y hy m₄ ho)
    fun plan y₅ h₅ o₅ hplan => ?_
  have m₅ := m₄.trans o₅
  refine .after h₅ .required (fun e y hy ho => herr e y hy m₅ ho) fun operation y₆ h₆ o₆ hstep => ?_
  have m₆ := m₅.trans o₆
  refine .checked h₆ (fun e y _ hy ho => herr e y hy m₆ ho) fun _ y₇ _ h₇ o₇ => ?_
  have m₇ := m₆.trans o₇
  -- the budget is reserved with the first step, for the whole plan
  have hbudget : Surveys t y₇
      (if request.operationIndex = 0 then
        Sup.required (worstCase plan.operations) (.outOfBounds "plan budget overflow")
      else pure Budget.zero)
      (fun reserved _ => (request.operationIndex = 0 → worstCase plan.operations = some reserved) ∧
        (request.operationIndex ≠ 0 → reserved = Budget.zero)) := by
    split_ifs with h0
    · exact Surveys.required.weaken fun reserved _ _ _ h => ⟨fun _ => h, fun hne => absurd h0 hne⟩
    · exact .pure fun _ _ _ => ⟨fun he => absurd he h0, fun _ => rfl⟩
  simp only [ite_bind]
  refine .after h₇ hbudget (fun e y hy ho => herr e y hy m₇ ho) fun reserved y₈ h₈ o₈ hreserved => ?_
  have m₈ := m₇.trans o₈
  refine .after h₈ Sup.now_surveys (fun e y hy ho => herr e y hy m₈ ho) fun now y₉ h₉ o₉ _ => ?_
  have m₉ := m₈.trans o₉
  refine .call (fun z hz oz => ⟨?_, ?_⟩) ?_ ?_
  · have ho := o₆.trans (o₇.trans (o₈.trans (o₉.trans oz)))
    exact proposed_of_stored ((o₅.trans ho).profile hprofile.1) ⟨ho.plan hplan.1, hplan.2⟩
      hstep hreserved.1 hreserved.2
  · refine hG z _ _ hz (.of_onward (m₉.trans oz)) ?_
    exact ⟨rfl, rfl, rfl, rfl⟩
  · intro y i e z _ hoy _ he hyz
    exact Leaves.step (P := fun _ => False) (m₉.trans hoy) hyz (Or.inr (performStore_error he))
  · intro z i outcome hz oz hstep' hok
    have hcoherent := (History.good hz).regular.coherent
    have hanswer := performStore_ok hok
    obtain ⟨b, hb, hkey, hid, hpair, hindex, houtcome⟩ := reserve_recorded hcoherent hanswer
    have hnames : request.Names b := ⟨hid, hkey, hpair, hindex⟩
    rcases houtcome with rfl | rfl
    · -- a repeated request has found its attempt and changed nothing
      have hsame := reserve_existing hcoherent hanswer
      refine .pure fun w _ ow => ⟨?_, Leaves.step (m₉.trans oz) ow (Or.inr hsame)⟩
      obtain ⟨b', hb', hc⟩ := ow.evolves.attempts b hb
      exact ⟨b', hb', hnames.congr hc.identity, Or.inr ⟨b, rfl, hc.identity.symm⟩⟩
    · refine .pure fun w _ ow => ?_
      obtain ⟨b', hb', hc⟩ := ow.evolves.attempts b hb
      have hn := hnames.congr hc.identity
      exact ⟨b', hb', hn, Or.inl (by rw [hn.id]; rfl)⟩

theorem submit_ensures {G : Guard} (hm : discipline.Inv m) (agent : Principal)
    (request : SubmitRequest)
    (hG : ∀ y a snapshot, discipline.Inv y → Follows m y → request.Names a →
      G.allows t y (.store (.reserve a snapshot))) :
    Ensures G t m (submit agent request)
      (fun submission z => Submitted z.state.store request submission) := by
  refine Yields.weaken (submit_yields hm agent request hG) ?_
  rintro (e | b | ticket) z _ hr
  · exact .error
  · exact .ok hr.1
  · exact .ok hr

/-! ### Admission of a plan -/

omit [Platform] in
theorem except_map_ok {ε α β : Type} {f : α → β} {x : Except ε α} {b : β} :
    (do return f (← x)) = .ok b ↔ ∃ a, x = .ok a ∧ f a = b := by
  cases x <;> simp [bind, Except.bind, pure, Except.pure]

theorem laterSteps_length {run : RequestId} {indices : List ℕ}
    {steps : List (AttemptId × RequestId)} (h : laterSteps run indices = .ok steps) :
    steps.length = indices.length := by
  induction indices generalizing steps with
  | nil =>
      cases h
      rfl
  | cons index indices ih =>
      rw [laterSteps] at h
      split at h
      · split at h
        · obtain ⟨rest, hrest, rfl⟩ := except_map_ok.mp h
          rw [List.length_cons, List.length_cons, ih hrest]
        · cases h
      · split at h <;> cases h

/-- The steps of a run: one for each operation, the first with the given identities. -/
theorem planSteps_ok {run request : RequestId} {attempt : AttemptId} {n : ℕ}
    {steps : List (AttemptId × RequestId)} (h : planSteps run attempt request n = .ok steps) :
    steps.head? = some (attempt, request) ∧ (0 < n → steps.length = n) := by
  obtain ⟨rest, hrest, rfl⟩ := except_map_ok.mp h
  refine ⟨rfl, fun hn => ?_⟩
  rw [List.length_cons, laterSteps_length hrest, List.length_range']
  omega

end Supervisor

/-- The submission of the first step of a new run. -/
def PlanAdmissionRequest.first (request : PlanAdmissionRequest) : SubmitRequest :=
  ⟨request.firstAttempt, request.run, request.grant, request.plan, 0⟩

/-- A run of the request is on record with its first step, and the ticket is for that step. -/
structure Started (s : Store) (agent : PrincipalId) (request : PlanAdmissionRequest)
    (ticket : PlanTicket) : Prop where
  run : ∃ run ∈ s.runs, run.id = request.run ∧ run.agent = agent ∧
    run.pair = (request.grant, request.plan) ∧
    run.steps.head? = some (request.firstAttempt, request.run)
  first : ∃ a, s.Attempt a ∧ request.first.Names a ∧
    ticket = ⟨request.run, request.grant, request.plan, ⟨a.id⟩, 0⟩

omit [Platform] in
theorem Started.tickets {s : Store} {agent : PrincipalId} {request : PlanAdmissionRequest}
    {ticket : PlanTicket} (h : Started s agent request ticket) : s.Tickets ticket := by
  obtain ⟨run, hrun, hid, _, hpair, _⟩ := h.run
  obtain ⟨a, ha, hnames, rfl⟩ := h.first
  exact ⟨⟨run, hrun, hid, hpair⟩, a, ha, rfl, hnames.pair, hnames.index⟩

/-- A proper plan on record has a step. -/
theorem plan_nonempty (hm : discipline.Inv m) {plan : ReviewedPlan}
    (hp : plan ∈ m.state.store.plans) : 0 < plan.operations.length :=
  List.length_pos_iff.mpr ((History.good hm).stocked.plans plan hp).operations

namespace Supervisor

/-- The request is to create a run. -/
def CreatesRun (r : Request) : Prop := ∃ run, r = .store (.createRun run)

/-- How an admission ends: with a ticket for the first step of a run on record, or with nothing
changed but perhaps a run created. -/
def Admitted (t : ℕ) (m : Moment machine) (agent : PrincipalId) (request : PlanAdmissionRequest) :
    Except SupervisorError PlanTicket → Moment machine → Prop
  | .error _, z => Leaves CreatesRun t m z
  | .ok ticket, z => Started z.state.store agent request ticket

theorem admitPlan_yields {G : Guard} (hm : discipline.Inv m) (agent : Principal)
    (request : PlanAdmissionRequest)
    (hrun : ∀ y run, discipline.Inv y → Follows m y → run.id = request.run →
      G.allows t y (.store (.createRun run)))
    (hfirst : ∀ y a snapshot, discipline.Inv y → Follows m y → request.first.Names a →
      G.allows t y (.store (.reserve a snapshot))) :
    Yields G t m (admitPlan agent request) (Admitted t m agent.id request) := by
  have herr : ∀ {y} e z, discipline.Inv z → Onward t m y → Onward t y z →
      Admitted t m agent.id request (.error e) z := fun e z _ ho oz =>
        Leaves.of_onward (P := CreatesRun) (ho.trans oz)
  refine .checked hm (fun e y _ hy ho => herr e y hy (.refl t m) ho) fun _ y₁ _ h₁ m₁ => ?_
  refine .after h₁ (Sup.grant_surveys h₁ _) (fun e y hy ho => herr e y hy m₁ ho)
    fun grant y₂ h₂ o₂ _ => ?_
  have m₂ := m₁.trans o₂
  refine .refused h₂ (fun y hy ho => herr _ y hy m₂ ho) fun y₃ _ h₃ o₃ => ?_
  have m₃ := m₂.trans o₃
  refine .after h₃ (.store (by rfl) h₃) (fun e y hy ho => herr e y hy m₃ ho)
    fun halted y₄ h₄ o₄ _ => ?_
  have m₄ := m₃.trans o₄
  refine .refused h₄ (fun y hy ho => herr _ y hy m₄ ho) fun y₅ _ h₅ o₅ => ?_
  have m₅ := m₄.trans o₅
  refine .after h₅ (.store (by rfl) h₅) (fun e y hy ho => herr e y hy m₅ ho)
    fun retired y₆ h₆ o₆ _ => ?_
  have m₆ := m₅.trans o₆
  refine .refused h₆ (fun y hy ho => herr _ y hy m₆ ho) fun y₇ _ h₇ o₇ => ?_
  have m₇ := m₆.trans o₇
  refine .after h₇ (Sup.profile_surveys h₇ _) (fun e y hy ho => herr e y hy m₇ ho)
    fun profile y₈ h₈ o₈ _ => ?_
  have m₈ := m₇.trans o₈
  refine .after h₈ (Sup.plan_surveys h₈ _) (fun e y hy ho => herr e y hy m₈ ho)
    fun plan y₉ h₉ o₉ hplan => ?_
  have m₉ := m₈.trans o₉
  refine .after h₉ (preflightPlan_surveys h₉ ..) (fun e y hy ho => herr e y hy m₉ ho)
    fun _ z₁ k₁ p₁ _ => ?_
  have n₁ := m₉.trans p₁
  refine .checked k₁ (fun e y _ hy ho => herr e y hy n₁ ho) fun steps z₂ hsteps k₂ p₂ => ?_
  have n₂ := n₁.trans p₂
  obtain ⟨hhead, hlength⟩ := planSteps_ok hsteps
  have hm₂ : Follows m z₂ := .of_onward n₂
  have hlegal : ∀ z, discipline.Inv z → Onward t z₂ z → Legal t z (.store (.createRun
      ⟨request.run, agent.id, request.grant, request.plan, steps, 0⟩)) := by
    intro z hz oz
    have hmem := (p₁.trans (p₂.trans oz)).plan hplan.1
    exact ⟨rfl, plan, hmem, hplan.2, hlength (plan_nonempty hz hmem)⟩
  refine .call (fun z hz oz => ⟨hlegal z hz oz, hrun z _ hz (hm₂.trans (.of_onward oz)) rfl⟩) ?_ ?_
  · intro y i e z _ hoy _ he hyz
    exact Leaves.step (P := CreatesRun) (n₂.trans hoy) hyz (Or.inl ⟨_, rfl⟩)
  intro z i _ hz oz k₃ hok
  have hcreate : Leaves CreatesRun t m (z.step t (.store (.createRun
      ⟨request.run, agent.id, request.grant, request.plan, steps, 0⟩)) i) :=
    Leaves.step (n₂.trans oz) (.refl t _) (Or.inl ⟨_, rfl⟩)
  obtain ⟨r, hr, hid, hagent, hpair, hrsteps⟩ := createRun_recorded (performStore_ok hok)
  have hm₃ := (hm₂.trans (.of_onward oz)).trans (.step hz (hlegal z hz oz) i)
  -- the submission has changed nothing, unless it has admitted the first step
  have hleaves : ∀ {w w'}, Follows (z.step t (.store (.createRun
      ⟨request.run, agent.id, request.grant, request.plan, steps, 0⟩)) i) w → Onward t w w' →
      Leaves (fun _ => False) t (z.step t (.store (.createRun
        ⟨request.run, agent.id, request.grant, request.plan, steps, 0⟩)) i) w →
      Leaves CreatesRun t m w' := by
    intro w w' fw ow hw
    have hstart : Leaves CreatesRun t m w :=
      hcreate.trans (fun e he ht => Or.inr ((hw e he ht).resolve_left id)) hm₃.past fw.past
    exact hstart.trans (.of_onward ow) (hm₃.trans fw).past ow.rely.past
  refine Yields.bind k₃ (Yields.follows (submit_yields k₃ agent request.first
    fun w a snapshot hw fw => hfirst w a snapshot hw (hm₃.trans fw))) ?_ ?_
  · exact fun e w w' _ hr ow => hleaves hr.2 ow hr.1
  rintro submission z₄ k₄ ⟨hsub, f₄⟩
  have hsubmitted : Submitted z₄.state.store request.first submission := by
    cases submission with
    | existing b => exact hsub.1
    | admitted ticket => exact hsub
  refine .checked k₄ (fun e y he _ oy => ?_) fun dispatch z₅ hticket k₅ p₅ =>
    .pure fun z₆ k₆ p₆ => ?_
  · cases submission with
    | existing b => exact hleaves f₄ oy hsub.2
    | admitted ticket => cases he
  obtain ⟨a, ha, hnames, rfl⟩ := stepTicket_ok hsubmitted hticket
  have hlast := p₅.trans p₆
  obtain ⟨r', hr', hrc⟩ := (f₄.trans (.of_onward hlast)).evolves.runs r hr
  obtain ⟨a', ha', hac⟩ := hlast.evolves.attempts a ha
  refine ⟨⟨r', hr', hrc.id_eq.trans hid, ?_, hrc.pair_eq.trans hpair, ?_⟩, a', ha',
    hnames.congr hac.identity, ?_⟩
  · rw [hrc]
    exact hagent
  · rw [hrc.steps_eq, hrsteps]
    exact hhead
  · rw [AttemptRecord.id_eq hac.identity]

theorem admitPlan_ensures {G : Guard} (hm : discipline.Inv m) (agent : Principal)
    (request : PlanAdmissionRequest)
    (hrun : ∀ y run, discipline.Inv y → Follows m y → run.id = request.run →
      G.allows t y (.store (.createRun run)))
    (hfirst : ∀ y a snapshot, discipline.Inv y → Follows m y → request.first.Names a →
      G.allows t y (.store (.reserve a snapshot))) :
    Ensures G t m (admitPlan agent request)
      (fun ticket z => Started z.state.store agent.id request ticket) := by
  refine Yields.weaken (admitPlan_yields hm agent request hrun hfirst) ?_
  rintro (e | ticket) z _ hr
  · exact .error
  · exact .ok hr

end Supervisor

/-! ### Takeover and abandonment -/

/-- The call of the store that a takeover request makes. -/
structure RecoveryTakeoverRequest.Makes (request : RecoveryTakeoverRequest)
    (authority : PrincipalId) (a : AttemptRecord) (run : PlanRun)
    (recovery : RecoveryTakeoverRecord) : Prop where
  attempt : a.id = request.firstAttempt
  key : a.request = request.request
  pair : a.pair = (request.grant, request.plan)
  run : run.id = request.run
  record : recovery.request = request.request ∧ recovery.run = request.run ∧
    recovery.firstAttempt = request.firstAttempt ∧ recovery.unresolved = request.unresolved ∧
    recovery.grant = request.grant ∧ recovery.plan = request.plan ∧
    recovery.justificationEvidence = request.justificationEvidence ∧
    recovery.authorizedBy = authority

/-- The takeover failed and changed nothing, or its call of the store was answered, and the
ticket is for the attempt in the answer. -/
def TookOver (t : ℕ) (m : Moment machine) (authority : PrincipalId)
    (request : RecoveryTakeoverRequest) :
    Except SupervisorError PlanTicket → Moment machine → Prop
  | .error _, z => Unchanged t m z
  | .ok ticket, z => ∃ a snapshot run recovery outcome, request.Makes authority a run recovery ∧
      Called t m (.takeoverRecovery a snapshot run recovery) outcome z ∧
      ticket = ⟨request.run, request.grant, request.plan, ⟨outcome.attempt.id⟩, 0⟩

namespace Supervisor

theorem takeoverRecovery_yields {G : Guard} (hm : discipline.Inv m) (authority : Principal)
    (request : RecoveryTakeoverRequest)
    (hG : ∀ y a snapshot run recovery, discipline.Inv y → Follows m y →
      request.Makes authority.id a run recovery →
      G.allows t y (.store (.takeoverRecovery a snapshot run recovery))) :
    Yields G t m (takeoverRecovery authority request) (TookOver t m authority.id request) := by
  have herr : ∀ {y} e z, discipline.Inv z → Onward t m y → Onward t y z →
      TookOver t m authority.id request (.error e) z := fun e z _ ho oz => (ho.trans oz).unchanged
  refine .checked hm (fun e y _ hy ho => herr e y hy (.refl t m) ho) fun _ y₁ _ h₁ m₁ => ?_
  refine .refused h₁ (fun y hy ho => herr _ y hy m₁ ho) fun y₂ _ h₂ o₂ => ?_
  have m₂ := m₁.trans o₂
  refine .after h₂ (Sup.resolve_surveys h₂ _) (fun e y hy ho => herr e y hy m₂ ho)
    fun _ y₃ h₃ o₃ _ => ?_
  have m₃ := m₂.trans o₃
  refine .after h₃ (Sup.grant_surveys h₃ _) (fun e y hy ho => herr e y hy m₃ ho)
    fun grant y₄ h₄ o₄ _ => ?_
  have m₄ := m₃.trans o₄
  refine .after h₄ (Sup.profile_surveys h₄ _) (fun e y hy ho => herr e y hy m₄ ho)
    fun profile y₅ h₅ o₅ hprofile => ?_
  have m₅ := m₄.trans o₅
  refine .after h₅ (Sup.plan_surveys h₅ _) (fun e y hy ho => herr e y hy m₅ ho)
    fun plan y₆ h₆ o₆ hplan => ?_
  have m₆ := m₅.trans o₆
  refine .after h₆ (preflightPlan_surveys h₆ ..) (fun e y hy ho => herr e y hy m₆ ho)
    fun _ y₇ h₇ o₇ _ => ?_
  have m₇ := m₆.trans o₇
  refine .checked h₇ (fun e y _ hy ho => herr e y hy m₇ ho) fun steps y₈ hsteps h₈ o₈ => ?_
  have m₈ := m₇.trans o₈
  refine .after h₈ Sup.now_surveys (fun e y hy ho => herr e y hy m₈ ho) fun now y₉ h₉ o₉ _ => ?_
  have m₉ := m₈.trans o₉
  refine .after h₉ .required (fun e y hy ho => herr e y hy m₉ ho) fun reserved z₁ k₁ p₁ hworst => ?_
  have n₁ := m₉.trans p₁
  refine .after k₁ Sup.now_surveys (fun e y hy ho => herr e y hy n₁ ho) fun now' z₂ k₂ p₂ _ => ?_
  have n₂ := n₁.trans p₂
  have hsince := o₇.trans (o₈.trans (o₉.trans (p₁.trans p₂)))
  -- every plan on record has a first step
  have hlegal : ∀ z, discipline.Inv z → Onward t z₂ z →
      Proposed z.state.store (proposedAttempt request.firstAttempt request.request request.grant
        request.plan 0 reserved profile plan (Platform.renderTimestamp now))
        ⟨grant.agent, profile, plan⟩ ∧ steps.length = plan.operations.length := by
    intro z hz oz
    have hmem := (hsince.trans oz).plan hplan.1
    have hpos := plan_nonempty hz hmem
    refine ⟨proposed_of_stored ((o₆.trans (hsince.trans oz)).profile hprofile.1)
      ⟨hmem, hplan.2⟩ (List.getElem?_eq_getElem hpos) (fun _ => hworst)
      fun hne => absurd rfl hne, (planSteps_ok hsteps).2 hpos⟩
  refine .call (fun z hz oz => ⟨⟨(hlegal z hz oz).1, ?_⟩, ?_⟩) ?_ ?_
  · exact ⟨rfl, rfl, (hlegal z hz oz).2, rfl, rfl, rfl, rfl, rfl, rfl⟩
  · refine hG z _ _ _ _ hz (.of_onward (n₂.trans oz)) ?_
    exact ⟨rfl, rfl, rfl, rfl, rfl, rfl, rfl, rfl, rfl, rfl, rfl, rfl⟩
  · exact fun y i e z hy hoy hz he hyz => Unchanged.of_failure (n₂.trans hoy) hyz he
  · intro y i outcome hy hoy hstep hok
    refine .pure fun z hz oz => ⟨_, _, _, _, outcome, ?_, ⟨y, i, hy, n₂.trans hoy, ?_, hok, oz⟩, rfl⟩
    · exact ⟨rfl, rfl, rfl, rfl, rfl, rfl, rfl, rfl, rfl, rfl, rfl, rfl⟩
    · exact ⟨(hlegal y hy hoy).1, rfl, rfl, (hlegal y hy hoy).2, rfl, rfl, rfl, rfl, rfl, rfl⟩

end Supervisor

/-- The record that an abandonment request asks for. -/
structure HaltedRunAbandonmentRequest.Names (request : HaltedRunAbandonmentRequest)
    (record : HaltedRunAbandonmentRecord) : Prop where
  key : record.request = request.request
  run : record.run = request.run
  grant : record.grant = request.grant
  plan : record.plan = request.plan
  justification : record.justificationEvidence = request.justificationEvidence

namespace Supervisor

theorem abandonHaltedRun_ensures {G : Guard} (hm : discipline.Inv m) (authority : Principal)
    (request : HaltedRunAbandonmentRequest)
    (hG : ∀ y record, discipline.Inv y → Follows m y → request.Names record →
      G.allows t y (.store (.abandonHaltedRun record))) :
    Ensures G t m (abandonHaltedRun authority request) (fun record z =>
      record ∈ z.state.store.haltedRunAbandonments ∧ request.Names record) := by
  refine .checked hm fun _ y₁ _ h₁ o₁ => ?_
  refine .after h₁ (Sup.resolve_surveys h₁ _) fun _ y₂ h₂ o₂ _ => ?_
  refine .after h₂ (Sup.run_surveys h₂ _) fun run y₃ h₃ o₃ _ => ?_
  refine .refused h₃ fun y₄ _ h₄ o₄ => ?_
  have m₄ := o₁.trans (o₂.trans (o₃.trans o₄))
  have hrest : ∀ (resources : Finset String) y, discipline.Inv y → Onward t y₄ y →
      Ensures G t y (do
        let now ← Sup.now
        Sup.store (.abandonHaltedRun
          { request := request.request
            run := request.run
            grant := request.grant
            plan := request.plan
            resources := resources
            justificationEvidence := request.justificationEvidence
            authorizedBy := authority.id
            authorizedAt := Platform.renderTimestamp now }))
        (fun record z => record ∈ z.state.store.haltedRunAbandonments ∧ request.Names record) := by
    intro resources y hy hoy
    refine .after hy Sup.now_surveys fun now y₅ h₅ o₅ _ => ?_
    refine .store (fun z hz oz => ⟨trivial, ?_⟩) fun z i record w hz oz hw hok ow => ?_
    · exact hG z _ hz (.of_onward (m₄.trans (hoy.trans (o₅.trans oz)))) ⟨rfl, rfl, rfl, rfl, rfl⟩
    · obtain ⟨hrec, hsame⟩ := abandonHaltedRun_recorded (History.good hz).regular.coherent
        (performStore_ok hok)
      simp only [sameHaltedRunAbandonment, Bool.and_eq_true, beq_iff_eq] at hsame
      obtain ⟨⟨⟨⟨⟨⟨h1, h2⟩, h3⟩, h4⟩, _⟩, h5⟩, _⟩ := hsame
      exact ⟨ow.evolves.abandonments record hrec, h1, h2, h3, h4, h5⟩
  refine .after h₄ (.store (by rfl) h₄) ?_
  rintro (_ | existing) y₅ h₅ o₅ _
  · exact .after h₅ (.store (by rfl) h₅) fun resources y₆ h₆ o₆ _ =>
      hrest resources y₆ h₆ (o₅.trans o₆)
  · exact hrest _ y₅ h₅ o₅

end Supervisor

end Cheirismos
