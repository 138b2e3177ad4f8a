import Cheirismos.Bench
import Cheirismos.Conformance
import Cheirismos.Traces

/-! # Refused admissions

`admit_plan` commits twice: `create_run` first, and then the reservation of the first step.  A
refusal that comes in front of the first commit leaves nothing behind.  One that comes after it (a
busy lease, an exhausted budget, an attempt id that is taken) leaves the run, unless a run with
this id was on record already.

* `Passes` are the checks in front of `create_run` in terms of what a call has asked and heard:
  role, grant and its agent, open pair, profile, plan, validation, authorization and the preflight
  of the backend.  `admitPlan_concludes`: a call gets to `create_run`, and once, exactly when it
  passes them.
* `Cleared` are the same checks in terms of what the store held when the call looked, and `NewRun`
  is what the store held when it made the run.
* `refusal_clean`: a refused call leaves the store as it is exactly when it was not cleared, or its
  run was not new. -/

namespace Cheirismos

open Process

variable [Platform]

/-! ### What an operation concludes -/

/-- Whatever the operation ends in satisfies `P` of the exchanges until then. -/
def Sup.Concludes {α : Type} (P : List (Exchange surroundings) → Except SupervisorError α → Prop)
    (past : List (Exchange surroundings)) (x : Sup α) : Prop :=
  Program.Concludes (F := surroundings) P past (ExceptT.run x)

namespace Sup.Concludes

variable {α β : Type} {P : List (Exchange surroundings) → Except SupervisorError α → Prop}
  {past : List (Exchange surroundings)} {f : β → Sup α}

protected theorem bind {R : List (Exchange surroundings) → Except SupervisorError β → Prop}
    {x : Sup β} (hx : Sup.Concludes R past x)
    (herror : ∀ past' e, R past' (.error e) → P past' (.error e))
    (hok : ∀ past' b, R past' (.ok b) → Sup.Concludes P past' (f b)) :
    Sup.Concludes P past (x >>= f) := by
  refine Program.Concludes.bind (Program.Concludes.mono hx ?_)
  rintro past' (e | b) h
  · exact herror past' e h
  · exact hok past' b h

theorem checked {result : Except SupervisorError β} (herror : ∀ e, result = .error e → P past (.error e))
    (hok : ∀ b, result = .ok b → Sup.Concludes P past (f b)) :
    Sup.Concludes P past (Sup.check result >>= f) := by
  cases result with
  | error e => exact herror e rfl
  | ok b => exact hok b rfl

theorem refused {bad : Prop} [Decidable bad] {error : SupervisorError} {f : Unit → Sup α}
    (hbad : bad → P past (.error error)) (hok : ¬ bad → Sup.Concludes P past (f ())) :
    Sup.Concludes P past (Sup.refuse bad error >>= f) := by
  unfold Sup.refuse deny
  by_cases h : bad
  · rw [if_pos h]
    exact hbad h
  · rw [if_neg h]
    exact hok h

theorem stored {call : StoreCall} {f : call.Output → Sup α}
    (herror : ∀ e, P (⟨.store call, some (.error e)⟩ :: past) (.error (.store e)))
    (hok : ∀ output, Sup.Concludes P (⟨.store call, some (.ok output)⟩ :: past) (f output)) :
    Sup.Concludes P past (Sup.store call >>= f) := by
  rintro (e | output)
  · exact herror e
  · exact hok output

/-- A record that must be there. -/
theorem loaded {call : StoreCall} {g : call.Output → Option β} {error : SupervisorError}
    (herror : ∀ v e, (∀ output b, v = .ok output → g output ≠ some b) →
      P (⟨.store call, some v⟩ :: past) (.error e))
    (hok : ∀ output b, g output = some b →
      Sup.Concludes P (⟨.store call, some (.ok output)⟩ :: past) (f b)) :
    Sup.Concludes P past ((Sup.store call >>= fun v => Sup.required (g v) error) >>= f) := by
  rintro (e | output)
  · exact herror _ _ fun _ _ h => by cases h
  · cases hg : g output with
    | none =>
        have hnone : P (⟨.store call, some (.ok output)⟩ :: past) (.error error) :=
          herror _ _ fun _ _ h hsome => by cases h; rw [hg] at hsome; cases hsome
        show Program.Concludes (F := surroundings) P _ ((ExceptT.run (Sup.required (g output) error)).bind _)
        rw [hg]
        exact hnone
    | some b =>
        show Program.Concludes (F := surroundings) P _ ((ExceptT.run (Sup.required (g output) error)).bind _)
        rw [hg]
        exact hok output b hg

end Sup.Concludes

/-! ### Preflight -/

/-- The request only asks whether something is there, or passes. -/
def Inquires : Request → Prop
  | .resolve _ | .preflight _ _ => True
  | _ => False

/-- An artifact is not there, or the backend refuses an operation. -/
def Refused : Exchange surroundings → Prop
  | ⟨.resolve _, some (.error _)⟩ | ⟨.preflight _ _, some (.error _)⟩ => True
  | _ => False

/-- The operation only inquires, and it succeeds exactly when `B` holds and nothing is refused. -/
def Sup.Examines (B : Prop) (x : Sup Unit) : Prop := ∀ past, Sup.Concludes (fun past' r =>
  ∃ more, past' = more ++ past ∧ (∀ y ∈ more, Inquires y.request) ∧
    (r = .ok () ↔ B ∧ ∀ y ∈ more, ¬ Refused y)) past x

namespace Sup.Examines

variable {B B' : Prop} {x : Sup Unit} {f : Unit → Sup Unit}

protected theorem pure : Sup.Examines True (pure ()) := fun _ =>
  ⟨[], rfl, fun _ hy => absurd hy List.not_mem_nil, iff_of_true rfl ⟨trivial, fun _ hy =>
    absurd hy List.not_mem_nil⟩⟩

protected theorem check {result : Except SupervisorError Unit} :
    Sup.Examines (result = .ok ()) (Sup.check result) := fun _ =>
  ⟨[], rfl, fun _ hy => absurd hy List.not_mem_nil, ⟨fun h => ⟨h, fun _ hy =>
    absurd hy List.not_mem_nil⟩, fun h => h.1⟩⟩

/-- One examination after the other. -/
protected theorem bind (hx : Sup.Examines B x) (hf : Sup.Examines B' (f ())) :
    Sup.Examines (B ∧ B') (x >>= f) := by
  intro past
  refine Sup.Concludes.bind (hx past) ?_ ?_
  · rintro _ e ⟨more, rfl, hinquires, hiff⟩
    refine ⟨more, rfl, hinquires, iff_of_false (fun h => by cases h) fun h => ?_⟩
    cases hiff.mpr ⟨h.1.1, h.2⟩
  · rintro _ _ ⟨more, rfl, hinquires, hiff⟩
    obtain ⟨hB, hclean⟩ := hiff.mp rfl
    refine Program.Concludes.mono (hf _) ?_
    rintro _ r ⟨more', rfl, hinquires', hiff'⟩
    refine ⟨more' ++ more, (List.append_assoc more' more past).symm, ?_, ?_⟩
    · exact List.forall_mem_append.mpr ⟨hinquires', hinquires⟩
    · rw [hiff', List.forall_mem_append]
      exact ⟨fun h => ⟨⟨hB, h.1⟩, h.2, hclean⟩, fun h => ⟨h.1.2, h.2.1⟩⟩

protected theorem congr (h : B ↔ B') (hx : Sup.Examines B x) : Sup.Examines B' x := by
  rwa [Sup.Examines, ← h]

theorem resolve (digest : ArtifactDigest) : Sup.Examines True (Sup.resolve digest) := by
  rintro past (e | artifact)
  · refine ⟨[⟨.resolve digest, some (.error e)⟩], rfl, by simp [Inquires], ?_⟩
    exact iff_of_false (fun h => by cases h) fun h => h.2 _ List.mem_cons_self trivial
  · refine ⟨[⟨.resolve digest, some (.ok artifact)⟩], rfl, by simp [Inquires], ?_⟩
    exact iff_of_true rfl ⟨trivial, fun y hy => List.mem_singleton.mp hy ▸ id⟩

theorem preflight (operation : Operation) (profile : CommissionedProfile) :
    Sup.Examines True (Supervisor.preflight operation profile) := by
  rintro past (e | u)
  · refine ⟨[⟨.preflight operation profile, some (.error e)⟩], rfl, by simp [Inquires], ?_⟩
    exact iff_of_false (fun h => by cases h) fun h => h.2 _ List.mem_cons_self trivial
  · refine ⟨[⟨.preflight operation profile, some (.ok u)⟩], rfl, by simp [Inquires], ?_⟩
    exact iff_of_true rfl ⟨trivial, fun y hy => List.mem_singleton.mp hy ▸ id⟩

theorem resolveAll (digests : List ArtifactDigest) :
    Sup.Examines True (Supervisor.resolveAll digests) := by
  induction digests with
  | nil => exact .pure
  | cons digest digests ih => exact .congr (and_self_iff) (.bind (resolve digest) ih)

theorem preflightOperations (grant : Grant) (profile : CommissionedProfile) (plan : ReviewedPlan)
    (operations : List PlannedOperation) :
    Sup.Examines (∀ planned ∈ operations, authorize grant profile plan planned = .ok ())
      (Supervisor.preflightOperations grant profile plan operations) := by
  induction operations with
  | nil => exact .congr (by simp) .pure
  | cons planned rest ih =>
      refine .congr ?_ (.bind .check (.bind (resolveAll _) (.bind (preflight _ _) ih)))
      rw [List.forall_mem_cons, true_and, true_and]

/-- A preflight succeeds when the plan is valid and each of its steps authorized, and nothing is
refused. -/
theorem preflightPlan (grant : Grant) (profile : CommissionedProfile) (plan : ReviewedPlan) :
    Sup.Examines (validatePlan profile plan = .ok () ∧
        ∀ planned ∈ plan.operations, authorize grant profile plan planned = .ok ())
      (Supervisor.preflightPlan grant profile plan) := by
  refine .congr ?_ (.bind .check (.bind (resolveAll _) (preflightOperations grant profile plan _)))
  rw [true_and]

end Sup.Examines

/-! ### The checks in front of the first commit -/

/-- The call has heard what it needs before it makes a run. -/
structure Passes (agent : Principal) (request : PlanAdmissionRequest) (grant : Grant)
    (profile : CommissionedProfile) (plan : ReviewedPlan) (tr : List (Exchange surroundings)) :
    Prop where
  role : agent.role = .agent
  granted : ⟨.store (.grant request.grant), some (.ok (some grant))⟩ ∈ tr
  principal : grant.agent = agent.id
  unhalted : ⟨.store (.isHaltedPair (request.grant, request.plan)), some (.ok false)⟩ ∈ tr
  unretired :
    ⟨.store (.isRecoverySourceRetired (request.grant, request.plan)), some (.ok false)⟩ ∈ tr
  profiled : ⟨.store (.profile grant.profile), some (.ok (some profile))⟩ ∈ tr
  planned : ⟨.store (.plan request.plan), some (.ok (some plan))⟩ ∈ tr
  valid : validatePlan profile plan = .ok ()
  authorized : ∀ planned ∈ plan.operations, authorize grant profile plan planned = .ok ()
  unrefused : ∀ x ∈ tr, ¬ Refused x
  steps : ∃ steps, Supervisor.planSteps request.run request.firstAttempt request.run
    plan.operations.length = .ok steps

/-- The exchange made a run. -/
def Creates : Request → Prop
  | .store (.createRun _) => True
  | _ => False

/-- The run was made once, under the id of the request. -/
def CreatedOnce (request : PlanAdmissionRequest) (tr : List (Exchange surroundings)) : Prop :=
  ∃ after run v before, tr = after ++ ⟨.store (.createRun run), some v⟩ :: before ∧
    run.id = request.run ∧ (∀ x ∈ after, ¬ Creates x.request) ∧ ∀ x ∈ before, ¬ Creates x.request

/-- A call makes its run, and once, exactly when it passes the checks. -/
def Commits (agent : Principal) (request : PlanAdmissionRequest)
    (tr : List (Exchange surroundings)) : Prop :=
  (∃ grant profile plan, Passes agent request grant profile plan tr) ∧ CreatedOnce request tr ∨
    (∀ grant profile plan, ¬ Passes agent request grant profile plan tr) ∧
      ∀ x ∈ tr, ¬ Creates x.request

section commits

variable {agent : Principal} {request : PlanAdmissionRequest} {grant : Grant}
  {profile : CommissionedProfile} {plan : ReviewedPlan} {tr : List (Exchange surroundings)}

/-- What was read before some inquiries was read. -/
theorem read_before {call : StoreCall} {v : Except StoreError call.Output}
    {more : List (Exchange surroundings)} (hmore : ∀ x ∈ more, Inquires x.request)
    (h : (⟨.store call, some v⟩ : Exchange surroundings) ∈ more ++ tr) :
    (⟨.store call, some v⟩ : Exchange surroundings) ∈ tr := by
  rcases List.mem_append.mp h with h | h
  · exact absurd (hmore _ h) id
  · exact h

/-- What a call has heard when it has found the records it needs. -/
abbrev consulted (request : PlanAdmissionRequest) (grant : Grant) (profile : CommissionedProfile)
    (plan : ReviewedPlan) : List (Exchange surroundings) :=
  [⟨.store (.plan request.plan), some (.ok (some plan))⟩,
    ⟨.store (.profile grant.profile), some (.ok (some profile))⟩,
    ⟨.store (.isRecoverySourceRetired (request.grant, request.plan)), some (.ok false)⟩,
    ⟨.store (.isHaltedPair (request.grant, request.plan)), some (.ok false)⟩,
    ⟨.store (.grant request.grant), some (.ok (some grant))⟩]

/-- The records that a call passes with are the ones that it found. -/
theorem Passes.found {grant' : Grant} {profile' : CommissionedProfile} {plan' : ReviewedPlan}
    {more : List (Exchange surroundings)} (hmore : ∀ x ∈ more, Inquires x.request)
    (h : Passes agent request grant' profile' plan'
      (more ++ consulted request grant profile plan)) :
    grant' = grant ∧ profile' = profile ∧ plan' = plan := by
  have hgrant : grant' = grant := by simpa using read_before hmore h.granted
  subst hgrant
  exact ⟨rfl, by simpa using read_before hmore h.profiled,
    by simpa using read_before hmore h.planned⟩

/-- Requests that come after the run was made. -/
def Subsequent (r : Request) : Prop := ¬ Inquires r ∧ ¬ Creates r

theorem submit_asks (r : SubmitRequest) : Sup.Asks Subsequent (Supervisor.submit agent r) := by
  refine .bind .check fun _ => .bind (.bind (.store ⟨id, id⟩) fun _ => .required) fun grant => ?_
  refine .bind .refuse fun _ => .bind (.bind (.store ⟨id, id⟩) fun _ => .required) fun profile => ?_
  refine .bind (.bind (.store ⟨id, id⟩) fun _ => .required) fun plan => .bind .required fun _ => ?_
  refine .bind .check fun _ => ?_
  simp only [ite_bind]
  refine .bind ?_ fun reserved => .bind (.ask (r := .now) ⟨id, id⟩ fun _ => .pure) fun now =>
    .bind (.store ⟨id, id⟩) ?_
  · split
    · exact .required
    · exact .pure
  · rintro (attempt | attempt) <;> exact .pure

omit [Platform] in
theorem not_creates_of_inquires {r : Request} (h : Inquires r) : ¬ Creates r := by
  cases r with
  | store call => exact absurd h id
  | _ => exact id

/-- Looking records up and inquiring makes no run. -/
theorem not_creates_before {more : List (Exchange surroundings)}
    (hmore : ∀ x ∈ more, Inquires x.request) :
    ∀ x ∈ more ++ consulted request grant profile plan, ¬ Creates x.request :=
  List.forall_mem_append.mpr ⟨fun x hx => not_creates_of_inquires (hmore x hx), by simp [Creates]⟩

/-- Once a call has made its run it makes no other. -/
theorem commits_created {steps : List (AttemptId × RequestId)} {v : Except StoreError Unit}
    {more after : List (Exchange surroundings)} (hmore : ∀ x ∈ more, Inquires x.request)
    (hafter : ∀ x ∈ after, Subsequent x.request)
    (hpasses : Passes agent request grant profile plan
      (more ++ consulted request grant profile plan)) :
    Commits agent request (after ++ ⟨.store (.createRun ⟨request.run, agent.id, request.grant,
      request.plan, steps, 0⟩), some v⟩ :: (more ++ consulted request grant profile plan)) := by
  have hlater : ∀ {x}, x ∈ more ++ consulted request grant profile plan → x ∈ after ++
      ⟨.store (.createRun ⟨request.run, agent.id, request.grant, request.plan, steps, 0⟩), some v⟩ ::
        (more ++ consulted request grant profile plan) :=
    fun hx => List.mem_append_right _ (List.mem_cons_of_mem _ hx)
  have hunrefused : ∀ x ∈ after, ¬ Refused x := by
    rintro ⟨r, v⟩ hx hrefused
    have hinquires : ¬ Inquires r := (hafter _ hx).1
    cases r with
    | resolve digest => exact hinquires trivial
    | preflight operation profile => exact hinquires trivial
    | _ => exact hrefused
  refine Or.inl ⟨⟨grant, profile, plan, hpasses.role, hlater hpasses.granted, hpasses.principal,
    hlater hpasses.unhalted, hlater hpasses.unretired, hlater hpasses.profiled,
    hlater hpasses.planned, hpasses.valid, hpasses.authorized, ?_, hpasses.steps⟩,
    after, _, v, _, rfl, rfl, fun x hx => (hafter x hx).2, not_creates_before hmore⟩
  exact List.forall_mem_append.mpr ⟨hunrefused, List.forall_mem_cons.mpr
    ⟨id, hpasses.unrefused⟩⟩

/-- `admit_plan` gets to its first commit exactly when it passes the checks in front of it. -/
theorem admitPlan_concludes : Sup.Concludes (fun tr _ => Commits agent request tr) []
    (Supervisor.admitPlan agent request) := by
  unfold Supervisor.admitPlan
  refine .checked (fun e he => ?_) fun _ hrole => ?_
  · refine Or.inr ⟨fun grant profile plan h => ?_, fun _ hx => absurd hx List.not_mem_nil⟩
    have hrole := h.role
    simp [requireAgent, deny, hrole] at he
  refine .loaded (fun v e hv => ?_) fun output grant hgrant => ?_
  · refine Or.inr ⟨fun grant profile plan h => ?_, by simp [Creates]⟩
    have hgranted := h.granted
    simp at hgranted
    exact hv _ _ hgranted.symm rfl
  obtain rfl : output = some grant := hgrant
  refine .refused (fun hother => ?_) fun hprincipal => ?_
  · refine Or.inr ⟨fun grant' profile plan h => ?_, by simp [Creates]⟩
    obtain rfl : grant' = grant := by simpa using h.granted
    exact hother h.principal
  refine .stored (fun e => ?_) fun halted => ?_
  · refine Or.inr ⟨fun grant' profile plan h => ?_, by simp [Creates]⟩
    simpa using h.unhalted
  refine .refused (fun hhalted => ?_) fun hhalted => ?_
  · refine Or.inr ⟨fun grant' profile plan h => ?_, by simp [Creates]⟩
    simpa [hhalted] using h.unhalted
  obtain rfl : halted = false := Bool.eq_false_iff.mpr hhalted
  refine .stored (fun e => ?_) fun retired => ?_
  · refine Or.inr ⟨fun grant' profile plan h => ?_, by simp [Creates]⟩
    simpa using h.unretired
  refine .refused (fun hretired => ?_) fun hretired => ?_
  · refine Or.inr ⟨fun grant' profile plan h => ?_, by simp [Creates]⟩
    simpa [hretired] using h.unretired
  obtain rfl : retired = false := Bool.eq_false_iff.mpr hretired
  refine .loaded (fun v e hv => ?_) fun output profile hprofile => ?_
  · refine Or.inr ⟨fun grant' profile plan h => ?_, by simp [Creates]⟩
    obtain rfl : grant' = grant := by simpa using h.granted
    have hprofiled := h.profiled
    simp at hprofiled
    exact hv _ _ hprofiled.symm rfl
  obtain rfl : output = some profile := hprofile
  refine .loaded (fun v e hv => ?_) fun output plan hplan => ?_
  · refine Or.inr ⟨fun grant' profile plan h => ?_, by simp [Creates]⟩
    have hplanned := h.planned
    simp at hplanned
    exact hv _ _ hplanned.symm rfl
  obtain rfl : output = some plan := hplan
  refine .bind (Sup.Examines.preflightPlan grant profile plan _) ?_ ?_
  · rintro _ e ⟨more, rfl, hmore, hiff⟩
    refine Or.inr ⟨fun grant' profile' plan' h => ?_, not_creates_before hmore⟩
    obtain ⟨rfl, rfl, rfl⟩ := h.found hmore
    cases hiff.mpr ⟨⟨h.valid, h.authorized⟩, fun x hx => h.unrefused x (List.mem_append_left _ hx)⟩
  rintro _ _ ⟨more, rfl, hmore, hiff⟩
  obtain ⟨⟨hvalid, hauthorized⟩, hclean⟩ := hiff.mp rfl
  refine .checked (fun e he => ?_) fun steps hsteps => ?_
  · refine Or.inr ⟨fun grant' profile' plan' h => ?_, not_creates_before hmore⟩
    obtain ⟨rfl, rfl, rfl⟩ := h.found hmore
    obtain ⟨steps, hsteps⟩ := h.steps
    cases hsteps.symm.trans he
  have hconsulted : ∀ {x}, x ∈ consulted request grant profile plan →
      x ∈ more ++ consulted request grant profile plan := fun hx => List.mem_append_right _ hx
  have hpasses : Passes agent request grant profile plan
      (more ++ consulted request grant profile plan) :=
    { role := requireAgent_ok.mp hrole
      granted := hconsulted (by simp)
      principal := not_not.mp hprincipal
      unhalted := hconsulted (by simp)
      unretired := hconsulted (by simp)
      profiled := hconsulted (by simp)
      planned := hconsulted (by simp)
      valid := hvalid
      authorized := hauthorized
      unrefused := List.forall_mem_append.mpr ⟨hclean, by simp [Refused]⟩
      steps := ⟨steps, hsteps⟩ }
  refine .stored (fun e => ?_) fun output => ?_
  · show Commits agent request ([] ++ _)
    exact commits_created hmore (fun _ hx => absurd hx List.not_mem_nil) hpasses
  have hlater : Sup.Asks Subsequent (Supervisor.submit agent
      ⟨request.firstAttempt, request.run, request.grant, request.plan, 0⟩ >>= fun submission =>
        Sup.check (Supervisor.stepTicket submission "run already has a non-resumable first step") >>=
          fun dispatch => (pure ⟨request.run, request.grant, request.plan, dispatch, 0⟩ :
            Sup PlanTicket)) :=
    .bind (submit_asks _) fun _ => .bind .check fun _ => .pure
  refine Program.Concludes.mono (Program.Asks.concludes hlater) ?_
  rintro _ _ ⟨after, rfl, hafter⟩
  exact commits_created hmore hafter hpasses

end commits

/-- The request records a run under a new id. -/
def Founds (e : Event machine) : Prop :=
  ∃ run, e.request = .store (.createRun run) ∧ e.choice.storeFault = none ∧
    ∀ r ∈ e.before.store.runs, r.id ≠ run.id

omit [Platform] in
/-- A run that is created under an id on record changes nothing. -/
theorem createRun_kept {s s' : Store} {run r : PlanRun} {u : Unit} (hr : r ∈ s.runs)
    (hid : r.id = run.id) (h : createRun run s = .ok (u, s')) : s' = s := by
  rcases insertOnce_ok h with ⟨t, ht, _⟩ | ⟨hs, _⟩
  · exact absurd hid ((Table.insert?_eq_some ht).1 r hr)
  · exact hs

omit [Platform] in
/-- A run that is created under a new id is on record afterwards. -/
theorem createRun_new {s : Store} {run : PlanRun} (hfresh : ∀ r ∈ s.runs, r.id ≠ run.id) :
    ∃ s', createRun run s = .ok ((), s') ∧ run ∈ s'.runs := by
  obtain ⟨t, ht⟩ : ∃ t, s.runs.insert? run = some t := Table.insert?_of_free hfresh
  refine ⟨{ s with runs := t }, ?_, (Table.mem_insert? ht).mpr (Or.inl rfl)⟩
  exact Tx.bind_ok.mpr ⟨true, _, insertOrNothing_ok.mpr (Or.inl ⟨rfl, t, ht, rfl⟩), rfl⟩

/-- Creating a run changes the store exactly when the run is new. -/
theorem createRun_keeps_iff {e : Event machine} {run : PlanRun}
    (hr : e.request = .store (.createRun run)) :
    e.after.store = e.before.store ↔ ¬ Founds e := by
  have hafter : e.after.store = (performStore (.createRun run) e.choice e.before.store).2 := by
    unfold Event.after
    rw [hr]
    rfl
  constructor
  · rintro hsame ⟨run', hr', hfault, hfresh⟩
    rw [hr] at hr'
    cases hr'
    obtain ⟨s', hok, hmem⟩ := createRun_new hfresh
    have hresult : e.after.store = s' := by
      rw [hafter]
      unfold performStore
      rw [hfault]
      simp only [StoreCall.transact, hok]
    rw [← hresult, hsame] at hmem
    exact hfresh run hmem rfl
  · intro hold
    rw [hafter]
    cases hanswer : (performStore (.createRun run) e.choice e.before.store).1 with
    | error error => exact performStore_error hanswer
    | ok u =>
        have hfault : e.choice.storeFault = none := by
          cases hf : e.choice.storeFault with
          | none => rfl
          | some fault =>
              unfold performStore at hanswer
              rw [hf] at hanswer
              cases hanswer
        have hknown : ∃ r ∈ e.before.store.runs, r.id = run.id := by
          by_contra hnone
          exact hold ⟨run, hr, hfault, fun r hmem hid => hnone ⟨r, hmem, hid⟩⟩
        obtain ⟨r, hmem, hid⟩ := hknown
        exact createRun_kept hmem hid (performStore_ok hanswer)

/-! ### What the store held -/

section cleared

variable {past : List (Event machine)} {t : ℕ}

/-- The call looked this up, and `P` held of the store then. -/
def Saw (past : List (Event machine)) (t : ℕ) (call : StoreCall) (P : Store → Prop) : Prop :=
  ∃ e ∈ past, e.thread = t ∧ e.request = .store call ∧ e.choice.storeFault = none ∧
    P e.before.store

/-- The checks in front of the first commit pass in the states in which the call makes them. -/
structure Cleared (agent : Principal) (request : PlanAdmissionRequest) (grant : Grant)
    (profile : CommissionedProfile) (plan : ReviewedPlan) (past : List (Event machine)) (t : ℕ) :
    Prop where
  role : agent.role = .agent
  granted : Saw past t (.grant request.grant) fun s =>
    s.grants.find? request.grant = some grant
  principal : grant.agent = agent.id
  unhalted : Saw past t (.isHaltedPair (request.grant, request.plan)) fun s =>
    s.haltedPairExists (request.grant, request.plan) = false
  unretired : Saw past t (.isRecoverySourceRetired (request.grant, request.plan)) fun s =>
    s.recoverySourceRetired (request.grant, request.plan) = false
  profiled : Saw past t (.profile grant.profile) fun s =>
    s.profiles.find? grant.profile = some profile
  planned : Saw past t (.plan request.plan) fun s => s.plans.find? request.plan = some plan
  valid : validatePlan profile plan = .ok ()
  authorized : ∀ planned ∈ plan.operations, authorize grant profile plan planned = .ok ()
  resolved : ∀ e ∈ past, e.thread = t → ∀ digest, e.request = .resolve digest →
    ∃ artifact, e.before.artifacts.read e.choice.evidenceFault digest = .ok artifact
  qualified : ∀ e ∈ past, e.thread = t → ∀ operation profile,
    e.request = .preflight operation profile → e.choice.preflight = .ok ()
  steps : ∃ steps, Supervisor.planSteps request.run request.firstAttempt request.run
    plan.operations.length = .ok steps

/-- When the call makes its run, the store does not fail and has no run with this id. -/
def NewRun (request : PlanAdmissionRequest) (past : List (Event machine)) (t : ℕ) : Prop :=
  ∀ e ∈ past, e.thread = t → ∀ run, e.request = .store (.createRun run) →
    e.choice.storeFault = none ∧ ∀ r ∈ e.before.store.runs, r.id ≠ request.run

/-- What a look-up was answered is what the store held. -/
theorem heard_read_iff {call : StoreCall} {f : Store → call.Output} {output : call.Output}
    (hread : ∀ clock, call.transact clock = StoreCall.select f) :
    (⟨.store call, some (.ok output)⟩ : Exchange surroundings) ∈ heard t past ↔
      Saw past t call fun s => f s = output := by
  have hperform : ∀ (i : Choice) (s : Store), (performStore call i s).1 = .ok output ↔
      i.storeFault = none ∧ f s = output := by
    intro i s
    unfold performStore
    rw [hread]
    cases i.storeFault with
    | some fault => exact iff_of_false (fun h => by cases h) fun h => by cases h.1
    | none => exact ⟨fun h => ⟨rfl, Except.ok.inj h⟩, fun h => congrArg Except.ok h.2⟩
  rw [mem_heard_iff]
  constructor
  · rintro ⟨i, w, he, hanswer⟩
    obtain ⟨hfault, hfound⟩ := (hperform i w.store).mp hanswer
    exact ⟨_, he, rfl, rfl, hfault, hfound⟩
  · rintro ⟨⟨u, r, i, w⟩, he, rfl, rfl, hfault, hfound⟩
    exact ⟨i, w, he, (hperform i w.store).mpr ⟨hfault, hfound⟩⟩

/-- Nothing was refused to the call when every artifact was there and every operation qualified. -/
theorem unrefused_iff : (∀ x ∈ heard t past, ¬ Refused x) ↔
    (∀ e ∈ past, e.thread = t → ∀ digest, e.request = .resolve digest →
      ∃ artifact, e.before.artifacts.read e.choice.evidenceFault digest = .ok artifact) ∧
    ∀ e ∈ past, e.thread = t → ∀ operation profile, e.request = .preflight operation profile →
      e.choice.preflight = .ok () := by
  constructor
  · intro h
    refine ⟨?_, ?_⟩
    · rintro ⟨u, r, i, w⟩ he rfl digest rfl
      have hunrefused := h ⟨.resolve digest, some (w.artifacts.read i.evidenceFault digest)⟩
        (mem_heard_iff.mpr ⟨i, w, he, rfl⟩)
      cases hread : w.artifacts.read i.evidenceFault digest with
      | error error => rw [hread] at hunrefused; exact absurd trivial hunrefused
      | ok artifact => exact ⟨artifact, rfl⟩
    · rintro ⟨u, r, i, w⟩ he rfl operation profile rfl
      have hunrefused := h ⟨.preflight operation profile, some i.preflight⟩
        (mem_heard_iff.mpr ⟨i, w, he, rfl⟩)
      cases hpreflight : i.preflight with
      | error error => rw [hpreflight] at hunrefused; exact absurd trivial hunrefused
      | ok u => rfl
  · rintro ⟨hresolved, hqualified⟩ x hx hrefused
    obtain ⟨⟨u, r, i, w⟩, he, rfl, rfl⟩ := mem_heard hx
    cases r with
    | resolve digest =>
        obtain ⟨artifact, hread⟩ := hresolved _ he rfl digest rfl
        change Refused ⟨.resolve digest, some (w.artifacts.read i.evidenceFault digest)⟩ at hrefused
        rw [show w.artifacts.read i.evidenceFault digest = .ok artifact from hread] at hrefused
        exact hrefused
    | preflight operation profile =>
        change Refused ⟨.preflight operation profile, some i.preflight⟩ at hrefused
        rw [show i.preflight = .ok () from hqualified _ he rfl operation profile rfl] at hrefused
        exact hrefused
    | _ => exact hrefused

/-- A call passes the checks when the states in which it makes them let it. -/
theorem passes_iff_cleared {agent : Principal} {request : PlanAdmissionRequest} {grant : Grant}
    {profile : CommissionedProfile} {plan : ReviewedPlan} :
    Passes agent request grant profile plan (heard t past) ↔
      Cleared agent request grant profile plan past t := by
  constructor
  · intro h
    exact ⟨h.role, (heard_read_iff fun _ => rfl).mp h.granted, h.principal,
      (heard_read_iff fun _ => rfl).mp h.unhalted, (heard_read_iff fun _ => rfl).mp h.unretired,
      (heard_read_iff fun _ => rfl).mp h.profiled, (heard_read_iff fun _ => rfl).mp h.planned,
      h.valid, h.authorized, (unrefused_iff.mp h.unrefused).1, (unrefused_iff.mp h.unrefused).2,
      h.steps⟩
  · intro h
    exact ⟨h.role, (heard_read_iff fun _ => rfl).mpr h.granted, h.principal,
      (heard_read_iff fun _ => rfl).mpr h.unhalted, (heard_read_iff fun _ => rfl).mpr h.unretired,
      (heard_read_iff fun _ => rfl).mpr h.profiled, (heard_read_iff fun _ => rfl).mpr h.planned,
      h.valid, h.authorized, unrefused_iff.mpr ⟨h.resolved, h.qualified⟩, h.steps⟩

/-- A run that was made once was made at one request. -/
theorem CreatedOnce.event {request : PlanAdmissionRequest}
    (h : CreatedOnce request (heard t past)) :
    ∃ e ∈ past, e.thread = t ∧ (∃ run, e.request = .store (.createRun run) ∧ run.id = request.run) ∧
      ∀ e' ∈ past, e'.thread = t → Creates e'.request → e' = e := by
  obtain ⟨after, run, v, before, heq, hid, hafter, hbefore⟩ := h
  obtain ⟨later, others, hown, rfl, hothers⟩ := List.map_eq_append_iff.mp heq
  obtain ⟨e, earlier, rfl, he, rfl⟩ := List.map_eq_cons_iff.mp hothers
  have hmem : e ∈ past.filter fun e => e.thread = t := by
    rw [hown]
    exact List.mem_append_right _ List.mem_cons_self
  obtain ⟨hpast, hthread⟩ := List.mem_filter.mp hmem
  refine ⟨e, hpast, of_decide_eq_true hthread, ⟨run, (Exchange.mk.inj he).1, hid⟩, ?_⟩
  intro e' he' ht' hcreates
  have hmem' : e' ∈ later ++ e :: earlier := by
    rw [← hown]
    exact List.mem_filter.mpr ⟨he', decide_eq_true ht'⟩
  rcases List.mem_append.mp hmem' with hlater | hlater
  · exact absurd hcreates (hafter _ (List.mem_map_of_mem hlater))
  · rcases List.mem_cons.mp hlater with rfl | hearlier
    · rfl
    · exact absurd hcreates (hbefore _ (List.mem_map_of_mem hearlier))

/-- A call that has made its run founds it exactly when the run was new. -/
theorem founds_iff_newRun {request : PlanAdmissionRequest}
    (h : CreatedOnce request (heard t past)) :
    (∃ e ∈ past, e.thread = t ∧ Founds e) ↔ NewRun request past t := by
  obtain ⟨e, he, ht, ⟨run, hr, hid⟩, honly⟩ := h.event
  constructor
  · rintro ⟨e', he', ht', run', hr', hfault, hfresh⟩ e'' he'' ht'' run'' hr''
    have hsame : e' = e'' := (honly e' he' ht' (by rw [hr']; trivial)).trans
      (honly e'' he'' ht'' (by rw [hr'']; trivial)).symm
    obtain rfl : e' = e := honly e' he' ht' (by rw [hr']; trivial)
    subst hsame
    obtain rfl : run' = run := by
      rw [hr] at hr'
      cases hr'
      rfl
    exact ⟨hfault, hid ▸ hfresh⟩
  · intro hnew
    obtain ⟨hfault, hfresh⟩ := hnew e he ht run hr
    exact ⟨e, he, ht, run, hr, hfault, hid.symm ▸ hfresh⟩

end cleared

section runs

variable {c c' : daemon.Config} {principal : Principal} {request : PlanAdmissionRequest}
  {error : SupervisorError}

/-- A refused admission has left the store as it was at each of its requests, exactly when none of
them recorded a run under a new id. -/
theorem kept_iff (h : Reachable c)
    (hs : daemon.Serves c (.admitPlan principal request) (.ticket (.error error)) c') :
    (∀ e ∈ c'.history, e.thread = c.next → e.after.store = e.before.store) ↔
      ∀ e ∈ c'.history, e.thread = c.next → ¬ Founds e := by
  have hm := (discipline_sound.sound h).inv
  have hyields := Supervisor.admitPlan_yields (t := c.next) (G := .free) hm principal request
    (fun _ _ _ _ _ => trivial) fun _ _ _ _ _ _ => trivial
  obtain ⟨r, y, hwrap, ⟨hres, hfollows⟩, hyc⟩ :=
    (yields_served h hs.toServing rfl (Yields.follows hyields)).2 _ hs.result
  cases hwrap
  have hleaves : Leaves Supervisor.CreatesRun c.next c.moment c'.moment :=
    Leaves.trans hres (.of_onward hyc) hfollows.past hyc.rely.past
  refine forall₃_congr fun e he ht => ?_
  rcases hleaves e (mem_since_of_serving h hs.toServing he ht) ht with ⟨run, hr⟩ | hsame
  · exact createRun_keeps_iff hr
  · refine iff_of_true hsame fun hf => ?_
    obtain ⟨run, hr, _⟩ := id hf
    exact (createRun_keeps_iff hr).mp hsame hf

/-- A call commits as its checks say. -/
theorem commits_served (h : Reachable c)
    (hs : daemon.Serves c (.admitPlan principal request) (.ticket (.error error)) c') :
    Commits principal request (heard c.next c'.history) := by
  refine hs.concludes (P := fun tr _ => Commits principal request tr) ?_
  rw [heard_fresh (discipline_sound.sound h).fresh]
  refine Program.Concludes.bind (Program.Concludes.mono admitPlan_concludes ?_)
  exact fun _ _ hcommits => hcommits

/-- A refused admission has left the store as it was exactly when one of the checks in front of the
first commit did not pass, or the run was not new. -/
theorem refusal_clean (h : Reachable c)
    (hs : daemon.Serves c (.admitPlan principal request) (.ticket (.error error)) c') :
    (∀ e ∈ c'.history, e.thread = c.next → e.after.store = e.before.store) ↔
      ¬ ((∃ grant profile plan,
          Cleared principal request grant profile plan c'.history c.next) ∧
        NewRun request c'.history c.next) := by
  rw [kept_iff h hs]
  rcases commits_served h hs with ⟨⟨grant, profile, plan, hpasses⟩, hcreated⟩ | ⟨hfails, hnone⟩
  · have hcleared := passes_iff_cleared.mp hpasses
    rw [← founds_iff_newRun hcreated]
    constructor
    · rintro hnot ⟨_, e, he, ht, hfounds⟩
      exact hnot e he ht hfounds
    · intro hnot e he ht hfounds
      exact hnot ⟨⟨grant, profile, plan, hcleared⟩, e, he, ht, hfounds⟩
  · refine iff_of_true (fun e he ht hfounds => ?_) fun h => ?_
    · obtain ⟨run, hr, _⟩ := hfounds
      have hcreates : Creates e.request := by
        rw [hr]
        trivial
      refine hnone ⟨e.request, some e.answer⟩ ?_ hcreates
      exact List.mem_map.mpr ⟨e, List.mem_filter.mpr ⟨he, decide_eq_true ht⟩, rfl⟩
    · obtain ⟨⟨grant, profile, plan, hcleared⟩, _⟩ := h
      exact hfails grant profile plan (passes_iff_cleared.mpr hcleared)

omit [Platform] in
open Bench in
set_option maxRecDepth 20000 in
/-- A pair that was taken over is refused in front of the first commit. -/
theorem refusal_clean_bench :
    let c' := called relapsed (.admitPlan agent ⟨r₄, a₄, g₁, p₁⟩) lost 60
    (∃ e ∈ c'.history, e.thread = (bench relapsed).next) ∧
      ∀ e ∈ c'.history, e.thread = (bench relapsed).next →
        (@Event.after (@surroundings Bench.platform) (@machine Bench.platform) e).store =
          e.before.store := by
  obtain ⟨hup, hrefused, hasked, hretired⟩ : (bench relapsed).booting.isNone = true ∧
      refused ((called relapsed (.admitPlan agent ⟨r₄, a₄, g₁, p₁⟩) lost 60).reply
        (bench relapsed).next) = true ∧
      (∃ e ∈ (called relapsed (.admitPlan agent ⟨r₄, a₄, g₁, p₁⟩) lost 60).history,
        e.thread = (bench relapsed).next) ∧
      ∀ e ∈ (called relapsed (.admitPlan agent ⟨r₄, a₄, g₁, p₁⟩) lost 60).history,
        e.thread = (bench relapsed).next →
          e.before.store.recoverySourceRetired (g₁, p₁) = true := by
    decide +kernel
  obtain ⟨error, hreply⟩ := exists_of_refused hrefused
  refine ⟨hasked, (@refusal_clean Bench.platform _ _ _ _ _ (bench_reachable _)
    (called_serves hup (by trivial) hreply)).mpr ?_⟩
  rintro ⟨⟨grant, profile, plan, hcleared⟩, _⟩
  obtain ⟨e, he, ht, _, _, hkept⟩ := hcleared.unretired
  rw [hretired e he ht] at hkept
  cases hkept

omit [Platform] in
open Bench in
set_option maxRecDepth 20000 in
/-- An admission is refused because another pair holds the hardware, and its run stays. -/
theorem refusal_leaves : ∃ error,
    (@daemon Bench.platform).Serves (bench uncertain) (.admitPlan agent ⟨r₃, a₃, g₂, p₂⟩)
      (.ticket (.error error)) (called uncertain (.admitPlan agent ⟨r₃, a₃, g₂, p₂⟩) lost 60) ∧
    (∀ run ∈ (bench uncertain).state.store.runs.rows, run.id ≠ r₃) ∧
    ∃ run ∈ (called uncertain (.admitPlan agent ⟨r₃, a₃, g₂, p₂⟩) lost
      60).state.store.runs.rows, run.id = r₃ := by
  obtain ⟨hup, hrefused, hbefore, hafter⟩ : (bench uncertain).booting.isNone = true ∧
      refused ((called uncertain (.admitPlan agent ⟨r₃, a₃, g₂, p₂⟩) lost 60).reply
        (bench uncertain).next) = true ∧
      (∀ run ∈ (bench uncertain).state.store.runs.rows, run.id ≠ r₃) ∧
      ∃ run ∈ (called uncertain (.admitPlan agent ⟨r₃, a₃, g₂, p₂⟩) lost
        60).state.store.runs.rows, run.id = r₃ := by
    decide +kernel
  obtain ⟨error, hreply⟩ := exists_of_refused hrefused
  exact ⟨error, called_serves hup (by trivial) hreply, hbefore, hafter⟩

end runs

end Cheirismos
