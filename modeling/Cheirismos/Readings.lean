import Cheirismos.Surveys

/-! # What the reading parts of the supervisor find out

The operations look around before they act: they load records, resolve artifacts, ask the
backend for a preflight, verify evidence and check interlocks.  Each such part only reads
(`Surveys`), and the theorems here say what a successful one has established.

Records that never change are given as they are now (`Sup.profile_surveys`,
`Sup.plan_surveys`); an attempt may have moved on since it was read, but its identity has not
(`Sup.attempt_surveys`).  `checkInterlocks_surveys` and `prepareDispatch_surveys` collect what
is known when the backend is called. -/

namespace Cheirismos

open Process

variable [Platform] {t : ℕ} {m : Moment machine}

/-! ### Loading -/

section loading

variable (hm : discipline.Inv m)

include hm

/-- Loading a record by its id. -/
theorem surveys_load {κ ρ : Type} [DecidableEq κ] {key : ρ → κ} {table : Store → Table key}
    {q : StoreCall} {id : κ} {e : SupervisorError} (hq : q.reads = true)
    {f : q.Output → Option ρ}
    (hfound : ∀ clock s output r, q.transact clock s = .ok (output, s) → f output = some r →
      (table s).find? id = some r)
    (hkeep : ∀ s s', Evolves s s' → ∀ r ∈ table s, r ∈ table s') :
    Surveys t m (Sup.store q >>= fun output => Sup.required (f output) e)
      (fun r z => r ∈ table z.state.store ∧ key r = id) := by
  refine .bind hm (.store hq hm) ?_
  rintro output y hy _ ⟨x, clock, _, _, hxy, hok⟩
  refine Surveys.required.weaken fun r z _ hyz hr => ?_
  obtain ⟨hmem, hid⟩ := Table.find?_eq_some.mp (hfound _ _ _ r hok hr)
  exact ⟨hkeep _ _ (hxy.trans hyz).evolves r hmem, hid⟩

theorem Sup.profile_surveys (id : ProfileId) :
    Surveys t m (Sup.profile id) (fun p z => p ∈ z.state.store.profiles ∧ p.id = id) := by
  refine surveys_load hm (q := .profile id) (f := fun o => o) rfl ?_
    (fun _ _ he => he.profiles)
  rintro clock s output r hok hr
  rw [← hr]
  exact (select_ok.mp hok).1

theorem Sup.plan_surveys (id : PlanId) :
    Surveys t m (Sup.plan id) (fun p z => p ∈ z.state.store.plans ∧ p.id = id) := by
  refine surveys_load hm (q := .plan id) (f := fun o => o) rfl ?_ (fun _ _ he => he.plans)
  rintro clock s output r hok hr
  rw [← hr]
  exact (select_ok.mp hok).1

/-- A grant may have been debited or revoked since it was read. -/
theorem Sup.grant_surveys (id : GrantId) :
    Surveys t m (Sup.grant id) (fun _ _ => True) :=
  .bind hm (.store (by rfl) hm) fun _ _ _ _ _ =>
    Surveys.required.weaken fun _ _ _ _ _ => trivial

/-- The cursor of a run may have moved since it was read. -/
theorem Sup.run_surveys (id : RequestId) :
    Surveys t m (Sup.run id) (fun r z => r.id = id ∧ ∃ r' ∈ z.state.store.runs, r.Continues r') := by
  refine .bind hm (.store (q := .run id) rfl hm) ?_
  rintro output y _ _ ⟨x, clock, _, _, hxy, hok⟩
  refine Surveys.required.weaken fun r z _ hyz hr => ?_
  have hfound : x.state.store.runs.find? id = some r := by
    rw [← hr]
    exact (select_ok.mp hok).1
  obtain ⟨hmem, hid⟩ := Table.find?_eq_some.mp hfound
  exact ⟨hid, (hxy.trans hyz).evolves.runs r hmem⟩

/-- An attempt may have changed its state since it was read. -/
theorem Sup.attempt_surveys (id : AttemptId) :
    Surveys t m (Sup.attempt id) (fun a z => a.id = id ∧
      ∃ b, z.state.store.Attempt b ∧ b.identity = a.identity) := by
  refine .bind hm (.store (q := .attempt id) rfl hm) ?_
  rintro output y _ _ ⟨x, clock, hx, _, hxy, hok⟩
  refine Surveys.required.weaken fun a z _ hyz ha => ?_
  have hload : x.state.store.loadAttempt id = some a := by
    rw [← ha]
    exact (select_ok.mp hok).1
  obtain ⟨hatt, hid⟩ := (History.good hx).regular.coherent.loadAttempt_eq_some.mp hload
  obtain ⟨b, hb, hc⟩ := (hxy.trans hyz).evolves.attempts a hatt
  exact ⟨hid, b, hb, hc.identity⟩

end loading

/-! ### Artifacts and preflights -/

section preflights

theorem Sup.resolve_surveys (hm : discipline.Inv m) (digest : ArtifactDigest) :
    Surveys t m (Sup.resolve digest) (fun _ _ => True) := by
  refine .bind hm (.ask (r := .resolve digest) trivial) ?_
  rintro (e | artifact) _ _ _ _
  · exact .throw
  · exact .pure fun _ _ _ => trivial

theorem resolveAll_surveys (hm : discipline.Inv m) (digests : List ArtifactDigest) :
    Surveys t m (Supervisor.resolveAll digests) (fun _ _ => True) := by
  induction digests generalizing m with
  | nil => exact .pure fun _ _ _ => trivial
  | cons digest digests ih =>
      exact .bind hm (Sup.resolve_surveys hm digest) fun _ _ hy _ _ => ih hy

theorem preflight_surveys (hm : discipline.Inv m) (operation : Operation)
    (profile : CommissionedProfile) :
    Surveys t m (Supervisor.preflight operation profile) (fun _ z => ∃ choice before,
      (⟨t, .preflight operation profile, choice, before⟩ : Event machine) ∈ since m z ∧
        choice.preflight = .ok ()) := by
  refine .bind hm (.ask (r := .preflight operation profile) trivial) ?_
  rintro (e | u) y _ _ ⟨x, i, _, hmx, hxy, he, hv⟩
  · exact .throw
  · exact .pure fun z _ hz => ⟨i, x.state, hmx.since_right (hxy.trans hz) (hxy.since_left hz he),
      hv.symm⟩

theorem preflightOperations_surveys (hm : discipline.Inv m) (grant : Grant)
    (profile : CommissionedProfile) (plan : ReviewedPlan) (operations : List PlannedOperation) :
    Surveys t m (Supervisor.preflightOperations grant profile plan operations)
      (fun _ z => ∀ planned ∈ operations, Authorized grant profile plan planned ∧
        ∃ choice before, (⟨t, .preflight planned.operation profile, choice, before⟩ :
          Event machine) ∈ since m z ∧ choice.preflight = .ok ()) := by
  induction operations generalizing m with
  | nil => exact .pure fun _ _ _ _ hp => absurd hp List.not_mem_nil
  | cons planned rest ih =>
      refine .bind hm (.check (P := fun _ _ => Authorized grant profile plan planned)
        fun _ h _ _ _ => authorize_ok h) ?_
      intro _ y hy hmy hauth
      refine .bind hy (resolveAll_surveys hy _) fun _ z hz hyz _ => ?_
      refine .bind hz (preflight_surveys hz _ _) ?_
      rintro _ w hw hzw ⟨choice, before, he, hok⟩
      refine (ih hw).weaken fun _ v _ hwv hrest => ?_
      have hmz := hmy.trans hyz
      refine List.forall_mem_cons.mpr ⟨⟨hauth, choice, before, ?_, hok⟩, fun q hq => ?_⟩
      · exact hmz.since_right (hzw.trans hwv) (hzw.since_left hwv he)
      · obtain ⟨hauth', choice', before', he', hok'⟩ := hrest q hq
        exact ⟨hauth', choice', before', (hmz.trans hzw).since_right hwv he', hok'⟩

theorem preflightPlan_surveys (hm : discipline.Inv m) (grant : Grant)
    (profile : CommissionedProfile) (plan : ReviewedPlan) :
    Surveys t m (Supervisor.preflightPlan grant profile plan)
      (fun _ z => Preflighted (since m z) grant profile plan) := by
  refine .bind hm (.check (P := fun _ _ => validatePlan profile plan = .ok ())
    fun _ h _ _ _ => h) ?_
  intro _ y hy hmy hvalid
  refine .bind hy (resolveAll_surveys hy _) fun _ z hz hyz _ => ?_
  refine (preflightOperations_surveys hz ..).weaken fun _ w _ hzw hall => ⟨hvalid, fun q hq => ?_⟩
  obtain ⟨hauth, choice, before, he, hok⟩ := hall q hq
  exact ⟨hauth, t, choice, before, (hmy.trans hyz).since_right hzw he, hok⟩

theorem Sup.now_surveys : Surveys t m Sup.now (fun now z => ∃ t' choice before,
    (⟨t', .now, choice, before⟩ : Event machine) ∈ since m z ∧ now = choice.clock 0) := by
  refine (Surveys.ask (r := .now) trivial).weaken ?_
  rintro now z _ _ ⟨y, i, _, hmy, _, he, hv⟩
  exact ⟨t, i, y.state, hmy.since_right ‹_› he, hv⟩

end preflights

/-! ### Evidence -/

theorem verifyEnvelope_surveys (hm : discipline.Inv m) (attempt : AttemptId)
    (challenge : ArtifactDigest) (phase : EvidencePhase) (observation : Observation)
    (lacking unbound : String) :
    Surveys t m (verifyEnvelope attempt challenge phase observation lacking unbound)
      (fun _ z => Verified (since m z) attempt challenge phase observation) := by
  refine .bind hm .required fun digest y₁ hy₁ h₁ hdigest => ?_
  have hsource : Surveys t y₁ (Sup.verifySource digest (.attempt attempt)) (fun artifact z =>
      ∃ choice before,
        (⟨t, .verifySource digest (.attempt attempt), choice, before⟩ : Event machine) ∈
          since m z ∧
        before.artifacts.verifySource choice.evidenceFault digest (.attempt attempt) =
          .ok artifact) := by
    refine .bind hy₁ (.ask (r := .verifySource digest (.attempt attempt)) trivial) ?_
    rintro (e | artifact) y hy hoy ⟨x, i, _, hox, hxy, he, hv⟩
    · exact .throw
    · refine .pure fun z _ hz => ⟨i, x.state, ?_, hv.symm⟩
      exact (h₁.trans hox).since_right (hxy.trans hz) (hxy.since_left hz he)
  refine .bind hy₁ hsource ?_
  rintro artifact y₂ hy₂ h₂ ⟨choice, before, he, hverify⟩
  cases hdecode : Platform.decodeEnvelope artifact.bytes with
  | error e => exact .bind (P := fun _ _ => False) hy₂ .throw fun _ _ _ _ h => h.elim
  | ok envelope =>
      refine .bind (P := fun v _ => v = envelope) hy₂ (.pure fun _ _ _ => rfl) ?_
      rintro _ y₃ hy₃ h₃ rfl
      refine Surveys.refuse.weaken fun _ z _ hz hbinds => ?_
      exact ⟨digest, artifact, _, t, choice, before, hdigest,
        (h₁.trans h₂).since_left (h₃.trans hz) he, hverify, hdecode, not_not.mp hbinds⟩

theorem verifyReceiptEvidence_surveys (hm : discipline.Inv m) (attempt : AttemptId)
    (dispatch : DispatchRequest) (receipt : OperationReceipt) :
    Surveys t m (Supervisor.verifyReceiptEvidence attempt dispatch receipt)
      (fun r z => r = receipt ∧ ∀ observation, receipt.observation = some observation →
        Verified (since m z) attempt dispatch.evidenceChallenge dispatch.evidencePhase
          observation) := by
  unfold Supervisor.verifyReceiptEvidence
  cases hobs : receipt.observation with
  | none => exact .pure fun _ _ _ => ⟨rfl, fun _ h => by cases h⟩
  | some observation =>
      refine .bind hm (verifyEnvelope_surveys hm ..) fun _ y _ hmy hv => ?_
      refine .pure fun z _ hz => ⟨rfl, fun o ho => ?_⟩
      cases ho
      exact hv.mono fun e he => hmy.since_left hz he

omit [Platform] in
/-- The receipt taken for an attempt's completion completes it. -/
theorem completing_of_receipt {s : Store} (hc : s.Coherent) {a : AttemptRecord}
    {challenge : ArtifactDigest} {phase : EvidencePhase} {observation : Observation}
    (h : completingReceipt a (s.reconciliationHistory a.id) =
      (some (.completed observation), challenge, phase)) :
    Completing s a challenge phase observation := by
  unfold completingReceipt at h
  split at h
  · next r hf =>
      simp only [Prod.mk.injEq] at h
      obtain ⟨h1, h2, h3⟩ := h
      have hmem := hc.mem_reconciliationHistory.mp
        (List.mem_reverse.mp (List.mem_of_find?_eq_some hf))
      have hstate : r.state = .completed := by simpa using List.find?_some hf
      exact Or.inr ⟨r, hmem.1, hmem.2, hstate, h1, h2.symm, h3.symm⟩
  · simp only [Prod.mk.injEq] at h
    obtain ⟨h1, h2, h3⟩ := h
    exact Or.inl ⟨h1, h2.symm, h3.symm⟩

theorem completedObservation_surveys (hm : discipline.Inv m) (a : AttemptRecord) :
    Surveys t m (completedObservation a) (fun observation z => ∃ challenge phase,
      Completing z.state.store a challenge phase observation ∧
        Verified (since m z) a.id challenge phase observation) := by
  refine .bind hm (.store (q := .reconciliationHistory a.id) rfl hm) ?_
  rintro history y hy hmy ⟨x, clock, hx, _, hxy, hok⟩
  obtain rfl : x.state.store.reconciliationHistory a.id = history := (select_ok.mp hok).1
  rcases hres : completingReceipt a (x.state.store.reconciliationHistory a.id) with
    ⟨receipt, challenge, phase⟩
  simp only
  split
  · next observation =>
      have hcomp := completing_of_receipt (History.good hx).regular.coherent hres
      refine .bind hy (verifyEnvelope_surveys hy ..) fun _ z _ hyz hv => ?_
      refine .pure fun w _ hzw => ⟨challenge, phase, ?_, ?_⟩
      · exact hcomp.evolve (hxy.trans (hyz.trans hzw)).evolves
      · exact hv.mono fun e he => hmy.since_right (hyz.trans hzw) (hyz.since_left hzw he)
  · exact .throw

/-! ### Interlocks -/

theorem checkInterlock_surveys (hm : discipline.Inv m) (attempt : AttemptRecord)
    (plan : ReviewedPlan) (interlock : LiveInterlock) :
    Surveys t m (checkInterlock attempt plan interlock)
      (fun expiry z => Gate (since m z) z.state.store attempt plan interlock expiry) := by
  refine .bind hm (.check (P := fun index _ =>
    observationStep plan.operations interlock attempt.operationIndex = .ok index)
    fun _ h _ _ _ => h) ?_
  intro index y₁ hy₁ h₁ hstep
  refine .bind hy₁ (.store (q := .attemptAtStep attempt.pair index) rfl hy₁) ?_
  rintro witness? y₂ hy₂ h₂ ⟨x, clock, hx, _, hxy, hok⟩
  refine .bind hy₂ .required ?_
  rintro witness y₃ hy₃ h₃ rfl
  have hread : x.state.store.Attempt witness ∧ witness.pair = attempt.pair ∧
      witness.operationIndex = index := by
    obtain ⟨column, x', hlift, hsel⟩ := Tx.bind_ok.mp hok
    obtain ⟨hcolumn, rfl⟩ := Tx.liftExcept_ok.mp hlift
    rw [sqliteIndex, sqliteUnsigned_ok] at hcolumn
    obtain ⟨h1, h2, h3⟩ :=
      (History.good hx).regular.coherent.attemptAtStep_some (select_ok.mp hsel).1
    exact ⟨h1, h2, by omega⟩
  refine .bind hy₃ .refuse fun _ y₄ hy₄ h₄ hdone => ?_
  push Not at hdone
  refine .bind hy₄ (completedObservation_surveys hy₄ witness) ?_
  rintro observation y₅ hy₅ h₅ ⟨challenge, phase, hcomp, hver⟩
  refine .bind hy₅ .required fun captured y₆ hy₆ h₆ hcaptured => ?_
  refine .bind hy₆ Sup.now_surveys ?_
  rintro now y₇ hy₇ h₇ ⟨t', choice, before, he, rfl⟩
  refine .bind hy₇ .required fun age y₈ hy₈ h₈ hage => ?_
  refine .bind hy₈ .required fun planned y₉ hy₉ h₉ hplanned => ?_
  have hm₅ : Onward t m y₅ := h₁.trans (h₂.trans (h₃.trans (h₄.trans h₅)))
  have h₅₉ : Onward t y₅ y₉ := h₆.trans (h₇.trans (h₈.trans h₉))
  cases hvalid : validateInterlockObservation interlock planned.operation observation age with
  | error e => exact .throw
  | ok u =>
      refine .check fun expiry hexpiry z _ h₉z => ?_
      have h₅z := h₅₉.trans h₉z
      refine ⟨index, witness, observation, captured, age, hstep, ?_, hread.2.1, hread.2.2,
        hdone.1, ⟨challenge, phase, hcomp.evolve h₅z.evolves, ?_⟩, hcaptured,
        ⟨t', choice, before, ?_, hage⟩, ⟨planned, hplanned, hvalid⟩, hexpiry⟩
      · exact (hxy.trans (h₃.trans (h₄.trans (h₅.trans h₅z)))).evolves.settled hread.1
          (Or.inl hdone.1)
      · refine hver.mono fun e he => ?_
        exact (h₁.trans (h₂.trans (h₃.trans h₄))).since_right (h₅.trans h₅z)
          (h₅.since_left h₅z he)
      · have h₇z := h₈.trans (h₉.trans h₉z)
        exact (hm₅.trans h₆).since_right (h₇.trans h₇z) (h₇.since_left h₇z he)

/-- The earliest of an expiry that may be there and of more expiries. -/
def earliest (first : Option Timestamp) (expiries : List Timestamp) : Option Timestamp :=
  match first with
  | none => expiries.min?
  | some expiry => some (expiries.foldl min expiry)

omit [Platform] in
theorem earliest_cons (first : Option Timestamp) (expiry : Timestamp)
    (expiries : List Timestamp) : earliest first (expiry :: expiries) =
      earliest (some (match first with
        | none => expiry
        | some previous => min previous expiry)) expiries := by
  cases first with
  | none => rfl
  | some previous => rfl

theorem checkInterlocks_surveys (hm : discipline.Inv m) (attempt : AttemptRecord)
    (plan : ReviewedPlan) (operation : Operation) (interlocks : List LiveInterlock)
    (first : Option Timestamp) :
    Surveys t m (checkInterlocks attempt plan operation interlocks first) (fun validUntil z =>
      ∃ expiries, List.Forall₂ (Gate (since m z) z.state.store attempt plan)
          (interlocks.filter (fun interlock => interlock.Gates operation)) expiries ∧
        validUntil = earliest first expiries) := by
  induction interlocks generalizing m first with
  | nil =>
      refine .pure fun _ _ _ => ⟨[], .nil, ?_⟩
      cases first <;> rfl
  | cons interlock interlocks ih =>
      unfold checkInterlocks
      by_cases hgates : interlock.Gates operation
      · rw [if_pos hgates, List.filter_cons_of_pos (by simpa using hgates)]
        refine .bind hm (checkInterlock_surveys hm ..) fun expiry y hy hmy hgate => ?_
        refine (ih hy _).weaken ?_
        rintro validUntil z _ hyz ⟨expiries, hall, rfl⟩
        refine ⟨expiry :: expiries, .cons ?_ (hall.imp fun _ _ h => ?_), ?_⟩
        · exact hgate.mono (fun e he => hmy.since_left hyz he) hyz.evolves
        · exact h.mono (fun e he => hmy.since_right hyz he) (.refl _)
        · exact (earliest_cons first expiry expiries).symm
      · rw [if_neg hgates, List.filter_cons_of_neg (by simpa using hgates)]
        exact ih hm first

theorem checkLiveInterlocks_surveys (hm : discipline.Inv m) (attempt : AttemptRecord)
    (profile : CommissionedProfile) (plan : ReviewedPlan) {planned : PlannedOperation}
    (hp : plan.operations[attempt.operationIndex]? = some planned) :
    Surveys t m (checkLiveInterlocks attempt profile plan) (fun validUntil z =>
      ∃ expiries, List.Forall₂ (Gate (since m z) z.state.store attempt plan)
          (profile.liveInterlocks.filter (fun interlock => interlock.Gates planned.operation))
          expiries ∧
        validUntil = expiries.min?) := by
  refine .bind hm .required fun planned' y hy hmy hp' => ?_
  obtain rfl := Option.some.inj (hp.symm.trans hp')
  refine (checkInterlocks_surveys hy ..).weaken ?_
  rintro validUntil z _ hyz ⟨expiries, hall, rfl⟩
  exact ⟨expiries, hall.imp fun _ _ h => h.mono (fun e he => hmy.since_right hyz he) (.refl _), rfl⟩

/-! ### Preparing a dispatch -/

/-- What the preparation of a claimed dispatch has established. -/
structure Prepared (m : Moment machine) (claimed : ClaimedDispatch) (dispatch : DispatchRequest)
    (z : Moment machine) (planned : PlannedOperation) (expiries : List Timestamp) : Prop where
  step : claimed.plan.operations[claimed.attempt.operationIndex]? = some planned
  authorized : Authorized claimed.grant claimed.profile claimed.plan planned
  preflighted : claimed.attempt.operationIndex = 0 →
    Preflighted (since m z) claimed.grant claimed.profile claimed.plan
  content : dispatch =
    { Supervisor.dispatchRequest claimed.attempt.id planned claimed.profile
        claimed.attempt.evidenceChallenge .execution true with
      interlocksValidUntil := expiries.min? }
  gated : List.Forall₂ (Gate (since m z) z.state.store claimed.attempt claimed.plan)
    (claimed.profile.liveInterlocks.filter (fun interlock => interlock.Gates planned.operation))
    expiries

theorem dispatchFromSnapshot_ok {claimed : ClaimedDispatch} {phase : EvidencePhase}
    {dispatch : DispatchRequest}
    (h : Supervisor.dispatchFromSnapshot claimed phase = .ok dispatch) :
    ∃ planned, claimed.plan.operations[claimed.attempt.operationIndex]? = some planned ∧
      Authorized claimed.grant claimed.profile claimed.plan planned ∧
      dispatch = Supervisor.dispatchRequest claimed.attempt.id planned claimed.profile
        claimed.attempt.evidenceChallenge phase true := by
  unfold Supervisor.dispatchFromSnapshot at h
  split at h
  · cases h
  · next planned hp =>
      obtain ⟨_, hauth, hd⟩ := except_bind_ok.mp h
      cases hd
      exact ⟨planned, hp, authorize_ok hauth, rfl⟩

theorem prepareDispatch_surveys (hm : discipline.Inv m) (claimed : ClaimedDispatch) :
    Surveys t m (Supervisor.prepareDispatch claimed) (fun dispatch z =>
      ∃ planned expiries, Prepared m claimed dispatch z planned expiries) := by
  have hrest : ∀ y, discipline.Inv y → Onward t m y → (claimed.attempt.operationIndex = 0 →
      Preflighted (since m y) claimed.grant claimed.profile claimed.plan) → Surveys t y (do
      let dispatch ← Sup.check (Supervisor.dispatchFromSnapshot claimed .execution)
      let validUntil ← checkLiveInterlocks claimed.attempt claimed.profile claimed.plan
      return { dispatch with interlocksValidUntil := validUntil }) (fun dispatch z =>
        ∃ planned expiries, Prepared m claimed dispatch z planned expiries) := by
    intro y hy hmy hpre
    refine .bind hy (.check (P := fun dispatch _ =>
      Supervisor.dispatchFromSnapshot claimed .execution = .ok dispatch) fun _ h _ _ _ => h) ?_
    intro dispatch y₁ hy₁ h₁ hd
    obtain ⟨planned, hp, hauth, rfl⟩ := dispatchFromSnapshot_ok hd
    refine .bind hy₁ (checkLiveInterlocks_surveys hy₁ _ _ _ hp) ?_
    rintro validUntil y₂ _ h₂ ⟨expiries, hall, rfl⟩
    refine .pure fun z _ h₃ => ⟨planned, expiries, hp, hauth, fun h0 => ?_, rfl,
      hall.imp fun _ _ h => ?_⟩
    · exact (hpre h0).mono fun e he => hmy.since_left (h₁.trans (h₂.trans h₃)) he
    exact h.mono (fun e he => (hmy.trans h₁).since_right (h₂.trans h₃) (h₂.since_left h₃ he))
      h₃.evolves
  unfold Supervisor.prepareDispatch
  split_ifs with h0
  · exact .bind hm (preflightPlan_surveys hm ..) fun _ y hy hmy hpre => hrest y hy hmy fun _ => hpre
  · exact hrest m hm (.refl t m) fun h => absurd h h0

end Cheirismos
