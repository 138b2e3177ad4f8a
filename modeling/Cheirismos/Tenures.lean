import Cheirismos.Answers
import Cheirismos.Exclusion
import Cheirismos.Transitions

/-! # Who has an instrument

A call of the backend carries a dispatch, and the dispatch is that of an attempt: it asks for the
reviewed operation of the attempt's step and expects the instruments of the profile whose resources
the attempt has leased (`Carries`).  `Reachable.carried` says so of every call in every run, and
`Reachable.carrying` of a call that is still to be made, by a thread that waits for its answer.

The thread that waits has claimed the use, and the use is under way.  `Use.Latest` says that no use
of a resource has been claimed since this one: it holds of a use that is under way, and as long as
it holds nobody waits for the backend with that resource (`Use.Latest.alone`). -/

namespace Cheirismos

open Process

variable [Platform]

/-! ### What a call carries -/

/-- The dispatch that a call of the backend carries, and whether it is to be reconciled. -/
def Request.dispatched : Request → Option (DispatchRequest × Bool)
  | .execute dispatch => some (dispatch, false)
  | .reconcile _ reconciliation => some (reconciliation.dispatch, true)
  | _ => none

/-- The dispatch is that of the attempt: its instruments are those the attempt has leased, and its
operation is the reviewed one. -/
structure Carries (s : Store) (a : AttemptRecord) (dispatch : DispatchRequest) : Prop where
  resources : ∃ profile : CommissionedProfile, profile.physicalResources = a.leasedResources ∧
    dispatch.expectedInstrumentPhysicalIdentities =
      profile.instruments.mapValues InstrumentBinding.physicalIdentity
  operation : ∃ plan ∈ s.plans, plan.id = a.plan ∧ ∃ planned,
    plan.operations[a.operationIndex]? = some planned ∧ dispatch.operation = planned.operation

section carries

variable {s s' : Store} {a b : AttemptRecord} {dispatch : DispatchRequest}

omit [Platform] in
theorem Carries.evolve (h : Carries s a dispatch) (he : Evolves s s')
    (hid : b.identity = a.identity) : Carries s' b dispatch where
  resources := by
    obtain ⟨profile, hresources, hexpected⟩ := h.resources
    exact ⟨profile, hresources.trans (congrArg AttemptIdentity.leasedResources hid).symm, hexpected⟩
  operation := by
    obtain ⟨plan, hm, hplan, planned, hstep, hop⟩ := h.operation
    refine ⟨plan, he.plans _ hm, hplan.trans (AttemptRecord.plan_eq hid).symm, planned, ?_, hop⟩
    rw [AttemptRecord.index_eq hid]
    exact hstep

omit [Platform] in
/-- An instrument that the dispatch expects is leased. -/
theorem Carries.leaseKey (h : Carries s a dispatch) {instrument : InstrumentId}
    {identity : ArtifactDigest}
    (hid : dispatch.expectedInstrumentPhysicalIdentities.get? instrument = some identity) :
    a.LeaseKey (PhysicalResource.instrument identity).key := by
  obtain ⟨profile, hresources, hexpected⟩ := h.resources
  rw [hexpected, OrdMap.get?_mapValues, Option.map_eq_some_iff] at hid
  obtain ⟨binding, hbinding, rfl⟩ := hid
  refine ⟨_, ?_, rfl⟩
  rw [← hresources, CommissionedProfile.physicalResources, OrdSet.mem_ofList]
  refine List.mem_cons_of_mem _ (List.mem_cons_of_mem _ (List.mem_map.mpr ⟨binding, ?_, rfl⟩))
  exact List.mem_map.mpr ⟨_, OrdMap.get?_eq_some.mp hbinding, rfl⟩

omit [Platform] in
/-- The operation is that of the plan on record. -/
theorem Carries.planned (h : Carries s a dispatch) {plan : ReviewedPlan} (hm : plan ∈ s.plans)
    (hid : plan.id = a.plan) {planned : PlannedOperation}
    (hstep : plan.operations[a.operationIndex]? = some planned) :
    dispatch.operation = planned.operation := by
  obtain ⟨plan', hm', hid', planned', hstep', hop⟩ := h.operation
  obtain rfl := Store.plan_inj hm' hm (hid'.trans hid.symm)
  rw [hstep] at hstep'
  cases hstep'
  exact hop

/-- The attempt of a claimed reconciliation holds the resources of the profile on record. -/
theorem ClaimsReconciliation.resources (hg : s.Good) {now : Timestamp} {request : RequestId}
    {principal : PrincipalId} {granted : Grant} {claimed : ClaimedReconciliation}
    (h : ClaimsReconciliation s now request principal a granted claimed) :
    claimed.dispatch.profile.physicalResources = a.leasedResources := by
  obtain ⟨profile, hm, hid, _, hres⟩ := (hg.regular.admitted a h.attempt).profile
  obtain rfl := s.profiles.eq_of_key_eq h.profile.1 hm (h.profile.2.1.trans hid.symm)
  exact hres

/-- What the claim of a dispatch hands out is carried by the dispatch that is made of it. -/
theorem DispatchClaim.carries (c : DispatchClaim) (hg : c.before.store.Good)
    {planned : PlannedOperation} {challenge : ArtifactDigest} {phase : EvidencePhase}
    {configure : Bool} {expires : Option Timestamp}
    (hstep : c.claimed.plan.operations[c.claimed.attempt.operationIndex]? = some planned) :
    Carries c.event.after.store c.claimed.attempt
      { Supervisor.dispatchRequest c.claimed.attempt.id planned c.claimed.profile challenge phase
          configure with
        interlocksValidUntil := expires } := by
  obtain ⟨a, hc, _, _⟩ := c.spec hg
  obtain ⟨hplan, hpid⟩ := c.planned hg
  refine ⟨⟨c.claimed.profile, ?_, rfl⟩, ⟨_, hplan, hpid, planned, hstep, rfl⟩⟩
  exact (hc.resources hg).trans (congrArg AttemptIdentity.leasedResources hc.identity).symm

/-- The same of a reconciliation. -/
theorem WitnessClaim.carries (c : WitnessClaim) (hg : c.before.store.Good) {configure : Bool}
    (h : Supervisor.reconciliationDispatch c.claimed configure = .ok dispatch) :
    Carries c.event.after.store c.claimed.dispatch.attempt dispatch := by
  obtain ⟨hplan, hpid⟩ := c.planned hg
  have hresources : c.claimed.dispatch.profile.physicalResources =
      c.claimed.dispatch.attempt.leasedResources := by
    obtain ⟨a, granted, grants, reconciliations, _, hc, _, _, hres⟩ := c.spec hg
    rcases hres with ⟨_, hd, _⟩ | ⟨_, hd, _⟩ <;> rw [hd] <;> exact hc.resources hg
  unfold Supervisor.reconciliationDispatch at h
  split at h
  · cases h
  · next planned hstep =>
      obtain ⟨_, _, h⟩ := except_bind_ok.mp h
      cases h
      exact ⟨⟨_, hresources, rfl⟩, ⟨_, hplan, hpid, planned, hstep, rfl⟩⟩

end carries

/-! ### Every call -/

section calls

variable {c : daemon.Config} {e : Event machine} {older : List (Event machine)}

/-- What a thread was told of a claim, as a claim in the history. -/
theorem claim_of_heard {t : ℕ} {past : List (Event machine)} {attempt : AttemptId}
    {request : RequestId} {principal : PrincipalId} {budget : Option Budget}
    {claimed : ClaimedReconciliation}
    (h : (⟨.store (.claimReconciliation attempt request principal budget),
      some (.ok (.claimed claimed))⟩ : Exchange surroundings) ∈ heard t past) :
    ∃ c : WitnessClaim, c.In past ∧ c.request = request ∧ c.claimed = claimed := by
  obtain ⟨⟨t', r, i, w⟩, he, _, hx⟩ := mem_heard h
  obtain ⟨base, hin⟩ := exists_suffix_of_mem he
  obtain ⟨hr, ha⟩ := Exchange.mk.inj hx
  subst hr
  have hanswer := Option.some.inj (eq_of_heq ha)
  exact ⟨⟨t', attempt, request, principal, budget, i, w, base, claimed, hanswer.symm⟩, hin, rfl,
    rfl⟩

theorem Reachable.carried_execute (h : Reachable c) (he : (e :: older) <:+ c.history)
    {dispatch : DispatchRequest} (hr : e.request = .execute dispatch) {a : AttemptRecord}
    (hb : e.before.store.Busy (.dispatch dispatch.attempt) a) :
    Carries e.before.store a dispatch := by
  have hist := h.history
  have hbefore := hist.before he
  obtain ⟨claim, since, planned, expiries, hd⟩ := hist.dispatchable he hr
  have hin : claim.In older := ⟨since, hd.past.symm⟩
  obtain ⟨hid, _, _⟩ := hd.attempt_eq hbefore
  obtain rfl := Store.attempt_inj hb.attempt hd.held (hb.2.1.trans hid)
  rw [hd.content]
  exact (claim.carries (hbefore.good_before hin) hd.step).evolve (hbefore.evolves hin) rfl

theorem Reachable.carried_reconcile (h : Reachable c) (he : (e :: older) <:+ c.history)
    {request : RequestId} {reconciliation : ReconciliationRequest}
    (hr : e.request = .reconcile request reconciliation) {a : AttemptRecord}
    (hb : e.before.store.Busy (.reconciliation request) a) :
    Carries e.before.store a reconciliation.dispatch := by
  have hbefore := h.history.before he
  have hsupported := h.supported he
  rw [hr] at hsupported
  obtain ⟨attempt, principal, budget, claimed, configure, hheard, hdispatch⟩ := hsupported
  obtain ⟨claim, hin, hreq, rfl⟩ := claim_of_heard hheard
  have hg := hbefore.good_before hin
  have hevo : Evolves claim.event.after.store e.before.store := hbefore.evolves hin
  -- the witness and its attempt are still those of the claim
  obtain ⟨hwit, hwreq, hatt, hid⟩ := claim.after hg
  obtain ⟨hbatt, r, hrec, hrreq, _, haid⟩ := hb
  obtain ⟨r', hr', hcont⟩ := hevo.witnesses _ hwit
  obtain rfl := Store.witness_inj hr' hrec
    (hcont.request.trans (hwreq.trans (hreq.trans hrreq.symm)))
  obtain ⟨a', ha', hac⟩ := hevo.attempts _ hatt
  obtain rfl := Store.attempt_inj ha' hbatt
    ((AttemptRecord.id_eq hac.identity).trans (hid.trans (hcont.attempt.symm.trans haid.symm)))
  exact (claim.carries hg hdispatch).evolve hevo hac.identity

/-- Every call of the backend is for a use that is under way, and carries its attempt's dispatch. -/
theorem Reachable.carried (h : Reachable c) (he : (e :: older) <:+ c.history)
    {dispatch : DispatchRequest} {reconcile : Bool}
    (hr : e.request.dispatched = some (dispatch, reconcile)) :
    ∃ u a, u.Calls e ∧ e.before.store.Busy u a ∧ Carries e.before.store a dispatch := by
  cases hreq : e.request with
  | execute dispatch' =>
      rw [hreq] at hr
      cases hr
      have hcalls : (Use.dispatch dispatch.attempt).Calls e := ⟨dispatch, hreq, rfl⟩
      obtain ⟨a, hb⟩ := h.busy he hcalls
      exact ⟨_, a, hcalls, hb, h.carried_execute he hreq hb⟩
  | reconcile request reconciliation =>
      rw [hreq] at hr
      cases hr
      have hcalls : (Use.reconciliation request).Calls e := ⟨reconciliation, hreq⟩
      obtain ⟨a, hb⟩ := h.busy he hcalls
      exact ⟨_, a, hcalls, hb, h.carried_reconcile he hreq hb⟩
  | _ =>
      rw [hreq] at hr
      cases hr

omit [Platform] in
/-- Something that the surroundings can choose. -/
theorem exists_choice : Nonempty Choice :=
  ⟨⟨fun _ => ⟨0, by decide, by decide⟩, none, none, .ok (), .error (.timeout "")⟩⟩

/-- A thread that waits for the backend has claimed a use that is under way, and the call of the
use is still to be made. -/
theorem Reachable.carrying (h : Reachable c) {t : ℕ} {r : Request}
    {k : surroundings.Answer r → Program surroundings Reply} (ht : c.threads t = some (.ask r k))
    {dispatch : DispatchRequest} {reconcile : Bool}
    (hr : r.dispatched = some (dispatch, reconcile)) :
    ∃ u a claim base, c.state.store.Busy u a ∧ Carries c.state.store a dispatch ∧
      (claim :: base) <:+ c.history ∧ claim.thread = t ∧ u.Claims claim base ∧
      ∀ e ∈ c.history, ¬ u.Calls e := by
  obtain ⟨i⟩ := exists_choice
  -- what the history will be when the call has been made
  have hnext : Reachable { c with
      state := (machine.perform r i c.state).2
      history := ⟨t, r, i, c.state⟩ :: c.history
      threads := Function.update c.threads t (some (k (machine.perform r i c.state).1)) } :=
    Process.Service.Reachable.step h (.act i ht)
  have hin : ((⟨t, r, i, c.state⟩ : Event machine) :: c.history) <:+
      (⟨t, r, i, c.state⟩ :: c.history : List (Event machine)) := List.suffix_rfl
  obtain ⟨u, a, hcalls, hb, hcarries⟩ := hnext.carried hin hr
  obtain ⟨since, claim, base, hpast, hthread, hclaims, _⟩ := hcalls.claimed hnext.history hin
  refine ⟨u, a, claim, base, hb, hcarries, ⟨since, hpast.symm⟩, hthread, hclaims, ?_⟩
  exact Use.calls_once hnext.history u _ _ hin hcalls

end calls

/-! ### How an attempt was completed -/

/-- The call records that the use has achieved its effect. -/
inductive StoreCall.Completes : StoreCall → Use → Prop
  | receipt (id : AttemptId) (observation : Observation) (release : Bool) :
      Completes (.recordReceipt id (.completed observation) release) (.dispatch id)
  | finding (request : RequestId) (receipt : Option OperationReceipt) (release : Bool) :
      Completes (.finishReconciliation request receipt true release) (.reconciliation request)

/-- An attempt that is completed after a call was so before, or the call records that a use of the
attempt has achieved it. -/
theorem Change.completes {s s' : Store} {call : StoreCall} (hg : s.Good) (h : Change s call s')
    {a : AttemptRecord} (ha : s'.Attempt a) (hstate : a.state = .completed) :
    s.Attempt a ∨ ∃ u b, call.Completes u ∧ s.Busy u b ∧ b.identity = a.identity := by
  rcases h.attempt hg ha with ⟨b, hb, hbec⟩ | ⟨_, harr⟩
  · cases hbec with
    | kept => exact Or.inl hb
    | dispatched claims =>
        rw [claims.dispatched] at hstate
        cases hstate
    | receipted dispatched =>
        obtain ⟨o, rfl⟩ := OperationReceipt.state_completed_iff.mp hstate
        exact Or.inr ⟨_, b, .receipt _ o _, ⟨hb, rfl, dispatched⟩, (receipted_identity _ _ b).symm⟩
    | abandoned _ _ => cases hstate
    | reopened _ => cases hstate
    | completed witness claimed subject _ =>
        exact Or.inr ⟨_, b, .finding _ _ _, ⟨hb, _, witness, rfl, claimed, subject⟩,
          (completed_identity _ b).symm⟩
    | interrupted _ => cases hstate
  · rw [harr.intent.1] at hstate
    cases hstate

/-- A call of the backend for the use was answered with a completed operation. -/
structure Use.Achieved (u : Use) (e : Event machine) : Prop where
  calls : u.Calls e
  answer : ∃ observation, e.choice.receipt = .ok (.completed observation)

section completions

variable {c : daemon.Config} {x e : Event machine} {mid older : List (Event machine)} {u : Use}
  {call : StoreCall}

/-- Whoever records that a use has achieved its effect was told so by the backend. -/
theorem Reachable.achieved (h : Reachable c) (hx : (x :: mid) <:+ c.history)
    (hr : x.request = .store call) (hc : call.Completes u) : ∃ e ∈ mid, u.Achieved e := by
  have hs := h.supported hx
  rw [hr] at hs
  cases hc with
  | receipt id observation release =>
      obtain ⟨dispatch, rfl, hheard⟩ := hs observation rfl
      obtain ⟨⟨t, r, i, w⟩, he, _, hexchange⟩ := mem_heard hheard
      obtain ⟨hreq, hanswer⟩ := Exchange.mk.inj hexchange
      subst hreq
      exact ⟨_, he, ⟨dispatch, rfl, rfl⟩, observation, (Option.some.inj (eq_of_heq hanswer)).symm⟩
  | finding request receipt release =>
      obtain ⟨observation, reconciliation, rfl, hheard⟩ := hs rfl
      obtain ⟨⟨t, r, i, w⟩, he, _, hexchange⟩ := mem_heard hheard
      obtain ⟨hreq, hanswer⟩ := Exchange.mk.inj hexchange
      subst hreq
      exact ⟨_, he, ⟨reconciliation, rfl⟩, observation, (Option.some.inj (eq_of_heq hanswer)).symm⟩

/-- A completed attempt had a use, and the backend has answered its call that it was achieved. -/
theorem Reachable.completed (h : Reachable c) {a : AttemptRecord} (ha : c.state.store.Attempt a)
    (hstate : a.state = .completed) : ∃ u e older b, (e :: older) <:+ c.history ∧ u.Achieved e ∧
      e.before.store.Busy u b ∧ b.identity = a.identity := by
  have hfrom : ∃ x mid call u b, (x :: mid) <:+ c.history ∧ x.request = .store call ∧
      call.Completes u ∧ x.before.store.Busy u b ∧ b.identity = a.identity := by
    revert a
    refine History.keeps (P := fun past s => ∀ {a : AttemptRecord}, s.Attempt a →
      a.state = .completed → ∃ x mid call u b, (x :: mid) <:+ past ∧ x.request = .store call ∧
        call.Completes u ∧ x.before.store.Busy u b ∧ b.identity = a.identity) ?_ ?_ ?_ h.history
    · exact fun ha _ => (Table.not_mem_empty _ ha).elim
    · intro e older s hold a ha hstate
      obtain ⟨x, mid, call, u, b, hx, hrest⟩ := hold ha hstate
      exact ⟨x, mid, call, u, b, hx.trans (List.suffix_cons e older), hrest⟩
    · intro e older call hist hold hr _ hc a ha hstate
      rcases hc.completes (History.good hist) ha hstate with hb | ⟨u, b, hcompletes, hb, hid⟩
      · obtain ⟨x, mid, call', u, b, hx, hrest⟩ := hold hb hstate
        exact ⟨x, mid, call', u, b, hx.trans (List.suffix_cons e older), hrest⟩
      · exact ⟨e, older, call, u, b, List.suffix_rfl, hr, hcompletes, hb, hid⟩
  obtain ⟨x, mid, call, u, b, hx, hr, hcompletes, hb, hid⟩ := hfrom
  obtain ⟨e, he, hachieved⟩ := h.achieved hx hr hcompletes
  obtain ⟨older, hin⟩ := exists_suffix_of_mem he
  have hin' := hin.trans ((List.suffix_cons x mid).trans hx)
  obtain ⟨b', hb'⟩ := h.busy hin' hachieved.calls
  have hevo := (h.history.before hx).evolves_before hin
  exact ⟨u, e, older, b', hin', hachieved, hb', (hb'.evolve hevo hb).symm.trans hid⟩

/-- A call for a use carries a dispatch. -/
theorem Use.Calls.dispatched (h : u.Calls e) : ∃ dispatch reconcile,
    e.request.dispatched = some (dispatch, reconcile) := by
  cases u with
  | dispatch id =>
      obtain ⟨dispatch, hr, _⟩ := h
      exact ⟨dispatch, false, by rw [hr]; rfl⟩
  | reconciliation request =>
      obtain ⟨reconciliation, hr⟩ := h
      exact ⟨reconciliation.dispatch, true, by rw [hr]; rfl⟩

end completions

/-! ### The latest use -/

omit [Platform] in
/-- Between two states of an attempt that are the same it has been in no other. -/
theorem AttemptState.Advances.antisymm {state state' : AttemptState} (h : state.Advances state')
    (h' : state'.Advances state) : state' = state := by
  rcases h with rfl | h
  · rfl
  · rcases h' with rfl | h'
    · rfl
    · omega

omit [Platform] in
/-- A use that was under way and is so now has been so all the time. -/
theorem Store.Busy.between {s s₁ s₂ : Store} {u : Use} {a b : AttemptRecord} (h : s.Busy u a)
    (he : Evolves s s₁) (he' : Evolves s₁ s₂) (h' : s₂.Busy u b) : ∃ c, s₁.Busy u c := by
  obtain ⟨a₁, ha₁, hac⟩ := he.attempts a h.attempt
  cases u with
  | dispatch id =>
      obtain ⟨_, hid, hstate⟩ := h
      obtain ⟨hb, hbid, hbstate⟩ := h'
      obtain ⟨a₂, ha₂, hac'⟩ := he'.attempts a₁ ha₁
      have hid₁ : a₁.id = id := (AttemptRecord.id_eq hac.identity).trans hid
      obtain rfl := Store.attempt_inj ha₂ hb
        ((AttemptRecord.id_eq hac'.identity).trans (hid₁.trans hbid.symm))
      refine ⟨a₁, ha₁, hid₁, ?_⟩
      have hforth := hstate ▸ hac.state
      exact hforth.antisymm (hbstate ▸ hac'.state)
  | reconciliation request =>
      obtain ⟨_, r, hr, hreq, hstate, hid⟩ := h
      obtain ⟨_, r', hr', hreq', hstate', _⟩ := h'
      obtain ⟨r₁, hr₁, hrc⟩ := he.witnesses r hr
      obtain ⟨r₂, hr₂, hrc'⟩ := he'.witnesses r₁ hr₁
      have hreq₁ : r₁.request = request := hrc.request.trans hreq
      obtain rfl := Store.witness_inj hr₂ hr' (hrc'.request.trans (hreq₁.trans hreq'.symm))
      refine ⟨a₁, ha₁, r₁, hr₁, hreq₁, ?_, ?_⟩
      · by_contra hended
        rw [hrc'.ended hended] at hstate'
        exact hended hstate'
      · exact (AttemptRecord.id_eq hac.identity).trans (hid.trans hrc.attempt.symm)

/-- The use was claimed, and no use of the resource has been claimed since. -/
def Use.Latest (u : Use) (key : String) (past : List (Event machine)) : Prop :=
  ∃ claim base, (claim :: base) <:+ past ∧ u.Claims claim base ∧ ∀ v y newer,
    (y :: newer) <:+ past → (claim :: base) <:+ newer → v.Claims y newer →
      ¬ y.after.store.Occupies v key

section latest

variable {past : List (Event machine)} {w : World} {u v : Use} {key : String}
  {e claim y : Event machine} {older base newer : List (Event machine)}

theorem History.good_after (hist : History past w) (he : (e :: older) <:+ past) :
    e.after.store.Good := by
  obtain ⟨hs, hold⟩ := hist.recorded he
  obtain ⟨_, _, hc⟩ := hs.change hold (History.continuous hold) e.choice
  exact hc.good (History.good hold)

/-- A call belongs to one use. -/
theorem Use.Calls.inj (h : u.Calls e) (h' : v.Calls e) : u = v := by
  cases u with
  | dispatch id =>
      obtain ⟨dispatch, hr, rfl⟩ := h
      cases v with
      | dispatch id' =>
          obtain ⟨dispatch', hr', rfl⟩ := h'
          cases hr.symm.trans hr'
          rfl
      | reconciliation request =>
          obtain ⟨_, hr'⟩ := h'
          cases hr.symm.trans hr'
  | reconciliation request =>
      obtain ⟨_, hr⟩ := h
      cases v with
      | dispatch id =>
          obtain ⟨_, hr', _⟩ := h'
          cases hr.symm.trans hr'
      | reconciliation request' =>
          obtain ⟨_, hr'⟩ := h'
          cases hr.symm.trans hr'
          rfl

/-- A use is called after it was claimed. -/
theorem Use.Calls.since (hist : History past w) (hin : (e :: older) <:+ past) (h : u.Calls e)
    (hclaim : (claim :: base) <:+ past) (hc : u.Claims claim base) : (claim :: base) <:+ older := by
  obtain ⟨since, claim', base', rfl, _, hc', _⟩ := h.claimed hist hin
  have hin' : (claim' :: base') <:+ past :=
    (List.suffix_append since _).trans ((List.suffix_cons e _).trans hin)
  obtain ⟨rfl, rfl⟩ := Use.Claims.unique hist hclaim hin' hc hc'
  exact List.suffix_append since _

/-- A use that was claimed and is under way was so after everything since its claim. -/
theorem Use.Claims.busy_since (hist : History past w) (hclaim : (claim :: base) <:+ past)
    (hc : u.Claims claim base) {a : AttemptRecord} (hb : w.store.Busy u a)
    (hy : (y :: newer) <:+ past) (hsuf : (claim :: base) <:+ (y :: newer)) :
    ∃ b, y.after.store.Busy u b ∧ b.identity = a.identity := by
  obtain ⟨a₀, hb₀⟩ := hc.busy hist hclaim
  have hthen : ∃ b, y.after.store.Busy u b := by
    rcases List.suffix_cons_iff.mp hsuf with heq | hsuf'
    · obtain ⟨rfl, rfl⟩ := List.cons.inj heq
      exact ⟨a₀, hb₀⟩
    · have hmid : Evolves claim.after.store y.after.store := by
        obtain ⟨hs, hold⟩ := hist.recorded hy
        exact (History.evolves hold hsuf').trans
          (Sanctioned.evolves (x := ⟨newer, y.before⟩) hold hs y.choice)
      exact hb₀.between hmid (hist.evolves hy) hb
  obtain ⟨b, hb'⟩ := hthen
  exact ⟨b, hb', (hb'.evolve (hist.evolves hy) hb).symm⟩

/-- A use that is under way is the latest of each of its resources. -/
theorem Use.Claims.latest (hist : History past w) (hclaim : (claim :: base) <:+ past)
    (hc : u.Claims claim base) {a : AttemptRecord} (hb : w.store.Busy u a) (hk : a.LeaseKey key) :
    u.Latest key past := by
  refine ⟨claim, base, hclaim, hc, fun v y newer hy hsuf hv hocc => ?_⟩
  obtain ⟨b, hb', hid⟩ := hc.busy_since hist hclaim hb hy (hsuf.trans (List.suffix_cons y newer))
  have hmine : y.after.store.Occupies u key := ⟨b, hb', (AttemptRecord.leaseKey_iff hid key).mpr hk⟩
  obtain rfl := (hist.good_after hy).occupies_inj hmine hocc
  obtain ⟨_, rfl⟩ := Use.Claims.unique hist hclaim hy hc hv
  have hlen := hsuf.length_le
  simp only [List.length_cons] at hlen
  omega

/-- What is the latest use now was it before, if it was called by then. -/
theorem Use.Latest.back (hist : History past w) (h : u.Latest key past) {now : List (Event machine)}
    (hnow : now <:+ past) (he : e ∈ now) (hu : u.Calls e) : u.Latest key now := by
  obtain ⟨claim, base, hclaim, hc, hnone⟩ := h
  obtain ⟨older, hin⟩ := exists_suffix_of_mem he
  have hsince := Use.Calls.since hist (hin.trans hnow) hu hclaim hc
  refine ⟨claim, base, hsince.trans ((List.suffix_cons e older).trans hin), hc, ?_⟩
  exact fun v y newer hy => hnone v y newer (hy.trans hnow)

variable {c : daemon.Config}

/-- While a use that was called is the latest of a resource, nobody waits for the backend with a
dispatch whose attempt has leased it. -/
theorem Use.Latest.alone (h : Reachable c) (hlatest : u.Latest key c.history)
    (he : (e :: older) <:+ c.history) (hu : u.Calls e) {a : AttemptRecord}
    (hb : e.before.store.Busy u a) (hk : a.LeaseKey key) {t : ℕ} {r : Request}
    {k : surroundings.Answer r → Program surroundings Reply} (ht : c.threads t = some (.ask r k))
    {dispatch : DispatchRequest} {reconcile : Bool} (hr : r.dispatched = some (dispatch, reconcile))
    (hleases : ∀ b, Carries c.state.store b dispatch → b.LeaseKey key) : False := by
  have hist := h.history
  obtain ⟨claim, base, hclaim, hc, hnone⟩ := hlatest
  obtain ⟨v, b, claim', base', hbusy, hcarries, hclaim', _, hc', huncalled⟩ := h.carrying ht hr
  have hkey := hleases b hcarries
  by_cases hsuf : (claim' :: base') <:+ (claim :: base)
  · -- both were under way when the latest use was claimed
    obtain ⟨b', hb', hid⟩ := hc'.busy_since hist hclaim' hbusy hclaim hsuf
    obtain ⟨a₀, hb₀⟩ := hc.busy hist hclaim
    have hbefore := hist.before he
    have hsince := Use.Calls.since hist he hu hclaim hc
    have hid₀ := hb₀.evolve (hbefore.evolves hsince) hb
    obtain rfl := (hist.good_after hclaim).occupies_inj
      ⟨a₀, hb₀, (AttemptRecord.leaseKey_iff hid₀ key).mp hk⟩
      ⟨b', hb', (AttemptRecord.leaseKey_iff hid key).mpr hkey⟩
    exact huncalled e (he.subset List.mem_cons_self) hu
  · -- the one who waits has claimed the resource since
    have hlater : (claim :: base) <:+ base' := by
      rcases suffix_trichotomy hclaim hclaim' with ⟨rfl, rfl⟩ | hlt | hlt
      · exact absurd List.suffix_rfl hsuf
      · exact hlt
      · exact absurd (hlt.trans (List.suffix_cons claim base)) hsuf
    obtain ⟨b', hb', hid⟩ := hc'.busy_since hist hclaim' hbusy hclaim' List.suffix_rfl
    exact hnone v claim' base' hclaim' hlater hc'
      ⟨b', hb', (AttemptRecord.leaseKey_iff hid key).mpr hkey⟩

end latest

end Cheirismos
