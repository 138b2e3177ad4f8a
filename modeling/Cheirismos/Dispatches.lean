import Cheirismos.Custody

/-! # Calls of the backend

What every run says of the calls of `Backend::execute` and `Backend::reconcile`.

A call is made under a claim (`History.dispatchable`, `History.reconcilable`), claims are
unique, and whoever holds one only reads between the claim and the call; so no step and no
reconciliation is ever carried out twice (`dispatched_once`).  At the claim the whole
authority of the dispatch was checked (`dispatch_authorized`). -/

namespace Cheirismos

open Process

variable [Platform]

/-! ### Calls -/

/-- The request calls `Backend::execute`. -/
def Request.executes : Request → Bool
  | .execute _ => true
  | _ => false

omit [Platform] in
theorem Request.executes_iff {r : Request} :
    r.executes = true ↔ ∃ dispatch, r = .execute dispatch := by
  cases r <;> simp [executes]

/-- A call of `Backend::execute` for the attempt. -/
def Executes (id : AttemptId) (e : Event machine) : Prop :=
  ∃ dispatch, e.request = .execute dispatch ∧ dispatch.attempt = id

/-- A call of `Backend::execute` for the step of the pair. -/
def ExecutesStep (p : Pair) (index : ℕ) (e : Event machine) : Prop :=
  ∃ dispatch a, e.request = .execute dispatch ∧ e.before.store.Attempt a ∧
    a.id = dispatch.attempt ∧ a.pair = p ∧ a.operationIndex = index

/-- A call of `Backend::reconcile` for the request. -/
def Investigates (request : RequestId) (e : Event machine) : Prop :=
  ∃ reconciliation, e.request = .reconcile request reconciliation

theorem Executes.not_quiet {id : AttemptId} {e : Event machine} (h : Executes id e) :
    ¬ Quiet e.request := by
  obtain ⟨dispatch, hr, _⟩ := h
  rw [hr]
  exact fun hq => hq

theorem Investigates.not_quiet {request : RequestId} {e : Event machine}
    (h : Investigates request e) : ¬ Quiet e.request := by
  obtain ⟨reconciliation, hr⟩ := h
  rw [hr]
  exact fun hq => hq

section history

variable {past : List (Event machine)} {w : World}

/-- Every call of `Backend::execute` was allowed. -/
theorem History.dispatchable (hist : History past w) {e : Event machine}
    {older : List (Event machine)} (he : (e :: older) <:+ past) {dispatch : DispatchRequest}
    (hd : e.request = .execute dispatch) : ∃ c since planned expiries,
      Dispatchable e.thread ⟨older, e.before⟩ dispatch c since planned expiries := by
  have hs := (hist.recorded he).1
  rw [hd] at hs
  exact hs.resolve_right fun h => h

/-- Every call of `Backend::reconcile` was allowed. -/
theorem History.reconcilable (hist : History past w) {e : Event machine}
    {older : List (Event machine)} (he : (e :: older) <:+ past) {request : RequestId}
    {reconciliation : ReconciliationRequest} (hr : e.request = .reconcile request reconciliation) :
    ∃ c since, Reconcilable e.thread ⟨older, e.before⟩ request c since := by
  have hs := (hist.recorded he).1
  rw [hr] at hs
  exact hs.resolve_right fun h => h

theorem Dispatchable.attempt_eq {t : ℕ} {x : Moment machine} {dispatch : DispatchRequest}
    {c : DispatchClaim} {since : List (Event machine)} {planned : PlannedOperation}
    {expiries : List Timestamp} (h : Dispatchable t x dispatch c since planned expiries)
    (hx : History x.past x.state) :
    dispatch.attempt = c.claimed.attempt.id ∧ c.claimed.attempt.id = c.attempt ∧
      c.claimed.attempt.state = .dispatched := by
  obtain ⟨_, hid, hstate⟩ := c.after (hx.good_before ⟨since, h.past.symm⟩)
  exact ⟨by rw [h.content]; rfl, hid, hstate⟩

/-- An attempt is dispatched at most once. -/
theorem History.executes_once (hist : History past w) (id : AttemptId) :
    Once (Executes id) past := by
  refine Once.of_claims (fun e base => ∃ c : DispatchClaim, c.attempt = id ∧
    c.event = e ∧ c.older = base) ?_ ?_
  · rintro e older he ⟨dispatch, hd, hid⟩
    obtain ⟨c, since, planned, expiries, h⟩ := hist.dispatchable he hd
    obtain ⟨h1, h2, _⟩ := h.attempt_eq (hist.before he)
    refine ⟨since, c.event, c.older, h.past, ⟨c, ?_, rfl, rfl⟩, h.thread, ?_⟩
    · rw [← h2, ← h1, hid]
    · exact fun e' he' ht hx => hx.not_quiet (h.quiet e' he' ht)
  · rintro _ _ _ _ hin hin' ⟨c, hc, rfl, rfl⟩ ⟨c', hc', rfl, rfl⟩
    exact DispatchClaim.unique hist hin hin' (hc.trans hc'.symm)

/-- A reconciliation request reaches the backend at most once. -/
theorem History.investigates_once (hist : History past w) (request : RequestId) :
    Once (Investigates request) past := by
  refine Once.of_claims (fun e base => ∃ c : WitnessClaim, c.request = request ∧
    c.event = e ∧ c.older = base) ?_ ?_
  · rintro e older he ⟨reconciliation, hr⟩
    obtain ⟨c, since, h⟩ := hist.reconcilable he hr
    refine ⟨since, c.event, c.older, h.past, ⟨c, h.subject, rfl, rfl⟩, h.thread, ?_⟩
    exact fun e' he' ht hx => hx.not_quiet (h.quiet e' he' ht)
  · rintro _ _ _ _ hin hin' ⟨c, hc, rfl, rfl⟩ ⟨c', hc', rfl, rfl⟩
    exact WitnessClaim.unique hist hin hin' (hc.trans hc'.symm)

/-- The store evolves from before any recorded request to the present. -/
theorem History.evolves_before (hist : History past w) {e : Event machine}
    {older : List (Event machine)} (he : (e :: older) <:+ past) :
    Evolves e.before.store w.store := by
  obtain ⟨hs, hold⟩ := hist.recorded he
  exact (Sanctioned.evolves (x := ⟨older, e.before⟩) hold hs e.choice).trans (hist.evolves he)

/-- A step of a pair is dispatched at most once. -/
theorem History.executesStep_once (hist : History past w) (p : Pair) (index : ℕ) :
    Once (ExecutesStep p index) past := by
  rintro e older he ⟨dispatch, a, hd, ha, hid, hp, hi⟩ e' he' ⟨dispatch', a', hd', ha', hid', hp', hi'⟩
  obtain ⟨older', hsuf⟩ := exists_suffix_of_mem he'
  -- the attempt of the earlier call is still that of the same step
  obtain ⟨b, hb, hc⟩ := ((hist.before he).evolves_before hsuf).attempts a' ha'
  have hreg := (hist.good_before he).regular
  obtain rfl := hreg.step b a hb ha
    ((AttemptRecord.pair_eq hc.identity).trans (hp'.trans hp.symm))
    ((AttemptRecord.index_eq hc.identity).trans (hi'.trans hi.symm))
  refine hist.executes_once dispatch.attempt e older he ⟨dispatch, hd, rfl⟩ e' he'
    ⟨dispatch', hd', ?_⟩
  rw [← hid', ← AttemptRecord.id_eq hc.identity, hid]

end history

/-! ### At most one dispatch -/

section runs

variable {c : daemon.Config}

/-- In every run `Backend::execute` is called at most once for each attempt and each step of a
pair, every such call is for the step of an attempt on record, and `Backend::reconcile` is
called at most once for each reconciliation request. -/
theorem dispatched_once (h : Reachable c) :
    (∀ id, Once (Executes id) c.history) ∧
    (∀ p index, Once (ExecutesStep p index) c.history) ∧
    (∀ e ∈ c.history, ∀ id, Executes id e → ∃ p index, ExecutesStep p index e) ∧
    ∀ request, Once (Investigates request) c.history := by
  have hist := h.history
  refine ⟨hist.executes_once, hist.executesStep_once, ?_, hist.investigates_once⟩
  rintro e he id ⟨dispatch, hd, _⟩
  obtain ⟨older, hsuf⟩ := exists_suffix_of_mem he
  obtain ⟨claim, since, planned, expiries, hdisp⟩ := hist.dispatchable hsuf hd
  obtain ⟨hid, _⟩ := hdisp.attempt_eq (hist.before hsuf)
  exact ⟨_, _, dispatch, _, hd, hdisp.held, hid.symm, rfl, rfl⟩

omit [Platform] in
open Bench in
theorem dispatched_once_bench : Once (@Executes Bench.platform a₁) (bench routine).history :=
  (@dispatched_once Bench.platform _ (bench_reachable routine)).1 a₁

end runs

/-! ### Authority -/

/-- The identities that the backend is told to expect are those of the profile. -/
structure Expects (dispatch : DispatchRequest) (profile : CommissionedProfile) : Prop where
  target : dispatch.expectedTargetFingerprint = profile.targetFingerprint
  fingerprints : dispatch.expectedInstrumentFingerprints =
    profile.instruments.mapValues InstrumentBinding.fingerprint
  configurations : dispatch.expectedInstrumentConfigurations =
    profile.instruments.mapValues InstrumentBinding.configurationDigest
  physicalIdentities : dispatch.expectedInstrumentPhysicalIdentities =
    profile.instruments.mapValues InstrumentBinding.physicalIdentity
  fixture : dispatch.expectedFixtureRevision = profile.fixtureRevision

/-- The dispatch is inside the authority on record when its attempt `a` was claimed by `agent`
at `now`. -/
structure WithinAuthority (s : Store) (now : Timestamp) (agent : PrincipalId)
    (a : AttemptRecord) (dispatch : DispatchRequest) (grant : Grant)
    (profile : CommissionedProfile) (plan : ReviewedPlan) (planned : PlannedOperation) :
    Prop where
  recorded : s.Attempt a ∧ a.id = dispatch.attempt ∧ a.state = .intent
  granted : grant ∈ s.grants ∧ grant.id = a.grant ∧ grant.agent = agent ∧ grant.revoked = false
  unexpired : ∃ expiresAt, Platform.parseTimestamp grant.expiresAt = some expiresAt ∧
    now < expiresAt
  opened : ¬ s.Halted a.pair ∧ ¬ s.Retired a.pair
  leased : ∀ key, a.LeaseKey key → s.Leased key a.pair
  commissioned : profile ∈ s.profiles ∧ profile.id = grant.profile ∧
    profile.digest = a.profileDigest ∧ profile.physicalResources = a.leasedResources
  reviewed : plan ∈ s.plans ∧ plan.id = a.plan ∧ plan.digest = a.planDigest
  operation : plan.operations[a.operationIndex]? = some planned ∧
    dispatch.operation = planned.operation ∧
    dispatch.deadlineMilliseconds = planned.maxMilliseconds
  authorized : Authorized grant profile plan planned
  expects : Expects dispatch profile

/-- The attempt of a claimed dispatch holds the resources of the profile on record. -/
theorem ClaimsDispatch.resources {s : Store} (hg : s.Good) {now : Timestamp} {agent : PrincipalId}
    {a : AttemptRecord} {claimed : ClaimedDispatch} (h : ClaimsDispatch s now agent a claimed) :
    claimed.profile.physicalResources = a.leasedResources := by
  obtain ⟨profile, hm, hid, _, hres⟩ := (hg.regular.admitted a h.attempt).profile
  obtain rfl := s.profiles.eq_of_key_eq h.profile.1 hm (h.profile.2.1.trans hid.symm)
  exact hres

section runs

variable {c : daemon.Config} {e : Event machine} {older : List (Event machine)}
  {dispatch : DispatchRequest}

/-- Every call of `Backend::execute` was preceded by a claim at which the whole authority of
the dispatch was in force. -/
theorem dispatch_authorized (h : Reachable c) (he : (e :: older) <:+ c.history)
    (hd : e.request = .execute dispatch) :
    ∃ claim : DispatchClaim, claim.In older ∧ claim.thread = e.thread ∧
      claim.attempt = dispatch.attempt ∧ ∃ a grant profile plan planned,
        WithinAuthority claim.before.store (claim.choice.clock 0) claim.agent a dispatch grant
          profile plan planned := by
  have hist := h.history
  obtain ⟨claim, since, planned, expiries, hdisp⟩ := hist.dispatchable he hd
  have hist' := hist.before he
  have hin : claim.In older := ⟨since, hdisp.past.symm⟩
  have hg := hist'.good_before hin
  obtain ⟨a, hc, hid, _⟩ := claim.spec hg
  obtain ⟨hattempt, _⟩ := hdisp.attempt_eq hist'
  have hsame := AttemptRecord.id_eq hc.identity
  refine ⟨claim, hin, hdisp.thread, ?_, a, claim.claimed.grant, claim.claimed.profile,
    claim.claimed.plan, planned, ?_⟩
  · rw [hattempt, hsame, hid]
  · refine
      { recorded := ⟨hc.attempt, by rw [hattempt, hsame], hc.intent⟩
        granted := ⟨hc.grant.mem, hc.grant.id, hc.grant.agent, hc.grant.unrevoked⟩
        unexpired := hc.grant.unexpired
        opened := ⟨hc.unhalted, hc.unretired⟩
        leased := hc.leased
        commissioned := ⟨hc.profile.1, hc.profile.2.1.trans hc.grant.profile.symm, hc.profile.2.2,
          hc.resources hg⟩
        reviewed := hc.plan
        operation := ⟨?_, ?_, ?_⟩
        authorized := hdisp.authorized
        expects := ?_ }
    · rw [← AttemptRecord.index_eq hc.identity]
      exact hdisp.step
    · rw [hdisp.content]
      rfl
    · rw [hdisp.content]
      rfl
    · rw [hdisp.content]
      exact ⟨rfl, rfl, rfl, rfl, rfl⟩

omit [Platform] in
open Bench in
set_option maxRecDepth 20000 in
theorem dispatch_authorized_bench : ∃ e ∈ (bench routine).history, ∃ dispatch,
    e.request = .execute dispatch ∧ ∃ claim : @DispatchClaim Bench.platform,
      @DispatchClaim.thread Bench.platform claim = e.thread ∧
        @DispatchClaim.attempt Bench.platform claim = dispatch.attempt := by
  obtain ⟨e, he, hexec⟩ : ∃ e ∈ (bench routine).history, e.request.executes = true := by
    decide +kernel
  obtain ⟨dispatch, hd⟩ := Request.executes_iff.mp hexec
  obtain ⟨older, hsuf⟩ := exists_suffix_of_mem he
  obtain ⟨claim, _, ht, ha, _⟩ :=
    @dispatch_authorized Bench.platform _ _ _ _ (bench_reachable routine) hsuf hd
  exact ⟨e, he, dispatch, hd, claim, ht, ha⟩

end runs

end Cheirismos
