import Cheirismos.Dispatches
import Cheirismos.Transitions

/-! # Live interlocks gate their effects

What every run says of a call of `Backend::execute` whose effects a live interlock of the
profile names.

* Whoever is past its intent was claimed (`History.claimed`), so the observing step has a claim
  in the history before the call.
* From that claim on the pair holds its whole lease (`leased_meanwhile`); an effect of another
  pair on the same hardware would hold it too, and an effect of the same pair would be one of
  its own steps in between, which have none (`undisturbed`).
* `interlock_gates` puts this together with what was checked at dispatch (`Opens`). -/

namespace Cheirismos

open Process

variable [Platform]

/-! ### Claims of attempts on record -/

/-- Every attempt that was ever dispatched has its claim in the history. -/
theorem History.claimed {past : List (Event machine)} {w : World} (hist : History past w) :
    ∀ a, w.store.Attempt a → a.state ≠ .intent → a.state ≠ .rejected →
      ∃ c : DispatchClaim, c.In past ∧ c.attempt = a.id := by
  refine hist.keeps (P := fun past s => ∀ a, s.Attempt a → a.state ≠ .intent →
    a.state ≠ .rejected → ∃ c : DispatchClaim, c.In past ∧ c.attempt = a.id)
    (fun _ ha => (Table.not_mem_empty _ ha).elim) ?_ ?_
  · intro e older s h a ha hi hr
    obtain ⟨c, hin, hid⟩ := h a ha hi hr
    exact ⟨c, List.IsSuffix.trans hin (List.suffix_cons e older), hid⟩
  · intro e older call hold hp hr _ hc b hb hi hrej
    have hlater : ∀ a, e.before.store.Attempt a → b.id = a.id → a.state ≠ .intent →
        a.state ≠ .rejected → ∃ c : DispatchClaim, c.In (e :: older) ∧ c.attempt = b.id := by
      intro a ha hid hi hrej
      obtain ⟨c, hin, hcid⟩ := hp a ha hi hrej
      exact ⟨c, List.IsSuffix.trans hin (List.suffix_cons e older), hcid.trans hid.symm⟩
    rcases hc.attempt hold.good hb with ⟨a, ha, hbec⟩ | ⟨_, harr⟩
    · cases hbec with
      | kept => exact hlater b ha rfl hi hrej
      | @dispatched now agent claimed claims =>
          cases hok : (performStore (.claimDispatch a.id agent) e.choice e.before.store).1 with
          | ok claimed' =>
              have hid := AttemptRecord.id_eq claims.identity
              refine ⟨⟨e.thread, a.id, agent, e.choice, e.before, older, claimed', hok⟩, ?_, hid.symm⟩
              refine ⟨[], ?_⟩
              rw [List.nil_append, DispatchClaim.event, ← hr]
          | error err =>
              -- a failed claim would have left an intent that is dispatched
              have hafter : e.after.store = e.before.store := by
                unfold Event.after
                rw [hr]
                exact performStore_error hok
              rw [hafter] at hb
              have hsame := Store.attempt_inj hb ha (AttemptRecord.id_eq claims.identity)
              have hstate := claims.intent
              rw [← hsame, claims.dispatched] at hstate
              cases hstate
      | receipted hd => exact hlater a ha rfl (by rw [hd]; decide) (by rw [hd]; decide)
      | abandoned _ _ => exact absurd rfl hrej
      | reopened hu => exact hlater a ha rfl (by rw [hu]; decide) (by rw [hu]; decide)
      | completed _ _ _ hu => exact hlater a ha rfl (by rw [hu]; decide) (by rw [hu]; decide)
      | interrupted hd => exact hlater a ha rfl (by rw [hd]; decide) (by rw [hd]; decide)
    · exact absurd harr.intent.1 hi

/-! ### The lease in between -/

/-- While an attempt of its pair is on record and a later one is yet to be dispatched, the pair
holds its whole lease. -/
theorem leased_meanwhile {s s' : Store} (hg : s.Good) (hg' : s'.Good) (he : Evolves s s')
    {w a : AttemptRecord} (hw : s.Attempt w) (ha : s'.Attempt a) (hd : a.state = .dispatched)
    (hp : w.pair = a.pair) {key : String} (hk : a.LeaseKey key) : s.Leased key a.pair := by
  have hreg' := hg'.regular
  obtain ⟨b, htop, hbp⟩ := hg.regular.exists_top hw
  obtain ⟨b', hb', hc⟩ := he.attempts b htop.1
  have hpair : b'.pair = a.pair := (AttemptRecord.pair_eq hc.identity).trans (hbp.trans hp)
  have hatop := hreg'.top_of_not_completed ha (by rw [hd]; decide)
  have hle : b'.operationIndex ≤ a.operationIndex := hatop.2 b' hb' hpair
  -- the highest attempt of the pair at that time goes on, so it is neither settled nor the last
  have hsame : b'.operationIndex = a.operationIndex → b.state ≠ .completed ∧ b.state ≠ .rejected := by
    intro hi
    obtain rfl := hreg'.step b' a hb' ha hpair hi
    have hnot : ∀ state, state = AttemptState.completed ∨ state = .rejected → b.state ≠ state := by
      rintro state hs rfl
      rw [hc.settled hs] at hd
      rw [hd] at hs
      rcases hs with h | h <;> cases h
    exact ⟨hnot _ (Or.inl rfl), hnot _ (Or.inr rfl)⟩
  have hnotRejected : b.state ≠ .rejected := by
    intro hrej
    rcases Nat.lt_or_ge b'.operationIndex a.operationIndex with hlt | hge
    · obtain ⟨d, hd', hdp, hdi, hds, _⟩ := hreg'.earlier ha hlt
      obtain rfl := hreg'.step d b' hd' hb' (hdp.trans hpair.symm) hdi
      rw [hc.settled (Or.inr hrej), hrej] at hds
      cases hds
    · exact (hsame (le_antisymm hle hge)).2 hrej
  have hopen : ¬ s.Closed b.pair := by
    intro hclosed
    rw [hbp, hp] at hclosed
    exact hreg'.open_of_dispatched ha hd (he.closed hclosed)
  rw [← hp, ← hbp]
  refine (hg.leases b.pair key).mpr ⟨b, htop, rfl, ⟨hopen, ?_⟩, ?_⟩
  · cases hbs : b.state with
    | intent => exact Or.inl rfl
    | dispatched => exact Or.inr (Or.inl rfl)
    | partially => exact Or.inr (Or.inr (Or.inl rfl))
    | unknown => exact Or.inr (Or.inr (Or.inr (Or.inl rfl)))
    | rejected => exact absurd hbs hnotRejected
    | completed =>
        refine Or.inr (Or.inr (Or.inr (Or.inr (Or.inl ⟨rfl, ?_⟩))))
        have hlt : b'.operationIndex < a.operationIndex :=
          lt_of_le_of_ne hle fun hi => (hsame hi).1 hbs
        obtain ⟨plan, hm, hid, _, hlength, _⟩ := (hg.regular.admitted b htop.1).plan
        obtain ⟨plan', hm', hid', _, hlength', _⟩ := (hreg'.admitted a ha).plan
        obtain rfl : plan = plan' := Store.plan_inj (he.plans plan hm) hm' (by
          rw [hid, hid']
          exact (AttemptRecord.plan_eq hc.identity).symm.trans (congrArg Prod.snd hpair))
        refine ⟨plan, hm, hid, ?_⟩
        rw [← AttemptRecord.index_eq hc.identity]
        have hlength'' : a.operationIndex < plan.operations.length := hlength'
        omega
  · exact (AttemptRecord.leaseKey_iff hc.identity key).mp
      ((AttemptRecord.leaseKey_of_snapshot (hreg'.snapshot hb' ha hpair) key).mpr hk)

/-- A call of `Backend::execute` with an effect, for an attempt that shares hardware with the
profile. -/
def Disturbs (profile : CommissionedProfile) (e : Event machine) : Prop :=
  ∃ dispatch a key, e.request = .execute dispatch ∧ dispatch.operation.effectPermissions ≠ ∅ ∧
    e.before.store.Attempt a ∧ a.id = dispatch.attempt ∧ a.LeaseKey key ∧
    ∃ resource ∈ profile.physicalResources, resource.key = key

section between

variable {past : List (Event machine)} {w : World} {e : Event machine}
  {older since : List (Event machine)} {dispatch : DispatchRequest} {c : DispatchClaim}
  {planned : PlannedOperation} {expiries : List Timestamp}

/-- The attempt of a call on the same hardware as a pair that has its lease is one of the pair. -/
theorem same_pair {e' : Event machine} {older' since' : List (Event machine)}
    {dispatch' : DispatchRequest} {c' : DispatchClaim} {planned' : PlannedOperation}
    {expiries' : List Timestamp} (hold : History older' e'.before)
    (hdisp : Dispatchable e'.thread ⟨older', e'.before⟩ dispatch' c' since' planned' expiries')
    {p : Pair} {key : String} (hp : e'.before.store.Leased key p)
    (hk : c'.claimed.attempt.LeaseKey key) : c'.claimed.attempt.pair = p := by
  have hg := hold.good
  obtain ⟨_, _, hstate⟩ := hdisp.attempt_eq hold
  have hopen := hg.regular.open_of_dispatched hdisp.held hstate
  exact Store.leased_inj
    (hg.leased_of_unsettled hdisp.held hopen (Or.inr (Or.inl hstate)) hk) hp

/-- Between the claim of the observing step and the gated call nobody disturbs the hardware. -/
theorem undisturbed (hist : History past w) (he : (e :: older) <:+ past)
    (hd : e.request = .execute dispatch)
    (hdisp : Dispatchable e.thread ⟨older, e.before⟩ dispatch c since planned expiries)
    {interlock : LiveInterlock} {x : AttemptRecord} (hx : e.before.store.Attempt x)
    (hpair : x.pair = c.claimed.attempt.pair)
    (hstep : observationStep c.claimed.plan.operations interlock
      c.claimed.attempt.operationIndex = .ok x.operationIndex)
    {cx : DispatchClaim} {between : List (Event machine)}
    (hpast : older = between ++ cx.event :: cx.older) (hsubject : cx.attempt = x.id) :
    ∀ e' ∈ between, ¬ Disturbs c.claimed.profile e' := by
  rintro e' hbetween ⟨dispatch', a', key, hd', heffect, ha', hid', hkey', hhardware⟩
  have hold := hist.before he
  have hreg := hold.good.regular
  obtain ⟨es, rest, rfl⟩ := List.append_of_mem hbetween
  have he' : (e' :: (rest ++ cx.event :: cx.older)) <:+ older :=
    ⟨es, by rw [hpast, List.append_assoc, List.cons_append]⟩
  have hold' := hold.before he'
  have hg' := hold'.good
  obtain ⟨c', since', planned', expiries', hdisp'⟩ := hold.dispatchable he' hd'
  obtain ⟨hdid, hcid, hstate⟩ := hdisp.attempt_eq hold
  obtain ⟨hdid', hcid', hstate'⟩ := hdisp'.attempt_eq hold'
  obtain rfl := Store.attempt_inj ha' hdisp'.held (hid'.trans hdid')
  have hevo := hold.evolves_before he'
  -- the pair had its whole lease at the time of the other call
  have hin : cx.In (rest ++ cx.event :: cx.older) := ⟨rest, rfl⟩
  obtain ⟨hatt, hcx, _⟩ := cx.after (hold'.good_before hin)
  obtain ⟨x', hx', hcont⟩ := (hold'.evolves hin).attempts _ hatt
  obtain ⟨x'', hx'', hcont'⟩ := hevo.attempts x' hx'
  obtain rfl := Store.attempt_inj hx'' hx (by
    rw [AttemptRecord.id_eq hcont'.identity, AttemptRecord.id_eq hcont.identity, hcx, hsubject])
  have hpair' : x'.pair = c.claimed.attempt.pair :=
    (AttemptRecord.pair_eq hcont'.identity).symm.trans hpair
  have hkey : c.claimed.attempt.LeaseKey key := by
    obtain ⟨resource, hm, hkey⟩ := hhardware
    obtain ⟨a, hclaims, _⟩ := c.spec (hold.good_before ⟨since, hdisp.past.symm⟩)
    refine ⟨resource, ?_, hkey⟩
    rw [AttemptRecord.resources_eq hclaims.identity,
      ← hclaims.resources (hold.good_before ⟨since, hdisp.past.symm⟩)]
    exact hm
  have hsame := same_pair hold' hdisp'
    (leased_meanwhile hg' hold.good hevo hx' hdisp.held hstate hpair' hkey) hkey'
  -- so the other call is for a step of the pair from the observing one up to the gated one
  obtain ⟨b, hb, hbc⟩ := hevo.attempts _ hdisp'.held
  have hbpair : b.pair = c.claimed.attempt.pair := (AttemptRecord.pair_eq hbc.identity).trans hsame
  have hlower : x''.operationIndex ≤ b.operationIndex := by
    rw [AttemptRecord.index_eq hcont'.identity, AttemptRecord.index_eq hbc.identity]
    exact (hg'.regular.top_of_not_completed hdisp'.held (by rw [hstate']; decide)).2 x' hx'
      (hpair'.trans hsame.symm)
  have hupper : b.operationIndex ≤ c.claimed.attempt.operationIndex :=
    (hreg.top_of_not_completed hdisp.held (by rw [hstate]; decide)).2 b hb hbpair
  have hother : b.operationIndex ≠ c.claimed.attempt.operationIndex := by
    intro hi
    obtain rfl := hreg.step b _ hb hdisp.held hbpair hi
    refine hist.executes_once dispatch.attempt e older he ⟨dispatch, hd, rfl⟩ e'
      (he'.subset List.mem_cons_self) ⟨dispatch', hd', ?_⟩
    rw [hdid, hdid', ← AttemptRecord.id_eq hbc.identity]
  -- and none of these has an effect
  obtain ⟨hm, hmid⟩ := c.planned (hold.good_before ⟨since, hdisp.past.symm⟩)
  obtain ⟨hm', hmid'⟩ := c'.planned (hold'.good_before ⟨since', hdisp'.past.symm⟩)
  have hplan : c'.claimed.plan = c.claimed.plan := by
    refine Store.plan_inj (hevo.plans _ ((hold'.evolves ⟨since', hdisp'.past.symm⟩).plans _ hm'))
      ((hold.evolves ⟨since, hdisp.past.symm⟩).plans _ hm) ?_
    rw [hmid, hmid']
    exact congrArg Prod.snd hsame
  have hoperation : dispatch'.operation = planned'.operation := by rw [hdisp'.content]; rfl
  have hstep' := hdisp'.step
  rw [hplan, ← AttemptRecord.index_eq hbc.identity] at hstep'
  obtain ⟨_, ⟨observing, hobserving, hobs⟩, hnone⟩ := observationStep_ok hstep
  rw [hoperation] at heffect
  rcases Nat.lt_or_eq_of_le hlower with hlt | heq
  · exact heffect (hnone _ planned' hlt (lt_of_le_of_ne hupper hother) hstep')
  · rw [← heq, hobserving] at hstep'
    obtain rfl := Option.some.inj hstep'
    rw [hobs] at heffect
    exact heffect interlock.observation_effects

end between

/-! ### Over all runs -/

/-- What stands behind an interlock that a call depends on: an earlier step of the plan made
exactly its observation, with no effect planned or carried out since, and between the claim of
the call and the call the observation was found bound by evidence, satisfying and fresh. -/
structure Opens (older since : List (Event machine)) (s : Store) (a : AttemptRecord)
    (profile : CommissionedProfile) (plan : ReviewedPlan) (interlock : LiveInterlock)
    (expiry : Timestamp) (index : ℕ) (witness : AttemptRecord) (observation : Observation)
    (captured : Timestamp) : Prop where
  earlier : index < a.operationIndex
  operation : ∃ planned, plan.operations[index]? = some planned ∧
    planned.operation = interlock.observation
  harmless : ∀ j planned, index < j → j < a.operationIndex → plan.operations[j]? = some planned →
    planned.operation.effectPermissions = ∅
  completed : s.Attempt witness ∧ witness.pair = a.pair ∧ witness.operationIndex = index ∧
    witness.state = .completed
  evidence : ∃ challenge phase, Completing s witness challenge phase observation ∧
    Verified since witness.id challenge phase observation
  checks : ∀ check ∈ interlock.checks, check.Holds observation
  capture : Platform.parseTimestamp observation.capturedAt = some captured
  fresh : ∃ t choice before, (⟨t, .now, choice, before⟩ : Event machine) ∈ since ∧
    captured.asMillisecond ≤ (choice.clock 0).asMillisecond ∧
    (choice.clock 0).asMillisecond ≤
      captured.asMillisecond + interlock.maximumAgeMilliseconds.toNat
  expires : expiry.asMillisecond =
    captured.asMillisecond + interlock.maximumAgeMilliseconds.toNat
  undisturbed : ∃ (claim : DispatchClaim) (between : List (Event machine)),
    claim.attempt = witness.id ∧ older = between ++ claim.event :: claim.older ∧
    ∀ e ∈ between, ¬ Disturbs profile e

section runs

variable {c : daemon.Config} {e : Event machine} {older : List (Event machine)}
  {dispatch : DispatchRequest}

/-- Behind every call of `Backend::execute` stand all live interlocks of the profile that name
one of its effects, and the backend is told the earliest of their expiries. -/
theorem interlock_gates (h : Reachable c) (he : (e :: older) <:+ c.history)
    (hd : e.request = .execute dispatch) :
    ∃ (claim : DispatchClaim) (since : List (Event machine)) (a : AttemptRecord)
      (profile : CommissionedProfile) (plan : ReviewedPlan) (planned : PlannedOperation)
      (expiries : List Timestamp),
      older = since ++ claim.event :: claim.older ∧ claim.thread = e.thread ∧
      claim.attempt = dispatch.attempt ∧
      e.before.store.Attempt a ∧ a.id = dispatch.attempt ∧
      profile ∈ e.before.store.profiles ∧ profile.id = a.profile ∧
      plan ∈ e.before.store.plans ∧ plan.id = a.plan ∧
      plan.operations[a.operationIndex]? = some planned ∧
      planned.operation = dispatch.operation ∧
      dispatch.interlocksValidUntil = expiries.min? ∧
      List.Forall₂ (fun interlock expiry => ∃ index witness observation captured,
          Opens older since e.before.store a profile plan interlock expiry index witness
            observation captured)
        (profile.liveInterlocks.filter (fun interlock => interlock.Gates dispatch.operation))
        expiries := by
  have hist := h.history
  have hold := hist.before he
  obtain ⟨claim, since, planned, expiries, hdisp⟩ := hist.dispatchable he hd
  have hin : claim.In older := ⟨since, hdisp.past.symm⟩
  obtain ⟨hdid, hcid, hstate⟩ := hdisp.attempt_eq hold
  obtain ⟨a, hspec, _⟩ := claim.spec (hold.good_before hin)
  have hevo : Evolves claim.before.store e.before.store := hold.evolves_before hin
  have hoperation : dispatch.operation = planned.operation := by rw [hdisp.content]; rfl
  refine ⟨claim, since, claim.claimed.attempt, claim.claimed.profile, claim.claimed.plan, planned,
    expiries, hdisp.past, hdisp.thread, ?_, hdisp.held, hdid.symm,
    hevo.profiles _ hspec.profile.1, ?_, hevo.plans _ hspec.plan.1, ?_, hdisp.step,
    hoperation.symm, ?_, ?_⟩
  · rw [hdid, hcid]
  · rw [show claim.claimed.attempt.profile = a.profile from
      congrArg AttemptIdentity.profile hspec.identity]
    exact hspec.profile.2.1
  · rw [AttemptRecord.plan_eq hspec.identity]
    exact hspec.plan.2.1
  · rw [hdisp.content]
  · rw [hoperation]
    refine hdisp.gated.imp ?_
    rintro interlock expiry ⟨index, x, observation, captured, age, hgate⟩
    obtain ⟨hlt, hobserving, hnone⟩ := observationStep_ok hgate.step
    obtain ⟨observing, _, hvalid⟩ := hgate.satisfied
    obtain ⟨_, hage, hchecks⟩ := validateInterlockObservation_ok hvalid
    obtain ⟨cx, hcx, hcxid⟩ := hold.claimed x hgate.recorded (by rw [hgate.completed]; decide)
      (by rw [hgate.completed]; decide)
    obtain ⟨between, hbetween⟩ := hcx
    refine ⟨index, x, observation, captured,
      { earlier := hlt
        operation := hobserving
        harmless := hnone
        completed := ⟨hgate.recorded, hgate.pair, hgate.position, hgate.completed⟩
        evidence := hgate.evidence
        checks := evaluateChecks_ok.mp hchecks
        capture := hgate.capture
        fresh := ?_
        expires := interlockExpiry_ok hgate.expires
        undisturbed := ⟨cx, between, hcxid, hbetween.symm, ?_⟩ }⟩
    · obtain ⟨t, choice, before, hm, hread⟩ := hgate.read
      have hnow := observationAge_some hread
      have hle : age.toNat ≤ interlock.maximumAgeMilliseconds.toNat := UInt64.le_iff_toNat_le.mp hage
      exact ⟨t, choice, before, hm, by omega, by omega⟩
    · exact undisturbed hist he hd hdisp hgate.recorded hgate.pair
        (hgate.position ▸ hgate.step) hbetween.symm hcxid

omit [Platform] in
open Bench in
set_option maxRecDepth 20000 in
theorem interlock_gates_bench : ∃ e ∈ (bench routine).history, ∃ (dispatch : DispatchRequest)
    (expiries : List Timestamp), e.request = .execute dispatch ∧
      dispatch.interlocksValidUntil = expiries.min? := by
  obtain ⟨e, he, hexec⟩ : ∃ e ∈ (bench routine).history, e.request.executes = true := by
    decide +kernel
  obtain ⟨dispatch, hd⟩ := Request.executes_iff.mp hexec
  obtain ⟨older, hsuf⟩ := exists_suffix_of_mem he
  obtain ⟨_, _, _, _, _, _, expiries, _, _, _, _, _, _, _, _, _, _, _, hmin, _⟩ :=
    @interlock_gates Bench.platform _ _ _ _ (bench_reachable routine) hsuf hd
  exact ⟨e, he, dispatch, expiries, hd, hmin⟩

end runs

end Cheirismos
