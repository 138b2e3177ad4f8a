import Cheirismos.Bench
import Cheirismos.Conformance

/-! # Reviews

A review reads a proposal and consumes it later, in a transaction of its own; meanwhile the
proposal may be consumed, deleted or proposed anew under the same id.

* `consumeReviewedProposal_stored`: a proposal that is consumed leaves the plan on record, or the
  plan that was there has the same digest.
* `review_binds`: the plan that a review returns is the proposal with the expected digest, reviewed
  by somebody else than its author, and it is on record; no plan on record ever changes.

`Store.Separates` is the assumption about SHA-256 and about the encoding of plans: both are injective
on the plans on record.  What the digests of a proposal and of a plan cover is written out in
`review_binds`. -/

namespace Cheirismos

open Process

variable [Platform]

/-- The bytes that the digest of a plan is taken of. -/
def ReviewedPlan.encoded (plan : ReviewedPlan) : Bytes :=
  Platform.encodePlan plan.toPlanProposal plan.reviewedBy

/-- SHA-256 and the encoding of plans tell this plan from those on record. -/
structure Store.Separates (s : Store) (plan : ReviewedPlan) : Prop where
  sha256 : ∀ stored ∈ s.plans,
    Platform.sha256 stored.encoded = Platform.sha256 plan.encoded → stored.encoded = plan.encoded
  encoding : ∀ stored ∈ s.plans, stored.encoded = plan.encoded →
    stored.toPlanProposal = plan.toPlanProposal ∧ stored.reviewedBy = plan.reviewedBy

/-- Two proper plans with the same digest are one. -/
theorem Store.Separates.eq_of_digest {s : Store} {stored plan : ReviewedPlan}
    (h : s.Separates plan) (hstored : stored ∈ s.plans) (hs : stored.Proper) (hp : plan.Proper)
    (hdigest : stored.digest = plan.digest) : stored = plan := by
  obtain ⟨hproposal, hreviewer⟩ := h.encoding stored hstored (h.sha256 stored hstored hdigest)
  have hreview : stored.reviewDigest = plan.reviewDigest := by
    rw [hs.reviewed, hp.reviewed, hdigest]
  cases stored
  cases plan
  cases hproposal
  cases hreviewer
  cases hreview
  rfl

/-- After a review's transaction a plan with this id and this digest is on record. -/
theorem consumeReviewedProposal_stored {s s' : Store} {id : PlanId} {expected : ArtifactDigest}
    {plan : ReviewedPlan} {u : Unit} (h : consumeReviewedProposal id expected plan s = .ok (u, s')) :
    ∃ stored ∈ s'.plans, stored.id = plan.id ∧ (stored = plan ∨ stored.digest = plan.digest) := by
  simp only [consumeReviewedProposal, get_bind_ok, required_bind_ok, refuse_bind_ok] at h
  obtain ⟨_, _, _, h⟩ := h
  obtain ⟨_, s₁, hins, hmod⟩ := Tx.bind_ok.mp h
  obtain rfl := modify_ok.mp hmod
  rcases insertOnce_ok hins with ⟨t, ht, rfl⟩ | ⟨rfl, stored, hstored, hid, hsame⟩
  · exact ⟨plan, (Table.mem_insert? ht).mpr (Or.inl rfl), rfl, Or.inl rfl⟩
  · exact ⟨stored, hstored, hid, Or.inr (beq_iff_eq.mp hsame)⟩

section runs

variable {c : daemon.Config}

/-- A plan on record stays on record, and it stays the only one with its id. -/
theorem Reachable.plan_stays (h : Reachable c) {stored : ReviewedPlan}
    (hstored : stored ∈ c.state.store.plans) {c' : daemon.Config} (hr : daemon.Run c c') :
    stored ∈ c'.state.store.plans ∧
      ∀ plan ∈ c'.state.store.plans, plan.id = stored.id → plan = stored := by
  have hkept := (h.evolves hr).plans stored hstored
  exact ⟨hkept, fun plan hplan hid => c'.state.store.plans.eq_of_key_eq hplan hkept hid⟩

/-- A review binds what the reviewer saw: the plan it returns is the proposal whose digest the
reviewer gave, it is reviewed by this reviewer and not by its author, its review digest covers the
proposal and the reviewer, and it is on record under its id.  A plan on record never changes. -/
theorem review_binds (h : Reachable c) :
    (∀ reviewer id expected plan c',
      daemon.Serves c (.reviewProposal reviewer id expected) (.plan (.ok plan)) c' →
      c'.state.store.Separates plan →
      Platform.sha256 (Platform.encodeProposal plan.toPlanProposal) = expected ∧
        reviewer.role = .reviewer ∧
        plan.reviewedBy = reviewer.id ∧ plan.reviewedBy ≠ plan.requestedBy ∧
        plan.reviewDigest =
          Platform.sha256 (Platform.encodePlan plan.toPlanProposal plan.reviewedBy) ∧
        plan.id = id ∧ plan ∈ c'.state.store.plans) ∧
    ∀ stored ∈ c.state.store.plans, ∀ c', daemon.Run c c' →
      stored ∈ c'.state.store.plans ∧
        ∀ plan ∈ c'.state.store.plans, plan.id = stored.id → plan = stored := by
  refine ⟨?_, fun stored hstored c' hr => h.plan_stays hstored hr⟩
  intro reviewer id expected plan c' hs hsep
  have hm := (discipline_sound.sound h).inv
  obtain ⟨r, y, hwrap, hr, hyc⟩ := (yields_served h hs.toServing rfl
    (Supervisor.reviewProposal_ensures (t := c.next) hm reviewer id expected)).2 _ hs.result
  cases hwrap
  obtain ⟨proposal, rfl, hid, hdigest, hrole, hother, hcalled⟩ := hr plan rfl
  obtain ⟨x, i, _, hlegal, hinv, hok, hxy, _⟩ := hcalled.mem
  have hproper : (Supervisor.reviewed proposal reviewer.id).Proper := hlegal
  refine ⟨hdigest, hrole, rfl, hother, rfl, hid, ?_⟩
  obtain ⟨stored, hstored, hsid, hsame⟩ := consumeReviewedProposal_stored (performStore_ok hok)
  have hkept : stored ∈ c'.state.store.plans := (hxy.evolves.trans hyc.evolves).plans stored hstored
  rcases hsame with rfl | hsame
  · exact hkept
  · have hstoredProper := (History.good hinv).stocked.plans stored hstored
    rw [← hsep.eq_of_digest hkept hstoredProper hproper hsame]
    exact hkept

omit [Platform] in
open Bench in
set_option maxRecDepth 20000 in
theorem review_binds_bench :
    (bench proposed).state.store.plans.rows = [] ∧
      @Supervisor.reviewed Bench.platform (proposal p₁ [rest]) reviewer.id ∈
        (called proposed (.reviewProposal reviewer p₁
          (@PlanProposal.digest Bench.platform (proposal p₁ [rest]))) lost 60).state.store.plans := by
  refine ⟨by decide +kernel, ?_⟩
  have hplans : ∀ stored ∈ (called proposed (.reviewProposal reviewer p₁
      (@PlanProposal.digest Bench.platform (proposal p₁ [rest]))) lost 60).state.store.plans.rows,
      stored = @Supervisor.reviewed Bench.platform (proposal p₁ [rest]) reviewer.id := by
    decide +kernel
  have hreply : (called proposed (.reviewProposal reviewer p₁
      (@PlanProposal.digest Bench.platform (proposal p₁ [rest]))) lost 60).reply
        (bench proposed).next = some (.plan (.ok
          (@Supervisor.reviewed Bench.platform (proposal p₁ [rest]) reviewer.id))) :=
    eq_of_passed (by decide +kernel)
  have hs := called_serves (by decide +kernel) (by trivial) hreply
  obtain ⟨_, _, _, _, _, _, hmem⟩ := (@review_binds Bench.platform _ (bench_reachable proposed)).1
    _ _ _ _ _ hs ⟨fun stored hstored _ => by rw [hplans stored hstored],
      fun stored hstored _ => by rw [hplans stored hstored]; exact ⟨rfl, rfl⟩⟩
  exact hmem

end runs

end Cheirismos
