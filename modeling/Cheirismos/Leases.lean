import Cheirismos.Regularity

/-! # The lease law

Which pair holds which lease is determined by the attempts: a key is leased to a pair exactly
when the pair's highest attempt is one that keeps its lease (`Store.Holding`) and the key is
one of its resources (`Store.LeaseLaw`).

A change of the store touches one pair, or the old owners and the destination of a takeover.
`Store.Agree s s' p` says that nothing about the pair differs, and then the law carries over;
for a pair that does change, the law is a statement about its new highest attempt
(`leaseLawAt_of_top`) or about a closure (`leaseLawAt_of_closed`). -/

namespace Cheirismos

namespace Store

/-- The lease law of one pair. -/
def LeaseLawAt (s : Store) (p : Pair) : Prop :=
  ∀ key, s.Leased key p ↔ ∃ a, s.Top a ∧ a.pair = p ∧ s.Holding a ∧ a.LeaseKey key

/-- Lease ownership is determined by attempts. -/
def LeaseLaw (s : Store) : Prop := ∀ p, s.LeaseLawAt p

/-- Nothing about the pair differs. -/
structure Agree (s s' : Store) (p : Pair) : Prop where
  attempt : ∀ a, a.pair = p → (s'.Attempt a ↔ s.Attempt a)
  closed : s'.Closed p ↔ s.Closed p
  destination : s'.Destination p ↔ s.Destination p
  leased : ∀ key, s'.Leased key p ↔ s.Leased key p
  plans : ∀ plan ∈ s.plans, plan ∈ s'.plans

variable [Platform] {s s' : Store} {p : Pair}

omit [Platform] in
theorem leaseLaw_empty : LeaseLaw .empty := by
  intro p key
  constructor
  · intro hl
    exact absurd hl (Table.not_mem_empty _)
  · rintro ⟨a, htop, _⟩
    exact absurd htop.1 (Table.not_mem_empty _)

namespace Agree

omit [Platform] in
theorem top (h : Agree s s' p) {a : AttemptRecord} (hp : a.pair = p) : s'.Top a ↔ s.Top a := by
  unfold Top
  rw [h.attempt a hp]
  refine and_congr_right fun _ => forall_congr' fun b => ?_
  constructor
  · intro hb hm hbp
    exact hb ((h.attempt b (hbp.trans hp)).mpr hm) hbp
  · intro hb hm hbp
    exact hb ((h.attempt b (hbp.trans hp)).mp hm) hbp

/-- More plans do not change whether another step of a plan on record follows. -/
theorem holding (h : Agree s s' p) (hs : s.Regular) {a : AttemptRecord} (ha : s.Attempt a)
    (hp : a.pair = p) : s'.Holding a ↔ s.Holding a := by
  have hplan : (∃ plan ∈ s'.plans, plan.id = a.plan ∧
      a.operationIndex + 1 < plan.operations.length) ↔
      ∃ plan ∈ s.plans, plan.id = a.plan ∧ a.operationIndex + 1 < plan.operations.length := by
    constructor
    · rintro ⟨plan, hm, hid, hlt⟩
      obtain ⟨plan', hm', hid', _⟩ := (hs.admitted a ha).plan
      obtain rfl := plan_inj hm (h.plans plan' hm') (hid.trans hid'.symm)
      exact ⟨plan, hm', hid, hlt⟩
    · rintro ⟨plan, hm, hrest⟩
      exact ⟨plan, h.plans plan hm, hrest⟩
  subst hp
  unfold Holding
  rw [h.closed, h.destination, hplan]

theorem leaseLawAt (h : Agree s s' p) (hs : s.Regular) (hl : s.LeaseLawAt p) :
    s'.LeaseLawAt p := by
  intro key
  rw [h.leased, hl key]
  refine exists_congr fun a => ?_
  constructor
  · rintro ⟨htop, hp, hhold, hkey⟩
    exact ⟨(h.top hp).mpr htop, hp, (h.holding hs htop.1 hp).mpr hhold, hkey⟩
  · rintro ⟨htop, hp, hhold, hkey⟩
    have htop' := (h.top hp).mp htop
    exact ⟨htop', hp, (h.holding hs htop'.1 hp).mp hhold, hkey⟩

end Agree

/-! ### The law of a pair that changes -/

theorem leaseLawAt_of_top (hs : s.Regular) {a : AttemptRecord} (ha : s.Top a) :
    s.LeaseLawAt a.pair ↔
      ∀ key, s.Leased key a.pair ↔ s.Holding a ∧ a.LeaseKey key := by
  refine forall_congr' fun key => iff_congr Iff.rfl ?_
  constructor
  · rintro ⟨b, hb, hp, hrest⟩
    obtain rfl := top_inj hs.step hb ha hp
    exact hrest
  · exact fun hrest => ⟨a, ha, rfl, hrest⟩

omit [Platform] in
theorem leaseLawAt_of_closed (hc : s.Closed p) (hnone : ∀ key, ¬ s.Leased key p) :
    s.LeaseLawAt p := by
  intro key
  refine iff_of_false (hnone key) ?_
  rintro ⟨a, _, rfl, hhold, _⟩
  exact hhold.1 hc

namespace LeaseLawAt

variable (hl : s.LeaseLawAt p)

include hl

omit [Platform] in
theorem not_leased_of_closed (hc : s.Closed p) (key : String) : ¬ s.Leased key p := by
  rw [hl key]
  rintro ⟨a, _, rfl, hhold, _⟩
  exact hhold.1 hc

omit [Platform] in
theorem not_leased_of_none (hnone : ∀ a, s.Attempt a → a.pair ≠ p) (key : String) :
    ¬ s.Leased key p := by
  rw [hl key]
  rintro ⟨a, htop, hp, _⟩
  exact hnone a htop.1 hp

/-- A leased key is a resource of every attempt of its pair. -/
theorem leaseKey (hs : s.Regular) {key : String} (hk : s.Leased key p) {a : AttemptRecord}
    (ha : s.Attempt a) (hp : a.pair = p) : a.LeaseKey key := by
  obtain ⟨b, htop, hbp, _, hkey⟩ := (hl key).mp hk
  exact (AttemptRecord.leaseKey_of_snapshot
    (hs.snapshot ha htop.1 (hp.trans hbp.symm)) key).mpr hkey

end LeaseLawAt

/-- The law after the highest attempt of one pair was restated and nothing else but leases of
this pair changed. -/
theorem leaseLaw_restate (hs : s.Regular) (hs' : s'.Regular) (hl : s.LeaseLaw)
    {a a' : AttemptRecord} (ha : s.Top a) (hid : a'.identity = a.identity)
    (hatt : ∀ b, s'.Attempt b ↔ (s.setAttempt a').Attempt b)
    (hclosed : ∀ q, s'.Closed q ↔ s.Closed q) (hdest : ∀ q, s'.Destination q ↔ s.Destination q)
    (hplans : ∀ plan ∈ s.plans, plan ∈ s'.plans)
    (hothers : ∀ key q, q ≠ a.pair → (s'.Leased key q ↔ s.Leased key q))
    (hmine : ∀ key, s'.Leased key a.pair ↔ s'.Holding a' ∧ a.LeaseKey key) : s'.LeaseLaw := by
  have hpair : a'.pair = a.pair := AttemptRecord.pair_eq hid
  intro q
  by_cases hq : q = a.pair
  · have htop : s'.Top a' := by
      refine ⟨(hatt a').mpr ((attempt_setAttempt ha.1 hid).mpr (Or.inl rfl)), fun b hb hp => ?_⟩
      obtain ⟨c, hc, hci, _⟩ := attempt_setAttempt_back ha.1 hid ((hatt b).mp hb)
      rw [AttemptRecord.index_eq hci, AttemptRecord.index_eq hid]
      exact ha.2 c hc (by rw [← AttemptRecord.pair_eq hci, hp, hpair])
    rw [hq, ← hpair, leaseLawAt_of_top hs' htop]
    intro key
    rw [hpair, hmine key, AttemptRecord.leaseKey_iff hid]
  · refine Agree.leaseLawAt ⟨fun b hb => ?_, hclosed q, hdest q, fun key => hothers key q hq,
      hplans⟩ hs (hl q)
    rw [hatt b, attempt_setAttempt ha.1 hid]
    constructor
    · rintro (rfl | ⟨hb', _⟩)
      · exact absurd (hb.symm.trans hpair) hq
      · exact hb'
    · intro hb'
      refine Or.inr ⟨hb', fun he => hq ?_⟩
      obtain rfl := attempt_inj hb' ha.1 (he.trans (AttemptRecord.id_eq hid))
      exact hb.symm

/-- The same when both the old and the new attempt keep the lease and no lease changed. -/
theorem leaseLaw_keep (hs : s.Regular) (hs' : s'.Regular) (hl : s.LeaseLaw)
    {a a' : AttemptRecord} (ha : s.Top a) (hid : a'.identity = a.identity)
    (hatt : ∀ b, s'.Attempt b ↔ (s.setAttempt a').Attempt b)
    (hclosed : ∀ q, s'.Closed q ↔ s.Closed q) (hdest : ∀ q, s'.Destination q ↔ s.Destination q)
    (hplans : ∀ plan ∈ s.plans, plan ∈ s'.plans)
    (hleased : ∀ key q, s'.Leased key q ↔ s.Leased key q)
    (hhold : s.Holding a) (hhold' : s'.Holding a') : s'.LeaseLaw := by
  refine leaseLaw_restate hs hs' hl ha hid hatt hclosed hdest hplans
    (fun key q _ => hleased key q) (fun key => ?_)
  rw [hleased, (leaseLawAt_of_top hs ha).mp (hl a.pair) key]
  exact ⟨fun hk => ⟨hhold', hk.2⟩, fun hk => ⟨hhold, hk.2⟩⟩

/-- When nothing but the authority records changed. -/
theorem leaseLaw_extend (hs : s.Regular) (hl : s.LeaseLaw) (hatt : ∀ b, s'.Attempt b ↔ s.Attempt b)
    (hclosed : ∀ q, s'.Closed q ↔ s.Closed q) (hdest : ∀ q, s'.Destination q ↔ s.Destination q)
    (hplans : ∀ plan ∈ s.plans, plan ∈ s'.plans)
    (hleased : ∀ key q, s'.Leased key q ↔ s.Leased key q) : s'.LeaseLaw :=
  fun q => Agree.leaseLawAt ⟨fun b _ => hatt b, hclosed q, hdest q, fun key => hleased key q,
    hplans⟩ hs (hl q)

end Store

end Cheirismos
