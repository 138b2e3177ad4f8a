import Cheirismos.Bench
import Cheirismos.Conformance

/-! # Who holds the hardware

Leases over all runs.  `lease_iff_history` determines every lease from the attempts of its
pair, and `uncertainty_held` follows the takeovers from an attempt with an uncertain effect to
the pair that answers for its resources now.

The successor of a retired pair is looked up (`Store.successor`), so that following the
takeovers (`Store.follow`) is a computation; `Path.follow` says that it finds where they lead. -/

namespace Cheirismos

open Process

variable [Platform]

namespace Store

/-! ### Following the takeovers -/

section following

omit [Platform]

variable (s : Store)

/-- The pair that took over from a retired pair. -/
def successor (p : Pair) : Option Pair :=
  (s.recoverySourceRetirements.find? p).bind fun row =>
    (s.recoveryTakeovers.find? row.takeoverRequest).map RecoveryTakeoverRecord.pair

/-- Following the takeovers a number of times. -/
def follow : ℕ → Pair → Option Pair
  | 0, p => some p
  | n + 1, p => (s.successor p).bind (follow n)

variable {s}

theorem successor_eq_some {p q : Pair} : s.successor p = some q ↔ s.Succeeds p q := by
  unfold successor Succeeds
  simp only [Option.bind_eq_some_iff, Option.map_eq_some_iff, Table.find?_eq_some]
  constructor
  · rintro ⟨row, ⟨hrow, hp⟩, t, ⟨ht, hreq⟩, hq⟩
    exact ⟨row, hrow, hp, t, ht, hreq, hq⟩
  · rintro ⟨row, hrow, hp, t, ht, hreq, hq⟩
    exact ⟨row, ⟨hrow, hp⟩, t, ⟨ht, hreq⟩, hq⟩

theorem Path.follow {p h : Pair} (hp : s.Path p h) : ∃ n, s.follow n p = some h := by
  induction hp using Relation.ReflTransGen.head_induction_on with
  | refl => exact ⟨0, rfl⟩
  | head hs _ ih =>
      obtain ⟨n, hn⟩ := ih
      refine ⟨n + 1, ?_⟩
      rw [Store.follow, successor_eq_some.mpr hs]
      exact hn

end following

/-! ### What the invariant says of leases -/

namespace Good

variable {s : Store} (hg : s.Good)

include hg

/-- An open pair holds the whole lease of an attempt that is not settled. -/
theorem leased_of_unsettled {a : AttemptRecord} (ha : s.Attempt a) (hopen : ¬ s.Closed a.pair)
    (hs : a.state = .intent ∨ a.state = .dispatched ∨ a.state = .partially ∨ a.state = .unknown)
    {key : String} (hk : a.LeaseKey key) : s.Leased key a.pair := by
  have hne : a.state ≠ .completed := by
    rcases hs with e | e | e | e <;> rw [e] <;> decide
  refine (hg.leases a.pair key).mpr ⟨a, hg.regular.top_of_not_completed ha hne, rfl, ⟨hopen, ?_⟩, hk⟩
  rcases hs with e | e | e | e <;> simp [e]

/-- A halted pair has no attempt with an uncertain effect. -/
theorem unhalted_of_uncertain {a : AttemptRecord} (ha : s.Attempt a)
    (hs : a.state = .partially ∨ a.state = .unknown) : ¬ s.Halted a.pair := by
  intro hh
  rcases (hg.regular.halted _ hh).2 a ha rfl with e | e <;> rw [e] at hs <;> rcases hs with e | e <;>
    cases e

end Good

namespace Regular

variable {s : Store} (hs : s.Regular)

include hs

/-- A takeover passes the resources on as they are. -/
theorem succeeds_resources {p q : Pair} (h : s.Succeeds p q) {a : AttemptRecord}
    (ha : s.Attempt a) (hp : a.pair = p) :
    ∃ b, s.Attempt b ∧ b.pair = q ∧ b.leasedResources = a.leasedResources := by
  obtain ⟨row, hrow, hpair, t, ht, hreq, rfl⟩ := h
  obtain ⟨t', ht', hreq', source, hsource, hsp, _, hsr⟩ := hs.source row hrow
  obtain rfl := s.recoveryTakeovers.eq_of_key_eq ht ht' (hreq.trans hreq'.symm)
  obtain ⟨b, hb, _, hbp, _, hbr⟩ := (hs.transferred t ht).first
  have hshare := hs.snapshot hsource ha (hsp.trans (hpair.trans hp.symm))
  refine ⟨b, hb, hbp, ?_⟩
  rw [hbr, ← hsr]
  exact congrArg PairSnapshot.leasedResources hshare

/-- Along the takeovers the resources stay the same. -/
theorem path_resources {p h : Pair} (hpath : s.Path p h) {a : AttemptRecord} (ha : s.Attempt a)
    (hp : a.pair = p) : (h = p ∨ s.Destination h) ∧
      ∃ b, s.Attempt b ∧ b.pair = h ∧ b.leasedResources = a.leasedResources := by
  induction hpath with
  | refl => exact ⟨Or.inl rfl, a, ha, hp, rfl⟩
  | tail _ hstep ih =>
      obtain ⟨_, b, hb, hbp, hbr⟩ := ih
      obtain ⟨c, hc, hcp, hcr⟩ := hs.succeeds_resources hstep hb hbp
      exact ⟨Or.inr hstep.destination, c, hc, hcp, hcr.trans hbr⟩

/-- Every retired pair has a successor. -/
theorem successor_of_retired {p : Pair} (hr : s.Retired p) : ∃ q, s.successor p = some q := by
  obtain ⟨row, hrow, rfl⟩ := hr
  obtain ⟨t, ht, hreq, _⟩ := hs.source row hrow
  exact ⟨t.pair, successor_eq_some.mpr ⟨row, hrow, rfl, t, ht, hreq, rfl⟩⟩

end Regular

/-- Every operation of the pair's plan has a completed attempt. -/
def Finished (s : Store) (p : Pair) : Prop :=
  ∃ plan ∈ s.plans, plan.id = p.2 ∧ ∀ index < plan.operations.length,
    ∃ a, s.Attempt a ∧ a.pair = p ∧ a.operationIndex = index ∧ a.state = .completed

namespace Good

variable {s : Store} (hg : s.Good)

include hg

/-- An open destination holds its lease, or it has finished its plan. -/
theorem leased_or_finished {b : AttemptRecord} (hb : s.Attempt b) (hopen : ¬ s.Closed b.pair)
    (hd : s.Destination b.pair) :
    (∀ key, b.LeaseKey key → s.Leased key b.pair) ∨ s.Finished b.pair := by
  have hs := hg.regular
  obtain ⟨a, htop, hp⟩ := hs.exists_top hb
  obtain ⟨plan, hm, hid, _, hlt, _⟩ := (hs.admitted a htop.1).plan
  by_cases hfin : a.state = .completed ∧ a.operationIndex + 1 = plan.operations.length
  · obtain ⟨hstate, hlast⟩ := hfin
    refine Or.inr ⟨plan, hm, hid.trans (congrArg Prod.snd hp), fun index hindex => ?_⟩
    rcases Nat.lt_or_ge index a.operationIndex with hlt' | hge
    · obtain ⟨c, hc, hcp, hci, hcs, _⟩ := hs.earlier htop.1 hlt'
      exact ⟨c, hc, hcp.trans hp, hci, hcs⟩
    · have hle : index < a.operationIndex + 1 := hlast ▸ hindex
      exact ⟨a, htop.1, hp, le_antisymm hge (Nat.lt_succ_iff.mp hle), hstate⟩
  · refine Or.inl fun key hk => ?_
    have hka : a.LeaseKey key :=
      (AttemptRecord.leaseKey_of_snapshot (hs.snapshot hb htop.1 hp.symm) key).mp hk
    rw [← hp]
    refine (hg.leases a.pair key).mpr ⟨a, htop, rfl, ⟨hp ▸ hopen, ?_⟩, hka⟩
    cases hst : a.state with
    | completed =>
        have hmore : a.operationIndex + 1 < plan.operations.length :=
          lt_of_le_of_ne hlt fun he => hfin ⟨hst, he⟩
        exact Or.inr (Or.inr (Or.inr (Or.inr (Or.inl ⟨rfl, plan, hm, hid, hmore⟩))))
    | rejected => exact Or.inr (Or.inr (Or.inr (Or.inr (Or.inr ⟨rfl, hp ▸ hd⟩))))
    | _ => simp

/-- A pair that has finished its plan holds nothing. -/
theorem not_leased_of_finished {p : Pair} (hf : s.Finished p) (key : String) :
    ¬ s.Leased key p := by
  intro hl
  have hs := hg.regular
  obtain ⟨a, htop, rfl, hhold, _⟩ := (hg.leases p key).mp hl
  obtain ⟨plan, hm, hid, hall⟩ := hf
  have hlt := hs.plan_of htop.1 hm hid
  -- the highest attempt is that of the last operation
  obtain ⟨b, hb, hbp, hbi, hbs⟩ := hall (plan.operations.length - 1) (by omega)
  have hle := htop.2 b hb hbp
  obtain rfl := hs.step b a hb htop.1 hbp (by omega)
  rcases hhold.2 with e | e | e | e | ⟨_, plan', hm', hid', hmore⟩ | ⟨e, _⟩
  · rw [hbs] at e; cases e
  · rw [hbs] at e; cases e
  · rw [hbs] at e; cases e
  · rw [hbs] at e; cases e
  · obtain rfl := plan_inj hm hm' (hid.trans hid'.symm)
    omega
  · rw [hbs] at e; cases e

/-- From an attempt with an uncertain effect the takeovers lead to a pair that holds its
resources, or that has finished its recovery. -/
theorem uncertain_held {x : AttemptRecord} (hx : s.Attempt x)
    (hu : x.state = .partially ∨ x.state = .unknown) :
    ∃ n h, s.follow n x.pair = some h ∧ ¬ s.Retired h ∧
      ((∀ key, x.LeaseKey key → s.Leased key h) ∨ (s.Destination h ∧ s.Finished h)) := by
  obtain ⟨h, hpath, hret⟩ := hg.regular.chain x.pair
  obtain ⟨n, hn⟩ := hpath.follow
  refine ⟨n, h, hn, hret, ?_⟩
  obtain ⟨horigin, b, hb, rfl, hbr⟩ := hg.regular.path_resources hpath hx rfl
  have hkeys : ∀ key, x.LeaseKey key → b.LeaseKey key := fun key ⟨r, hr, hk⟩ =>
    ⟨r, hbr ▸ hr, hk⟩
  by_cases hd : s.Destination b.pair
  · have hopen : ¬ s.Closed b.pair := by
      rintro (hh | hr)
      · exact (hg.regular.halted _ hh).1 hd
      · exact hret hr
    rcases hg.leased_or_finished hb hopen hd with hl | hf
    · exact Or.inl fun key hk => hl key (hkeys key hk)
    · exact Or.inr ⟨hd, hf⟩
  · have hself := horigin.resolve_right hd
    rw [hself] at hret ⊢
    have hopen : ¬ s.Closed x.pair := by
      rintro (hh | hr)
      · exact hg.unhalted_of_uncertain hx hu hh
      · exact hret hr
    exact Or.inl fun key hk => hg.leased_of_unsettled hx hopen (Or.inr (Or.inr hu)) hk

end Good

end Store

/-! ### Over all runs -/

section runs

variable {c : daemon.Config}

/-- A key is leased to a pair exactly when the pair is open, the key is one of its resources,
and its highest attempt is unsettled, completed with operations to go, or rejected in a
recovery.  So a closed or finished pair holds nothing, an uncertain effect always has its
full lease somewhere, and two pairs never share a resource. -/
theorem lease_iff_history (h : Reachable c) :
    (∀ key p, c.state.store.Leased key p ↔
      ¬ c.state.store.Halted p ∧ ¬ c.state.store.Retired p ∧
      ∃ a, c.state.store.Top a ∧ a.pair = p ∧ a.LeaseKey key ∧
        (a.state = .intent ∨ a.state = .dispatched ∨ a.state = .partially ∨ a.state = .unknown ∨
          (a.state = .completed ∧ ∃ plan ∈ c.state.store.plans, plan.id = a.plan ∧
            a.operationIndex + 1 < plan.operations.length) ∨
          (a.state = .rejected ∧ c.state.store.Destination p))) ∧
    (∀ a, c.state.store.Attempt a → a.state = .dispatched → ∀ key, a.LeaseKey key →
      c.state.store.Leased key a.pair) ∧
    (∀ a, c.state.store.Attempt a → a.state = .partially ∨ a.state = .unknown →
      ∃ n q, c.state.store.follow n a.pair = some q ∧ ((∀ key, a.LeaseKey key →
        c.state.store.Leased key q) ∨ c.state.store.Destination q ∧ c.state.store.Finished q)) ∧
    (∀ key p, c.state.store.Halted p ∨ c.state.store.Retired p ∨ c.state.store.Finished p →
      ¬ c.state.store.Leased key p) ∧
    ∀ key p q, c.state.store.Leased key p → c.state.store.Leased key q → p = q := by
  have hg := h.good
  refine ⟨fun key p => ?_, ?_, ?_, ?_, fun key p q hp hq => Store.leased_inj hp hq⟩
  · rw [hg.leases p key]
    constructor
    · rintro ⟨a, htop, rfl, ⟨hopen, hstate⟩, hk⟩
      exact ⟨fun hh => hopen (Or.inl hh), fun hr => hopen (Or.inr hr), a, htop, rfl, hk, hstate⟩
    · rintro ⟨hh, hr, a, htop, rfl, hk, hstate⟩
      exact ⟨a, htop, rfl, ⟨fun hc => hc.elim hh hr, hstate⟩, hk⟩
  · intro a ha hd key hk
    exact hg.leased_of_unsettled ha (hg.regular.open_of_dispatched ha hd) (Or.inr (Or.inl hd)) hk
  · intro a ha hu
    obtain ⟨n, q, hn, _, hheld⟩ := hg.uncertain_held ha hu
    exact ⟨n, q, hn, hheld⟩
  · rintro key p (hh | hr | hf)
    · exact (hg.leases p).not_leased_of_closed (Or.inl hh) key
    · exact (hg.leases p).not_leased_of_closed (Or.inr hr) key
    · exact hg.not_leased_of_finished hf key

omit [Platform] in
open Bench in
set_option maxRecDepth 20000 in
theorem lease_iff_history_bench :
    ∃ a, (bench routine).state.store.Top a ∧ a.pair = (g₁, p₁) := by
  have hleased : (bench routine).state.store.Leased
      (PhysicalResource.target (mark "target")).key (g₁, p₁) :=
    Store.leased_iff.mp (by decide +kernel)
  obtain ⟨_, _, a, htop, hp, _⟩ :=
    ((@lease_iff_history Bench.platform _ (bench_reachable routine)).1 _ _).mp hleased
  exact ⟨a, htop, hp⟩

/-- An uncertain effect is never silently released: following the takeovers from its pair ends
at a pair that is not retired, and that pair holds every resource of the attempt or has
completed every operation of its recovery plan. -/
theorem uncertainty_held (h : Reachable c) {x : AttemptRecord} (hx : c.state.store.Attempt x)
    (hu : x.state = .partially ∨ x.state = .unknown) :
    (∀ p, c.state.store.Retired p → ∃ q, c.state.store.successor p = some q) ∧
    ∃ n q, c.state.store.follow n x.pair = some q ∧ ¬ c.state.store.Retired q ∧
      ((∀ key, x.LeaseKey key → c.state.store.Leased key q) ∨
        (c.state.store.Destination q ∧ c.state.store.Finished q)) :=
  ⟨fun _ => h.good.regular.successor_of_retired, h.good.uncertain_held hx hu⟩

omit [Platform] in
open Bench in
set_option maxRecDepth 20000 in
theorem uncertainty_held_bench : ∃ x n q, (bench relapsed).state.store.Attempt x ∧ x.id = a₁ ∧
    (bench relapsed).state.store.Retired x.pair ∧
    (bench relapsed).state.store.follow n x.pair = some q ∧
    ¬ (bench relapsed).state.store.Retired q := by
  have hreach := bench_reachable relapsed
  obtain ⟨source, hsource, hretired⟩ :
      ∃ source ∈ (bench relapsed).state.store.recoverySourceRetirements.rows,
        source.pair = (g₁, p₁) := by decide +kernel
  obtain ⟨x, hx, hunknown, hid, hpair⟩ := @Reachable.attempt_of_rows Bench.platform _ hreach
    (fun x => x.state = .unknown ∧ x.id = a₁ ∧ x.pair = (g₁, p₁)) (by decide +kernel)
  obtain ⟨_, n, q, hn, hret, _⟩ := @uncertainty_held Bench.platform _ hreach _ hx (Or.inr hunknown)
  exact ⟨x, n, q, hx, hid, ⟨source, hsource, hretired.trans hpair.symm⟩, hn, hret⟩

end runs

end Cheirismos
