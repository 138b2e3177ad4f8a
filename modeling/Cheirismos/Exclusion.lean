import Cheirismos.Dispatches
import Cheirismos.Sessions

/-! # Exclusive use of the hardware

A dispatch or a reconciliation uses the hardware from its claim until its outcome is recorded
(`Store.Busy`).  A use holds the leases of its attempt, so two uses that are under way share no
resource (`Store.Good.occupies_inj`).

A use that is under way stays so until the thread that claimed it records the outcome, or a
restart interrupts it and ends the thread (`Reachable.settler`); and whoever calls the backend has
claimed the use and not settled it (`Reachable.busy`).  So of two calls of the backend on one
resource, in any run, the use of the earlier was settled before the later was made
(`hardware_exclusive`): their windows, which is all the time in which a device may move, do not
overlap. -/

namespace Cheirismos

open Process

section exclusion

variable [Platform]

/-! ### Uses -/

/-- A dispatch of an attempt, or a reconciliation. -/
inductive Use where
  | dispatch (attempt : AttemptId)
  | reconciliation (request : RequestId)
  deriving DecidableEq

/-- The use that the call ends, if it is under way. -/
def StoreCall.ends : StoreCall → Option Use
  | .recordReceipt id _ _ => some (.dispatch id)
  | .updateAttempt a => some (.dispatch a.id)
  | .finishReconciliation request _ _ _ => some (.reconciliation request)
  | .updateReconciliation r => some (.reconciliation r.request)
  | _ => none

omit [Platform] in
theorem StoreCall.ends_reads {call : StoreCall} (h : call.reads = true) : call.ends = none := by
  cases call <;> first | rfl | cases h

namespace Store

/-- The use is under way, for the attempt. -/
def Busy (s : Store) : Use → AttemptRecord → Prop
  | .dispatch id, a => s.Attempt a ∧ a.id = id ∧ a.state = .dispatched
  | .reconciliation request, a =>
      s.Attempt a ∧ ∃ r, s.Witness r ∧ r.request = request ∧ r.state = .claimed ∧ a.id = r.attempt

/-- The use is under way, and the resource is one of its attempt's. -/
def Occupies (s : Store) (u : Use) (key : String) : Prop := ∃ a, s.Busy u a ∧ a.LeaseKey key

variable {s s' : Store} {u u' : Use} {a a' : AttemptRecord}

omit [Platform] in
theorem Busy.attempt (h : s.Busy u a) : s.Attempt a := by
  cases u <;> exact h.1

namespace Good

variable (hg : s.Good)

include hg

/-- A use has an open pair, and its attempt is the last of it. -/
theorem busy_state (h : s.Busy u a) :
    ¬ s.Closed a.pair ∧ (a.state = .dispatched ∨ a.state = .unknown) := by
  cases u with
  | dispatch id => exact ⟨hg.regular.open_of_dispatched h.1 h.2.2, Or.inl h.2.2⟩
  | reconciliation request =>
      obtain ⟨ha, r, hr, _, hstate, hid⟩ := h
      obtain ⟨hunknown, hopen⟩ := hg.regular.claimed r a hr hstate ha hid
      exact ⟨hopen, Or.inr hunknown⟩

/-- A use holds every lease of its attempt. -/
theorem leased_of_busy (h : s.Busy u a) {key : String} (hk : a.LeaseKey key) :
    s.Leased key a.pair := by
  obtain ⟨hopen, hstate⟩ := hg.busy_state h
  exact hg.leased_of_unsettled h.attempt hopen
    (hstate.elim (fun e => Or.inr (Or.inl e)) fun e => Or.inr (Or.inr (Or.inr e))) hk

/-- One attempt has one use at a time. -/
theorem busy_inj (h : s.Busy u a) (h' : s.Busy u' a) : u = u' := by
  have hclash : ∀ r, s.Witness r → r.state = .claimed → a.id = r.attempt →
      a.state ≠ .dispatched := by
    intro r hr hstate hid hd
    have hu := (hg.regular.claimed r a hr hstate h.attempt hid).1
    rw [hd] at hu
    cases hu
  cases u with
  | dispatch id =>
      cases u' with
      | dispatch id' => exact congrArg Use.dispatch (h.2.1.symm.trans h'.2.1)
      | reconciliation request =>
          obtain ⟨_, r, hr, _, hstate, hid⟩ := h'
          exact absurd h.2.2 (hclash r hr hstate hid)
  | reconciliation request =>
      obtain ⟨_, r, hr, hreq, hstate, hid⟩ := h
      cases u' with
      | dispatch id => exact absurd h'.2.2 (hclash r hr hstate hid)
      | reconciliation request' =>
          obtain ⟨_, r', hr', hreq', hstate', hid'⟩ := h'
          obtain rfl := hg.regular.claim r r' hr hr' hstate hstate' (hid.symm.trans hid')
          exact congrArg Use.reconciliation (hreq.symm.trans hreq')

/-- Two uses that are under way share no resource. -/
theorem occupies_inj {key : String} (h : s.Occupies u key) (h' : s.Occupies u' key) : u = u' := by
  obtain ⟨a, hb, hk⟩ := h
  obtain ⟨a', hb', hk'⟩ := h'
  have hpair : a.pair = a'.pair :=
    leased_inj (hg.leased_of_busy hb hk) (hg.leased_of_busy hb' hk')
  have htop : ∀ {v : Use} {b : AttemptRecord}, s.Busy v b → s.Top b := by
    intro v b hv
    refine hg.regular.top_of_not_completed hv.attempt ?_
    rcases (hg.busy_state hv).2 with e | e <;> rw [e] <;> decide
  obtain rfl := top_inj hg.regular.step (htop hb) (htop hb') hpair
  exact hg.busy_inj hb hb'

end Good

end Store

/-! ### What ends a use -/

section changes

open Store

variable {s s' : Store} {u : Use} {a : AttemptRecord}

/-- A change leaves every open witness but the one it concludes. -/
theorem Change.spares_witness {call : StoreCall} (hs : s.Regular) (h : Change s call s')
    {r : ReconciliationRecord} (hr : s.Witness r)
    (hne : call.ends ≠ some (.reconciliation r.request)) : s'.Witness r := by
  have hset : ∀ {q q' : ReconciliationRecord}, s.Witness q → q'.request = q.request →
      q'.attempt = q.attempt → q'.ordinal = q.ordinal → r.request ≠ q.request →
      (s.setReconciliation q').Witness r := by
    intro q q' hq hreq hatt hord hne
    refine (witness_setReconciliation hq hreq hatt hord).mpr (Or.inr ⟨hr, ?_⟩)
    rw [hreq]
    exact hne
  cases h with
  | records records budgets runs stocked frame =>
      rw [frame]
      exact hr
  | abandon unhalted noDestination rejects resolved settled released recorded =>
      have hframe := (RejectsIntent.back hs.coherent rejects).2.1
      rw [hframe]
      exact hr
  | @receipt now receipt a release _ attempt dispatched flag result =>
      rcases result with ⟨_, _, rfl⟩ | ⟨_, rfl⟩ <;> exact hr
  | @investigate now now' request principal budget a granted grants claimed reconciliations _
      claims configuration charges opened result =>
      rcases result with ⟨_, rfl⟩ | ⟨_, rfl⟩ <;>
        exact (witness_of_rows opened).mpr (Or.inr hr)
  | @conclude now now' receipt completed release q a result _ witness claimed attempt subject flag
      finishes =>
      have h1 : (s.setReconciliation (finished now receipt completed q)).Witness r :=
        hset witness rfl rfl rfl fun he => hne (by rw [he]; rfl)
      cases finishes <;> exact h1
  | @interruptWitness now q witness claimed =>
      exact hset witness rfl rfl rfl fun he => hne (by rw [he]; rfl)
  | _ => exact hr

/-- A use that is under way stays so under every call that does not end it. -/
theorem Change.busy {call : StoreCall} (hg : s.Good) (h : Change s call s') (hb : s.Busy u a)
    (hne : call.ends ≠ some u) : ∃ a', s'.Busy u a' := by
  cases u with
  | dispatch id =>
      obtain ⟨ha, rfl, hd⟩ := hb
      refine ⟨a, h.spares hg ha hd ?_, rfl, hd⟩
      intro he
      cases call <;> simp_all [StoreCall.settles, StoreCall.ends]
  | reconciliation request =>
      obtain ⟨ha, r, hr, rfl, hstate, hid⟩ := hb
      obtain ⟨a', ha', hc⟩ := (h.evolves hg).attempts a ha
      exact ⟨a', ha', r, h.spares_witness hg.regular hr hne, rfl, hstate,
        (AttemptRecord.id_eq hc.identity).trans hid⟩

omit [Platform] in
/-- A use is for one attempt. -/
theorem Store.Busy.evolve {b : AttemptRecord} (h : s.Busy u a) (he : Evolves s s')
    (h' : s'.Busy u b) : b.identity = a.identity := by
  obtain ⟨a', ha', hc⟩ := he.attempts a h.attempt
  have hsame : b.id = a'.id := by
    rw [AttemptRecord.id_eq hc.identity]
    cases u with
    | dispatch id => exact h'.2.1.trans h.2.1.symm
    | reconciliation request =>
        obtain ⟨_, r, hr, hreq, _, hid⟩ := h
        obtain ⟨_, r', hr', hreq', _, hid'⟩ := h'
        obtain ⟨r₁, hr₁, hcont⟩ := he.witnesses r hr
        obtain rfl := witness_inj hr₁ hr' (hcont.request.trans (hreq.trans hreq'.symm))
        exact hid'.trans (hcont.attempt.trans hid.symm)
  obtain rfl := attempt_inj h'.attempt ha' hsame
  exact hc.identity

end changes

/-! ### Claims and calls -/

namespace Use

/-- The event, after these, is the successful claim of the use. -/
def Claims : Use → Event machine → List (Event machine) → Prop
  | .dispatch id, e, older => ∃ c : DispatchClaim, c.attempt = id ∧ c.event = e ∧ c.older = older
  | .reconciliation request, e, older =>
      ∃ c : WitnessClaim, c.request = request ∧ c.event = e ∧ c.older = older

/-- The event is the call of the backend that the use is for. -/
def Calls : Use → Event machine → Prop
  | .dispatch id, e => Executes id e
  | .reconciliation request, e => Investigates request e

/-- The event ends the use. -/
def Settles (u : Use) (e : Event machine) : Prop :=
  (∃ a, e.before.store.Busy u a) ∧ ∀ a, ¬ e.after.store.Busy u a

end Use

/-- Requests that only a restart makes. -/
def Request.restarts : Request → Prop
  | .store (.updateAttempt _) | .store (.updateReconciliation _) => True
  | _ => False

/-- Requests that claim a use, which no restart makes. -/
def Request.claims : Request → Prop
  | .store (.claimDispatch _ _) | .store (.claimReconciliation _ _ _ _) => True
  | _ => False

theorem discipline_divides : discipline.Divides Request.restarts Request.claims where
  legal t x r hl hb := by
    unfold Request.restarts at hb
    split at hb
    · exact hl
    · exact hl
    · exact hb
  bootLegal t x r hl hs := by
    unfold Request.claims at hs
    split at hs
    · cases hl
    · cases hl
    · exact hs

section history

variable {past : List (Event machine)} {w : World} {u : Use} {e : Event machine}
  {older : List (Event machine)}

theorem Use.Claims.claims (h : u.Claims e older) : e.request.claims := by
  cases u with
  | dispatch id =>
      obtain ⟨c, _, rfl, _⟩ := h
      trivial
  | reconciliation request =>
      obtain ⟨c, _, rfl, _⟩ := h
      trivial

/-- A use is claimed once. -/
theorem Use.Claims.unique (hist : History past w) {e' : Event machine}
    {older' : List (Event machine)} (hin : (e :: older) <:+ past) (hin' : (e' :: older') <:+ past)
    (h : u.Claims e older) (h' : u.Claims e' older') : e = e' ∧ older = older' := by
  cases u with
  | dispatch id =>
      obtain ⟨c, hc, rfl, rfl⟩ := h
      obtain ⟨c', hc', rfl, rfl⟩ := h'
      exact DispatchClaim.unique hist hin hin' (hc.trans hc'.symm)
  | reconciliation request =>
      obtain ⟨c, hc, rfl, rfl⟩ := h
      obtain ⟨c', hc', rfl, rfl⟩ := h'
      exact WitnessClaim.unique hist hin hin' (hc.trans hc'.symm)

/-- Right after its claim a use is under way. -/
theorem Use.Claims.busy (hist : History past w) (hin : (e :: older) <:+ past)
    (h : u.Claims e older) : ∃ a, e.after.store.Busy u a := by
  have hg := hist.good_before hin
  cases u with
  | dispatch id =>
      obtain ⟨c, rfl, rfl, rfl⟩ := h
      obtain ⟨ha, hid, hd⟩ := c.after hg
      exact ⟨_, ha, hid, hd⟩
  | reconciliation request =>
      obtain ⟨c, rfl, rfl, rfl⟩ := h
      obtain ⟨hr, hreq, ha, hid⟩ := c.after hg
      obtain ⟨_, _, _, _, _, hclaims, _⟩ := c.spec hg
      exact ⟨_, ha, _, hr, hreq, hclaims.recordState, hid⟩

/-- Whoever calls the backend has claimed the use and has only read since. -/
theorem Use.Calls.claimed (hist : History past w) (hin : (e :: older) <:+ past) (h : u.Calls e) :
    ∃ since c base, older = since ++ c :: base ∧ c.thread = e.thread ∧ u.Claims c base ∧
      ∀ x ∈ since, x.thread = e.thread → Quiet x.request := by
  cases u with
  | dispatch id =>
      obtain ⟨dispatch, hd, hid⟩ := h
      obtain ⟨c, since, planned, expiries, hc⟩ := hist.dispatchable hin hd
      obtain ⟨h1, h2, _⟩ := hc.attempt_eq (hist.before hin)
      exact ⟨since, c.event, c.older, hc.past, hc.thread,
        ⟨c, (h1.trans h2).symm.trans hid, rfl, rfl⟩, hc.quiet⟩
  | reconciliation request =>
      obtain ⟨reconciliation, hr⟩ := h
      obtain ⟨c, since, hc⟩ := hist.reconcilable hin hr
      exact ⟨since, c.event, c.older, hc.past, hc.thread, ⟨c, hc.subject, rfl, rfl⟩, hc.quiet⟩

/-- The backend is called once for a use. -/
theorem Use.calls_once (hist : History past w) (u : Use) : Once u.Calls past := by
  cases u with
  | dispatch id => exact hist.executes_once id
  | reconciliation request => exact hist.investigates_once request

/-- A call of the backend changes no record. -/
theorem Use.Calls.after_store (h : u.Calls e) : e.after.store = e.before.store := by
  unfold Event.after
  cases u with
  | dispatch id =>
      obtain ⟨dispatch, hr, _⟩ := h
      rw [hr]
      rfl
  | reconciliation request =>
      obtain ⟨reconciliation, hr⟩ := h
      rw [hr]
      rfl

/-- A call of the store that ends a use is made by the thread that claimed it, or by a
restart. -/
theorem Use.ends_claimed (hist : History past w) (hin : (e :: older) <:+ past) {call : StoreCall}
    (hr : e.request = .store call) (he : call.ends = some u) :
    (∃ c base, (c :: base) <:+ older ∧ c.thread = e.thread ∧ u.Claims c base) ∨
      e.request.restarts := by
  have hs := (hist.recorded hin).1
  rw [hr] at hs ⊢
  cases call with
  | recordReceipt id receipt release =>
      cases he
      obtain ⟨c, since, hc⟩ := hs.resolve_right (by intro hb; cases hb)
      exact Or.inl ⟨c.event, c.older, ⟨since, hc.past.symm⟩, hc.thread, c, hc.subject, rfl, rfl⟩
  | finishReconciliation request receipt completed release =>
      cases he
      obtain ⟨c, since, hc⟩ := hs.resolve_right (by intro hb; cases hb)
      exact Or.inl ⟨c.event, c.older, ⟨since, hc.past.symm⟩, hc.thread, c, hc.subject, rfl, rfl⟩
  | updateAttempt a => exact Or.inr trivial
  | updateReconciliation r => exact Or.inr trivial
  | _ => cases he

/-- An event after which a use is no longer under way is a call that ends it. -/
theorem Use.Settles.ends (hist : History past w) (hin : (e :: older) <:+ past)
    (h : u.Settles e) : ∃ call, e.request = .store call ∧ call.ends = some u := by
  obtain ⟨⟨a, hb⟩, hnone⟩ := h
  obtain ⟨hs, hold⟩ := hist.recorded hin
  obtain ⟨call, hr | hsame, hc⟩ := hs.change hold (History.continuous hold) e.choice
  · refine ⟨call, hr, ?_⟩
    by_contra hne
    obtain ⟨a', hb'⟩ := hc.busy (History.good hold) hb hne
    exact hnone a' hb'
  · have hafter : e.after.store = e.before.store := hsame
    exact absurd (hafter ▸ hb) (hnone a)

/-- A use that was under way after one event and is not now was settled in between. -/
theorem Use.settled (hist : History past w) (hin : (e :: older) <:+ past)
    (hb : ∃ a, e.after.store.Busy u a) (hnow : ¬ ∃ a, w.store.Busy u a) :
    ∃ x mid, (x :: mid) <:+ past ∧ (e :: older) <:+ mid ∧ u.Settles x := by
  have henv : ∀ w w' : World, machine.environment w w' → (∃ a, w.store.Busy u a) →
      ∃ a, w'.store.Busy u a := by
    intro w w' hw hp
    rw [show w'.store = w.store from hw]
    exact hp
  obtain ⟨x, mid, hx, hmid, hbefore, hafter⟩ := Chronicle.stopped henv hist hin hb hnow
  exact ⟨x, mid, hx, hmid, hbefore, fun a ha => hafter ⟨a, ha⟩⟩

end history

/-! ### Over all runs -/

section runs

variable {c : daemon.Config} {u u' : Use} {e e' : Event machine} {older older' : List (Event machine)}

/-- Whoever settles a use has claimed it, or is a restart after which the one who did is gone. -/
theorem Reachable.settler (h : Reachable c) {x : Event machine} {mid : List (Event machine)}
    (hx : (x :: mid) <:+ c.history) (hset : u.Settles x) {claim : Event machine}
    {base : List (Event machine)} (hc : (claim :: base) <:+ mid) (hcl : u.Claims claim base) :
    x.thread = claim.thread ∨ x.request.restarts ∧ ∀ e older, (e :: older) <:+ c.history →
      (x :: mid) <:+ older → e.thread ≠ claim.thread := by
  have hist := h.history
  obtain ⟨call, hr, hends⟩ := hset.ends hist hx
  rcases Use.ends_claimed hist hx hr hends with ⟨claim', base', hc', ht, hcl'⟩ | hres
  · have hmid := (List.suffix_cons x mid).trans hx
    obtain ⟨rfl, _⟩ := Use.Claims.unique hist (hc.trans hmid) (hc'.trans hmid) hcl hcl'
    exact Or.inl ht.symm
  · refine Or.inr ⟨hres, fun e older he hxe => ?_⟩
    exact (discipline_sound.severed discipline_divides h he hxe hres
      (hc.subset List.mem_cons_self) hcl.claims).symm

/-- The backend is only called for a use that is under way. -/
theorem Reachable.busy (h : Reachable c) (he : (e :: older) <:+ c.history) (hu : u.Calls e) :
    ∃ a, e.before.store.Busy u a := by
  have hist := h.history
  obtain ⟨since, claim, base, rfl, ht, hcl, hquiet⟩ := hu.claimed hist he
  have hsuf : (claim :: base) <:+ since ++ claim :: base := List.suffix_append _ _
  have hbefore := hist.before he
  by_contra hnone
  obtain ⟨x, mid, hx, hmid, hset⟩ :=
    Use.settled hbefore hsuf (hcl.busy hbefore hsuf) hnone
  have hin := hx.trans ((List.suffix_cons _ _).trans he)
  rcases h.settler hin hset hmid hcl with hsame | ⟨_, hgone⟩
  · -- the thread has only read since its claim
    obtain ⟨call, hr, hends⟩ := hset.ends h.history hin
    have hq := hquiet x (mem_of_suffix_append hx hmid) (hsame.trans ht)
    rw [hr] at hq
    rw [StoreCall.ends_reads hq] at hends
    cases hends
  · exact hgone e _ he hx ht.symm

/-- In every run two uses of the hardware that are under way, each a dispatch or a
reconciliation that was claimed, share no physical resource.  The backend is only called for a
use that is under way, which holds all its leases.  So when it is called for two uses of one
resource, the earlier was settled before the later call: by the thread that claimed it, or by a
restart after which that thread does nothing more. -/
theorem hardware_exclusive (h : Reachable c) :
    (∀ key u u', c.state.store.Occupies u key → c.state.store.Occupies u' key → u = u') ∧
    (∀ e older u, (e :: older) <:+ c.history → u.Calls e → ∃ a, e.before.store.Busy u a ∧
      ∀ key, a.LeaseKey key → e.before.store.Leased key a.pair) ∧
    ∀ e older e' older' u u' key, (e :: older) <:+ c.history → (e' :: older') <:+ older →
      u.Calls e → u'.Calls e' → e.before.store.Occupies u key → e'.before.store.Occupies u' key →
      ∃ x mid, (x :: mid) <:+ older ∧ (e' :: older') <:+ mid ∧ u'.Settles x ∧
        (x.thread = e'.thread ∨ x.request.restarts ∧ ∀ y newer, (y :: newer) <:+ c.history →
          (x :: mid) <:+ newer → y.thread ≠ e'.thread) := by
  refine ⟨fun key u u' hu hu' => h.good.occupies_inj hu hu', fun e older u he hu => ?_, ?_⟩
  · obtain ⟨a, ha⟩ := h.busy he hu
    exact ⟨a, ha, fun key hk => (h.history.good_before he).leased_of_busy ha hk⟩
  · intro e older e' older' u u' key he he' hu hu' hocc hocc'
    have hist := h.history
    have hbefore := hist.before he
    have hin' := he'.trans ((List.suffix_cons e older).trans he)
    -- the earlier use is another one, which is over by now
    have hne : u ≠ u' := by
      rintro rfl
      exact Use.calls_once hist u e older he hu e' (he'.subset List.mem_cons_self) hu'
    obtain ⟨a', hb', hk'⟩ := hocc'
    have hover : ¬ ∃ b, e.before.store.Busy u' b := by
      rintro ⟨b, hb⟩
      have hid := hb'.evolve (hbefore.evolves_before he') hb
      have hk : b.LeaseKey key := (AttemptRecord.leaseKey_iff hid key).mpr hk'
      exact hne ((hist.good_before he).occupies_inj hocc ⟨b, hb, hk⟩)
    obtain ⟨x, mid, hx, hmid, hset⟩ :=
      Use.settled hbefore he' ⟨a', hu'.after_store ▸ hb'⟩ hover
    obtain ⟨since, claim, base, rfl, ht, hcl, _⟩ := hu'.claimed hist hin'
    have hclaim : (claim :: base) <:+ mid :=
      ((List.suffix_append since _).trans (List.suffix_cons e' _)).trans hmid
    refine ⟨x, mid, hx, hmid, hset, ?_⟩
    rw [← ht]
    exact h.settler (hx.trans ((List.suffix_cons e older).trans he)) hset hclaim hcl

end runs

end exclusion

/-! ### On the bench -/

/-- A call of `Backend::execute` while every attempt on record has the resource. -/
def touches (resource : PhysicalResource) (e : @Event _ (@machine Bench.platform)) : Bool :=
  e.request.executes && e.before.store.attempts.rows.all fun row =>
    decide (resource ∈ row.json.leasedResources)

theorem occupies_of_touches {resource : PhysicalResource} {e : @Event _ (@machine Bench.platform)}
    (h : touches resource e = true) :
    ∃ u : Use, @Use.Calls Bench.platform u e ∧ ∀ a, e.before.store.Busy u a →
      e.before.store.Occupies u resource.key := by
  obtain ⟨hexec, hall⟩ := Bool.and_eq_true_iff.mp h
  obtain ⟨dispatch, hd⟩ := Request.executes_iff.mp hexec
  refine ⟨.dispatch dispatch.attempt, ⟨dispatch, hd, rfl⟩, fun a ha => ⟨a, ha, resource, ?_, rfl⟩⟩
  have hrow := List.all_eq_true.mp hall _ ha.attempt
  exact of_decide_eq_true hrow

/-- Two such elements, the one before the other. -/
theorem exists_suffix_of_any {α : Type} {p : α → Bool} {l : List α}
    (h : ((l.dropWhile fun a => !p a).tail.any p) = true) : ∃ a older b older', (a :: older) <:+ l ∧
      (b :: older') <:+ older ∧ p a = true ∧ p b = true := by
  obtain ⟨b, hb, hpb⟩ := List.any_eq_true.mp h
  obtain ⟨older', hsuf⟩ := exists_suffix_of_mem hb
  have hdrop : (l.dropWhile fun a => !p a) <:+ l := List.dropWhile_suffix _
  cases hl : l.dropWhile fun a => !p a with
  | nil =>
      rw [hl] at hb
      cases hb
  | cons a older =>
      rw [hl] at hdrop hsuf
      have hpa : (!p a) = false := by
        have hne : (l.dropWhile fun a => !p a) ≠ [] := by rw [hl]; exact List.cons_ne_nil a older
        have hhead := List.head_dropWhile_not (fun a => !p a) hne
        simpa only [hl, List.head_cons] using hhead
      exact ⟨a, older, b, older', hdrop, hsuf, by simpa using hpa, hpb⟩

open Bench in
set_option maxRecDepth 20000 in
theorem hardware_exclusive_bench : ∃ e ∈ (bench routine).history, ∃ e' ∈ (bench routine).history,
    ∃ u u' : Use, @Use.Calls Bench.platform u e ∧ @Use.Calls Bench.platform u' e' ∧
      ∃ x ∈ (bench routine).history, @Use.Settles Bench.platform u' x := by
  obtain ⟨_, hbusy, hwindows⟩ := @hardware_exclusive Bench.platform _ (bench_reachable routine)
  obtain ⟨e, older, e', older', he, he', ht, ht'⟩ := exists_suffix_of_any
    (p := touches (.target (mark "target"))) (l := (bench routine).history) (by decide +kernel)
  have hin' := he'.trans ((List.suffix_cons e older).trans he)
  obtain ⟨u, hu, hocc⟩ := occupies_of_touches ht
  obtain ⟨u', hu', hocc'⟩ := occupies_of_touches ht'
  obtain ⟨a, ha, _⟩ := hbusy e older u he hu
  obtain ⟨a', ha', _⟩ := hbusy e' older' u' hin' hu'
  obtain ⟨x, mid, hx, _, hset, _⟩ :=
    hwindows e older e' older' u u' _ he he' hu hu' (hocc a ha) (hocc' a' ha')
  exact ⟨e, he.subset List.mem_cons_self, e', hin'.subset List.mem_cons_self, u, u', hu, hu', x,
    (hx.trans ((List.suffix_cons e older).trans he)).subset List.mem_cons_self, hset⟩

end Cheirismos
