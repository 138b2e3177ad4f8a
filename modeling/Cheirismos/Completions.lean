import Cheirismos.Lifecycles

/-! # Completion is backed by evidence

The backend is the surroundings' choice, so it may answer a dispatch or a reconciliation with
any receipt.  What reaches the store is another matter.

* `Receipted` says which claim and which request put the receipt of an attempt on record, and
  that the evidence of its observation was verified in between; `Found` says the same of a
  reconciliation.
* `Backed` is the invariant of histories: every observation on record is one of these, and every
  completed attempt has a completed receipt whose observation passes every reviewed
  postcondition of its step (`Store.Meets`).

`completion_backed` is what this says of every run. -/

namespace Cheirismos

open Process

variable [Platform]

/-! ### Where an observation on record comes from -/

/-- The receipt of the attempt was recorded by the thread that had claimed it, and the evidence
of the observation was verified in between. -/
structure Receipted (past : List (Event machine)) (a : AttemptRecord) (observation : Observation)
    (c : DispatchClaim) (since : List (Event machine)) (e : Event machine) : Prop where
  recorded : (e :: (since ++ c.event :: c.older)) <:+ past
  request : ∃ receipt release, e.request = .store (.recordReceipt a.id receipt release) ∧
    receipt.observation = some observation
  thread : c.thread = e.thread
  subject : c.attempt = a.id
  challenge : c.claimed.attempt.evidenceChallenge = a.evidenceChallenge
  evidence : Verified since a.id a.evidenceChallenge .execution observation

/-- The same for a reconciliation and the request that ended it. -/
structure Found (past : List (Event machine)) (r : ReconciliationRecord)
    (observation : Observation) (c : WitnessClaim) (since : List (Event machine))
    (e : Event machine) : Prop where
  recorded : (e :: (since ++ c.event :: c.older)) <:+ past
  request : ∃ receipt completed release,
    e.request = .store (.finishReconciliation r.request (some receipt) completed release) ∧
      receipt.observation = some observation
  thread : c.thread = e.thread
  subject : c.request = r.request
  challenge : c.claimed.record.challenge = r.challenge
  evidence : Verified since r.attempt r.challenge .reconciliation observation

/-- The observation passes every reviewed postcondition of the attempt's step. -/
def Store.Meets (s : Store) (a : AttemptRecord) (observation : Observation) : Prop :=
  ∃ plan planned, plan ∈ s.plans ∧ plan.id = a.plan ∧
    plan.operations[a.operationIndex]? = some planned ∧
    ∀ check ∈ planned.postconditions, check.Holds observation

section steps

variable {past : List (Event machine)} {e : Event machine} {a b : AttemptRecord}
  {r q : ReconciliationRecord} {o : Observation}

theorem Receipted.cons {c : DispatchClaim} {since : List (Event machine)} {e' : Event machine}
    (h : Receipted past a o c since e') : Receipted (e :: past) a o c since e' :=
  { h with recorded := h.recorded.trans (List.suffix_cons e past) }

/-- The receipt stays backed while the attempt keeps its name and challenge. -/
theorem Receipted.congr {c : DispatchClaim} {since : List (Event machine)} {e' : Event machine}
    (h : Receipted past a o c since e') (hid : b.id = a.id)
    (hchallenge : b.evidenceChallenge = a.evidenceChallenge) :
    Receipted past b o c since e' where
  recorded := h.recorded
  request := hid ▸ h.request
  thread := h.thread
  subject := h.subject.trans hid.symm
  challenge := h.challenge.trans hchallenge.symm
  evidence := hid ▸ hchallenge ▸ h.evidence

theorem Found.cons {c : WitnessClaim} {since : List (Event machine)} {e' : Event machine}
    (h : Found past r o c since e') : Found (e :: past) r o c since e' :=
  { h with recorded := h.recorded.trans (List.suffix_cons e past) }

omit [Platform] in
theorem Store.Meets.evolve {s s' : Store} (h : s.Meets a o) (he : Evolves s s')
    (hid : b.identity = a.identity) : s'.Meets b o := by
  obtain ⟨plan, planned, hm, hplan, hstep, hchecks⟩ := h
  refine ⟨plan, planned, he.plans _ hm, hplan.trans (AttemptRecord.plan_eq hid).symm, ?_, hchecks⟩
  rw [AttemptRecord.index_eq hid]
  exact hstep

end steps

/-! ### The invariant -/

/-- Every observation on record was verified when it was recorded, and completion rests on
one. -/
structure Backed (past : List (Event machine)) (s : Store) : Prop where
  unreceipted : s.Unreceipted
  receipts : ∀ a receipt observation, s.Attempt a → a.receipt = some receipt →
    receipt.observation = some observation → ∃ c since e, Receipted past a observation c since e
  findings : ∀ r receipt observation, s.Witness r → r.receipt = some receipt →
    receipt.observation = some observation → ∃ c since e, Found past r observation c since e
  completed : ∀ a, s.Attempt a → a.state = .completed → ∃ challenge phase observation,
    Completing s a challenge phase observation ∧ s.Meets a observation

theorem backed_empty : Backed [] .empty where
  unreceipted _ ha := (Table.not_mem_empty _ ha).elim
  receipts _ _ _ ha := (Table.not_mem_empty _ ha).elim
  findings _ _ _ hr := (Table.not_mem_empty _ hr).elim
  completed _ ha := (Table.not_mem_empty _ ha).elim

theorem Backed.quiet {past : List (Event machine)} {s : Store} (h : Backed past s)
    (e : Event machine) : Backed (e :: past) s where
  unreceipted := h.unreceipted
  receipts a receipt o ha hr ho := by
    obtain ⟨c, since, e', hrec⟩ := h.receipts a receipt o ha hr ho
    exact ⟨c, since, e', hrec.cons⟩
  findings r receipt o hr hrec ho := by
    obtain ⟨c, since, e', hf⟩ := h.findings r receipt o hr hrec ho
    exact ⟨c, since, e', hf.cons⟩
  completed := h.completed

/-- The checks that the supervisor evaluates are those of the reviewed step. -/
theorem Store.Good.meets {s : Store} (hg : s.Good) {a : AttemptRecord} {o : Observation}
    {plan : ReviewedPlan} (ha : s.Attempt a) (hm : plan ∈ s.plans) (hid : plan.id = a.plan)
    (h : evaluateChecks o (Supervisor.postconditionsAt plan a.operationIndex) = .ok ()) :
    s.Meets a o := by
  obtain ⟨plan', hm', hid', _, hlt, _⟩ := (hg.regular.admitted a ha).plan
  obtain rfl := Store.plan_inj hm' hm (hid'.trans hid.symm)
  have hstep := List.getElem?_eq_getElem hlt
  refine ⟨plan', _, hm', hid', hstep, evaluateChecks_ok.mp ?_⟩
  unfold Supervisor.postconditionsAt at h
  rw [show plan'.operations[a.operationIndex]? = _ from hstep] at h
  exact h

section call

variable {older : List (Event machine)} {e : Event machine} {call : StoreCall}
  (hold : History older e.before) (hr : e.request = .store call)
  (hs : Sanctioned e.thread ⟨older, e.before⟩ (.store call))

include hold hr hs

/-- The receipt of a dispatch is backed right after it was recorded. -/
theorem receipted_of_call {a : AttemptRecord} {receipt : OperationReceipt} {release : Bool}
    (ha : e.before.store.Attempt a) (hcall : call = .recordReceipt a.id receipt release) :
    ∃ c since, (∀ o, receipt.observation = some o → Receipted (e :: older) a o c since e) ∧
      ∀ o, receipt = .completed o → e.before.store.Meets a o := by
  subst hcall
  obtain ⟨c, since, hrec⟩ := hs.resolve_right fun h => by cases h
  have hin : c.In older := ⟨since, hrec.past.symm⟩
  have hg := hold.good_before hin
  have hevo := hold.evolves hin
  obtain ⟨hatt, hid, hdis⟩ := c.after hg
  obtain ⟨hplan, hpid⟩ := c.planned hg
  -- the attempt is the one that was claimed, and nobody has changed its challenge since
  obtain ⟨a', ha', hcont⟩ := hevo.attempts _ hatt
  obtain rfl := Store.attempt_inj ha' ha (by
    rw [AttemptRecord.id_eq hcont.identity, hid, hrec.subject])
  have hchallenge := (hcont.challenge (by rw [hdis]; decide)).symm
  refine ⟨c, since, fun o ho => ?_, fun o ho => ?_⟩
  · refine ⟨?_, ⟨receipt, release, hr, ho⟩, hrec.thread, hrec.subject, hchallenge, ?_⟩
    · rw [show older = since ++ c.event :: c.older from hrec.past]
    · rw [← hchallenge]
      exact hrec.evidence o ho
  · refine hold.good.meets ha (hevo.plans _ hplan) ?_ ?_
    · rw [AttemptRecord.plan_eq hcont.identity]
      exact hpid
    · rw [AttemptRecord.index_eq hcont.identity]
      exact hrec.postconditions o ho

/-- The receipt of a reconciliation is backed right after it ended. -/
theorem found_of_call {r : ReconciliationRecord} {receipt : Option OperationReceipt}
    {completed release : Bool} (hw : e.before.store.Witness r)
    (hcall : call = .finishReconciliation r.request receipt completed release) :
    ∃ c since, (∀ rc o, receipt = some rc → rc.observation = some o →
        Found (e :: older) r o c since e) ∧
      (completed = true → ∃ o, receipt = some (.completed o) ∧
        ∀ a, e.before.store.Attempt a → a.id = r.attempt → e.before.store.Meets a o) := by
  subst hcall
  obtain ⟨c, since, hfin⟩ := hs.resolve_right fun h => by cases h
  have hin : c.In older := ⟨since, hfin.past.symm⟩
  have hg := hold.good_before hin
  have hevo := hold.evolves hin
  obtain ⟨hwit, hreq, hatt, hid⟩ := c.after hg
  obtain ⟨hplan, hpid⟩ := c.planned hg
  obtain ⟨r', hr', hcont⟩ := hevo.witnesses _ hwit
  obtain rfl := Store.witness_inj hr' hw (by rw [hcont.request, hreq, hfin.subject])
  refine ⟨c, since, fun rc o hrc ho => ?_, fun hcompleted => ?_⟩
  · refine ⟨?_, ⟨rc, completed, release, hrc ▸ hr, ho⟩, hfin.thread, hfin.subject,
      hcont.challenge.symm, ?_⟩
    · rw [show older = since ++ c.event :: c.older from hfin.past]
    · rw [hcont.attempt, hcont.challenge]
      exact hfin.evidence rc o hrc ho
  · obtain ⟨o, ho⟩ := hfin.completes.mp hcompleted
    refine ⟨o, ho, fun a ha haid => ?_⟩
    obtain ⟨a', ha', hac⟩ := hevo.attempts _ hatt
    obtain rfl := Store.attempt_inj ha' ha (by
      rw [AttemptRecord.id_eq hac.identity, hid, haid, hcont.attempt])
    refine hold.good.meets ha (hevo.plans _ hplan) ?_ ?_
    · rw [AttemptRecord.plan_eq hac.identity]
      exact hpid
    · rw [AttemptRecord.index_eq hac.identity]
      exact hfin.postconditions o ho

end call

/-- When a reconciliation has completed its attempt, the witness has ended as completed. -/
theorem Change.finishes {s s' : Store} {r : ReconciliationRecord}
    {receipt : Option OperationReceipt} {release : Bool} (hg : s.Good)
    (hc : Change s (.finishReconciliation r.request receipt true release) s') (hw : s.Witness r)
    (hclaimed : r.state = .claimed) {b : AttemptRecord} (hb : s'.Attempt b)
    (hstate : b.state = .completed) (hid : b.id = r.attempt) :
    ∃ now, s'.Witness (finished now receipt true r) := by
  obtain ⟨q, hq, hcont⟩ := (hc.evolves hg).witnesses r hw
  rcases hc.witness hg hq with ⟨r', hr', hbec⟩ | harr
  · have hsame : r'.request = r.request → r' = r := Store.witness_inj hr' hw
    generalize hcall : StoreCall.finishReconciliation r.request receipt true release = call at hbec
    cases hbec with
    | kept =>
        -- an open witness has an unknown attempt
        obtain rfl := hsame hcont.request
        have hunknown := ((hc.good hg).regular.claimed q b hq hclaimed hb hid).1
        rw [hstate] at hunknown
        cases hunknown
    | @finished now _ _ _ _ =>
        obtain rfl := hsame hcont.request
        obtain ⟨_, rfl, rfl, _⟩ := StoreCall.finishReconciliation.inj hcall
        exact ⟨now, hq⟩
    | interrupted _ => cases hcall
  · obtain ⟨_, _, _, h⟩ := harr.call
    cases h

section call

variable {older : List (Event machine)} {e : Event machine} {call : StoreCall}
  (hold : History older e.before) (hb : Backed older e.before.store)
  (hr : e.request = .store call) (hs : Sanctioned e.thread ⟨older, e.before⟩ (.store call))
  (hc : Change e.before.store call e.after.store)

include hold hb hr hs hc

theorem Backed.receipts_call {b : AttemptRecord} {receipt : OperationReceipt} {o : Observation}
    (ha' : e.after.store.Attempt b) (hrec : b.receipt = some receipt)
    (ho : receipt.observation = some o) : ∃ c since e', Receipted (e :: older) b o c since e' := by
  have hkept : ∀ a, e.before.store.Attempt a → a.receipt = some receipt → b.id = a.id →
      b.evidenceChallenge = a.evidenceChallenge →
      ∃ c since e', Receipted (e :: older) b o c since e' := by
    intro a ha hreceipt hid hchallenge
    obtain ⟨c, since, e', h⟩ := hb.receipts a receipt o ha hreceipt ho
    exact ⟨c, since, e', (h.congr hid hchallenge).cons⟩
  rcases hc.attempt hold.good ha' with ⟨a, ha, hbec⟩ | ⟨_, harr⟩
  · cases hbec with
    | kept => exact hkept b ha hrec rfl rfl
    | dispatched claims =>
        rw [claims.receipt, hb.unreceipted a ha (Or.inl claims.intent)] at hrec
        cases hrec
    | @receipted _ receipt' release _ =>
        obtain rfl : receipt' = receipt := Option.some.inj hrec
        obtain ⟨c, since, h, _⟩ := receipted_of_call hold hr hs ha rfl
        exact ⟨c, since, e, (h o ho).congr rfl rfl⟩
    | abandoned _ _ =>
        obtain rfl := Option.some.inj hrec
        cases ho
    | reopened _ => exact hkept a ha hrec rfl rfl
    | completed _ _ _ _ => exact hkept a ha hrec rfl rfl
    | interrupted _ =>
        obtain rfl := Option.some.inj hrec
        cases ho
  · rw [harr.intent.2] at hrec
    cases hrec

theorem Backed.findings_call {q : ReconciliationRecord} {receipt : OperationReceipt}
    {o : Observation} (hq : e.after.store.Witness q) (hrec : q.receipt = some receipt)
    (ho : receipt.observation = some o) : ∃ c since e', Found (e :: older) q o c since e' := by
  rcases hc.witness hold.good hq with ⟨r, hw, hbec⟩ | harr
  · cases hbec with
    | kept =>
        obtain ⟨c, since, e', h⟩ := hb.findings q receipt o hw hrec ho
        exact ⟨c, since, e', h.cons⟩
    | @finished _ receipt' completed release _ =>
        obtain ⟨c, since, h, _⟩ := found_of_call hold hr hs hw rfl
        exact ⟨c, since, e, { h receipt o hrec ho with }⟩
    | interrupted _ =>
        obtain ⟨c, since, e', h⟩ := hb.findings r receipt o hw hrec ho
        exact ⟨c, since, e', { h.cons with }⟩
  · obtain ⟨claims, rfl⟩ := harr
    rw [claims.recordReceipt] at hrec
    cases hrec

theorem Backed.completed_call {b : AttemptRecord} (ha' : e.after.store.Attempt b)
    (hstate : b.state = .completed) : ∃ challenge phase o,
      Completing e.after.store b challenge phase o ∧ e.after.store.Meets b o := by
  have hevo := hc.evolves hold.good
  have hgood := hc.good hold.good
  rcases hc.attempt hold.good ha' with ⟨a, ha, hbec⟩ | ⟨_, harr⟩
  · cases hbec with
    | kept =>
        obtain ⟨challenge, phase, o, hcomp, hmeets⟩ := hb.completed b ha hstate
        exact ⟨challenge, phase, o, hcomp.evolve hevo, hmeets.evolve hevo rfl⟩
    | dispatched claims =>
        rw [claims.dispatched] at hstate
        cases hstate
    | @receipted _ receipt release _ =>
        obtain ⟨o, rfl⟩ := OperationReceipt.state_completed_iff.mp hstate
        obtain ⟨c, since, _, hmeets⟩ := receipted_of_call hold hr hs ha rfl
        exact ⟨_, _, o, Or.inl ⟨rfl, rfl, rfl⟩, (hmeets o rfl).evolve hevo rfl⟩
    | abandoned _ _ => cases hstate
    | reopened _ => cases hstate
    | @completed _ receipt release r witness claimed subject _ =>
        obtain ⟨c, since, _, hcompleted⟩ := found_of_call hold hr hs witness rfl
        obtain ⟨o, rfl, hmeets⟩ := hcompleted rfl
        obtain ⟨now, hq⟩ := hc.finishes hold.good witness claimed ha' hstate subject
        exact ⟨_, _, o, Or.inr ⟨_, hq, subject.symm, rfl, rfl, rfl, rfl⟩,
          (hmeets a ha subject).evolve hevo rfl⟩
    | interrupted _ => cases hstate
  · rw [harr.intent.1] at hstate
    cases hstate

end call

/-- After every history all that is on record is backed. -/
theorem History.backed {past : List (Event machine)} {w : World} (hist : History past w) :
    Backed past w.store := by
  refine hist.keeps backed_empty (fun e _ _ h => h.quiet e) ?_
  intro e older call hold hb hr hs hc
  exact
    { unreceipted := hc.unreceipted hold.good hb.unreceipted
      receipts := fun _ _ _ ha hrec ho => hb.receipts_call hold hr hs hc ha hrec ho
      findings := fun _ _ _ hq hrec ho => hb.findings_call hold hr hs hc hq hrec ho
      completed := fun _ ha hstate => hb.completed_call hold hr hs hc ha hstate }

/-! ### Over all runs -/

section runs

variable {c : daemon.Config}

/-- Whatever the backend does: a completed attempt has a completed receipt, its own or that of
one of its completed reconciliations, whose observation passes every reviewed postcondition of
the step; and no observation is on record, of an attempt or of a reconciliation, unless between
the claim and the recording its evidence was resolved for this attempt and found to bind the
attempt, the challenge and phase of that claim, and the observation. -/
theorem completion_backed (h : Reachable c) :
    (∀ a, c.state.store.Attempt a → a.state = .completed → ∃ observation,
      c.state.store.Meets a observation ∧
      ((a.receipt = some (.completed observation) ∧
          ∃ claim since e, Receipted c.history a observation claim since e) ∨
        ∃ r, c.state.store.Witness r ∧ r.attempt = a.id ∧ r.state = .completed ∧
          r.receipt = some (.completed observation) ∧
          ∃ claim since e, Found c.history r observation claim since e)) ∧
    (∀ a receipt observation, c.state.store.Attempt a → a.receipt = some receipt →
      receipt.observation = some observation →
      ∃ claim since e, Receipted c.history a observation claim since e) ∧
    ∀ r receipt observation, c.state.store.Witness r → r.receipt = some receipt →
      receipt.observation = some observation →
      ∃ claim since e, Found c.history r observation claim since e := by
  have hb := h.history.backed
  refine ⟨fun a ha hstate => ?_, hb.receipts, hb.findings⟩
  obtain ⟨challenge, phase, o, hcomp, hmeets⟩ := hb.completed a ha hstate
  rcases hcomp with ⟨hrec, _⟩ | ⟨r, hr, hra, hrs, hrec, _⟩
  · exact ⟨o, hmeets, Or.inl ⟨hrec, hb.receipts a _ o ha hrec rfl⟩⟩
  · exact ⟨o, hmeets, Or.inr ⟨r, hr, hra, hrs, hrec, hb.findings r _ o hr hrec rfl⟩⟩

omit [Platform] in
open Bench in
set_option maxRecDepth 20000 in
theorem completion_backed_bench : ∃ a, (bench routine).state.store.Attempt a ∧
    a.state = .completed ∧ ∃ observation, (bench routine).state.store.Meets a observation := by
  have hreach := bench_reachable routine
  obtain ⟨a, ha, hdone⟩ := @Reachable.attempt_of_rows Bench.platform _ hreach
    (fun a => a.state = .completed) (by decide +kernel)
  obtain ⟨o, hmeets, _⟩ := (@completion_backed Bench.platform _ hreach).1 _ ha hdone
  exact ⟨_, ha, hdone, o, hmeets⟩

end runs

end Cheirismos
