import Cheirismos.Bench
import Cheirismos.Dispatches
import Cheirismos.Transitions

/-! # The whole plan is checked before its first effect

The first step of a pair is dispatched only after the whole plan was validated, authorized and
preflighted; a later step is dispatched after its own checks alone.  So the whole plan was checked
before any of its steps is executed, provided that the first step was completed by an execution.

A reconciliation may also complete a first step that was claimed and never executed, and then the
later steps follow unchecked (`plan_unchecked`).  Apart from such runs the law holds
(`plan_checked`). -/

namespace Cheirismos

open Process

variable [Platform]

/-- The request completes, by a reconciliation, the first step of a pair for which the backend was
never called. -/
def Untried (older : List (Event machine)) (e : Event machine) : Prop :=
  ∃ r receipt release a, e.request = .store (.finishReconciliation r.request receipt true release) ∧
    e.before.store.Witness r ∧ e.before.store.Attempt a ∧ a.id = r.attempt ∧
    a.operationIndex = 0 ∧ ∀ e' ∈ older, ¬ Executes a.id e'

/-- Every completed first step was executed. -/
def Tried (past : List (Event machine)) (s : Store) : Prop :=
  ∀ a, s.Attempt a → a.operationIndex = 0 → a.state = .completed → ∃ e ∈ past, Executes a.id e

/-- A call keeps completed first steps executed, unless it completes one that was not. -/
theorem Tried.call {older : List (Event machine)} {e : Event machine} {call : StoreCall}
    (hold : History older e.before) (ht : Tried older e.before.store)
    (hr : e.request = .store call) (hs : Sanctioned e.thread ⟨older, e.before⟩ (.store call))
    (hc : Change e.before.store call e.after.store) (hnot : ¬ Untried older e) :
    Tried (e :: older) e.after.store := by
  intro b hb hfirst hstate
  have hkept : ∀ a, e.before.store.Attempt a → a.id = b.id → a.operationIndex = 0 →
      a.state = .completed → ∃ e' ∈ e :: older, Executes b.id e' := by
    intro a ha hid hindex hdone
    obtain ⟨e', he', hx⟩ := ht a ha hindex hdone
    exact ⟨e', List.mem_cons_of_mem e he', hid ▸ hx⟩
  rcases hc.attempt hold.good hb with ⟨a, ha, hbec⟩ | ⟨_, harr⟩
  · cases hbec with
    | kept => exact hkept b ha rfl hfirst hstate
    | dispatched claims =>
        rw [claims.dispatched] at hstate
        cases hstate
    | @receipted _ receipt release _ =>
        obtain ⟨o, rfl⟩ := OperationReceipt.state_completed_iff.mp hstate
        obtain ⟨c, since, hrec⟩ := hs.resolve_right fun h => by cases h
        obtain ⟨e', he', dispatch, hd, hid⟩ := hrec.called (by simp [OperationReceipt.observation])
        refine ⟨e', List.mem_cons_of_mem e ?_, dispatch, hd, hid⟩
        rw [show older = since ++ c.event :: c.older from hrec.past]
        exact List.mem_append_left _ he'
    | abandoned _ _ => cases hstate
    | reopened _ => cases hstate
    | @completed _ receipt release r witness claimed subject _ =>
        by_contra hnone
        refine hnot ⟨r, receipt, release, a, hr, witness, ha, subject, hfirst, fun e' he' hx => ?_⟩
        exact hnone ⟨e', List.mem_cons_of_mem e he', hx⟩
    | interrupted _ => cases hstate
  · rw [harr.intent.1] at hstate
    cases hstate

/-- In a history in which no reconciliation completed an unexecuted first step, every completed
first step was executed. -/
theorem History.tried {past : List (Event machine)} {w : World} (hist : History past w)
    (hnone : ∀ e older, (e :: older) <:+ past → ¬ Untried older e) : Tried past w.store := by
  refine hist.keeps (P := fun past s => (∀ e older, (e :: older) <:+ past → ¬ Untried older e) →
    Tried past s) (fun _ _ ha => (Table.not_mem_empty _ ha).elim) ?_ ?_ hnone
  · intro e older s h hnone a ha hfirst hdone
    obtain ⟨e', he', hx⟩ := h (fun e' older' hsuf => hnone e' older'
      (hsuf.trans (List.suffix_cons e older))) a ha hfirst hdone
    exact ⟨e', List.mem_cons_of_mem e he', hx⟩
  · intro e older call hold h hr hs hc hnone
    have holder : Tried older e.before.store := h fun e' older' hsuf =>
      hnone e' older' (hsuf.trans (List.suffix_cons e older))
    exact holder.call hold hr hs hc (hnone e older List.suffix_rfl)

/-- What was checked of the plan of an attempt: its grant, profile and plan, all on record, and the
whole plan valid, authorized and accepted by the backend's preflight. -/
def Checked (older : List (Event machine)) (s : Store) (a : AttemptRecord) : Prop :=
  ∃ grant profile plan, (∃ g ∈ s.grants, grant.Continues g) ∧ grant.id = a.grant ∧
    profile ∈ s.profiles ∧ profile.id = a.profile ∧ plan ∈ s.plans ∧ plan.id = a.plan ∧
    Preflighted older grant profile plan

/-- The whole plan was checked before its first step was executed. -/
theorem Dispatchable.checked {e : Event machine} {older since : List (Event machine)}
    {dispatch : DispatchRequest} {c : DispatchClaim} {planned : PlannedOperation}
    {expiries : List Timestamp} (hold : History older e.before)
    (h : Dispatchable e.thread ⟨older, e.before⟩ dispatch c since planned expiries)
    (hfirst : c.claimed.attempt.operationIndex = 0) :
    Checked older e.before.store c.claimed.attempt := by
  have hin : c.In older := ⟨since, h.past.symm⟩
  have hg := hold.good_before hin
  obtain ⟨a, hclaims, _, hafter⟩ := c.spec hg
  have hevo := hold.evolves hin
  have hsub : ∀ e' ∈ since, e' ∈ older := by
    intro e' he'
    rw [show older = since ++ c.event :: c.older from h.past]
    exact List.mem_append_left _ he'
  refine ⟨c.claimed.grant, c.claimed.profile, c.claimed.plan, ?_, ?_, ?_, ?_, ?_, ?_,
    (h.preflighted hfirst).mono hsub⟩
  · refine hevo.grants _ ?_
    rw [hafter]
    exact hclaims.grant.mem
  · rw [hclaims.grant.id, AttemptRecord.grant_eq hclaims.identity]
  · refine hevo.profiles _ ?_
    rw [hafter]
    exact hclaims.profile.1
  · rw [hclaims.profile.2.1, AttemptRecord.profile_eq hclaims.identity]
  · exact hevo.plans _ (c.planned hg).1
  · exact (c.planned hg).2

section runs

variable {c : daemon.Config} {e : Event machine} {older : List (Event machine)}
  {dispatch : DispatchRequest}

/-- While no reconciliation has completed a first step that was never executed, a step is executed
only when the whole plan of its attempt was found valid, authorized, and accepted by the backend's
preflight before. -/
theorem plan_checked (h : Reachable c)
    (hnone : ∀ e older, (e :: older) <:+ c.history → ¬ Untried older e)
    (he : (e :: older) <:+ c.history) (hd : e.request = .execute dispatch) :
    ∃ a, e.before.store.Attempt a ∧ a.id = dispatch.attempt ∧
      Checked older e.before.store a := by
  have hold := h.history.before he
  have hreg := (History.good hold).regular
  obtain ⟨claim, since, planned, expiries, hdisp⟩ := h.history.dispatchable he hd
  refine ⟨claim.claimed.attempt, hdisp.held, (hdisp.attempt_eq hold).1.symm, ?_⟩
  rcases Nat.eq_zero_or_pos claim.claimed.attempt.operationIndex with hfirst | hlater
  · exact hdisp.checked hold hfirst
  -- the first step of the pair is completed, so it was executed before
  obtain ⟨b, hb, hp, hindex, hdone, _⟩ := hreg.earlier hdisp.held hlater
  have htried := History.tried hold fun e' older' hsuf =>
    hnone e' older' (hsuf.trans ((List.suffix_cons e older).trans he))
  obtain ⟨e₀, he₀, hx⟩ := htried b hb hindex hdone
  obtain ⟨older₀, hsuf⟩ := exists_suffix_of_mem he₀
  obtain ⟨dispatch₀, hd₀, hid₀⟩ := hx
  obtain ⟨claim₀, since₀, planned₀, expiries₀, hdisp₀⟩ := hold.dispatchable hsuf hd₀
  have hold₀ := hold.before hsuf
  have hevo := hold.evolves_before hsuf
  obtain ⟨b', hb', hc⟩ := hevo.attempts _ hdisp₀.held
  obtain rfl := Store.attempt_inj hb' hb (by
    rw [AttemptRecord.id_eq hc.identity, ← (hdisp₀.attempt_eq hold₀).1, hid₀])
  have hfirst₀ : claim₀.claimed.attempt.operationIndex = 0 := by
    rw [← AttemptRecord.index_eq hc.identity, hindex]
  obtain ⟨grant, profile, plan, ⟨g, hg, hgc⟩, hgid, hprofile, hpid, hplan, hlid, hpre⟩ :=
    hdisp₀.checked hold₀ hfirst₀
  obtain ⟨g', hg', hgc'⟩ := hevo.grants g hg
  have hsnap := hreg.snapshot hb hdisp.held hp
  refine ⟨grant, profile, plan, ⟨g', hg', hgc.trans hgc'⟩, ?_, hevo.profiles _ hprofile, ?_,
    hevo.plans _ hplan, ?_, hpre.mono fun e' he' => ?_⟩
  · rw [hgid, ← AttemptRecord.grant_eq hc.identity]
    exact congrArg Prod.fst hp
  · rw [hpid, ← AttemptRecord.profile_eq hc.identity]
    exact congrArg PairSnapshot.profile hsnap
  · rw [hlid, ← AttemptRecord.plan_eq hc.identity]
    exact congrArg Prod.snd hp
  · exact ((List.suffix_cons e₀ older₀).trans hsuf).subset he'

/-- The attempt that the request executes. -/
def Request.executed : Request → Option AttemptId
  | .execute dispatch => some dispatch.attempt
  | _ => none

omit [Platform] in
theorem Request.executed_eq_some {r : Request} {id : AttemptId} (h : r.executed = some id) :
    ∃ dispatch, r = .execute dispatch ∧ dispatch.attempt = id := by
  cases r with
  | execute dispatch => exact ⟨dispatch, rfl, Option.some.inj h⟩
  | _ => cases h

/-- The request ends a reconciliation. -/
def Request.finishes : Request → Bool
  | .store (.finishReconciliation _ _ _ _) => true
  | _ => false

/-- That no first step was completed unexecuted, read off the requests. -/
theorem tried_of_rows {past : List (Event machine)}
    (hrows : ∀ e ∈ past, e.request.finishes = false) :
    ∀ e older, (e :: older) <:+ past → ¬ Untried older e := by
  rintro e older he ⟨r, receipt, release, a, hr, _⟩
  have h := hrows e (he.subset List.mem_cons_self)
  rw [hr] at h
  cases h

omit [Platform] in
open Bench in
set_option maxRecDepth 20000 in
theorem plan_checked_bench : ∃ e older dispatch a, (e :: older) <:+ (bench routine).history ∧
    e.request = .execute dispatch ∧ e.before.store.Attempt a ∧ a.id = dispatch.attempt ∧
      @Checked Bench.platform older e.before.store a := by
  obtain ⟨e, he, hsome⟩ : ∃ e ∈ (bench routine).history,
      e.request.executed.isSome = true := by decide +kernel
  obtain ⟨id, hid⟩ := Option.isSome_iff_exists.mp hsome
  obtain ⟨dispatch, hd, _⟩ := Request.executed_eq_some hid
  obtain ⟨older, hsuf⟩ := exists_suffix_of_mem he
  obtain ⟨a, ha, haid, hchecked⟩ := @plan_checked Bench.platform _ _ _ _ (bench_reachable routine)
    (@tried_of_rows Bench.platform _ (by decide +kernel)) hsuf hd
  exact ⟨e, older, dispatch, a, hsuf, hd, ha, haid, hchecked⟩

/-- A step that was executed though its plan is not valid, read off the rows. -/
theorem unchecked_of_rows (h : Reachable c) (hrows : ∃ e ∈ c.history,
    ∃ row ∈ e.before.store.attempts.rows, e.request.executed = some row.json.id ∧
    ∃ plan ∈ e.before.store.plans.rows, plan.id = row.json.plan ∧
    ∃ profile ∈ e.before.store.profiles.rows, profile.id = row.json.profile ∧
      (validatePlan profile plan).isOk = false) :
    ∃ e older dispatch a, (e :: older) <:+ c.history ∧ e.request = .execute dispatch ∧
      e.before.store.Attempt a ∧ a.id = dispatch.attempt ∧ ¬ Checked older e.before.store a := by
  obtain ⟨e, he, row, hrow, hx, plan, hplan, hlid, profile, hprofile, hpid, hbad⟩ := hrows
  obtain ⟨older, hsuf⟩ := exists_suffix_of_mem he
  obtain ⟨dispatch, hd, hid⟩ := Request.executed_eq_some hx
  have ha := (h.history.good_before hsuf).regular.coherent.attempt_of_mem hrow
  refine ⟨e, older, dispatch, row.json, hsuf, hd, ha, hid.symm, ?_⟩
  rintro ⟨_, profile', plan', _, _, hprofile', hpid', hplan', hlid', hpre⟩
  obtain rfl := e.before.store.plans.eq_of_key_eq hplan' hplan (hlid'.trans hlid.symm)
  obtain rfl := e.before.store.profiles.eq_of_key_eq hprofile' hprofile (hpid'.trans hpid.symm)
  rw [hpre.valid] at hbad
  cases hbad

omit [Platform] in
open Bench in
set_option maxRecDepth 20000 in
/-- The second step of a plan that is not valid is executed. -/
theorem plan_unchecked : ∃ e older dispatch a, (e :: older) <:+ (bench skipped).history ∧
    e.request = .execute dispatch ∧ e.before.store.Attempt a ∧ a.id = dispatch.attempt ∧
      ¬ @Checked Bench.platform older e.before.store a :=
  @unchecked_of_rows Bench.platform _ (bench_reachable skipped) (by decide +kernel)

end runs

end Cheirismos
