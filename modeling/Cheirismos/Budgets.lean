import Cheirismos.Lifecycles

/-! # Budgets

Where the budget of a grant goes.

* `Store.spent` is what the attempts of a grant have reserved and what the reconciliations of
  its attempts cost for configuring an instrument: one effect, and the time of the step
  (`Store.configurationCharge`).
* `Pays` is one move of the store that only moves budget from `remaining` to `spent`; every
  change does so (`Change.pays`), except that of issuing a grant, which has spent nothing yet.
* `History.funded` follows this over histories: what a grant was issued with is what remains
  plus what is spent. -/

namespace Cheirismos

open Process Store

/-! ### Components -/

/-- The three counters of a budget. -/
inductive Component where
  | effects | bytes | milliseconds
deriving DecidableEq

namespace Budget

def amount (b : Budget) : Component → ℕ
  | .effects => b.effects.toNat
  | .bytes => b.bytes.toNat
  | .milliseconds => b.milliseconds.toNat

theorem u64CheckedSub_some {a b d : UInt64} (h : u64CheckedSub a b = some d) :
    a.toNat = d.toNat + b.toNat := by
  unfold u64CheckedSub at h
  split at h
  · next hle =>
      obtain rfl := Option.some.inj h
      have hle' : b.toNat ≤ a.toNat := UInt64.le_iff_toNat_le.mp hle
      rw [UInt64.toNat_sub_of_le _ _ hle]
      omega
  · cases h

/-- A debit moves its amount from every counter. -/
theorem checkedSub_amount {b amount remaining : Budget}
    (h : b.checkedSub amount = some remaining) (part : Component) :
    b.amount part = remaining.amount part + amount.amount part := by
  simp only [checkedSub, Option.bind_eq_bind, Option.bind_eq_some_iff, Option.pure_def,
    Option.some.injEq] at h
  obtain ⟨effects, he, bytes, hb, milliseconds, hm, rfl⟩ := h
  cases part with
  | effects => exact u64CheckedSub_some he
  | bytes => exact u64CheckedSub_some hb
  | milliseconds => exact u64CheckedSub_some hm

theorem u64CheckedAdd_some {a b d : UInt64} (h : u64CheckedAdd a b = some d) :
    d.toNat = a.toNat + b.toNat := by
  unfold u64CheckedAdd at h
  split at h
  · next hlt =>
      obtain rfl := Option.some.inj h
      rw [UInt64.toNat_add, Nat.mod_eq_of_lt hlt]
  · cases h

/-- A sum adds every counter. -/
theorem checkedAdd_amount {b amount total : Budget}
    (h : b.checkedAdd amount = some total) (part : Component) :
    total.amount part = b.amount part + amount.amount part := by
  simp only [checkedAdd, Option.bind_eq_bind, Option.bind_eq_some_iff, Option.pure_def,
    Option.some.injEq] at h
  obtain ⟨effects, he, bytes, hb, milliseconds, hm, rfl⟩ := h
  cases part with
  | effects => exact u64CheckedAdd_some he
  | bytes => exact u64CheckedAdd_some hb
  | milliseconds => exact u64CheckedAdd_some hm

end Budget

theorem foldlM_amount {operations : List PlannedOperation} {first total : Budget}
    (h : operations.foldlM (fun total planned => total.checkedAdd planned.worstCaseBudget) first =
      some total) (part : Component) : total.amount part =
        first.amount part + (operations.map (·.worstCaseBudget.amount part)).sum := by
  induction operations generalizing first with
  | nil =>
      obtain rfl := Option.some.inj h
      rfl
  | cons planned operations ih =>
      rw [List.foldlM_cons] at h
      obtain ⟨next, hnext, h⟩ := Option.bind_eq_some_iff.mp h
      rw [ih h, Budget.checkedAdd_amount hnext, List.map_cons, List.sum_cons, Nat.add_assoc]

/-- The worst case of a plan is the sum over its steps. -/
theorem worstCase_amount {operations : List PlannedOperation} {total : Budget}
    (h : worstCase operations = some total) (part : Component) :
    total.amount part = (operations.map (·.worstCaseBudget.amount part)).sum := by
  rw [foldlM_amount h]
  cases part <;> exact Nat.zero_add _

/-! ### What is spent -/

/-- What a reconciliation of this attempt costs the grant: the configuration of an instrument, when
its plan was reviewed with one. -/
def Store.configurationCharge (s : Store) (grant : GrantId) (id : AttemptId) : Option Budget := do
  let attempt ← s.loadAttempt id
  let plan ← s.plans.find? attempt.plan
  let planned ← plan.operations[attempt.operationIndex]?
  if attempt.grant = grant ∧
      plan.reconciliationSetup = .applyReviewedInstrumentConfiguration then
    some ⟨1, 0, planned.maxMilliseconds⟩
  else none

def Store.charged (s : Store) (grant : GrantId) (part : Component) (id : AttemptId) : ℕ :=
  ((s.configurationCharge grant id).map (·.amount part)).getD 0

/-- What an attempt has reserved of the grant. -/
def AttemptIdentity.takes (a : AttemptIdentity) (grant : GrantId) (part : Component) : ℕ :=
  if a.grant = grant then a.reserved.amount part else 0

/-- All that was reserved and charged. -/
def Store.spent (s : Store) (grant : GrantId) (part : Component) : ℕ :=
  s.attempts.sum (fun row => row.json.identity.takes grant part) +
    s.reconciliations.sum (fun row => s.charged grant part row.json.attempt)

/-! ### What comes on record -/

/-- These attempts have come on record, and reconciliations of these; the others are there as
before, though perhaps in other states. -/
structure Adds (s s' : Store) (identities : List AttemptIdentity) (subjects : List AttemptId) :
    Prop where
  attempts : ∀ w : AttemptIdentity → ℕ, s'.attempts.sum (fun row => w row.json.identity) =
    s.attempts.sum (fun row => w row.json.identity) + (identities.map w).sum
  witnesses : ∀ w : AttemptId → ℕ, s'.reconciliations.sum (fun row => w row.json.attempt) =
    s.reconciliations.sum (fun row => w row.json.attempt) + (subjects.map w).sum

namespace Adds

variable {s s' s'' : Store} {identities : List AttemptIdentity} {subjects : List AttemptId}

theorem none (ha : s'.attempts = s.attempts) (hr : s'.reconciliations = s.reconciliations) :
    Adds s s' [] [] := ⟨fun _ => by rw [ha]; rfl, fun _ => by rw [hr]; rfl⟩

theorem attempt {a : AttemptRecord} (ha : s'.attempts.rows = AttemptRow.of a :: s.attempts.rows)
    (hr : s'.reconciliations = s.reconciliations) : Adds s s' [a.identity] [] where
  attempts w := by
    unfold Table.sum
    rw [ha, List.map_cons, List.sum_cons, Nat.add_comm]
    rfl
  witnesses _ := by rw [hr]; rfl

theorem witness {r : ReconciliationRecord} (ha : s'.attempts = s.attempts)
    (hr : s'.reconciliations.rows = ReconciliationRow.of r :: s.reconciliations.rows) :
    Adds s s' [] [r.attempt] where
  attempts _ := by rw [ha]; rfl
  witnesses w := by
    unfold Table.sum
    rw [hr, List.map_cons, List.sum_cons, Nat.add_comm]
    rfl

theorem trans (h : Adds s s' identities subjects) (h' : Adds s' s'' [] []) :
    Adds s s'' identities subjects :=
  ⟨fun w => (h'.attempts w).trans (h.attempts w), fun w => (h'.witnesses w).trans (h.witnesses w)⟩

/-- Restating an attempt. -/
theorem setAttempt (hc : s.Coherent) {a a' : AttemptRecord} (ha : s.Attempt a)
    (hid : a'.identity = a.identity) : Adds s (s.setAttempt a') [] [] where
  witnesses _ := rfl
  attempts w := by
    refine Table.sum_updateWhere (w := fun row : AttemptRow => w row.json.identity)
      (by exact fun _ => rfl) fun row hrow hkey => ?_
    have hrow' := hc.attempt_of_mem hrow
    have hsame : row.json.id = a.id := by
      rw [← AttemptRecord.id_eq hid, ← of_decide_eq_true hkey]
      conv_rhs => rw [hc.attempts row hrow]
      rfl
    rw [attempt_inj hrow' ha hsame]
    exact congrArg w hid

/-- Restating a reconciliation. -/
theorem setReconciliation (hc : s.Coherent) {r r' : ReconciliationRecord} (hr : s.Witness r)
    (hreq : r'.request = r.request) (hatt : r'.attempt = r.attempt) :
    Adds s (s.setReconciliation r') [] [] where
  attempts _ := rfl
  witnesses w := by
    refine Table.sum_updateWhere (w := fun row : ReconciliationRow => w row.json.attempt)
      (by exact fun _ => rfl) fun row hrow hkey => ?_
    have hrow' := hc.witness_of_mem hrow
    have hsame : row.json.request = r.request := by
      rw [← hreq, ← of_decide_eq_true hkey]
      conv_rhs => rw [hc.reconciliations row hrow]
      rfl
    rw [witness_inj hrow' hr hsame]
    exact congrArg w hatt

end Adds

section accounts

variable [Platform] {s s' : Store} (hg : s.Good) (hg' : s'.Good) (he : Evolves s s')

include hg hg' he

/-- The charge of an attempt on record never changes. -/
theorem charged_congr {a : AttemptRecord} (ha : s.Attempt a) (grant : GrantId)
    (part : Component) : s'.charged grant part a.id = s.charged grant part a.id := by
  obtain ⟨a', ha', hc⟩ := he.attempts a ha
  obtain ⟨plan, hm, hpid, _⟩ := (hg.regular.admitted a ha).plan
  have hload : s.loadAttempt a.id = some a := hg.regular.coherent.loadAttempt_eq_some.mpr ⟨ha, rfl⟩
  have hload' : s'.loadAttempt a.id = some a' :=
    hg'.regular.coherent.loadAttempt_eq_some.mpr ⟨ha', AttemptRecord.id_eq hc.identity⟩
  have hplan : s.plans.find? a.plan = some plan := Table.find?_eq_some.mpr ⟨hm, hpid⟩
  have hplan' : s'.plans.find? a.plan = some plan :=
    Table.find?_eq_some.mpr ⟨he.plans plan hm, hpid⟩
  simp only [charged, configurationCharge, hload, hload', Option.bind_eq_bind, Option.bind_some,
    AttemptRecord.plan_eq hc.identity, AttemptRecord.index_eq hc.identity,
    AttemptRecord.grant_eq hc.identity, hplan, hplan']

/-- What is spent afterwards is what was spent before and what has come on record. -/
theorem spent_adds {identities : List AttemptIdentity} {subjects : List AttemptId}
    (h : Adds s s' identities subjects) (grant : GrantId) (part : Component) :
    s'.spent grant part = s.spent grant part +
      ((identities.map (·.takes grant part)).sum + (subjects.map (s'.charged grant part)).sum) := by
  have hold : s.reconciliations.sum (fun row => s'.charged grant part row.json.attempt) =
      s.reconciliations.sum (fun row => s.charged grant part row.json.attempt) := by
    refine Table.sum_congr fun row hrow => ?_
    obtain ⟨a, ha, hid⟩ := hg.regular.witnessed _ (hg.regular.coherent.witness_of_mem hrow)
    rw [← hid]
    exact charged_congr hg hg' he ha grant part
  unfold spent
  rw [h.attempts (·.takes grant part), h.witnesses (s'.charged grant part), hold]
  omega

end accounts

/-! ### Every change only spends -/

/-- Something of the grant has come on record: an attempt, or a reconciliation of one. -/
def Engages (s s' : Store) (grant : GrantId) : Prop :=
  (∃ a, s'.Attempt a ∧ a.grant = grant ∧ ∀ b, s.Attempt b → b.id ≠ a.id) ∨
  ∃ r a, s'.Witness r ∧ s'.Attempt a ∧ a.id = r.attempt ∧ a.grant = grant ∧
    ∀ q, s.Witness q → q.request ≠ r.request

/-- Budget only moves from what remains of a grant to what is spent of it, and only when
something of the grant comes on record. -/
def Pays (s s' : Store) : Prop := ∃ debit : GrantId → Component → ℕ,
  (∀ g' ∈ s'.grants, ∃ g ∈ s.grants, g.id = g'.id ∧
    ∀ part, g.remaining.amount part = g'.remaining.amount part + debit g'.id part) ∧
  (∀ grant part, s'.spent grant part = s.spent grant part + debit grant part) ∧
  ∀ grant part, debit grant part ≠ 0 → Engages s s' grant

section pays

/-- The grants after an amount was taken from one of them. -/
theorem debit_replace {s s' : Store} {granted : Grant} {amount remaining : Budget}
    (hm : granted ∈ s.grants) (hsub : granted.remaining.checkedSub amount = some remaining)
    (hrows : s'.grants = s.grants.replace { granted with remaining := remaining }) :
    ∀ g' ∈ s'.grants, ∃ g ∈ s.grants, g.id = g'.id ∧ ∀ part, g.remaining.amount part =
      g'.remaining.amount part + if granted.id = g'.id then amount.amount part else 0 := by
  intro g' hg'
  rw [hrows] at hg'
  rcases (Table.mem_replace hm (by rfl)).mp hg' with rfl | ⟨hg', hne⟩
  · refine ⟨granted, hm, rfl, fun part => ?_⟩
    rw [if_pos rfl]
    exact Budget.checkedSub_amount hsub part
  · exact ⟨g', hg', rfl, fun part => by rw [if_neg (Ne.symm hne)]; rfl⟩

variable [Platform] {s s' : Store} (hg : s.Good) (hg' : s'.Good) (he : Evolves s s')

include hg hg' he

theorem Pays.free (h : Adds s s' [] []) (hgrants : ∀ g' ∈ s'.grants, ∃ g ∈ s.grants, g.id = g'.id ∧
    g'.remaining = g.remaining) : Pays s s' := by
  refine ⟨fun _ _ => 0, fun g' hm => ?_, fun grant part => ?_, fun _ _ h0 => absurd rfl h0⟩
  · obtain ⟨g, hgm, hid, hrem⟩ := hgrants g' hm
    exact ⟨g, hgm, hid, fun part => by rw [hrem]; rfl⟩
  · rw [spent_adds hg hg' he h]
    rfl

theorem Pays.reserved {a : AttemptRecord} {granted : Grant} {remaining : Budget}
    (hrows : s'.attempts.rows = AttemptRow.of a :: s.attempts.rows)
    (hr : s'.reconciliations = s.reconciliations) (hfresh : ∀ b, s.Attempt b → b.id ≠ a.id)
    (ha : s'.Attempt a) (hm : granted ∈ s.grants) (hid : granted.id = a.grant)
    (hsub : granted.remaining.checkedSub a.reserved = some remaining)
    (hgrants : s'.grants = s.grants.replace { granted with remaining := remaining }) :
    Pays s s' := by
  refine ⟨fun grant part => a.identity.takes grant part, fun g' hm' => ?_, fun grant part => ?_,
    fun grant part h0 => ?_⟩
  · obtain ⟨g, hgm, hgid, hamount⟩ := debit_replace hm hsub hgrants g' hm'
    exact ⟨g, hgm, hgid, fun part => by rw [hamount part, hid]; rfl⟩
  · rw [spent_adds hg hg' he (.attempt hrows hr)]
    simp
  · refine Or.inl ⟨a, ha, ?_, hfresh⟩
    by_contra hne
    exact h0 (if_neg hne)

theorem Pays.charges {r : ReconciliationRecord} {a : AttemptRecord} {plan : ReviewedPlan}
    {planned : PlannedOperation} {granted : Grant} {budget : Option Budget}
    (h : Adds s s' [] [r.attempt]) (hfresh : ∀ q, s.Witness q → q.request ≠ r.request)
    (hr : s'.Witness r) (ha : s.Attempt a) (hsubject : r.attempt = a.id) (hp : plan ∈ s.plans)
    (hpid : plan.id = a.plan) (hstep : plan.operations[a.operationIndex]? = some planned)
    (hbudget : budget = Supervisor.configurationBudget plan planned) (hm : granted ∈ s.grants)
    (hid : granted.id = a.grant) (hcharges : Charges s granted budget s'.grants) : Pays s s' := by
  have hcharged : ∀ grant part, s'.charged grant part r.attempt =
      if a.grant = grant then (budget.map (·.amount part)).getD 0 else 0 := by
    intro grant part
    rw [hsubject, charged_congr hg hg' he ha, hbudget]
    have hload := hg.regular.coherent.loadAttempt_eq_some.mpr ⟨ha, rfl⟩
    have hplan : s.plans.find? a.plan = some plan := Table.find?_eq_some.mpr ⟨hp, hpid⟩
    simp only [charged, configurationCharge, hload, hplan, hstep, Option.bind_eq_bind,
      Option.bind_some]
    cases hsetup : plan.reconciliationSetup with
    | applyReviewedInstrumentConfiguration =>
        rw [Supervisor.configurationBudget, hsetup]
        by_cases hgrant : a.grant = grant
        · rw [if_pos ⟨hgrant, rfl⟩, if_pos hgrant]
        · rw [if_neg fun h => hgrant h.1, if_neg hgrant]
          rfl
    | observationOnly =>
        rw [Supervisor.configurationBudget, hsetup, if_neg fun h => by cases h.2]
        split_ifs <;> rfl
  refine ⟨fun grant part => s'.charged grant part r.attempt, fun g' hm' => ?_,
    fun grant part => ?_, fun grant part h0 => ?_⟩
  · cases budget with
    | none =>
        have hsame : s'.grants = s.grants := hcharges
        refine ⟨g', hsame ▸ hm', rfl, fun part => ?_⟩
        simp only [hcharged]
        split_ifs <;> rfl
    | some charge =>
        obtain ⟨remaining, hsub, hgrants⟩ := hcharges
        obtain ⟨g, hgm, hgid, hamount⟩ := debit_replace hm hsub hgrants g' hm'
        refine ⟨g, hgm, hgid, fun part => ?_⟩
        simp only [hamount part, hcharged, hid]
        rfl
  · rw [spent_adds hg hg' he h]
    simp
  · obtain ⟨a', ha', hc⟩ := he.attempts a ha
    refine Or.inr ⟨r, a', hr, ha', ?_, ?_, hfresh⟩
    · rw [AttemptRecord.id_eq hc.identity, hsubject]
    · rw [AttemptRecord.grant_eq hc.identity]
      by_contra hne
      refine h0 ?_
      simp only [hcharged, if_neg hne]

end pays

/-- Rejecting undispatched attempts adds nothing. -/
theorem Adds.rejects [Platform] {s s' : Store} {p : Pair} (hc : s.Coherent)
    (h : Relation.ReflTransGen (RejectsIntent p) s s') : Adds s s' [] [] := by
  induction h with
  | refl => exact .none rfl rfl
  | tail hsteps hstep ih =>
      obtain ⟨a, now, ha, _, _, rfl⟩ := hstep
      exact ih.trans (.setAttempt (RejectsIntent.back hc hsteps).1 ha (abandoned_identity now a))

/-- A change of the store spends from the grants on record, or issues a grant. -/
theorem Change.pays [Platform] {s s' : Store} {call : StoreCall} (hg : s.Good)
    (h : Change s call s') : Pays s s' ∨ ∃ g grants, call = .saveGrant g ∧
      s.grants.insert? g = some grants ∧ s' = { s with grants := grants } := by
  have hg' := h.good hg
  have he := h.evolves hg
  have hc := hg.regular.coherent
  have hsame : ∀ {t : Store}, t.grants = s.grants → ∀ g' ∈ t.grants, ∃ g ∈ s.grants, g.id = g'.id ∧
      g'.remaining = g.remaining := fun ht g' hm => ⟨g', ht ▸ hm, rfl, rfl⟩
  cases h with
  | records records budgets runs stocked frame =>
      refine Or.inl (.free hg hg' he (.none ?_ ?_) budgets) <;> rw [frame]
  | issue inserted => exact Or.inr ⟨_, _, rfl, inserted, rfl⟩
  | reserve proposed admits order takes places =>
      exact Or.inl (.reserved hg hg' he places.rows rfl places.id (places.mem.mpr (Or.inl rfl))
        admits.grant.mem admits.grant.id admits.budget rfl)
  | takeover proposed recovers admits named owned moves retires places runInserted recorded =>
      exact Or.inl (.reserved hg hg' he places.rows rfl places.id (places.mem.mpr (Or.inl rfl))
        admits.grant.mem admits.grant.id admits.budget rfl)
  | @abandon record s₁ leases abandonments unhalted noDestination rejects resolved settled
      released recorded =>
      have hadds : Adds s { s₁ with planLeases := leases, haltedRunAbandonments := abandonments }
          [] [] := (Adds.rejects hc rejects).trans (.none rfl rfl)
      refine Or.inl (.free hg hg' he hadds (hsame ?_))
      rw [(RejectsIntent.back hc rejects).2.1]
  | dispatch claims =>
      exact Or.inl (.free hg hg' he (.setAttempt hc claims.attempt claims.identity) (hsame rfl))
  | @receipt now receipt a release _ attempt dispatched flag result =>
      have hadds := Adds.setAttempt hc attempt (receipted_identity now receipt a)
      rcases result with ⟨_, _, rfl⟩ | ⟨_, rfl⟩
      · exact Or.inl (.free hg hg' he (hadds.trans (.none rfl rfl)) (hsame rfl))
      · exact Or.inl (.free hg hg' he hadds (hsame rfl))
  | @investigate now now' request principal budget a granted grants claimed reconciliations _
      claims configuration charges opened result =>
      obtain ⟨planned, hstep, hbudget⟩ := configuration
      have hadds : Adds s { s with grants := grants, reconciliations := reconciliations } []
          [claimed.record.attempt] := .witness rfl opened
      have hwit : Store.Witness { s with grants := grants, reconciliations := reconciliations }
          claimed.record := (Store.witness_of_rows opened).mpr (Or.inl rfl)
      have hpays := fun hadds hr hcharges => Pays.charges hg hg' he (r := claimed.record) hadds
        (claims.recordRequest ▸ claims.fresh) hr claims.attempt claims.recordAttempt claims.plan.1
        claims.plan.2.1 hstep hbudget claims.grant.mem claims.grant.id hcharges
      rcases result with ⟨_, rfl⟩ | ⟨_, rfl⟩
      · exact Or.inl (hpays hadds hwit charges)
      · refine Or.inl (hpays (hadds.trans (.setAttempt ?_ ?_ (reopened_identity now' a))) hwit charges)
        · exact ⟨hc.attempts, coherent_of_witnessRows opened hc⟩
        · exact claims.attempt
  | @conclude now now' receipt completed release r a result _ witness claimed attempt subject flag
      finishes =>
      have hadds : Adds s (s.setReconciliation (finished now receipt completed r)) [] [] :=
        .setReconciliation hc witness (by rfl) (by rfl)
      have hcoh : (s.setReconciliation (finished now receipt completed r)).Coherent :=
        hc.setReconciliation witness (by rfl) (by rfl) (by rfl)
      have hrestate : ∀ {a'}, a'.identity = a.identity →
          Adds s ((s.setReconciliation (finished now receipt completed r)).setAttempt a') [] [] :=
        fun hid => hadds.trans (.setAttempt hcoh attempt hid)
      refine Or.inl ?_
      cases finishes with
      | released =>
          exact .free hg hg' he ((hrestate (completed_identity now' a)).trans (.none rfl rfl)) (hsame rfl)
      | kept => exact .free hg hg' he (hrestate (completed_identity now' a)) (hsame rfl)
      | reopened _ _ => exact .free hg hg' he (hrestate (reopened_identity now' a)) (hsame rfl)
      | unchanged _ _ => exact .free hg hg' he hadds (hsame rfl)
  | @interrupt now a attempt dispatched =>
      exact Or.inl (.free hg hg' he (.setAttempt hc attempt (interrupted_identity now a)) (hsame rfl))
  | @interruptWitness now r witness claimed =>
      exact Or.inl (.free hg hg' he (.setReconciliation hc witness (by rfl) (by rfl)) (hsame rfl))

/-! ### Over histories -/

theorem Budget.ext_amount {b b' : Budget} (h : ∀ part, b.amount part = b'.amount part) : b = b' := by
  have h₁ := UInt64.toNat_inj.mp (h .effects)
  have h₂ := UInt64.toNat_inj.mp (h .bytes)
  have h₃ := UInt64.toNat_inj.mp (h .milliseconds)
  cases b
  cases b'
  simp only [Budget.mk.injEq]
  exact ⟨h₁, h₂, h₃⟩

variable [Platform]

/-- The request put a new grant on record. -/
structure Issues (e : Event machine) (issued : Grant) : Prop where
  request : e.request = .store (.saveGrant issued)
  fresh : ∀ g ∈ e.before.store.grants, g.id ≠ issued.id
  recorded : issued ∈ e.after.store.grants

/-- Every grant was issued, with what remains of it and what is spent. -/
def Funded (past : List (Event machine)) (s : Store) : Prop :=
  ∀ g ∈ s.grants, ∃ e issued, e ∈ past ∧ Issues e issued ∧ issued.id = g.id ∧
    ∀ part, issued.remaining.amount part = g.remaining.amount part + s.spent g.id part

/-- Nothing is spent of a grant that is not on record. -/
theorem spent_fresh {s : Store} (hg : s.Good) {grant : GrantId}
    (hfresh : ∀ g ∈ s.grants, g.id ≠ grant) (part : Component) : s.spent grant part = 0 := by
  have hother : ∀ a, s.Attempt a → a.grant ≠ grant := by
    intro a ha hid
    obtain ⟨g, hm, hgid, _⟩ := (hg.regular.admitted a ha).grant
    exact hfresh g hm (hgid.trans hid)
  have hcoh := hg.regular.coherent
  have hreserved : s.attempts.sum (fun row => row.json.identity.takes grant part) = 0 :=
    Table.sum_eq_zero fun row hrow => if_neg (hother _ (hcoh.attempt_of_mem hrow))
  have hcharged : s.reconciliations.sum (fun row => s.charged grant part row.json.attempt) = 0 := by
    refine Table.sum_eq_zero fun row hrow => ?_
    obtain ⟨a, ha, hid⟩ := hg.regular.witnessed _ (hcoh.witness_of_mem hrow)
    have hload := hcoh.loadAttempt_eq_some.mpr ⟨ha, hid⟩
    have hnot : ∀ plan : ReviewedPlan, ¬ (a.grant = grant ∧
        plan.reconciliationSetup = .applyReviewedInstrumentConfiguration) :=
      fun _ h => hother a ha h.1
    simp only [charged, configurationCharge, hload, Option.bind_eq_bind, Option.bind_some,
      if_neg (hnot _), Option.bind_fun_none, Option.map_none, Option.getD_none]
  unfold spent
  rw [hreserved, hcharged]

theorem History.funded {past : List (Event machine)} {w : World} (hist : History past w) :
    Funded past w.store := by
  refine hist.keeps (fun _ hm => (Table.not_mem_empty _ hm).elim) ?_ ?_
  · intro e older s h g hm
    obtain ⟨e', issued, he', hrest⟩ := h g hm
    exact ⟨e', issued, List.mem_cons_of_mem e he', hrest⟩
  · intro e older call hold hp hr hs hc g' hm'
    rcases hc.pays hold.good with ⟨debit, hgrants, hspent, _⟩ | ⟨g, grants, rfl, hins, hafter⟩
    · obtain ⟨g, hm, hid, hamount⟩ := hgrants g' hm'
      obtain ⟨e', issued, he', hissues, hissued, htotal⟩ := hp g hm
      refine ⟨e', issued, List.mem_cons_of_mem e he', hissues, hissued.trans hid, fun part => ?_⟩
      rw [htotal part, hamount part, hspent, hid]
      omega
    · have hfresh := (Table.insert?_eq_some hins).1
      have hsame : ∀ id part, e.after.store.spent id part = e.before.store.spent id part := by
        rw [hafter]
        exact fun _ _ => rfl
      have hrec : g ∈ e.after.store.grants := by
        rw [hafter]
        exact (Table.mem_insert? hins).mpr (Or.inl rfl)
      rw [hafter] at hm'
      rcases (Table.mem_insert? hins).mp hm' with rfl | hm
      · refine ⟨e, g', List.mem_cons_self, ⟨hr, hfresh, hrec⟩, rfl, fun part => ?_⟩
        rw [hsame, spent_fresh hold.good hfresh]
        rfl
      · obtain ⟨e', issued, he', hissues, hissued, htotal⟩ := hp g' hm
        refine ⟨e', issued, List.mem_cons_of_mem e he', hissues, hissued, fun part => ?_⟩
        rw [htotal part, hsame]

/-- A grant is issued once. -/
theorem History.issues_once {past : List (Event machine)} {w : World} (hist : History past w)
    (id : GrantId) : Once (fun e => ∃ issued, Issues e issued ∧ issued.id = id) past := by
  rintro e older he ⟨issued, hissues, hid⟩ e' he' ⟨issued', hissues', hid'⟩
  obtain ⟨older', hsuf⟩ := exists_suffix_of_mem he'
  obtain ⟨g, hm, hc⟩ := ((hist.before he).evolves hsuf).grants issued' hissues'.recorded
  exact hissues.fresh g hm (hc.id_eq.trans (hid'.trans hid.symm))

/-- What remains of a grant never grows, and it only changes when something of the grant comes
on record. -/
theorem Change.remaining {s s' : Store} {call : StoreCall} (hg : s.Good) (h : Change s call s')
    {g : Grant} (hm : g ∈ s.grants) : ∃ g' ∈ s'.grants, g'.id = g.id ∧
      (∀ part, g'.remaining.amount part ≤ g.remaining.amount part) ∧
      (g'.remaining = g.remaining ∨ Engages s s' g.id) := by
  obtain ⟨g', hm', hc⟩ := (h.evolves hg).grants g hm
  rcases h.pays hg with ⟨debit, hgrants, _, hcause⟩ | ⟨_, grants, _, hins, rfl⟩
  · obtain ⟨g₀, hm₀, hid, hamount⟩ := hgrants g' hm'
    obtain rfl := s.grants.eq_of_key_eq hm₀ hm (hid.trans hc.id_eq)
    refine ⟨g', hm', hc.id_eq, fun part => ?_, ?_⟩
    · rw [hamount part]
      exact Nat.le_add_right _ _
    · by_cases hzero : ∀ part, debit g'.id part = 0
      · refine Or.inl (Budget.ext_amount fun part => ?_)
        rw [hamount part, hzero part]
        rfl
      · push Not at hzero
        obtain ⟨part, hne⟩ := hzero
        exact Or.inr (hc.id_eq ▸ hcause g'.id part hne)
  · exact ⟨g, (Table.mem_insert? hins).mpr (Or.inr hm), rfl, fun _ => le_refl _, Or.inl rfl⟩

/-! ### Over all runs -/

section runs

variable {c : daemon.Config}

/-- In every reachable configuration each grant was issued once, with what remains of it and
what its attempts have reserved and its reconciliations cost; a pair reserves the worst
case of its whole plan with its first step, which is unique, and nothing later; no move of the
service changes what remains unless a new attempt or reconciliation of the grant comes on record
with it; and along a run what remains never grows. -/
theorem budget_conserved (h : Reachable c) :
    (∀ g ∈ c.state.store.grants, ∃ e issued, e ∈ c.history ∧ Issues e issued ∧ issued.id = g.id ∧
      ∀ part, issued.remaining.amount part =
        g.remaining.amount part + c.state.store.spent g.id part) ∧
    (∀ id, Once (fun e => ∃ issued, Issues e issued ∧ issued.id = id) c.history) ∧
    (∀ a, c.state.store.Attempt a →
      (∃ plan ∈ c.state.store.plans, plan.id = a.plan ∧
        (a.operationIndex = 0 → worstCase plan.operations = some a.reserved ∧
          ∀ part, a.reserved.amount part =
            (plan.operations.map (·.worstCaseBudget.amount part)).sum) ∧
        (a.operationIndex ≠ 0 → a.reserved = Budget.zero)) ∧
      ∃! first, c.state.store.Attempt first ∧ first.pair = a.pair ∧ first.operationIndex = 0) ∧
    (∀ c', daemon.Step c c' → ∀ g ∈ c.state.store.grants, ∃ g' ∈ c'.state.store.grants,
      g'.id = g.id ∧
        (g'.remaining = g.remaining ∨ Engages c.state.store c'.state.store g.id)) ∧
    ∀ c', daemon.Run c c' → ∀ g ∈ c.state.store.grants, ∃ g' ∈ c'.state.store.grants,
      g'.id = g.id ∧ ∀ part, g'.remaining.amount part ≤ g.remaining.amount part := by
  have hreg := h.good.regular
  refine ⟨h.history.funded, h.history.issues_once, fun a ha => ⟨?_, ?_⟩, ?_, fun c' hr => ?_⟩
  · obtain ⟨plan, hm, hid, _, _, hfirst, hlater⟩ := (hreg.admitted a ha).plan
    exact ⟨plan, hm, hid, fun h0 => ⟨hfirst h0, worstCase_amount (hfirst h0)⟩, hlater⟩
  · obtain ⟨first, hf, hp, h0, _⟩ := hreg.first ha
    refine ⟨first, ⟨hf, hp, h0⟩, ?_⟩
    rintro b ⟨hb, hbp, hb0⟩
    exact hreg.step b first hb hf (hbp.trans hp.symm) (hb0.trans h0.symm)
  · intro c' hs g hm
    obtain ⟨call, hc⟩ := h.change hs
    obtain ⟨g', hm', hid, _, hcause⟩ := hc.remaining h.good hm
    exact ⟨g', hm', hid, hcause⟩
  · refine h.follows (E := fun s s' => ∀ g ∈ s.grants, ∃ g' ∈ s'.grants, g'.id = g.id ∧
      ∀ part, g'.remaining.amount part ≤ g.remaining.amount part)
      (fun s g hm => ⟨g, hm, rfl, fun _ => le_refl _⟩) ?_ ?_ hr
    · intro s₁ s₂ s₃ h₁ h₂ g hm
      obtain ⟨g', hm', hid, hle⟩ := h₁ g hm
      obtain ⟨g'', hm'', hid', hle'⟩ := h₂ g' hm'
      exact ⟨g'', hm'', hid'.trans hid, fun part => (hle' part).trans (hle part)⟩
    · intro d call s' hd hc g hm
      obtain ⟨g', hm', hid, hle, _⟩ := hc.remaining hd.good hm
      exact ⟨g', hm', hid, hle⟩

omit [Platform] in
open Bench in
set_option maxRecDepth 20000 in
theorem budget_conserved_bench :
    let s := (bench reconfigured).state.store
    ∃ g ∈ s.grants, ∃ issued : Grant, issued.id = g.id ∧
      (∀ part, issued.remaining.amount part = g.remaining.amount part + s.spent g.id part) ∧
      ∃ row ∈ s.reconciliations.rows, s.configurationCharge g.id row.json.attempt = some ⟨1, 0, 1⟩ := by
  have hreach := bench_reachable reconfigured
  obtain ⟨g, hm, hcharged⟩ : ∃ g ∈ (bench reconfigured).state.store.grants.rows,
      ∃ row ∈ (bench reconfigured).state.store.reconciliations.rows,
        (bench reconfigured).state.store.configurationCharge g.id row.json.attempt =
          some ⟨1, 0, 1⟩ := by
    decide +kernel
  obtain ⟨_, issued, _, _, hid, htotal⟩ := (@budget_conserved Bench.platform _ hreach).1 g hm
  exact ⟨g, hm, issued, hid, htotal, hcharged⟩

end runs

end Cheirismos
