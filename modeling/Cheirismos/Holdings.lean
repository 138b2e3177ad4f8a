import Cheirismos.Transactions

/-! # What a store says

The vocabulary in which the properties of the store are stated, on top of its tables.

* `Attempt a` and `Witness r`: a row with these columns and this record.  A store is `Coherent`
  when every row is such a row, so that its columns say what its record says; on a coherent
  store the loading functions of the transactions find exactly these records.
* `Halted p`, `Retired p`, `Closed p`, `Destination p`: the standing of a grant/plan pair.
* `Leased key p`: the lease on the key belongs to the pair.
* `Top a`: the attempt with the highest index of its pair.  `Holding a`: a pair whose highest
  attempt this is keeps its lease.
* `AttemptRecord.identity`: the part of an attempt that is fixed at its creation. -/

namespace Cheirismos

/-! ### Attempts -/

/-- The part of an attempt that is fixed at its creation. -/
structure AttemptIdentity where
  id : AttemptId
  request : RequestId
  grant : GrantId
  plan : PlanId
  operationIndex : ℕ
  planDigest : ArtifactDigest
  reserved : Budget
  profile : ProfileId
  profileDigest : ArtifactDigest
  leasedResources : OrdSet PhysicalResource
  createdAt : String

/-- What all attempts of a pair share. -/
structure PairSnapshot where
  profile : ProfileId
  profileDigest : ArtifactDigest
  planDigest : ArtifactDigest
  leasedResources : OrdSet PhysicalResource

namespace AttemptRecord

def identity (a : AttemptRecord) : AttemptIdentity where
  id := a.id
  request := a.request
  grant := a.grant
  plan := a.plan
  operationIndex := a.operationIndex
  planDigest := a.planDigest
  reserved := a.reserved
  profile := a.profile
  profileDigest := a.profileDigest
  leasedResources := a.leasedResources
  createdAt := a.createdAt

def snapshot (a : AttemptRecord) : PairSnapshot :=
  ⟨a.profile, a.profileDigest, a.planDigest, a.leasedResources⟩

/-- The keys of the leased resources. -/
def LeaseKey (a : AttemptRecord) (key : String) : Prop :=
  ∃ resource ∈ a.leasedResources, resource.key = key

section identity

variable {a b : AttemptRecord} (h : a.identity = b.identity)

include h

theorem id_eq : a.id = b.id := congrArg AttemptIdentity.id h
theorem request_eq : a.request = b.request := congrArg AttemptIdentity.request h
theorem grant_eq : a.grant = b.grant := congrArg AttemptIdentity.grant h
theorem plan_eq : a.plan = b.plan := congrArg AttemptIdentity.plan h
theorem profile_eq : a.profile = b.profile := congrArg AttemptIdentity.profile h
theorem index_eq : a.operationIndex = b.operationIndex := congrArg AttemptIdentity.operationIndex h
theorem resources_eq : a.leasedResources = b.leasedResources :=
  congrArg AttemptIdentity.leasedResources h

theorem pair_eq : a.pair = b.pair := Prod.ext (grant_eq h) (plan_eq h)

theorem snapshot_eq : a.snapshot = b.snapshot := by
  unfold snapshot
  rw [resources_eq h, profile_eq h,
    show a.profileDigest = b.profileDigest from congrArg AttemptIdentity.profileDigest h,
    show a.planDigest = b.planDigest from congrArg AttemptIdentity.planDigest h]

theorem leaseKey_iff (key : String) : a.LeaseKey key ↔ b.LeaseKey key := by
  unfold LeaseKey
  rw [resources_eq h]

end identity

theorem leaseKey_of_snapshot {a b : AttemptRecord} (h : a.snapshot = b.snapshot) (key : String) :
    a.LeaseKey key ↔ b.LeaseKey key := by
  unfold LeaseKey
  rw [show a.leasedResources = b.leasedResources from congrArg PairSnapshot.leasedResources h]

end AttemptRecord

theorem AttemptRow.of_inj {a b : AttemptRecord} (h : AttemptRow.of a = AttemptRow.of b) : a = b :=
  congrArg AttemptRow.json h

theorem ReconciliationRow.of_inj {r r' : ReconciliationRecord}
    (h : ReconciliationRow.of r = ReconciliationRow.of r') : r = r' :=
  congrArg ReconciliationRow.json h

namespace Store

variable (s : Store)

/-- A row of `attempts` holds this record under its own columns. -/
def Attempt (a : AttemptRecord) : Prop := AttemptRow.of a ∈ s.attempts

/-- A row of `reconciliations` holds this record under its own columns. -/
def Witness (r : ReconciliationRecord) : Prop := ReconciliationRow.of r ∈ s.reconciliations

def Halted (p : Pair) : Prop := ∃ h ∈ s.haltedRunAbandonments, h.pair = p

def Retired (p : Pair) : Prop := ∃ r ∈ s.recoverySourceRetirements, r.pair = p

/-- Neither attempts nor leases of the pair can change any more. -/
def Closed (p : Pair) : Prop := s.Halted p ∨ s.Retired p

def Destination (p : Pair) : Prop := ∃ t ∈ s.recoveryTakeovers, t.pair = p

def Leased (key : String) (p : Pair) : Prop := (⟨key, p⟩ : LeaseRow) ∈ s.planLeases

/-- The highest attempt of its pair. -/
def Top (a : AttemptRecord) : Prop :=
  s.Attempt a ∧ ∀ b, s.Attempt b → b.pair = a.pair → b.operationIndex ≤ a.operationIndex

/-- A pair with this highest attempt keeps its lease. -/
def Holding (a : AttemptRecord) : Prop :=
  ¬ s.Closed a.pair ∧
    (a.state = .intent ∨ a.state = .dispatched ∨ a.state = .partially ∨ a.state = .unknown ∨
      (a.state = .completed ∧
        ∃ plan ∈ s.plans, plan.id = a.plan ∧ a.operationIndex + 1 < plan.operations.length) ∨
      (a.state = .rejected ∧ s.Destination a.pair))

/-- The columns of every row are those of its record. -/
structure Coherent : Prop where
  attempts : ∀ row ∈ s.attempts, row = AttemptRow.of row.json
  reconciliations : ∀ row ∈ s.reconciliations, row = ReconciliationRow.of row.json

variable {s}

/-! ### Uniqueness -/

theorem attempt_inj {a b : AttemptRecord} (ha : s.Attempt a) (hb : s.Attempt b)
    (h : a.id = b.id) : a = b :=
  AttemptRow.of_inj (s.attempts.eq_of_key_eq ha hb h)

theorem witness_inj {r r' : ReconciliationRecord} (hr : s.Witness r) (hr' : s.Witness r')
    (h : r.request = r'.request) : r = r' :=
  ReconciliationRow.of_inj (s.reconciliations.eq_of_key_eq hr hr' h)

theorem leased_inj {key : String} {p q : Pair} (hp : s.Leased key p) (hq : s.Leased key q) :
    p = q :=
  congrArg LeaseRow.pair (s.planLeases.eq_of_key_eq hp hq rfl)

theorem plan_inj {plan plan' : ReviewedPlan} (h : plan ∈ s.plans) (h' : plan' ∈ s.plans)
    (hid : plan.id = plan'.id) : plan = plan' :=
  s.plans.eq_of_key_eq h h' hid

theorem top_inj {a b : AttemptRecord}
    (hstep : ∀ a b, s.Attempt a → s.Attempt b → a.pair = b.pair →
      a.operationIndex = b.operationIndex → a = b)
    (ha : s.Top a) (hb : s.Top b) (h : a.pair = b.pair) : a = b :=
  hstep a b ha.1 hb.1 h (le_antisymm (hb.2 a ha.1 h) (ha.2 b hb.1 h.symm))

/-! ### What the loading functions find -/

theorem recoverySourceRetired_iff {p : Pair} : s.recoverySourceRetired p = true ↔ s.Retired p := by
  unfold recoverySourceRetired Retired
  rw [Table.find?_isSome]

theorem haltedPairExists_iff {p : Pair} : s.haltedPairExists p = true ↔ s.Halted p := by
  unfold haltedPairExists Halted HaltedRunAbandonmentRecord.pair
  rw [List.any_eq_true]
  simp only [decide_eq_true_eq, Prod.ext_iff, Table.mem_def]

theorem recoveryDestinationExists_iff {p : Pair} :
    s.recoveryDestinationExists p = true ↔ s.Destination p := by
  unfold recoveryDestinationExists Destination RecoveryTakeoverRecord.pair
  rw [List.any_eq_true]
  simp only [decide_eq_true_eq, Prod.ext_iff, Table.mem_def]

theorem leased_iff {key : String} {p : Pair} :
    (s.planLeases.find? key).map LeaseRow.pair = some p ↔ s.Leased key p := by
  rw [Option.map_eq_some_iff]
  constructor
  · rintro ⟨lease, hf, rfl⟩
    obtain ⟨hm, rfl⟩ := Table.find?_eq_some.mp hf
    exact hm
  · intro h
    exact ⟨_, Table.find?_eq_some.mpr ⟨h, rfl⟩, rfl⟩

theorem mem_leaseKeysForPair {key : String} {p : Pair} :
    key ∈ s.leaseKeysForPair p ↔ s.Leased key p := by
  unfold leaseKeysForPair
  simp only [List.mem_toFinset, List.mem_map, List.mem_filter, decide_eq_true_eq]
  constructor
  · rintro ⟨lease, ⟨hm, rfl⟩, rfl⟩
    exact hm
  · intro h
    exact ⟨_, ⟨h, rfl⟩, rfl⟩

theorem loadAttemptByRequest_none {request : RequestId}
    (h : s.loadAttemptByRequest request = none) {a : AttemptRecord} (ha : s.Attempt a) :
    a.request ≠ request := by
  unfold loadAttemptByRequest at h
  rw [Option.map_eq_none_iff, List.find?_eq_none] at h
  have hrow := h _ ha
  rw [decide_eq_true_eq] at hrow
  exact hrow

theorem claimedRow_iff {r : ReconciliationRecord} :
    (ReconciliationRow.of r).state = "claimed" ↔ r.state = .claimed :=
  ⟨fun h => @reconciliationStateText_injective r.state .claimed h,
    fun h => congrArg reconciliationStateText h⟩

theorem loadActiveReconciliation_none {attempt : AttemptId}
    (h : s.loadActiveReconciliation attempt = none) {r : ReconciliationRecord}
    (hr : s.Witness r) (ha : r.attempt = attempt) : r.state ≠ .claimed := by
  intro hstate
  unfold loadActiveReconciliation at h
  rw [Option.map_eq_none_iff, List.find?_eq_none] at h
  have hrow := h _ hr
  rw [decide_eq_true_eq] at hrow
  exact hrow ⟨ha, claimedRow_iff.mpr hstate⟩

namespace Coherent

variable (hc : s.Coherent)

include hc

theorem attempt_of_mem {row : AttemptRow} (h : row ∈ s.attempts) : s.Attempt row.json := by
  unfold Attempt
  rw [← hc.attempts row h]
  exact h

theorem witness_of_mem {row : ReconciliationRow} (h : row ∈ s.reconciliations) :
    s.Witness row.json := by
  unfold Witness
  rw [← hc.reconciliations row h]
  exact h

theorem exists_row {P : AttemptRow → Prop} :
    (∃ row ∈ s.attempts, P row) ↔ ∃ a, s.Attempt a ∧ P (AttemptRow.of a) := by
  constructor
  · rintro ⟨row, hrow, hp⟩
    refine ⟨row.json, hc.attempt_of_mem hrow, ?_⟩
    rw [← hc.attempts row hrow]
    exact hp
  · rintro ⟨a, ha, hp⟩
    exact ⟨_, ha, hp⟩

theorem exists_witnessRow {P : ReconciliationRow → Prop} :
    (∃ row ∈ s.reconciliations, P row) ↔ ∃ r, s.Witness r ∧ P (ReconciliationRow.of r) := by
  constructor
  · rintro ⟨row, hrow, hp⟩
    refine ⟨row.json, hc.witness_of_mem hrow, ?_⟩
    rw [← hc.reconciliations row hrow]
    exact hp
  · rintro ⟨r, hr, hp⟩
    exact ⟨_, hr, hp⟩

theorem loadAttempt_eq_some {id : AttemptId} {a : AttemptRecord} :
    s.loadAttempt id = some a ↔ s.Attempt a ∧ a.id = id := by
  unfold loadAttempt
  rw [Option.map_eq_some_iff]
  constructor
  · rintro ⟨row, hf, rfl⟩
    obtain ⟨hm, hid⟩ := Table.find?_eq_some.mp hf
    refine ⟨hc.attempt_of_mem hm, ?_⟩
    rw [hc.attempts row hm] at hid
    exact hid
  · rintro ⟨ha, rfl⟩
    exact ⟨_, Table.find?_eq_some.mpr ⟨ha, rfl⟩, rfl⟩

theorem loadAttemptByRequest_some {request : RequestId} {a : AttemptRecord}
    (h : s.loadAttemptByRequest request = some a) : s.Attempt a ∧ a.request = request := by
  unfold loadAttemptByRequest at h
  obtain ⟨row, hf, rfl⟩ := Option.map_eq_some_iff.mp h
  have hm : row ∈ s.attempts := List.mem_of_find?_eq_some hf
  have hr : row.requestId = request := by simpa using List.find?_some hf
  rw [hc.attempts row hm] at hr
  exact ⟨hc.attempt_of_mem hm, hr⟩

theorem attemptAtStep_some {p : Pair} {index : ℤ} {a : AttemptRecord}
    (h : s.attemptAtStep p index = some a) :
    s.Attempt a ∧ a.pair = p ∧ (a.operationIndex : ℤ) = index := by
  unfold attemptAtStep at h
  obtain ⟨row, hf, rfl⟩ := Option.map_eq_some_iff.mp h
  have hm : row ∈ s.attempts := List.mem_of_find?_eq_some hf
  have hr : row.grantId = p.1 ∧ row.planId = p.2 ∧ row.operationIndex = index := by
    simpa using List.find?_some hf
  rw [hc.attempts row hm] at hr
  exact ⟨hc.attempt_of_mem hm, Prod.ext hr.1 hr.2.1, hr.2.2⟩

theorem loadReconciliationByRequest_eq_some {request : RequestId} {r : ReconciliationRecord} :
    s.loadReconciliationByRequest request = some r ↔ s.Witness r ∧ r.request = request := by
  unfold loadReconciliationByRequest
  rw [Option.map_eq_some_iff]
  constructor
  · rintro ⟨row, hf, rfl⟩
    obtain ⟨hm, hid⟩ := Table.find?_eq_some.mp hf
    refine ⟨hc.witness_of_mem hm, ?_⟩
    rw [hc.reconciliations row hm] at hid
    exact hid
  · rintro ⟨hr, rfl⟩
    exact ⟨_, Table.find?_eq_some.mpr ⟨hr, rfl⟩, rfl⟩

theorem loadReconciliationByRequest_none {request : RequestId}
    (h : s.loadReconciliationByRequest request = none) {r : ReconciliationRecord}
    (hr : s.Witness r) : r.request ≠ request := by
  rintro rfl
  rw [(loadReconciliationByRequest_eq_some hc).mpr ⟨hr, rfl⟩] at h
  cases h

theorem sourcePairHasDispatched_iff {p : Pair} :
    s.sourcePairHasDispatched p = true ↔
      ∃ a, s.Attempt a ∧ a.pair = p ∧ a.state = .dispatched := by
  unfold sourcePairHasDispatched
  rw [List.any_eq_true]
  simp only [decide_eq_true_eq]
  refine Iff.trans (hc.exists_row (P := fun row => row.grantId = p.1 ∧ row.planId = p.2 ∧
    row.state = "dispatched")) ?_
  refine exists_congr fun a => and_congr_right fun _ => ?_
  constructor
  · rintro ⟨h1, h2, h3⟩
    exact ⟨Prod.ext h1 h2, @stateText_injective a.state .dispatched h3⟩
  · rintro ⟨rfl, h⟩
    exact ⟨rfl, rfl, congrArg stateText h⟩

theorem sourcePairHasActiveReconciliation_iff {p : Pair} :
    s.sourcePairHasActiveReconciliation p = true ↔
      ∃ r a, s.Witness r ∧ r.state = .claimed ∧ s.Attempt a ∧ a.id = r.attempt ∧ a.pair = p := by
  unfold sourcePairHasActiveReconciliation
  rw [List.any_eq_true]
  simp only [decide_eq_true_eq, List.any_eq_true]
  refine Iff.trans (hc.exists_witnessRow (P := fun r => r.state = "claimed" ∧
    ∃ a ∈ s.attempts, a.id = r.attemptId ∧ a.grantId = p.1 ∧ a.planId = p.2)) ?_
  constructor
  · rintro ⟨r, hr, hstate, hrow⟩
    obtain ⟨a, ha, h1, h2, h3⟩ := (hc.exists_row (P := fun a => a.id = r.attempt ∧
      a.grantId = p.1 ∧ a.planId = p.2)).mp hrow
    exact ⟨r, a, hr, claimedRow_iff.mp hstate, ha, h1, Prod.ext h2 h3⟩
  · rintro ⟨r, a, hr, hstate, ha, h1, rfl⟩
    exact ⟨r, hr, claimedRow_iff.mpr hstate, _, ha, h1, rfl, rfl⟩

theorem mem_attemptsForPair {p : Pair} {a : AttemptRecord} :
    a ∈ s.attemptsForPair p ↔ s.Attempt a ∧ a.pair = p := by
  unfold attemptsForPair
  rw [List.mem_map]
  constructor
  · rintro ⟨row, hrow, rfl⟩
    rw [List.mem_filter, decide_eq_true_eq] at hrow
    obtain ⟨hm, h1, h2⟩ := hrow
    rw [hc.attempts row hm] at h1 h2
    exact ⟨hc.attempt_of_mem hm, Prod.ext h1 h2⟩
  · rintro ⟨ha, rfl⟩
    refine ⟨AttemptRow.of a, ?_, rfl⟩
    rw [List.mem_filter, decide_eq_true_eq]
    exact ⟨ha, rfl, rfl⟩

theorem nodup_attemptsForPair (p : Pair) : (s.attemptsForPair p).Nodup := by
  unfold attemptsForPair
  refine List.Nodup.map_on ?_ ((List.Nodup.of_map _ s.attempts.distinct).filter _)
  intro row hrow row' hrow' he
  rw [hc.attempts row (List.mem_filter.mp hrow).1, he,
    ← hc.attempts row' (List.mem_filter.mp hrow').1]

/-- The last row of a pair in step order is its highest attempt. -/
theorem stepRows_getLast {p : Pair} :
    ((s.stepRows p).getLast? = none ∧ ∀ a, s.Attempt a → a.pair ≠ p) ∨
    ∃ a, (s.stepRows p).getLast? = some (AttemptRow.of a) ∧ s.Top a ∧ a.pair = p := by
  have hmem : ∀ row, row ∈ s.stepRows p ↔ row ∈ s.attempts ∧ row.grantId = p.1 ∧
      row.planId = p.2 := by
    intro row
    unfold stepRows
    rw [List.mem_insertionSort, List.mem_filter, decide_eq_true_eq, Table.mem_def]
  cases hl : (s.stepRows p).getLast? with
  | none =>
      left
      refine ⟨rfl, fun a ha hp => ?_⟩
      rw [List.getLast?_eq_none_iff] at hl
      have : AttemptRow.of a ∈ s.stepRows p := (hmem _).mpr ⟨ha, congrArg Prod.fst hp,
        congrArg Prod.snd hp⟩
      rw [hl] at this
      cases this
  | some row =>
      right
      obtain ⟨init, hinit⟩ := List.getLast?_eq_some_iff.mp hl
      obtain ⟨hrow, h1, h2⟩ := (hmem row).mp (by rw [hinit]; simp)
      have hof := hc.attempts row hrow
      refine ⟨row.json, by rw [← hof], ⟨hc.attempt_of_mem hrow, ?_⟩, ?_⟩
      · intro b hb hbp
        have hpair : row.json.pair = p := by
          rw [hof] at h1 h2
          exact Prod.ext h1 h2
        rw [hpair] at hbp
        have hbm : AttemptRow.of b ∈ s.stepRows p := (hmem _).mpr ⟨hb, congrArg Prod.fst hbp,
          congrArg Prod.snd hbp⟩
        have hsorted : (s.stepRows p).Pairwise
            (fun a b => a.operationIndex ≤ b.operationIndex) := by
          unfold stepRows
          exact List.pairwise_insertionSort _ _
        rw [hinit] at hbm hsorted
        have hle : (AttemptRow.of b).operationIndex ≤ row.operationIndex := by
          rcases List.mem_append.mp hbm with hb' | hb'
          · exact (List.pairwise_append.mp hsorted).2.2 _ hb' _ (by simp)
          · rw [List.mem_singleton.mp hb']
        rw [hof] at hle
        exact Int.ofNat_le.mp hle
      · rw [hof] at h1 h2
        exact Prod.ext h1 h2

theorem mem_reconciliationHistory {id : AttemptId} {r : ReconciliationRecord} :
    r ∈ s.reconciliationHistory id ↔ s.Witness r ∧ r.attempt = id := by
  unfold reconciliationHistory
  rw [List.mem_map]
  constructor
  · rintro ⟨row, hrow, rfl⟩
    rw [List.mem_insertionSort, List.mem_filter, decide_eq_true_eq] at hrow
    obtain ⟨hm, hid⟩ := hrow
    rw [hc.reconciliations row hm] at hid
    exact ⟨hc.witness_of_mem hm, hid⟩
  · rintro ⟨hr, rfl⟩
    refine ⟨ReconciliationRow.of r, ?_, rfl⟩
    rw [List.mem_insertionSort, List.mem_filter, decide_eq_true_eq]
    exact ⟨hr, rfl⟩

end Coherent

/-! ### Rewriting one record -/

section rewriting

variable {s : Store}

/-- Restating an attempt replaces exactly its record. -/
theorem attempt_setAttempt {a a' : AttemptRecord} (ha : s.Attempt a)
    (h : a'.identity = a.identity) {b : AttemptRecord} :
    (s.setAttempt a').Attempt b ↔ b = a' ∨ s.Attempt b ∧ b.id ≠ a'.id := by
  have hid : a'.id = (AttemptRow.of a).id := AttemptRecord.id_eq h
  have hrow : ({ AttemptRow.of a with state := stateText a'.state, json := a' } : AttemptRow) =
      AttemptRow.of a' := by
    unfold AttemptRow.of
    rw [AttemptRecord.id_eq h, AttemptRecord.request_eq h, AttemptRecord.grant_eq h,
      AttemptRecord.plan_eq h, AttemptRecord.index_eq h]
  unfold Attempt setAttempt
  simp only [hid, Table.mem_update_of_mem ha, hrow]
  constructor
  · rintro (hb | ⟨hb, hne⟩)
    · exact Or.inl (AttemptRow.of_inj hb)
    · exact Or.inr ⟨hb, hne⟩
  · rintro (rfl | ⟨hb, hne⟩)
    · exact Or.inl rfl
    · exact Or.inr ⟨hb, hne⟩

/-- Every attempt afterwards restates one before. -/
theorem attempt_setAttempt_back {a a' b : AttemptRecord} (ha : s.Attempt a)
    (h : a'.identity = a.identity) (hb : (s.setAttempt a').Attempt b) :
    ∃ c, s.Attempt c ∧ b.identity = c.identity ∧ (b = c ∨ c = a ∧ b = a') := by
  rcases (attempt_setAttempt ha h).mp hb with rfl | ⟨hb, _⟩
  · exact ⟨a, ha, h, Or.inr ⟨rfl, rfl⟩⟩
  · exact ⟨b, hb, rfl, Or.inl rfl⟩

/-- Every attempt before is restated afterwards. -/
theorem attempt_setAttempt_forth {a a' b : AttemptRecord} (ha : s.Attempt a)
    (h : a'.identity = a.identity) (hb : s.Attempt b) :
    ∃ c, (s.setAttempt a').Attempt c ∧ c.identity = b.identity ∧ (c = b ∨ b = a ∧ c = a') := by
  by_cases hid : b.id = a'.id
  · obtain rfl := attempt_inj hb ha (hid.trans (AttemptRecord.id_eq h))
    exact ⟨a', (attempt_setAttempt ha h).mpr (Or.inl rfl), h, Or.inr ⟨rfl, rfl⟩⟩
  · exact ⟨b, (attempt_setAttempt ha h).mpr (Or.inr ⟨hb, hid⟩), rfl, Or.inl rfl⟩

/-- Restating a witness replaces exactly its record. -/
theorem witness_setReconciliation {r r' : ReconciliationRecord} (hr : s.Witness r)
    (hreq : r'.request = r.request) (hatt : r'.attempt = r.attempt)
    (hord : r'.ordinal = r.ordinal) {q : ReconciliationRecord} :
    (s.setReconciliation r').Witness q ↔ q = r' ∨ s.Witness q ∧ q.request ≠ r'.request := by
  have hkey : r'.request = (ReconciliationRow.of r).requestId := hreq
  have hrow : ({ ReconciliationRow.of r with
      state := reconciliationStateText r'.state, json := r' } : ReconciliationRow) =
      ReconciliationRow.of r' := by
    unfold ReconciliationRow.of
    rw [hreq, hatt, hord]
  unfold Witness setReconciliation
  simp only [hkey, Table.mem_update_of_mem hr, hrow]
  constructor
  · rintro (hq | ⟨hq, hne⟩)
    · exact Or.inl (ReconciliationRow.of_inj hq)
    · exact Or.inr ⟨hq, hne⟩
  · rintro (rfl | ⟨hq, hne⟩)
    · exact Or.inl rfl
    · exact Or.inr ⟨hq, hne⟩

theorem Coherent.setAttempt (hc : s.Coherent) {a a' : AttemptRecord} (ha : s.Attempt a)
    (h : a'.identity = a.identity) : (s.setAttempt a').Coherent where
  attempts := by
    intro row hrow
    simp only [Store.setAttempt, Table.mem_update] at hrow
    obtain ⟨row', hrow', he⟩ := hrow
    split_ifs at he with hk
    · have hof : row' = AttemptRow.of a := by
        refine s.attempts.eq_of_key_eq hrow' ha ?_
        rw [hk]
        exact AttemptRecord.id_eq h
      subst he hof
      unfold AttemptRow.of
      simp only [AttemptRecord.id_eq h, AttemptRecord.request_eq h, AttemptRecord.grant_eq h,
        AttemptRecord.plan_eq h, AttemptRecord.index_eq h]
    · subst he
      exact hc.attempts row' hrow'
  reconciliations := hc.reconciliations

theorem Coherent.setReconciliation (hc : s.Coherent) {r r' : ReconciliationRecord}
    (hr : s.Witness r) (hreq : r'.request = r.request) (hatt : r'.attempt = r.attempt)
    (hord : r'.ordinal = r.ordinal) : (s.setReconciliation r').Coherent where
  attempts := hc.attempts
  reconciliations := by
    intro row hrow
    simp only [Store.setReconciliation, Table.mem_update] at hrow
    obtain ⟨row', hrow', he⟩ := hrow
    split_ifs at he with hk
    · have hof : row' = ReconciliationRow.of r := by
        refine s.reconciliations.eq_of_key_eq hrow' hr ?_
        rw [hk, hreq]
        rfl
      subst he hof
      unfold ReconciliationRow.of
      simp only [hreq, hatt, hord]
    · subst he
      exact hc.reconciliations row' hrow'

theorem leased_dropLeases {p : Pair} {keys : String → Bool} {key : String} {q : Pair} :
    (s.dropLeases p keys).Leased key q ↔ s.Leased key q ∧ ¬ (keys key = true ∧ q = p) := by
  unfold Leased dropLeases
  rw [Table.mem_deleteWhere]
  simp

theorem leased_releaseLeases {a : AttemptRecord} {key : String} {q : Pair} :
    (s.releaseLeases a).Leased key q ↔ s.Leased key q ∧ ¬ (a.LeaseKey key ∧ q = a.pair) := by
  unfold releaseLeases
  rw [leased_dropLeases, List.any_eq_true]
  simp only [beq_iff_eq]
  rfl

end rewriting

end Store

end Cheirismos
