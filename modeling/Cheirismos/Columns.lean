import Cheirismos.Bench
import Cheirismos.Conformance

/-! # Columns and records

Attempts and reconciliations are stored twice: as a record, and as columns that the statements of
`SqliteStore` search and sort by.

* **Columns.** `Indexed` says that every column is the field of the record it was taken from.
* **Decisions.** `Records` are the records alone, and each query of the store has a version here that
  reads nothing else.  `Decided` says that the store answers as its records do.

`columns_match_records` puts the two together for every reachable configuration. -/

namespace Cheirismos

open Process

/-! ### Decisions on records -/

/-- The attempts and reconciliations of a store without their columns. -/
structure Records where
  attempts : List AttemptRecord
  reconciliations : List ReconciliationRecord

def Store.records (s : Store) : Records where
  attempts := s.attempts.rows.map AttemptRow.json
  reconciliations := s.reconciliations.rows.map ReconciliationRow.json

namespace Records

variable (r : Records)

/-- The attempts of a pair in the order of their steps. -/
def steps (pair : Pair) : List AttemptRecord :=
  (r.attempts.filter (fun a => a.pair = pair)).insertionSort
    (fun a b => a.operationIndex ≤ b.operationIndex)

/-- The index of the next step: the last one has to be completed. -/
def nextStep (pair : Pair) : Except StoreError ℕ :=
  match (r.steps pair).getLast? with
  | none => .ok 0
  | some last => if last.state = .completed then .ok (last.operationIndex + 1) else .error .outOfOrder

def hasDispatched (pair : Pair) : Bool :=
  r.attempts.any (fun a => a.pair = pair ∧ a.state = .dispatched)

def hasActiveReconciliation (pair : Pair) : Bool :=
  r.reconciliations.any (fun w => w.state = .claimed ∧
    r.attempts.any (fun a => a.id = w.attempt ∧ a.pair = pair))

/-- The witnesses of an attempt in the order of their ordinals. -/
def history (attempt : AttemptId) : List ReconciliationRecord :=
  (r.reconciliations.filter (fun w => w.attempt = attempt)).insertionSort
    (fun a b => a.ordinal ≤ b.ordinal)

def nextOrdinal (attempt : AttemptId) : Except StoreError ℤ :=
  match ((r.reconciliations.filter (fun w => w.attempt = attempt)).map
      (fun w => (w.ordinal : ℤ))).max? with
  | none => .ok 0
  | some ordinal =>
      if ordinal + 1 < 2 ^ 63 then .ok (ordinal + 1)
      else .error (.sqlite "Invalid column type Real at index: 0")

/-- The attempt can be added: its id, its request and its step are new. -/
def Admits (a : AttemptRecord) : Prop :=
  ∀ b ∈ r.attempts, b.id ≠ a.id ∧ b.request ≠ a.request ∧
    (b.pair = a.pair → b.operationIndex ≠ a.operationIndex)

/-- The witness can be added: its request and its ordinal are new, and no other one is active. -/
def AdmitsWitness (w : ReconciliationRecord) : Prop :=
  ∀ v ∈ r.reconciliations, v.request ≠ w.request ∧
    (v.attempt = w.attempt → v.ordinal ≠ w.ordinal ∧ ¬ (w.state = .claimed ∧ v.state = .claimed))

end Records

/-! ### Stores -/

/-- Every column is the field of the record. -/
structure Indexed (s : Store) : Prop where
  attempts : ∀ row ∈ s.attempts, row.id = row.json.id ∧ row.requestId = row.json.request ∧
    row.grantId = row.json.grant ∧ row.planId = row.json.plan ∧
    row.operationIndex = row.json.operationIndex ∧ row.state = stateText row.json.state
  reconciliations : ∀ row ∈ s.reconciliations, row.requestId = row.json.request ∧
    row.attemptId = row.json.attempt ∧ row.ordinal = row.json.ordinal ∧
    row.state = reconciliationStateText row.json.state

/-- Every decision that is taken on a column is the one that the records give. -/
structure Decided [Platform] (s : Store) : Prop where
  attempt : ∀ id, s.loadAttempt id = s.records.attempts.find? (fun a => a.id = id)
  request : ∀ request, s.loadAttemptByRequest request =
    s.records.attempts.find? (fun a => a.request = request)
  step : ∀ (pair : Pair) (index : ℕ), s.attemptAtStep pair index =
    s.records.attempts.find? (fun a => a.pair = pair ∧ a.operationIndex = index)
  pair : ∀ pair, s.attemptsForPair pair = s.records.attempts.filter (fun a => a.pair = pair)
  nextStep : ∀ pair, nextStep pair s = (s.records.nextStep pair).map (fun n => (n, s))
  dispatched : ∀ pair, s.sourcePairHasDispatched pair = s.records.hasDispatched pair
  active : ∀ pair, s.sourcePairHasActiveReconciliation pair = s.records.hasActiveReconciliation pair
  witness : ∀ request, s.loadReconciliationByRequest request =
    s.records.reconciliations.find? (fun w => w.request = request)
  activeWitness : ∀ attempt, s.loadActiveReconciliation attempt =
    s.records.reconciliations.find? (fun w => w.attempt = attempt ∧ w.state = .claimed)
  history : ∀ attempt, s.reconciliationHistory attempt = s.records.history attempt
  ordinal : ∀ attempt, nextOrdinal s attempt = s.records.nextOrdinal attempt
  interrupted : ∀ choice, choice.storeFault = none →
    (performStore .dispatchedAttempts choice s).1 =
      .ok (s.records.attempts.filter (fun a => a.state = .dispatched)) ∧
    (performStore .claimedReconciliations choice s).1 =
      .ok (s.records.reconciliations.filter (fun w => w.state = .claimed))
  attempts : ∀ a, (∃ s', insertAttempt (AttemptRow.of a) s = .ok ((), s')) ↔ s.records.Admits a
  reconciliations : ∀ w, (∃ s', insertReconciliation (ReconciliationRow.of w) s = .ok ((), s')) ↔
    s.records.AdmitsWitness w

/-! ### Rows that carry their record -/

section carried

variable {α ρ : Type} {of : α → ρ} {json : ρ → α} {rows : List ρ}
  (hrows : ∀ row ∈ rows, row = of (json row))

include hrows

theorem rows_carried : rows = (rows.map json).map of := by
  rw [List.map_map]
  conv_lhs => rw [← List.map_id rows]
  exact List.map_congr_left hrows

theorem any_carried (p : ρ → Bool) : rows.any p = (rows.map json).any (fun a => p (of a)) := by
  conv_lhs => rw [rows_carried hrows]
  exact List.any_map

variable (hjson : ∀ a, json (of a) = a)

include hjson

theorem filter_carried (p : ρ → Bool) :
    (rows.filter p).map json = (rows.map json).filter (fun a => p (of a)) := by
  conv_lhs => rw [rows_carried hrows]
  rw [List.filter_map, List.map_map]
  exact (List.map_congr_left fun a _ => hjson a).trans (List.map_id _)

theorem find?_carried (p : ρ → Bool) :
    (rows.find? p).map json = (rows.map json).find? (fun a => p (of a)) := by
  conv_lhs => rw [rows_carried hrows]
  rw [List.find?_map, Option.map_map]
  exact (Option.map_congr fun a _ => hjson a).trans (congrFun Option.map_id _)

end carried

namespace Store.Coherent

variable {s : Store} (hc : s.Coherent)

include hc

/-- A coherent store has its columns from its records. -/
theorem indexed : Indexed s where
  attempts row hrow := by
    have hof : row = AttemptRow.of row.json := hc.attempts row hrow
    refine ⟨?_, ?_, ?_, ?_, ?_, ?_⟩
    all_goals
      conv_lhs => rw [hof]
      rfl
  reconciliations row hrow := by
    have hof : row = ReconciliationRow.of row.json := hc.reconciliations row hrow
    refine ⟨?_, ?_, ?_, ?_⟩
    all_goals
      conv_lhs => rw [hof]
      rfl

/-! ### The queries -/

theorem attempt_carried (p : AttemptRow → Bool) :
    (s.attempts.rows.filter p).map AttemptRow.json =
      s.records.attempts.filter (fun a => p (AttemptRow.of a)) :=
  filter_carried hc.attempts (fun _ => rfl) p

theorem witness_carried (p : ReconciliationRow → Bool) :
    (s.reconciliations.rows.filter p).map ReconciliationRow.json =
      s.records.reconciliations.filter (fun w => p (ReconciliationRow.of w)) :=
  filter_carried hc.reconciliations (fun _ => rfl) p

theorem attemptsForPair_records (pair : Pair) :
    s.attemptsForPair pair = s.records.attempts.filter (fun a => a.pair = pair) := by
  refine (hc.attempt_carried _).trans (List.filter_congr fun a _ => ?_)
  rw [decide_eq_decide]
  exact (@Prod.ext_iff _ _ a.pair pair).symm

/-- The rows of a pair in step order are those of its records in step order. -/
theorem stepRows_records (pair : Pair) :
    s.stepRows pair = (s.records.steps pair).map AttemptRow.of := by
  have hrows : ∀ row ∈ s.attempts.rows.filter
      (fun row => row.grantId = pair.1 ∧ row.planId = pair.2), row = AttemptRow.of row.json :=
    fun row hrow => hc.attempts row (List.mem_filter.mp hrow).1
  unfold stepRows Records.steps
  have hpair := hc.attemptsForPair_records pair
  unfold Store.attemptsForPair at hpair
  rw [rows_carried hrows, hpair]
  refine (List.map_insertionSort _ _ AttemptRow.of _ fun a _ b _ => ?_).symm
  exact Int.ofNat_le.symm

theorem nextStep_records (pair : Pair) :
    nextStep pair s = (s.records.nextStep pair).map (fun n => (n, s)) := by
  have hlast : (s.stepRows pair).getLast? =
      (s.records.steps pair).getLast?.map AttemptRow.of := by
    rw [hc.stepRows_records, List.getLast?_map]
  unfold Records.nextStep
  cases hl : (s.records.steps pair).getLast? with
  | none =>
      rw [hl] at hlast
      simp only [nextStep, bind, StateT.bind, get, getThe, MonadStateOf.get, StateT.get, pure,
        Except.pure, Except.bind, hlast, Option.map_none, Except.map]
      rfl
  | some last =>
      rw [hl] at hlast
      have hstate : (AttemptRow.of last).state ≠ "completed" ↔ last.state ≠ .completed :=
        not_congr (@Function.Injective.eq_iff _ _ _ stateText_injective last.state .completed)
      have hindex : storedIndex "attempt operation index" (AttemptRow.of last).operationIndex =
          .ok last.operationIndex := storedUnsigned_ok.mpr rfl
      simp only [nextStep, bind, StateT.bind, get, getThe, MonadStateOf.get, StateT.get, pure,
        Except.pure, Except.bind, hlast, Option.map_some, Tx.refuse, hstate, hindex,
        ite_not]
      split_ifs with hcompleted
      · rfl
      · rfl

theorem sourcePairHasDispatched_records (pair : Pair) :
    s.sourcePairHasDispatched pair = s.records.hasDispatched pair := by
  refine (any_carried hc.attempts _).trans (List.any_congr rfl fun a => ?_)
  rw [decide_eq_decide]
  constructor
  · rintro ⟨hgrant, hplan, hstate⟩
    exact ⟨Prod.ext hgrant hplan, @stateText_injective a.state .dispatched hstate⟩
  · rintro ⟨rfl, hstate⟩
    exact ⟨rfl, rfl, congrArg stateText hstate⟩

theorem sourcePairHasActiveReconciliation_records (pair : Pair) :
    s.sourcePairHasActiveReconciliation pair = s.records.hasActiveReconciliation pair := by
  have hany : ∀ w : ReconciliationRecord, s.attempts.rows.any (fun a => a.id =
        (ReconciliationRow.of w).attemptId ∧ a.grantId = pair.1 ∧ a.planId = pair.2) =
      s.records.attempts.any (fun a => a.id = w.attempt ∧ a.pair = pair) := by
    intro w
    refine (any_carried hc.attempts _).trans (List.any_congr rfl fun a => ?_)
    rw [decide_eq_decide]
    exact and_congr_right fun _ => (@Prod.ext_iff _ _ a.pair pair).symm
  refine (any_carried hc.reconciliations _).trans (List.any_congr rfl fun w => ?_)
  rw [decide_eq_decide, hany w, claimedRow_iff]

theorem find_attempt_records (p : AttemptRow → Bool) :
    (s.attempts.rows.find? p).map AttemptRow.json =
      s.records.attempts.find? (fun a => p (AttemptRow.of a)) :=
  find?_carried hc.attempts (fun _ => rfl) p

theorem find_witness_records (p : ReconciliationRow → Bool) :
    (s.reconciliations.rows.find? p).map ReconciliationRow.json =
      s.records.reconciliations.find? (fun w => p (ReconciliationRow.of w)) :=
  find?_carried hc.reconciliations (fun _ => rfl) p

theorem attemptAtStep_records (pair : Pair) (index : ℕ) :
    s.attemptAtStep pair index =
      s.records.attempts.find? (fun a => a.pair = pair ∧ a.operationIndex = index) := by
  refine (hc.find_attempt_records _).trans (congrArg (List.find? · _) (funext fun a => ?_))
  rw [decide_eq_decide]
  constructor
  · rintro ⟨hgrant, hplan, hindex⟩
    exact ⟨Prod.ext hgrant hplan, Int.ofNat_inj.mp hindex⟩
  · rintro ⟨rfl, rfl⟩
    exact ⟨rfl, rfl, rfl⟩

theorem loadActiveReconciliation_records (attempt : AttemptId) :
    s.loadActiveReconciliation attempt =
      s.records.reconciliations.find? (fun w => w.attempt = attempt ∧ w.state = .claimed) := by
  refine (hc.find_witness_records _).trans (congrArg (List.find? · _) (funext fun w => ?_))
  rw [decide_eq_decide]
  exact and_congr_right fun _ => claimedRow_iff

theorem reconciliationHistory_records (attempt : AttemptId) :
    s.reconciliationHistory attempt = s.records.history attempt := by
  have hrows : ∀ row ∈ s.reconciliations.rows.filter (fun row => row.attemptId = attempt),
      row = ReconciliationRow.of row.json :=
    fun row hrow => hc.reconciliations row (List.mem_filter.mp hrow).1
  unfold Store.reconciliationHistory Records.history
  rw [List.map_insertionSort _ (fun a b : ReconciliationRecord => a.ordinal ≤ b.ordinal),
    hc.witness_carried]
  · rfl
  · intro row hrow row' hrow'
    rw [hrows row hrow, hrows row' hrow']
    exact Int.ofNat_le

theorem nextOrdinal_records [Platform] (attempt : AttemptId) :
    nextOrdinal s attempt = s.records.nextOrdinal attempt := by
  have hrows : ∀ row ∈ s.reconciliations.rows.filter (fun row => row.attemptId = attempt),
      row = ReconciliationRow.of row.json :=
    fun row hrow => hc.reconciliations row (List.mem_filter.mp hrow).1
  have hordinals : (s.reconciliations.rows.filter (fun row => row.attemptId = attempt)).map
        ReconciliationRow.ordinal =
      (s.records.reconciliations.filter (fun w => w.attempt = attempt)).map
        (fun w => (w.ordinal : ℤ)) := by
    rw [rows_carried hrows, hc.witness_carried, List.map_map]
    rfl
  unfold nextOrdinal Records.nextOrdinal
  rewrite [hordinals]
  rfl

theorem interrupted_records [Platform] {choice : Choice} (hfault : choice.storeFault = none) :
    (performStore .dispatchedAttempts choice s).1 =
      .ok (s.records.attempts.filter (fun a => a.state = .dispatched)) ∧
    (performStore .claimedReconciliations choice s).1 =
      .ok (s.records.reconciliations.filter (fun w => w.state = .claimed)) := by
  have hattempts := hc.attempt_carried (fun row => decide (row.state = "dispatched"))
  have hwitnesses := hc.witness_carried (fun row => decide (row.state = "claimed"))
  constructor
  · unfold performStore
    rw [hfault]
    refine congrArg Except.ok (hattempts.trans (List.filter_congr fun a _ => ?_))
    rw [decide_eq_decide]
    exact @Function.Injective.eq_iff _ _ _ stateText_injective a.state .dispatched
  · unfold performStore
    rw [hfault]
    refine congrArg Except.ok (hwitnesses.trans (List.filter_congr fun w _ => ?_))
    rw [decide_eq_decide]
    exact claimedRow_iff

/-! ### The unique indexes -/

theorem mem_attempts_records {a : AttemptRecord} : a ∈ s.records.attempts ↔ s.Attempt a := by
  constructor
  · intro ha
    obtain ⟨row, hrow, rfl⟩ := List.mem_map.mp ha
    exact hc.attempt_of_mem hrow
  · intro ha
    exact List.mem_map.mpr ⟨_, ha, rfl⟩

theorem mem_reconciliations_records {w : ReconciliationRecord} :
    w ∈ s.records.reconciliations ↔ s.Witness w := by
  constructor
  · intro hw
    obtain ⟨row, hrow, rfl⟩ := List.mem_map.mp hw
    exact hc.witness_of_mem hrow
  · intro hw
    exact List.mem_map.mpr ⟨_, hw, rfl⟩

theorem insertAttempt_records {a : AttemptRecord} :
    (∃ s', insertAttempt (AttemptRow.of a) s = .ok ((), s')) ↔ s.records.Admits a := by
  constructor
  · rintro ⟨s', hs'⟩ b hb
    obtain ⟨attempts, hplaces, _⟩ := insertAttempt_ok hs'
    have hb' : s.Attempt b := hc.mem_attempts_records.mp hb
    exact ⟨hplaces.id b hb', hplaces.request b hb', fun hp => hplaces.step b hb' hp⟩
  · intro hadmits
    have hrow : ∀ row ∈ s.attempts, row.json ∈ s.records.attempts :=
      fun row hrow => List.mem_map.mpr ⟨row, hrow, rfl⟩
    obtain ⟨t, ht⟩ := Table.insert?_of_free (t := s.attempts) (r := AttemptRow.of a) (by
      intro row hm
      rw [(hc.indexed.attempts row hm).1]
      exact (hadmits _ (hrow row hm)).1)
    refine ⟨{ s with attempts := t }, ?_⟩
    simp only [insertAttempt, get_bind_ok, refuse_bind_ok, insertRow_ok]
    refine ⟨?_, ?_, t, ht, rfl⟩
    · rintro ⟨row, hm, hrequest⟩
      rw [(hc.indexed.attempts row hm).2.1] at hrequest
      exact (hadmits _ (hrow row hm)).2.1 hrequest
    · rintro ⟨row, hm, hgrant, hplan, hindex⟩
      obtain ⟨_, _, hg, hp, hi, _⟩ := hc.indexed.attempts row hm
      rw [hg] at hgrant
      rw [hp] at hplan
      rw [hi] at hindex
      exact (hadmits _ (hrow row hm)).2.2 (Prod.ext hgrant hplan) (Int.ofNat_inj.mp hindex)

theorem insertReconciliation_records {w : ReconciliationRecord} :
    (∃ s', insertReconciliation (ReconciliationRow.of w) s = .ok ((), s')) ↔
      s.records.AdmitsWitness w := by
  constructor
  · rintro ⟨s', hs'⟩ v hv
    obtain ⟨_, _, hrequest, hordinal, hactive, _⟩ := insertReconciliation_ok hs'
    have hv' : s.Witness v := hc.mem_reconciliations_records.mp hv
    refine ⟨hrequest v hv', fun hattempt => ⟨hordinal v hv' hattempt, ?_⟩⟩
    rintro ⟨hw, hclaimed⟩
    exact hactive hw v hv' hattempt hclaimed
  · intro hadmits
    have hrow : ∀ row ∈ s.reconciliations, row.json ∈ s.records.reconciliations :=
      fun row hrow => List.mem_map.mpr ⟨row, hrow, rfl⟩
    obtain ⟨t, ht⟩ := Table.insert?_of_free (t := s.reconciliations)
      (r := ReconciliationRow.of w) (by
        intro row hm
        rw [(hc.indexed.reconciliations row hm).1]
        exact (hadmits _ (hrow row hm)).1)
    refine ⟨{ s with reconciliations := t }, ?_⟩
    simp only [insertReconciliation, get_bind_ok, refuse_bind_ok, insertRow_ok]
    refine ⟨?_, ?_, t, ht, rfl⟩
    · rintro ⟨row, hm, hattempt, hordinal⟩
      obtain ⟨_, ha, ho, _⟩ := hc.indexed.reconciliations row hm
      rw [ha] at hattempt
      rw [ho] at hordinal
      exact ((hadmits _ (hrow row hm)).2 hattempt).1 (Int.ofNat_inj.mp hordinal)
    · rintro ⟨hclaimed, row, hm, hattempt, hstate⟩
      obtain ⟨_, ha, _, hs⟩ := hc.indexed.reconciliations row hm
      rw [ha] at hattempt
      rw [hs] at hstate
      exact ((hadmits _ (hrow row hm)).2 hattempt).2 ⟨claimedRow_iff.mp hclaimed,
        claimedRow_iff.mp hstate⟩

/-- A coherent store decides as its records do. -/
theorem decided [Platform] : Decided s where
  attempt id := hc.find_attempt_records (fun row => decide (row.id = id))
  request request := hc.find_attempt_records (fun row => decide (row.requestId = request))
  step := hc.attemptAtStep_records
  pair := hc.attemptsForPair_records
  nextStep := hc.nextStep_records
  dispatched := hc.sourcePairHasDispatched_records
  active := hc.sourcePairHasActiveReconciliation_records
  witness request := hc.find_witness_records (fun row => decide (row.requestId = request))
  activeWitness := hc.loadActiveReconciliation_records
  history := hc.reconciliationHistory_records
  ordinal := hc.nextOrdinal_records
  interrupted _ hfault := hc.interrupted_records hfault
  attempts _ := hc.insertAttempt_records
  reconciliations _ := hc.insertReconciliation_records

end Store.Coherent

/-- In every reachable configuration the columns are those of the records, and every decision taken
on a column is the one that the records give. -/
theorem columns_match_records [Platform] {c : daemon.Config} (h : daemon.Reachable c) :
    Indexed c.state.store ∧ Decided c.state.store :=
  have hcoherent : c.state.store.Coherent := (Reachable.good h).regular.coherent
  ⟨hcoherent.indexed, hcoherent.decided⟩

open Bench in
theorem columns_match_records_bench :
    (bench skipped).state.store.attempts.rows ≠ [] ∧
      (bench skipped).state.store.reconciliations.rows ≠ [] ∧
      Indexed (bench skipped).state.store ∧ Decided (bench skipped).state.store := by
  obtain ⟨hindexed, hdecided⟩ := columns_match_records (bench_reachable skipped)
  exact ⟨by decide +kernel, by decide +kernel, hindexed, hdecided⟩

end Cheirismos
