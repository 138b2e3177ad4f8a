import Cheirismos.Records
import Cheirismos.Table
import Mathlib.Data.List.Sort

/-! # The tables of the store and single statements

The schema of `SqliteStore` (`from_connection`) and the statements that its methods are made
of.

* **Tables.** One `Table` for each table of the schema.  A row of `attempts` and of
  `reconciliations` has its index columns beside the record in its `json` column, since updates
  write them separately; every other row is inserted once from its record or only rewritten as
  a whole, and is the record itself.  The `UNIQUE` constraints beyond the primary keys are
  checked at insertion.
* **Transactions.** `Tx α` is a store transformer that may fail; a failure keeps no change, as
  a transaction that is dropped before its commit.
* **Statements.** The loading functions and the single inserts, updates and deletes, each
  with the lemma that says what its success means. -/

namespace Cheirismos

/-! ### Errors -/

inductive StoreError where
  | sqlite (source : String)
  | poisoned
  | missing (kind id : String)
  | revoked (id : GrantId)
  | expired (id : GrantId)
  | budgetExhausted (id : GrantId)
  | notDispatchable (id : AttemptId)
  | outOfOrder
  | leaseBusy (profile : String)
  | conflict (kind id : String)
  | reviewDigestMismatch (id : PlanId)
  | integerOutOfRange (field : String) (value : ℕ)
  | negativeStoredInteger (field : String) (value : ℤ)
deriving DecidableEq

def StoreError.toString : StoreError → String
  | sqlite source => "sqlite failure: " ++ source
  | poisoned => "store mutex was poisoned"
  | missing kind id => "missing " ++ kind ++ ": " ++ id
  | revoked id => "grant " ++ id.value ++ " is revoked"
  | expired id => "grant " ++ id.value ++ " has expired"
  | budgetExhausted id => "grant " ++ id.value ++ " cannot reserve the requested budget"
  | notDispatchable id => "attempt " ++ id.value ++ " is not awaiting dispatch"
  | outOfOrder => "plan steps must execute in order"
  | leaseBusy profile => "profile " ++ profile ++ " is leased by another active experiment"
  | conflict kind id => "immutable record " ++ kind ++ " conflicts at id " ++ id
  | reviewDigestMismatch id =>
      "reviewer did not review proposal " ++ id.value ++ " at the supplied digest"
  | integerOutOfRange field value =>
      field ++ " exceeds SQLite's signed 64-bit range: " ++ ToString.toString value
  | negativeStoredInteger field value =>
      "stored " ++ field ++ " is negative: " ++ ToString.toString value

/-! ### Rows -/

def stateText : AttemptState → String
  | .intent => "intent"
  | .dispatched => "dispatched"
  | .completed => "completed"
  | .partially => "partial"
  | .unknown => "unknown"
  | .rejected => "rejected"

theorem stateText_injective : Function.Injective stateText := by
  intro a b h
  cases a <;> cases b <;> first | rfl | (revert h; decide)

def reconciliationStateText : ReconciliationState → String
  | .claimed => "claimed"
  | .completed => "completed"
  | .unknown => "unknown"
  | .failed => "failed"

theorem reconciliationStateText_injective : Function.Injective reconciliationStateText := by
  intro a b h
  cases a <;> cases b <;> first | rfl | (revert h; decide)

structure AttemptRow where
  id : AttemptId
  requestId : RequestId
  grantId : GrantId
  planId : PlanId
  operationIndex : ℤ
  state : String
  json : AttemptRecord

/-- The row whose columns are those of the record. -/
def AttemptRow.of (attempt : AttemptRecord) : AttemptRow where
  id := attempt.id
  requestId := attempt.request
  grantId := attempt.grant
  planId := attempt.plan
  operationIndex := attempt.operationIndex
  state := stateText attempt.state
  json := attempt

structure ReconciliationRow where
  requestId : RequestId
  attemptId : AttemptId
  ordinal : ℤ
  state : String
  json : ReconciliationRecord

/-- The row whose columns are those of the record. -/
def ReconciliationRow.of (record : ReconciliationRecord) : ReconciliationRow where
  requestId := record.request
  attemptId := record.attempt
  ordinal := record.ordinal
  state := reconciliationStateText record.state
  json := record

structure RetirementRow where
  pair : Pair
  takeoverRequest : RequestId

structure LeaseRow where
  resourceKey : String
  pair : Pair

structure Store where
  profiles : Table CommissionedProfile.id
  grants : Table Grant.id
  plans : Table (fun plan : ReviewedPlan => plan.id)
  proposals : Table PlanProposal.id
  runs : Table PlanRun.id
  attempts : Table AttemptRow.id
  reconciliations : Table ReconciliationRow.requestId
  recoveryTakeovers : Table RecoveryTakeoverRecord.request
  recoverySourceRetirements : Table RetirementRow.pair
  haltedRunAbandonments : Table HaltedRunAbandonmentRecord.request
  planLeases : Table LeaseRow.resourceKey

/-- The store of a new database. -/
def Store.empty : Store :=
  ⟨.empty, .empty, .empty, .empty, .empty, .empty, .empty, .empty, .empty, .empty, .empty⟩

/-! ### Transactions -/

abbrev Tx := StateT Store (Except StoreError)

namespace Tx

def refuse (bad : Prop) [Decidable bad] (error : StoreError) : Tx Unit :=
  if bad then throw error else pure ()

def required {α : Type} (value : Option α) (error : StoreError) : Tx α :=
  match value with
  | some a => pure a
  | none => throw error

variable {α β : Type} {s s' : Store}

theorem bind_ok {x : Tx α} {f : α → Tx β} {b : β} :
    (x >>= f) s = .ok (b, s') ↔ ∃ a s₁, x s = .ok (a, s₁) ∧ f a s₁ = .ok (b, s') := by
  constructor
  · intro h
    cases hx : x s with
    | error e =>
        simp only [bind, StateT.bind, hx, Except.bind] at h
        cases h
    | ok r =>
        obtain ⟨a, s₁⟩ := r
        simp only [bind, StateT.bind, hx, Except.bind] at h
        exact ⟨a, s₁, rfl, h⟩
  · rintro ⟨a, s₁, hx, hf⟩
    simp only [bind, StateT.bind, hx, Except.bind]
    exact hf

theorem pure_ok {a b : α} : (pure a : Tx α) s = .ok (b, s') ↔ a = b ∧ s = s' := by
  constructor
  · intro h
    cases h
    exact ⟨rfl, rfl⟩
  · rintro ⟨rfl, rfl⟩
    rfl

theorem get_ok {t : Store} : (get : Tx Store) s = .ok (t, s') ↔ s = t ∧ s = s' := by
  simp [get, getThe, MonadStateOf.get, StateT.get, pure, Except.pure]

theorem set_ok {t : Store} {u : PUnit} : (set t : Tx PUnit) s = .ok (u, s') ↔ t = s' := by
  constructor
  · intro h
    cases h
    rfl
  · rintro rfl
    rfl

theorem throw_ok {e : StoreError} {a : α} : ¬ (throw e : Tx α) s = .ok (a, s') := by
  intro h
  cases h

theorem refuse_ok {bad : Prop} [Decidable bad] {e : StoreError} {u : Unit} :
    refuse bad e s = .ok (u, s') ↔ ¬ bad ∧ s = s' := by
  unfold refuse
  split_ifs with hb
  · simp only [hb, not_true, false_and, iff_false]
    exact throw_ok
  · rw [pure_ok]
    simp [hb]

theorem required_ok {o : Option α} {e : StoreError} {a : α} :
    required o e s = .ok (a, s') ↔ o = some a ∧ s = s' := by
  cases o with
  | none => simp only [required, reduceCtorEq, false_and, iff_false]; exact throw_ok
  | some b => rw [required, pure_ok, Option.some.injEq]

theorem liftExcept_ok {x : Except StoreError α} {a : α} :
    (liftM x : Tx α) s = .ok (a, s') ↔ x = .ok a ∧ s = s' := by
  cases x with
  | error e => simp [liftM, monadLift, MonadLift.monadLift, StateT.lift, bind, Except.bind]
  | ok b =>
      simp [liftM, monadLift, MonadLift.monadLift, StateT.lift, bind, Except.bind, pure,
        Except.pure]

end Tx

/-! ### Integers -/

def sqliteUnsigned (field : String) (value : ℕ) : Except StoreError ℤ :=
  if value < 2 ^ 63 then .ok value else .error (.integerOutOfRange field value)

def sqliteIndex (field : String) (value : ℕ) : Except StoreError ℤ := sqliteUnsigned field value

def storedUnsigned (field : String) (value : ℤ) : Except StoreError ℕ :=
  if 0 ≤ value then .ok value.toNat else .error (.negativeStoredInteger field value)

def storedIndex (field : String) (value : ℤ) : Except StoreError ℕ := storedUnsigned field value

theorem sqliteUnsigned_ok {field : String} {value : ℕ} {i : ℤ} :
    sqliteUnsigned field value = .ok i ↔ value < 2 ^ 63 ∧ (value : ℤ) = i := by
  unfold sqliteUnsigned
  split_ifs with h
  · rw [Except.ok.injEq]
    exact ⟨fun e => ⟨h, e⟩, fun e => e.2⟩
  · exact ⟨fun e => (by cases e), fun e => absurd e.1 h⟩

theorem storedUnsigned_ok {field : String} {value : ℤ} {n : ℕ} :
    storedUnsigned field value = .ok n ↔ value = (n : ℤ) := by
  unfold storedUnsigned
  split_ifs with h
  · rw [Except.ok.injEq]
    omega
  · exact ⟨fun e => (by cases e), fun e => (by omega)⟩

/-! ### Loading -/

namespace Store

variable (s : Store)

def loadAttempt (id : AttemptId) : Option AttemptRecord := (s.attempts.find? id).map AttemptRow.json

def loadAttemptByRequest (request : RequestId) : Option AttemptRecord :=
  (s.attempts.rows.find? (fun row => row.requestId = request)).map AttemptRow.json

def attemptAtStep (pair : Pair) (index : ℤ) : Option AttemptRecord :=
  (s.attempts.rows.find? (fun row => row.grantId = pair.1 ∧ row.planId = pair.2 ∧
    row.operationIndex = index)).map AttemptRow.json

/-- The attempts of a pair. -/
def attemptsForPair (pair : Pair) : List AttemptRecord :=
  (s.attempts.rows.filter (fun row => row.grantId = pair.1 ∧ row.planId = pair.2)).map
    AttemptRow.json

/-- The rows of a pair in the order of their steps. -/
def stepRows (pair : Pair) : List AttemptRow :=
  (s.attempts.rows.filter (fun row => row.grantId = pair.1 ∧ row.planId = pair.2)).insertionSort
    (fun a b => a.operationIndex ≤ b.operationIndex)

def loadReconciliationByRequest (request : RequestId) : Option ReconciliationRecord :=
  (s.reconciliations.find? request).map ReconciliationRow.json

def loadActiveReconciliation (attempt : AttemptId) : Option ReconciliationRecord :=
  (s.reconciliations.rows.find? (fun row => row.attemptId = attempt ∧
    row.state = "claimed")).map ReconciliationRow.json

/-- The witnesses of an attempt in the order of their ordinals. -/
def reconciliationHistory (attempt : AttemptId) : List ReconciliationRecord :=
  ((s.reconciliations.rows.filter (fun row => row.attemptId = attempt)).insertionSort
    (fun a b => a.ordinal ≤ b.ordinal)).map ReconciliationRow.json

def recoveryDestinationExists (pair : Pair) : Bool :=
  s.recoveryTakeovers.rows.any (fun takeover => takeover.grant = pair.1 ∧ takeover.plan = pair.2)

def recoverySourceRetired (pair : Pair) : Bool :=
  (s.recoverySourceRetirements.find? pair).isSome

def sourcePairHasDispatched (pair : Pair) : Bool :=
  s.attempts.rows.any (fun row => row.grantId = pair.1 ∧ row.planId = pair.2 ∧
    row.state = "dispatched")

def sourcePairHasActiveReconciliation (pair : Pair) : Bool :=
  s.reconciliations.rows.any (fun r => r.state = "claimed" ∧
    s.attempts.rows.any (fun a => a.id = r.attemptId ∧ a.grantId = pair.1 ∧ a.planId = pair.2))

def haltedPairExists (pair : Pair) : Bool :=
  s.haltedRunAbandonments.rows.any (fun row => row.grant = pair.1 ∧ row.plan = pair.2)

def loadHaltedRunAbandonmentByRun (run : RequestId) : Option HaltedRunAbandonmentRecord :=
  s.haltedRunAbandonments.rows.find? (fun row => row.run = run)

def leaseKeysForPair (pair : Pair) : Finset String :=
  ((s.planLeases.rows.filter (fun lease => lease.pair = pair)).map LeaseRow.resourceKey).toFinset

end Store

/-! ### Single statements -/

/-- `INSERT … ON CONFLICT(id) DO NOTHING`; whether a row was inserted. -/
def insertOrNothing {κ ρ : Type} [DecidableEq κ] {key : ρ → κ} (table : Store → Table key)
    (put : Table key → Store → Store) (row : ρ) : Tx Bool := do
  let s ← get
  match (table s).insert? row with
  | some t =>
      set (put t s)
      return true
  | none => return false

/-- A plain `INSERT` under a primary key. -/
def insertRow {κ ρ : Type} [DecidableEq κ] {key : ρ → κ} (table : Store → Table key)
    (put : Table key → Store → Store) (row : ρ) (constraint : String) : Tx Unit := do
  let s ← get
  match (table s).insert? row with
  | some t => set (put t s)
  | none => throw (.sqlite ("UNIQUE constraint failed: " ++ constraint))

def insertAttempt (row : AttemptRow) : Tx Unit := do
  let s ← get
  Tx.refuse (∃ other ∈ s.attempts.rows, other.requestId = row.requestId)
    (.sqlite "UNIQUE constraint failed: attempts.request_id")
  Tx.refuse (∃ other ∈ s.attempts.rows, other.grantId = row.grantId ∧ other.planId = row.planId ∧
      other.operationIndex = row.operationIndex)
    (.sqlite ("UNIQUE constraint failed: " ++
      "attempts.grant_id, attempts.plan_id, attempts.operation_index"))
  insertRow Store.attempts (fun t s => { s with attempts := t }) row "attempts.id"

def insertReconciliation (row : ReconciliationRow) : Tx Unit := do
  let s ← get
  Tx.refuse (∃ other ∈ s.reconciliations.rows, other.attemptId = row.attemptId ∧
      other.ordinal = row.ordinal)
    (.sqlite "UNIQUE constraint failed: reconciliations.attempt_id, reconciliations.ordinal")
  Tx.refuse (row.state = "claimed" ∧ ∃ other ∈ s.reconciliations.rows,
      other.attemptId = row.attemptId ∧ other.state = "claimed")
    (.sqlite "UNIQUE constraint failed: reconciliations.attempt_id")
  insertRow Store.reconciliations (fun t s => { s with reconciliations := t }) row
    "reconciliations.request_id"

def insertHaltedRunAbandonment (record : HaltedRunAbandonmentRecord) : Tx Unit := do
  let s ← get
  Tx.refuse (∃ other ∈ s.haltedRunAbandonments.rows, other.run = record.run)
    (.sqlite "UNIQUE constraint failed: halted_run_abandonments.run_id")
  Tx.refuse (∃ other ∈ s.haltedRunAbandonments.rows, other.grant = record.grant ∧
      other.plan = record.plan)
    (.sqlite ("UNIQUE constraint failed: " ++
      "halted_run_abandonments.grant_id, halted_run_abandonments.plan_id"))
  insertRow Store.haltedRunAbandonments (fun t s => { s with haltedRunAbandonments := t }) record
    "halted_run_abandonments.request_id"

def updateGrant (grant : Grant) : Tx Unit :=
  modify fun s => { s with grants := s.grants.replace grant }

def updateRun (run : PlanRun) : Tx Unit :=
  modify fun s => { s with runs := s.runs.replace run }

/-- `UPDATE attempts SET state, json WHERE id`. -/
def Store.setAttempt (s : Store) (attempt : AttemptRecord) : Store :=
  { s with
    attempts := s.attempts.update attempt.id
      (fun row => { row with state := stateText attempt.state, json := attempt })
      (fun _ => rfl) }

/-- `UPDATE reconciliations SET state, json WHERE request_id`. -/
def Store.setReconciliation (s : Store) (record : ReconciliationRecord) : Store :=
  { s with
    reconciliations := s.reconciliations.update record.request
      (fun row => { row with state := reconciliationStateText record.state, json := record })
      (fun _ => rfl) }

/-- Delete the leases of a pair on the given keys. -/
def Store.dropLeases (s : Store) (pair : Pair) (keys : String → Bool) : Store :=
  { s with
    planLeases := s.planLeases.deleteWhere (fun lease => keys lease.resourceKey &&
      decide (lease.pair = pair)) }

def Store.releaseLeases (s : Store) (attempt : AttemptRecord) : Store :=
  s.dropLeases attempt.pair
    (fun key => attempt.leasedResources.elems.any (fun resource => resource.key == key))

def updateAttempt (attempt : AttemptRecord) : Tx Unit := modify (Store.setAttempt · attempt)

def updateReconciliation (record : ReconciliationRecord) : Tx Unit :=
  modify (Store.setReconciliation · record)

def releaseLeases (attempt : AttemptRecord) : Tx Unit := modify (Store.releaseLeases · attempt)

end Cheirismos
