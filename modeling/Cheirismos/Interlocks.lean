import Cheirismos.Authority

/-! # Plan conditions over durable observations

`supervisor/interlocks.rs`.  A live interlock of the profile gates the steps whose effects it
names: before such a step the plan must make the interlock's own observation with no effect in
between (`observationStep`), and at dispatch that observation must be completed, bound by
evidence, fresh, and satisfy the interlock's checks (`checkInterlock`).

`observationStep_ok` says which step the backwards search finds. -/

namespace Cheirismos

/-- The interlock names one of the effects of the operation. -/
def LiveInterlock.Gates (interlock : LiveInterlock) (operation : Operation) : Prop :=
  ¬ Disjoint interlock.effects operation.effectPermissions

instance (interlock : LiveInterlock) (operation : Operation) :
    Decidable (interlock.Gates operation) :=
  inferInstanceAs (Decidable (¬ Disjoint _ _))

/-- Search the steps before the given one, last first, for the interlock's observation; stop at
the first step with an effect. -/
def observationStep (operations : List PlannedOperation) (interlock : LiveInterlock) :
    ℕ → Except SupervisorError ℕ
  | 0 => .error (denied "live interlock needs its exact observation after the preceding effect")
  | index + 1 =>
      match operations[index]? with
      | none => observationStep operations interlock index
      | some planned =>
          if planned.operation = interlock.observation then .ok index
          else if planned.operation.effectPermissions ≠ ∅ then
            .error (denied "live interlock needs its exact observation after the preceding effect")
          else observationStep operations interlock index

/-- The step found makes the observation, and no step after it has an effect. -/
theorem observationStep_ok {operations : List PlannedOperation} {interlock : LiveInterlock}
    {index : ℕ} : ∀ {before : ℕ}, observationStep operations interlock before = .ok index →
    index < before ∧
    (∃ planned, operations[index]? = some planned ∧ planned.operation = interlock.observation) ∧
    ∀ j planned, index < j → j < before → operations[j]? = some planned →
      planned.operation.effectPermissions = ∅
  | 0, h => by cases h
  | before + 1, h => by
      unfold observationStep at h
      split at h
      · next hnone =>
          obtain ⟨h1, h2, h3⟩ := observationStep_ok h
          refine ⟨by omega, h2, ?_⟩
          intro j planned hj hlt hp
          rcases Nat.lt_succ_iff_lt_or_eq.mp hlt with hlt | rfl
          · exact h3 j planned hj hlt hp
          · rw [hnone] at hp; cases hp
      · next planned hsome =>
          split_ifs at h with heq heff
          · cases h
            refine ⟨Nat.lt_succ_self _, ⟨planned, hsome, heq⟩, ?_⟩
            intro j _ hj hlt _
            omega
          · obtain ⟨h1, h2, h3⟩ := observationStep_ok h
            refine ⟨by omega, h2, ?_⟩
            intro j planned' hj hlt hp
            rcases Nat.lt_succ_iff_lt_or_eq.mp hlt with hlt | rfl
            · exact h3 j planned' hj hlt hp
            · rw [hsome] at hp
              cases hp
              simpa using heff

/-- The observation step of one gated step for each interlock that gates it. -/
def validateStep (operations : List PlannedOperation) (index : ℕ) (planned : PlannedOperation) :
    List LiveInterlock → Except SupervisorError Unit
  | [] => .ok ()
  | interlock :: interlocks => do
      if interlock.Gates planned.operation then
        let _ ← observationStep operations interlock index
      validateStep operations index planned interlocks

def validateSteps (profile : CommissionedProfile) (operations : List PlannedOperation) :
    ℕ → List PlannedOperation → Except SupervisorError Unit
  | _, [] => .ok ()
  | index, planned :: rest => do
      validateStep operations index planned profile.liveInterlocks
      validateSteps profile operations (index + 1) rest

/-- Every gated step of the plan has its observation step. -/
def validatePlan (profile : CommissionedProfile) (plan : ReviewedPlan) :
    Except SupervisorError Unit :=
  validateSteps profile plan.operations 0 plan.operations

section conditions

variable [Platform]

/-- A completed receipt that fails a postcondition is only partial. -/
def checkPostconditions (postconditions : List ObservationCheck) :
    OperationReceipt → OperationReceipt
  | .completed observation =>
      match evaluateChecks observation postconditions with
      | .ok () => .completed observation
      | .error error =>
          .partially observation ("reviewed postcondition failed: " ++ error.toString)
  | other => other

theorem checkPostconditions_completed {postconditions : List ObservationCheck}
    {receipt : OperationReceipt} {observation : Observation}
    (h : checkPostconditions postconditions receipt = .completed observation) :
    receipt = .completed observation ∧ evaluateChecks observation postconditions = .ok () := by
  cases receipt with
  | completed o =>
      simp only [checkPostconditions] at h
      split at h
      · next he => cases h; exact ⟨rfl, he⟩
      · cases h
  | partially o r => cases h
  | unknown r o => cases h
  | rejected r => cases h

/-- The postconditions never change what was observed. -/
theorem checkPostconditions_observation (postconditions : List ObservationCheck)
    (receipt : OperationReceipt) :
    (checkPostconditions postconditions receipt).observation = receipt.observation := by
  cases receipt with
  | completed o =>
      simp only [checkPostconditions]
      split <;> rfl
  | partially o r => rfl
  | unknown r o => rfl
  | rejected r => rfl

/-! ### Bound evidence -/

/-- The envelope is about this attempt, challenge and phase and holds this observation. -/
def EvidenceEnvelope.Binds (envelope : EvidenceEnvelope) (attempt : AttemptId)
    (challenge : ArtifactDigest) (phase : EvidencePhase) (observation : Observation) : Prop :=
  envelope.attempt = attempt ∧ envelope.challenge = challenge ∧ envelope.phase = phase ∧
    envelope.observation = { observation with evidence := none }

instance (envelope : EvidenceEnvelope) (attempt : AttemptId) (challenge : ArtifactDigest)
    (phase : EvidencePhase) (observation : Observation) :
    Decidable (envelope.Binds attempt challenge phase observation) :=
  inferInstanceAs (Decidable (_ ∧ _))

/-- The evidence that an observation names binds it to the attempt, challenge and phase. -/
def verifyEnvelope (attempt : AttemptId) (challenge : ArtifactDigest) (phase : EvidencePhase)
    (observation : Observation) (lacking unbound : String) : Sup Unit := do
  let digest ← Sup.required observation.evidence (.outOfBounds lacking)
  let artifact ← Sup.verifySource digest (.attempt attempt)
  let envelope ← match Platform.decodeEnvelope artifact.bytes with
    | .ok envelope => pure envelope
    | .error error => throw (.outOfBounds error)
  Sup.refuse (¬ envelope.Binds attempt challenge phase observation) (.outOfBounds unbound)

/-! ### Interlocks at dispatch -/

/-- `checked_sub` and `checked_add` on `i64`. -/
def i64Checked (value : ℤ) : Option ℤ :=
  if -2 ^ 63 ≤ value ∧ value < 2 ^ 63 then some value else none

/-- `u64::try_from` of an `i64`. -/
def u64TryFrom (value : ℤ) : Option UInt64 :=
  if 0 ≤ value then some (UInt64.ofNat value.toNat) else none

/-- The receipt that completed an attempt, with the challenge and phase it answers: the last
completed reconciliation, else the attempt's own receipt. -/
def completingReceipt (attempt : AttemptRecord) (history : List ReconciliationRecord) :
    Option OperationReceipt × ArtifactDigest × EvidencePhase :=
  match history.reverse.find? (fun record => record.state = .completed) with
  | some record => (record.receipt, record.challenge, .reconciliation)
  | none => (attempt.receipt, attempt.evidenceChallenge, .execution)

def completedObservation (attempt : AttemptRecord) : Sup Observation := do
  let history ← Sup.store (.reconciliationHistory attempt.id)
  let (receipt, challenge, phase) := completingReceipt attempt history
  match receipt with
  | some (.completed observation) =>
      verifyEnvelope attempt.id challenge phase observation
        "interlock observation lacks evidence"
        "interlock evidence no longer binds its durable receipt"
      return observation
  | _ => throw (denied "interlock observation has no successful receipt")

/-- When an observation made at `captured` expires. -/
def interlockExpiry (interlock : LiveInterlock) (captured : Timestamp) :
    Except SupervisorError Timestamp := do
  deny (2 ^ 63 ≤ interlock.maximumAgeMilliseconds.toNat)
    (denied "interlock age exceeds timestamp range")
  match i64Checked (captured.asMillisecond + interlock.maximumAgeMilliseconds.toNat) with
  | none => .error (denied "interlock expiration overflows")
  | some expiry =>
      match Timestamp.fromMillisecond expiry with
      | none => .error (denied "interlock expiration is outside timestamp range")
      | some expiry => .ok expiry

omit [Platform] in
theorem interlockExpiry_ok {interlock : LiveInterlock} {captured expiry : Timestamp}
    (h : interlockExpiry interlock captured = .ok expiry) :
    expiry.asMillisecond = captured.asMillisecond + interlock.maximumAgeMilliseconds.toNat := by
  unfold interlockExpiry at h
  obtain ⟨_, _, h⟩ := except_bind_ok.mp h
  split at h
  · cases h
  · next milliseconds hms =>
      split at h
      · cases h
      · next t ht =>
          obtain rfl := Except.ok.inj h
          rw [Timestamp.fromMillisecond_some ht]
          unfold i64Checked at hms
          split_ifs at hms
          exact (Option.some.inj hms).symm

/-- How old an observation made at `captured` is. -/
def observationAge (now captured : Timestamp) : Option UInt64 :=
  (i64Checked (now.asMillisecond - captured.asMillisecond)).bind u64TryFrom

omit [Platform] in
theorem observationAge_some {now captured : Timestamp} {age : UInt64}
    (h : observationAge now captured = some age) :
    now.asMillisecond = captured.asMillisecond + age.toNat := by
  unfold observationAge i64Checked at h
  split_ifs at h with hrange
  · simp only [Option.bind_some, u64TryFrom] at h
    split_ifs at h with hpos
    obtain rfl := Option.some.inj h
    rw [UInt64.toNat_ofNat_of_lt' (by change _ < 2 ^ 64; omega)]
    omega
  · cases h

/-- The interlock's observation is completed, bound, fresh and satisfies the checks; returns
when it expires. -/
def checkInterlock (attempt : AttemptRecord) (plan : ReviewedPlan) (interlock : LiveInterlock) :
    Sup Timestamp := do
  let index ← Sup.check (observationStep plan.operations interlock attempt.operationIndex)
  let witness? ← Sup.store (.attemptAtStep attempt.pair index)
  let witness ← Sup.required witness? (denied "interlock observation has no durable attempt")
  Sup.refuse (witness.state ≠ .completed ∨ witness.profileDigest ≠ attempt.profileDigest ∨
      witness.planDigest ≠ attempt.planDigest)
    (denied "interlock observation is not completed in this reviewed run")
  let observation ← completedObservation witness
  let captured ← Sup.required (Platform.parseTimestamp observation.capturedAt)
    (denied "interlock observation timestamp is invalid")
  let now ← Sup.now
  let age ← Sup.required (observationAge now captured)
    (denied "interlock observation timestamp is in the future")
  let planned ← Sup.required plan.operations[index]? (denied "interlock operation is absent")
  match validateInterlockObservation interlock planned.operation observation age with
  | .ok () => pure ()
  | .error error => throw (denied error.toString)
  Sup.check (interlockExpiry interlock captured)

/-- Check every interlock that gates the operation; returns the earliest expiry. -/
def checkInterlocks (attempt : AttemptRecord) (plan : ReviewedPlan) (operation : Operation) :
    List LiveInterlock → Option Timestamp → Sup (Option Timestamp)
  | [], earliestExpiry => return earliestExpiry
  | interlock :: interlocks, earliestExpiry => do
      if interlock.Gates operation then
        let expiry ← checkInterlock attempt plan interlock
        checkInterlocks attempt plan operation interlocks
          (some (match earliestExpiry with
            | none => expiry
            | some previous => min previous expiry))
      else checkInterlocks attempt plan operation interlocks earliestExpiry

def checkLiveInterlocks (attempt : AttemptRecord) (profile : CommissionedProfile)
    (plan : ReviewedPlan) : Sup (Option Timestamp) := do
  let planned ← Sup.required plan.operations[attempt.operationIndex]?
    (denied "interlocked operation is absent from reviewed plan")
  checkInterlocks attempt plan planned.operation profile.liveInterlocks none

end conditions

end Cheirismos
