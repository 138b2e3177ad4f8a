import Cheirismos.Conditions

/-! # Durable records

The records of `domain/mod.rs` that the store keeps and the supervisor passes around:
commissioned profiles, grants, proposals and reviewed plans, attempts with their receipts,
reconciliation witnesses, runs, takeovers and abandonments.

What the program uses of SHA-256, `serde_json` and `jiff` is a `Platform`: the digest of a byte
string, the JSON encodings of the records that are digested or compared, the decoding of an
evidence envelope, and the text form of timestamps.  The digest of a reviewed plan leaves its
`review_digest` out, so its encoding takes the proposal part and the reviewer
(`ReviewedPlan.digest_eq`).

A reviewed plan is a proposal with a reviewer and a digest; `From<ReviewedPlan> for
PlanProposal` is the projection. -/

namespace Cheirismos

/-! ### Timestamps -/

/-- A `jiff::Timestamp`: nanoseconds since the Unix epoch, within `jiff`'s range. -/
structure Timestamp where
  nanosecond : ℤ
  lower : -377705023201 * 10 ^ 9 ≤ nanosecond
  upper : nanosecond < 253402207201 * 10 ^ 9
deriving DecidableEq

namespace Timestamp

instance : LinearOrder Timestamp :=
  LinearOrder.lift' Timestamp.nanosecond (by rintro ⟨a, _, _⟩ ⟨b, _, _⟩ h; cases h; rfl)

/-- Whole milliseconds, rounded towards zero. -/
def asMillisecond (t : Timestamp) : ℤ := t.nanosecond.tdiv (10 ^ 6)

def fromMillisecond (milliseconds : ℤ) : Option Timestamp :=
  if h : -377705023201 * 10 ^ 9 ≤ milliseconds * 10 ^ 6 ∧
      milliseconds * 10 ^ 6 < 253402207201 * 10 ^ 9 then
    some ⟨milliseconds * 10 ^ 6, h.1, h.2⟩
  else none

theorem fromMillisecond_some {milliseconds : ℤ} {t : Timestamp}
    (h : fromMillisecond milliseconds = some t) : t.asMillisecond = milliseconds := by
  unfold fromMillisecond at h
  split_ifs at h
  obtain rfl := Option.some.inj h
  exact Int.mul_tdiv_cancel _ (by decide)

end Timestamp

/-! ### Profiles and grants -/

structure InstrumentBinding where
  fingerprint : ArtifactDigest
  /-- Stable identity of the physical instrument; never includes its configuration. -/
  physicalIdentity : ArtifactDigest
  configurationDigest : ArtifactDigest
  qualifiedCapabilities : Finset Capability
  qualifiedEffectPermissions : Finset EffectPermission
  qualificationEvidence : ArtifactDigest
deriving DecidableEq

structure CommissionedProfile where
  id : ProfileId
  target : TargetId
  targetFingerprint : ArtifactDigest
  instruments : OrdMap InstrumentId InstrumentBinding
  fixtureRevision : ArtifactDigest
  fixtureSession : FixtureSessionId
  permittedCapabilities : Finset Capability
  electricalLimits : ElectricalLimits
  regionLimits : RegionLimits
  commissioningEvidence : ArtifactDigest
  liveInterlocks : List LiveInterlock
deriving DecidableEq

namespace CommissionedProfile

variable (profile : CommissionedProfile)

def instrument (id : InstrumentId) : Option InstrumentBinding := profile.instruments.get? id

def physicalResources : OrdSet PhysicalResource :=
  OrdSet.ofList (.target profile.targetFingerprint :: .fixture profile.fixtureSession ::
    profile.instruments.values.map (fun binding => .instrument binding.physicalIdentity))

end CommissionedProfile

structure Grant where
  id : GrantId
  issuedBy : PrincipalId
  agent : PrincipalId
  target : TargetId
  profile : ProfileId
  capabilities : Finset Capability
  effectPermissions : Finset EffectPermission
  remaining : Budget
  expiresAt : String
  revoked : Bool
deriving DecidableEq

/-! ### Plans -/

structure PlannedOperation where
  operation : Operation
  maxMilliseconds : UInt64
  postconditions : List ObservationCheck
deriving DecidableEq

def PlannedOperation.worstCaseBudget (planned : PlannedOperation) : Budget :=
  { planned.operation.worstCaseBudget with milliseconds := planned.maxMilliseconds }

inductive ReconciliationSetup where
  | observationOnly | applyReviewedInstrumentConfiguration
deriving DecidableEq

structure PlanProposal where
  id : PlanId
  candidateDigest : ArtifactDigest
  fixtureRevision : ArtifactDigest
  toolDigest : ArtifactDigest
  targetFingerprint : ArtifactDigest
  instrumentFingerprints : OrdMap InstrumentId ArtifactDigest
  instrumentConfigurationDigests : OrdMap InstrumentId ArtifactDigest
  preconditions : List ArtifactDigest
  operations : List PlannedOperation
  requestedBy : PrincipalId
  reconciliationSetup : ReconciliationSetup
deriving DecidableEq

structure ReviewedPlan extends PlanProposal where
  reviewedBy : PrincipalId
  reviewDigest : ArtifactDigest
deriving DecidableEq

/-- The worst case of all operations together, unless a counter overflows. -/
def worstCase (operations : List PlannedOperation) : Option Budget :=
  operations.foldlM (fun total planned => total.checkedAdd planned.worstCaseBudget) Budget.zero

/-! ### Attempts and receipts -/

inductive AttemptState where
  | intent | dispatched | completed | partially | unknown | rejected
deriving DecidableEq

inductive EvidencePhase where
  | execution | reconciliation
deriving DecidableEq

structure EvidenceEnvelope where
  attempt : AttemptId
  challenge : ArtifactDigest
  phase : EvidencePhase
  observation : Observation
deriving DecidableEq

inductive OperationReceipt where
  | completed (observation : Observation)
  | partially (observation : Observation) (reason : String)
  | unknown (reason : String) (observation : Option Observation)
  | rejected (reason : String)
deriving DecidableEq

namespace OperationReceipt

def state : OperationReceipt → AttemptState
  | completed _ => .completed
  | partially _ _ => .partially
  | unknown _ _ => .unknown
  | rejected _ => .rejected

/-- The observation a receipt carries. -/
def observation : OperationReceipt → Option Observation
  | completed observation => some observation
  | partially observation _ => some observation
  | unknown _ observation => observation
  | rejected _ => none

@[simp] theorem state_completed_iff {receipt : OperationReceipt} :
    receipt.state = .completed ↔ ∃ observation, receipt = completed observation := by
  cases receipt <;> simp [state]

theorem state_settled (receipt : OperationReceipt) :
    receipt.state ≠ .intent ∧ receipt.state ≠ .dispatched := by
  cases receipt <;> simp [state]

end OperationReceipt

structure AttemptRecord where
  id : AttemptId
  request : RequestId
  grant : GrantId
  plan : PlanId
  operationIndex : ℕ
  planDigest : ArtifactDigest
  reserved : Budget
  profile : ProfileId
  profileDigest : ArtifactDigest
  leasedResources : OrdSet PhysicalResource
  evidenceChallenge : ArtifactDigest
  evidenceOrdinal : UInt64
  state : AttemptState
  receipt : Option OperationReceipt
  createdAt : String
  updatedAt : String
deriving DecidableEq

inductive ReconciliationState where
  | claimed | completed | unknown | failed
deriving DecidableEq

/-- A witness gathered after an attempt became uncertain. -/
structure ReconciliationRecord where
  request : RequestId
  attempt : AttemptId
  ordinal : ℕ
  challenge : ArtifactDigest
  principal : PrincipalId
  state : ReconciliationState
  receipt : Option OperationReceipt
  startedAt : String
  endedAt : Option String
deriving DecidableEq

/-! ### Runs, takeovers, abandonments -/

structure PlanRun where
  id : RequestId
  agent : PrincipalId
  grant : GrantId
  plan : PlanId
  steps : List (AttemptId × RequestId)
  cursor : ℕ
deriving DecidableEq

structure RecoveryTakeoverRecord where
  request : RequestId
  run : RequestId
  firstAttempt : AttemptId
  unresolved : List AttemptId
  grant : GrantId
  plan : PlanId
  resources : OrdSet PhysicalResource
  justificationEvidence : ArtifactDigest
  authorizedBy : PrincipalId
  authorizedAt : String
deriving DecidableEq

structure HaltedRunAbandonmentRecord where
  request : RequestId
  run : RequestId
  grant : GrantId
  plan : PlanId
  /-- The lease keys released with the abandonment. -/
  resources : Finset String
  justificationEvidence : ArtifactDigest
  authorizedBy : PrincipalId
  authorizedAt : String
deriving DecidableEq

/-- A grant and a plan: what attempts, leases, closures and takeovers are attached to. -/
abbrev Pair := GrantId × PlanId

def AttemptRecord.pair (attempt : AttemptRecord) : Pair := (attempt.grant, attempt.plan)
def PlanRun.pair (run : PlanRun) : Pair := (run.grant, run.plan)
def RecoveryTakeoverRecord.pair (takeover : RecoveryTakeoverRecord) : Pair :=
  (takeover.grant, takeover.plan)
def HaltedRunAbandonmentRecord.pair (abandonment : HaltedRunAbandonmentRecord) : Pair :=
  (abandonment.grant, abandonment.plan)

/-! ### Digests, encodings and clocks -/

/-- What the program uses of SHA-256, `serde_json` and `jiff`. -/
class Platform extends Formatter where
  sha256 : Bytes → ArtifactDigest
  encodeProfile : CommissionedProfile → Bytes
  encodeGrant : Grant → Bytes
  encodeProposal : PlanProposal → Bytes
  /-- The encoding of a reviewed plan without its `review_digest`. -/
  encodePlan : PlanProposal → PrincipalId → Bytes
  decodeEnvelope : Bytes → Except String EvidenceEnvelope
  renderTimestamp : Timestamp → String
  parseTimestamp : String → Option Timestamp

section digests

variable [Platform]

def sha256Text (text : String) : ArtifactDigest := Platform.sha256 (utf8 text)

def CommissionedProfile.digest (profile : CommissionedProfile) : ArtifactDigest :=
  Platform.sha256 (Platform.encodeProfile profile)

def PlanProposal.digest (proposal : PlanProposal) : ArtifactDigest :=
  Platform.sha256 (Platform.encodeProposal proposal)

def ReviewedPlan.digest (plan : ReviewedPlan) : ArtifactDigest :=
  Platform.sha256 (Platform.encodePlan plan.toPlanProposal plan.reviewedBy)

/-- The digest of a plan does not depend on the digest it carries. -/
theorem ReviewedPlan.digest_eq (plan : ReviewedPlan) (digest : ArtifactDigest) :
    ({ plan with reviewDigest := digest } : ReviewedPlan).digest = plan.digest := rfl

end digests

end Cheirismos
