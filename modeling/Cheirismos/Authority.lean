import Cheirismos.Requests

/-! # Errors, roles and authorization

The error type of `supervisor/mod.rs`, the monad its operations run in, and the pure function
`authorize`, which decides whether one planned operation is inside the authority of a grant,
a commissioned profile and a reviewed plan.

`Sup` is a program over the surroundings that may end in a `SupervisorError`; a request that
was made stays made.  `Sup.Asks` says what an operation can request.  `Authorized` lists what a
successful `authorize` has checked, and `authorize_ok` says that the two agree. -/

namespace Cheirismos

open Process

/-! ### Errors -/

inductive SupervisorError where
  | store (source : StoreError)
  | backend (source : BackendError)
  | role (id required : String)
  | grantPrincipal
  | unreviewedPlan
  | changedFixture
  | outOfBounds (reason : String)
  | notUnknown
deriving DecidableEq

def SupervisorError.toString : SupervisorError → String
  | store source => "persistence failed: " ++ source.toString
  | backend source => "backend failed: " ++ source.toString
  | role id required => "principal " ++ id ++ " is not authorized as " ++ required
  | grantPrincipal => "grant does not belong to this agent"
  | unreviewedPlan => "plan is not independently reviewed"
  | changedFixture => "plan no longer matches the commissioned fixture"
  | outOfBounds reason => "operation is outside the current authority bounds: " ++ reason
  | notUnknown => "attempt is not in unknown state"

/-- `denied` of the interlock checks. -/
def denied (reason : String) : SupervisorError := .outOfBounds reason

def missing (kind id : String) : SupervisorError := .store (.missing kind id)

/-- Fail with the error when the condition holds. -/
def deny (bad : Prop) [Decidable bad] (error : SupervisorError) : Except SupervisorError Unit :=
  if bad then .error error else .ok ()

theorem deny_ok {bad : Prop} [Decidable bad] {e : SupervisorError} {u : Unit} :
    deny bad e = .ok u ↔ ¬ bad := by
  unfold deny
  split_ifs with h <;> simp [h]

theorem deny_error {bad : Prop} [Decidable bad] {e e' : SupervisorError} :
    deny bad e = .error e' → e' = e := by
  unfold deny
  split_ifs <;> simp [eq_comm]

/-! ### Programs of the supervisor -/

/-- An operation of the supervisor. -/
abbrev Sup [Platform] (α : Type) := ExceptT SupervisorError (Program surroundings) α

namespace Sup

variable [Platform] {α : Type}

/-- Make a request. -/
def ask (r : Request) : Sup (Answer r) := ExceptT.lift (Program.request (F := surroundings) r)

/-- A result that is already there. -/
def check (result : Except SupervisorError α) : Sup α := ExceptT.mk (pure result)

def refuse (bad : Prop) [Decidable bad] (error : SupervisorError) : Sup Unit :=
  check (deny bad error)

def required (value : Option α) (error : SupervisorError) : Sup α :=
  match value with
  | some a => pure a
  | none => throw error

/-- Run an operation and return how it ended. -/
def outcome (x : Sup α) : Sup (Except SupervisorError α) := ExceptT.mk (Functor.map .ok x.run)

def store (call : StoreCall) : Sup call.Output := do
  match ← ask (.store call) with
  | .ok output => return output
  | .error source => throw (.store source)

/-- Resolve an artifact, for its existence only. -/
def resolve (digest : ArtifactDigest) : Sup Unit := do
  match ← ask (.resolve digest) with
  | .ok _ => return ()
  | .error source => throw (.outOfBounds source.toString)

def verifySource (digest : ArtifactDigest) (source : EvidenceSource) : Sup VerifiedArtifact := do
  match ← ask (.verifySource digest source) with
  | .ok artifact => return artifact
  | .error error => throw (.outOfBounds error.toString)

def now : Sup Timestamp := ask .now

end Sup

/-! ### Requests of an operation -/

section asks

variable [Platform]

/-- Every request that the operation can make satisfies `P`. -/
def Sup.Asks (P : Request → Prop) {α : Type} (x : Sup α) : Prop :=
  Program.Asks (F := surroundings) P (ExceptT.run x)

namespace Sup.Asks

variable {α β : Type} {P P' : Request → Prop} {x : Sup α} {f : α → Sup β}

protected theorem mono (h : ∀ r, P r → P' r) (hx : Sup.Asks P x) : Sup.Asks P' x :=
  Program.Asks.mono h hx

protected theorem pure {a : α} : Sup.Asks P (pure a : Sup α) := trivial

protected theorem throw {e : SupervisorError} : Sup.Asks P (throw e : Sup α) := trivial

protected theorem bind (hx : Sup.Asks P x) (hf : ∀ a, Sup.Asks P (f a)) : Sup.Asks P (x >>= f) := by
  refine Program.Asks.bind hx ?_
  rintro (e | a)
  · exact trivial
  · exact hf a

protected theorem check {result : Except SupervisorError α} : Sup.Asks P (Sup.check result) := trivial

/-- What follows a check may use that it succeeded. -/
theorem checked {result : Except SupervisorError α}
    (hf : ∀ a, result = .ok a → Sup.Asks P (f a)) : Sup.Asks P (Sup.check result >>= f) := by
  cases result with
  | error e => exact trivial
  | ok a => exact hf a rfl

protected theorem refuse {bad : Prop} [Decidable bad] {e : SupervisorError} :
    Sup.Asks P (Sup.refuse bad e) := trivial

theorem refused {bad : Prop} [Decidable bad] {e : SupervisorError} {f : Unit → Sup β}
    (hf : ¬ bad → Sup.Asks P (f ())) : Sup.Asks P (Sup.refuse bad e >>= f) :=
  checked fun _ h => hf (deny_ok.mp h)

protected theorem required {value : Option α} {e : SupervisorError} :
    Sup.Asks P (Sup.required value e) := by
  cases value <;> exact trivial

protected theorem ask {r : Request} {g : Answer r → Sup β} (hr : P r) (h : ∀ v, Sup.Asks P (g v)) :
    Sup.Asks P (Sup.ask r >>= g) := ⟨hr, h⟩

protected theorem store {call : StoreCall} (h : P (.store call)) : Sup.Asks P (Sup.store call) := by
  refine .ask (r := .store call) h ?_
  rintro (source | output) <;> exact trivial

protected theorem outcome (hx : Sup.Asks P x) : Sup.Asks P (Sup.outcome x) :=
  Program.Asks.bind hx fun _ => trivial

end Sup.Asks

end asks

/-! ### Roles -/

def requireAuthority (principal : Principal) : Except SupervisorError Unit :=
  deny (principal.role ≠ .operator ∧ principal.role ≠ .admin)
    (.role principal.id.value "operator or admin")

def requireAgent (principal : Principal) : Except SupervisorError Unit :=
  deny (principal.role ≠ .agent) (.role principal.id.value "agent")

/-- Operators and admins. -/
def Principal.Governs (p : Principal) : Prop := p.role = .operator ∨ p.role = .admin

theorem requireAuthority_ok {p : Principal} {u : Unit} :
    requireAuthority p = .ok u ↔ p.Governs := by
  rw [requireAuthority, deny_ok, Principal.Governs]
  tauto

theorem requireAgent_ok {p : Principal} {u : Unit} : requireAgent p = .ok u ↔ p.role = .agent := by
  rw [requireAgent, deny_ok, not_not]

/-! ### Authorization of one operation -/

/-- The bounds of an operation that are not about its deadline alone. -/
def limitExceeded (profile : CommissionedProfile) (planned : PlannedOperation) : Option String :=
  match planned.operation with
  | .wait _ milliseconds =>
      if milliseconds = 0 ∨ planned.maxMilliseconds < milliseconds then
        some "wait must fit its positive operation deadline"
      else none
  | .psuSet _ _ millivolts milliamps =>
      if profile.electricalLimits.maxMillivolts < millivolts ∨
          profile.electricalLimits.maxMilliamps < milliamps then
        some "power limits exceeded"
      else none
  | .flashRead _ _ offset length | .flashErase _ _ offset length
  | .flashWrite _ _ offset _ length | .flashVerify _ _ offset _ length =>
      if profile.regionLimits.contains offset length = false then some "flash region exceeded"
      else none
  | _ => none

/-- The instrument of the operation is qualified for it and bound as the plan says. -/
def authorizeInstrument (profile : CommissionedProfile) (plan : ReviewedPlan)
    (operation : Operation) : Except SupervisorError Unit :=
  match operation.instrument with
  | none => .ok ()
  | some instrument =>
    match profile.instrument instrument with
    | none => .error .changedFixture
    | some binding =>
      deny (operation.capability ∉ binding.qualifiedCapabilities ∨
          ¬ operation.effectPermissions ⊆ binding.qualifiedEffectPermissions ∨
          plan.instrumentFingerprints.get? instrument ≠ some binding.fingerprint ∨
          plan.instrumentConfigurationDigests.get? instrument ≠ some binding.configurationDigest)
        .changedFixture

def authorize [Platform] (grant : Grant) (profile : CommissionedProfile) (plan : ReviewedPlan)
    (planned : PlannedOperation) : Except SupervisorError Unit := do
  let operation := planned.operation
  deny (grant.revoked = true) (.outOfBounds "grant is revoked")
  deny (plan.reviewedBy = plan.requestedBy ∨ plan.reviewDigest ≠ plan.digest) .unreviewedPlan
  deny (plan.fixtureRevision ≠ profile.fixtureRevision ∨
    plan.targetFingerprint ≠ profile.targetFingerprint) .changedFixture
  deny (plan.instrumentFingerprints.entries.length ≠ profile.instruments.entries.length ∨
      ∃ entry ∈ plan.instrumentFingerprints.entries,
        (profile.instrument entry.1).map InstrumentBinding.fingerprint ≠ some entry.2)
    .changedFixture
  deny (operation.target ≠ grant.target ∨ operation.target ≠ profile.target)
    (.outOfBounds "target differs from grant or profile")
  deny (operation.capability ∉ grant.capabilities ∨
      operation.capability ∉ profile.permittedCapabilities)
    (.outOfBounds "capability is not permitted")
  deny (¬ operation.effectPermissions ⊆ grant.effectPermissions)
    (.outOfBounds "effect permission is absent")
  authorizeInstrument profile plan operation
  match limitExceeded profile planned with
  | some reason => .error (.outOfBounds reason)
  | none =>
      deny (planned.maxMilliseconds = 0)
        (.outOfBounds "operation deadline must be finite and non-zero")

/-- What `authorize` checks of the instrument that an operation uses. -/
structure InstrumentAuthorized (profile : CommissionedProfile) (plan : ReviewedPlan)
    (operation : Operation) (instrument : InstrumentId) (binding : InstrumentBinding) : Prop where
  bound : profile.instrument instrument = some binding
  capability : operation.capability ∈ binding.qualifiedCapabilities
  effects : operation.effectPermissions ⊆ binding.qualifiedEffectPermissions
  fingerprint : plan.instrumentFingerprints.get? instrument = some binding.fingerprint
  configuration :
    plan.instrumentConfigurationDigests.get? instrument = some binding.configurationDigest

/-- The values of a power or flash operation are within the limits of the profile. -/
def WithinLimits (profile : CommissionedProfile) : Operation → Prop
  | .psuSet _ _ millivolts milliamps =>
      millivolts ≤ profile.electricalLimits.maxMillivolts ∧
        milliamps ≤ profile.electricalLimits.maxMilliamps
  | .flashRead _ _ offset length | .flashErase _ _ offset length
  | .flashWrite _ _ offset _ length | .flashVerify _ _ offset _ length =>
      profile.regionLimits.contains offset length = true
  | _ => True

/-- What a successful `authorize` has checked. -/
structure Authorized [Platform] (grant : Grant) (profile : CommissionedProfile) (plan : ReviewedPlan)
    (planned : PlannedOperation) : Prop where
  unrevoked : grant.revoked = false
  independent : plan.reviewedBy ≠ plan.requestedBy
  reviewed : plan.reviewDigest = plan.digest
  fixture : plan.fixtureRevision = profile.fixtureRevision
  targetFingerprint : plan.targetFingerprint = profile.targetFingerprint
  /-- The plan names every instrument of the profile with its fingerprint, and no other. -/
  instruments :
    plan.instrumentFingerprints = profile.instruments.mapValues InstrumentBinding.fingerprint
  grantTarget : planned.operation.target = grant.target
  profileTarget : planned.operation.target = profile.target
  grantCapability : planned.operation.capability ∈ grant.capabilities
  profileCapability : planned.operation.capability ∈ profile.permittedCapabilities
  grantEffects : planned.operation.effectPermissions ⊆ grant.effectPermissions
  instrument : ∀ instrument, planned.operation.instrument = some instrument →
    ∃ binding, InstrumentAuthorized profile plan planned.operation instrument binding
  limits : WithinLimits profile planned.operation
  deadline : 0 < planned.maxMilliseconds

theorem authorizeInstrument_ok {profile : CommissionedProfile} {plan : ReviewedPlan}
    {operation : Operation} {u : Unit} (h : authorizeInstrument profile plan operation = .ok u)
    {instrument : InstrumentId} (hi : operation.instrument = some instrument) :
    ∃ binding, InstrumentAuthorized profile plan operation instrument binding := by
  unfold authorizeInstrument at h
  rw [hi] at h
  simp only at h
  split at h
  · cases h
  · next binding hb =>
      rw [deny_ok] at h
      push Not at h
      exact ⟨binding, hb, h.1, h.2.1, h.2.2.1, h.2.2.2⟩

theorem withinLimits_of_limitExceeded {profile : CommissionedProfile}
    {planned : PlannedOperation} (h : limitExceeded profile planned = none) :
    WithinLimits profile planned.operation := by
  unfold limitExceeded at h
  cases ho : planned.operation <;> rw [ho] at h <;> simp only [WithinLimits]
  case psuSet => simpa [not_or, UInt32.not_lt] using h
  case flashRead => simpa using h
  case flashErase => simpa using h
  case flashWrite => simpa using h
  case flashVerify => simpa using h

/-- A plan that names as many instruments as the profile, each with its fingerprint, names
all of them. -/
theorem instrumentFingerprints_eq {profile : CommissionedProfile} {plan : ReviewedPlan}
    (hlen : plan.instrumentFingerprints.entries.length = profile.instruments.entries.length)
    (h : ∀ entry ∈ plan.instrumentFingerprints.entries,
      (profile.instrument entry.1).map InstrumentBinding.fingerprint = some entry.2) :
    plan.instrumentFingerprints = profile.instruments.mapValues InstrumentBinding.fingerprint := by
  refine OrdMap.eq_of_subset ?_ ?_
  · rw [hlen]
    exact (List.length_map ..).symm
  · intro entry hentry
    have he := h entry hentry
    rw [CommissionedProfile.instrument, ← OrdMap.get?_mapValues, OrdMap.get?_eq_some] at he
    exact he

theorem authorize_ok [Platform] {grant : Grant} {profile : CommissionedProfile}
    {plan : ReviewedPlan} {planned : PlannedOperation} {u : Unit}
    (h : authorize grant profile plan planned = .ok u) :
    Authorized grant profile plan planned := by
  unfold authorize at h
  simp only [except_bind_ok, deny_ok] at h
  obtain ⟨_, h1, _, h2, _, h3, _, h4, _, h5, _, h6, _, h7, _, h8, h9⟩ := h
  push Not at h2 h3 h4 h5 h6 h7
  refine ⟨by simpa using h1, h2.1, h2.2, h3.1, h3.2,
    instrumentFingerprints_eq h4.1 (fun e he => h4.2 e he), h5.1, h5.2, h6.1, h6.2, h7, ?_, ?_, ?_⟩
  · exact fun instrument hi => authorizeInstrument_ok h8 hi
  · split at h9
    · cases h9
    · next hl => exact withinLimits_of_limitExceeded hl
  · split at h9
    · cases h9
    · rw [deny_ok] at h9
      exact UInt64.pos_iff_ne_zero.mpr h9

end Cheirismos
