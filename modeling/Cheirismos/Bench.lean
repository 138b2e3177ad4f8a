import Cheirismos.Daemon

/-! # A bench

Concrete surroundings in which whole runs of the service can be computed: a `Platform` with a
polynomial hash, an artifact directory that holds given contents, one commissioned profile with
one instrument and one live interlock, and grants and plans over it.

A run is written as moves (`script`); `bench moves` is where they lead from the first start, and
`bench_reachable` says that every such configuration is reachable, whatever the moves are. -/

namespace Cheirismos

open Process

namespace Bench

/-! ### The platform -/

def hexDigit (n : ℕ) : Char := if n < 10 then Char.ofNat (48 + n) else Char.ofNat (87 + n)

/-- The last `k` hexadecimal digits of a number, in front of `rest`. -/
def hexDigits : ℕ → ℕ → List Char → List Char
  | 0, _, rest => rest
  | k + 1, n, rest => hexDigits k (n / 16) (hexDigit (n % 16) :: rest)

/-- A hash of thirty-two bits. -/
def hash (bytes : Bytes) : ℕ := bytes.foldl (fun h b => (h * 257 + b.toNat + 1) % 4294967296) 7

/-- A hexadecimal digit is one byte that a digest may have. -/
theorem hexDigit_encode : ∀ n < 16, (String.utf8EncodeChar (hexDigit n)).length = 1 ∧
    (String.utf8EncodeChar (hexDigit n)).all digestByte = true := by decide

theorem hexDigits_encode (k n : ℕ) (rest : List Char) :
    ((hexDigits k n rest).flatMap String.utf8EncodeChar).length =
        k + (rest.flatMap String.utf8EncodeChar).length ∧
      ((hexDigits k n rest).flatMap String.utf8EncodeChar).all digestByte =
        (rest.flatMap String.utf8EncodeChar).all digestByte := by
  induction k generalizing n rest with
  | zero => simp [hexDigits]
  | succ k ih =>
      obtain ⟨hlen, hall⟩ := ih (n / 16) (hexDigit (n % 16) :: rest)
      obtain ⟨h1, h2⟩ := hexDigit_encode (n % 16) (Nat.mod_lt _ (by decide))
      rw [hexDigits, hlen, hall, List.flatMap_cons, List.length_append, List.all_append, h1, h2]
      exact ⟨by omega, Bool.true_and _⟩

/-- Eight hexadecimal digits in front of zeros are a digest. -/
theorem hexDigits_valid (n : ℕ) :
    validateDigest (String.ofList (hexDigits 8 n (List.replicate 56 '0'))) = true := by
  obtain ⟨hlen, hall⟩ := hexDigits_encode 8 n (List.replicate 56 '0')
  unfold validateDigest
  rw [utf8_ofList, hlen, hall]
  decide

def digestOf (bytes : Bytes) : ArtifactDigest := ⟨_, hexDigits_valid (hash bytes)⟩

/-- The digest of a text. -/
def mark (text : String) : ArtifactDigest := digestOf (utf8 text)

/-- The number that the digits of a text stand for, as milliseconds. -/
def parseMilliseconds (text : String) : Option Timestamp :=
  Timestamp.fromMillisecond ((utf8 text).foldl (fun n b => n * 10 + (b.toNat - 48)) 0 : ℕ)

/-- One letter for each kind of operation that the plans of the bench are made of. -/
def operationLetter (planned : PlannedOperation) : Char :=
  match planned.operation with
  | .wait _ _ => 'w'
  | .instrumentStatus _ _ => 's'
  | .relaySet _ _ _ _ => 'r'
  | _ => 'o'

def proposalText (proposal : PlanProposal) : String :=
  proposal.id.value ++ "/" ++ proposal.requestedBy.value ++ "/" ++
    String.ofList (proposal.operations.map operationLetter)

/-- What every observation on the bench says. -/
def reading : Observation := ⟨"0", mark "source", .bool true, none⟩

def envelopeText (attempt : AttemptId) (challenge : ArtifactDigest) (phase : EvidencePhase) :
    String :=
  attempt.value ++ "/" ++ challenge.value ++ "/" ++
    (match phase with | .execution => "e" | .reconciliation => "r")

/-- An envelope holds the attempt, the challenge and the phase, each after a slash. -/
def decodeEnvelope (bytes : Bytes) : Except String EvidenceEnvelope :=
  match splitSlash (bytes.map fun b => Char.ofNat b.toNat) with
  | [attempt, challenge, phase] =>
      match Identifier.tryFrom "attempt id" (String.ofList attempt),
        ArtifactDigest.tryFrom (String.ofList challenge) with
      | .ok attempt, .ok challenge => .ok
          { attempt := attempt
            challenge := challenge
            phase := if phase = ['e'] then .execution else .reconciliation
            observation := reading }
      | _, _ => .error "invalid envelope"
  | _ => .error "invalid envelope"

scoped instance platform : Platform where
  debugText text := text
  debugOperation _ := "operation"
  valueText _ := "value"
  sha256 := digestOf
  encodeProfile profile := utf8 profile.id.value
  encodeGrant grant := utf8 (grant.id.value ++ "/" ++ grant.expiresAt)
  encodeProposal proposal := utf8 (proposalText proposal)
  encodePlan proposal reviewer := utf8 (proposalText proposal ++ "/" ++ reviewer.value)
  decodeEnvelope := decodeEnvelope
  renderTimestamp t := toString t.asMillisecond
  parseTimestamp := parseMilliseconds

/-- A directory with these files, each marked with every attempt as its source. -/
def holding (contents : List Bytes) : ArtifactStore where
  root := ""
  file digest := contents.find? (fun bytes => digestOf bytes = digest)
  marker digest _ := if contents.any (fun bytes => digestOf bytes = digest) then some 0 else none

/-! ### People and hardware -/

def operator : Principal := ⟨⟨"operator", by decide +kernel⟩, .operator, mark "operator"⟩
def agent : Principal := ⟨⟨"agent", by decide +kernel⟩, .agent, mark "agent"⟩
def reviewer : Principal := ⟨⟨"reviewer", by decide +kernel⟩, .reviewer, mark "reviewer"⟩

def target : TargetId := ⟨"board", by decide +kernel⟩
def instrument : InstrumentId := ⟨"relays", by decide +kernel⟩

def binding : InstrumentBinding where
  fingerprint := mark "fingerprint"
  physicalIdentity := mark "identity"
  configurationDigest := mark "configuration"
  qualifiedCapabilities := {.instrumentStatus, .relay}
  qualifiedEffectPermissions := {.instrumentConfigure, .relayActuate}
  qualificationEvidence := mark "qualification"

/-- The whole body is `true`. -/
def ready : ObservationCheck := ⟨⟨"", by decide +kernel⟩, .boolean true, by decide⟩

/-- The relays may be actuated shortly after their status was read. -/
def interlock : LiveInterlock where
  effects := {.relayActuate}
  observation := .instrumentStatus target instrument
  checks := [ready]
  maximumAgeMilliseconds := 1000
  valid := by decide +kernel

def profile : CommissionedProfile where
  id := ⟨"profile", by decide +kernel⟩
  target := target
  targetFingerprint := mark "target"
  instruments := ⟨[(instrument, binding)], by simp⟩
  fixtureRevision := mark "fixture"
  fixtureSession := ⟨"session", by decide +kernel⟩
  permittedCapabilities := {.instrumentStatus, .relay, .wait}
  electricalLimits := ⟨0, 0⟩
  regionLimits := ⟨0, 0⟩
  commissioningEvidence := mark "commissioning"
  liveInterlocks := [interlock]

def grant (id : GrantId) : Grant where
  id := id
  issuedBy := operator.id
  agent := agent.id
  target := target
  profile := profile.id
  capabilities := {.instrumentStatus, .relay, .wait}
  effectPermissions := {.instrumentConfigure, .relayActuate}
  remaining := ⟨100, 100, 100⟩
  expiresAt := "1000"
  revoked := false

/-! ### Names -/

def g₁ : GrantId := ⟨"g1", by decide +kernel⟩
def g₂ : GrantId := ⟨"g2", by decide +kernel⟩
def g₃ : GrantId := ⟨"g3", by decide +kernel⟩
def g₄ : GrantId := ⟨"g4", by decide +kernel⟩
def p₁ : PlanId := ⟨"p1", by decide +kernel⟩
def p₂ : PlanId := ⟨"p2", by decide +kernel⟩
def a₁ : AttemptId := ⟨"a1", by decide +kernel⟩
def a₂ : AttemptId := ⟨"a2", by decide +kernel⟩
def a₃ : AttemptId := ⟨"a3", by decide +kernel⟩
def a₄ : AttemptId := ⟨"a4", by decide +kernel⟩
def r₁ : RequestId := ⟨"r1", by decide +kernel⟩
def r₂ : RequestId := ⟨"r2", by decide +kernel⟩
def r₃ : RequestId := ⟨"r3", by decide +kernel⟩
def r₄ : RequestId := ⟨"r4", by decide +kernel⟩

/-! ### Plans -/

def rest : PlannedOperation := ⟨.wait target 1, 1, []⟩
def look : PlannedOperation := ⟨.instrumentStatus target instrument, 1, [ready]⟩
def actuate : PlannedOperation := ⟨.relaySet target instrument 0 true, 1, []⟩

def proposal (id : PlanId) (operations : List PlannedOperation) : PlanProposal where
  id := id
  candidateDigest := mark "candidate"
  fixtureRevision := mark "fixture"
  toolDigest := mark "tool"
  targetFingerprint := mark "target"
  instrumentFingerprints := ⟨[(instrument, mark "fingerprint")], by simp⟩
  instrumentConfigurationDigests := ⟨[(instrument, mark "configuration")], by simp⟩
  preconditions := []
  operations := operations
  requestedBy := agent.id
  reconciliationSetup := .observationOnly

/-- The same, with the instrument configured during reconciliation. -/
def configuring (proposal : PlanProposal) : PlanProposal :=
  { proposal with reconciliationSetup := .applyReviewedInstrumentConfiguration }

/-! ### Choices and runs -/

def now : Timestamp := ⟨0, by decide, by decide⟩

/-- Nothing fails, and the backend answers with the receipt. -/
def answering (receipt : OperationReceipt) : Choice where
  clock _ := now
  storeFault := none
  evidenceFault := none
  preflight := .ok ()
  receipt := .ok receipt

/-- The backend does not know what happened. -/
def lost : Choice := answering (.unknown "lost" none)

/-- The observation with the evidence for it. -/
def witnessed (attempt : AttemptId) (challenge : ArtifactDigest) (phase : EvidencePhase) :
    Observation :=
  { reading with evidence := some (mark (envelopeText attempt challenge phase)) }

/-- The challenge of a dispatch. -/
def dispatchChallenge (attempt : AttemptId) : ArtifactDigest := mark (attempt.value ++ ":0:1")

/-- The challenge of the first reconciliation of an attempt. -/
def reconcileChallenge (attempt : AttemptId) (request : RequestId) : ArtifactDigest :=
  mark ("reconcile:" ++ attempt.value ++ ":" ++ request.value ++ ":0:0")

/-- The backend completes the dispatch of the attempt. -/
def completing (attempt : AttemptId) : Choice :=
  answering (.completed (witnessed attempt (dispatchChallenge attempt) .execution))

/-- The backend finds the attempt completed. -/
def finding (attempt : AttemptId) (request : RequestId) : Choice :=
  answering (.completed (witnessed attempt (reconcileChallenge attempt request) .reconciliation))

abbrev Moves := List (Move daemon)

/-- At most `n` requests of a call that runs as thread `t`. -/
def acts (t : ℕ) (i : Choice) (n : ℕ) : Moves := List.replicate n (.act t i)

/-- One call from its start to its return. -/
def serving (t : ℕ) (q : Call) (i : Choice) : Moves := .call q :: (acts t i 60 ++ [.return t])

/-- Calls one after the other, the first as thread `t`. -/
def script (t : ℕ) : List (Call × Choice) → Moves
  | [] => []
  | (q, i) :: calls => serving t q i ++ script (t + 1) calls

/-- The artifacts that plans and takeovers refer to, and the evidence of dispatches and first
reconciliations. -/
def contents (attempts : List AttemptId) (witnesses : List (AttemptId × RequestId)) : List Bytes :=
  utf8 "candidate" :: utf8 "tool" :: utf8 "reason" ::
    (attempts.map fun a => utf8 (envelopeText a (dispatchChallenge a) .execution)) ++
    witnesses.map fun w => utf8 (envelopeText w.1 (reconcileChallenge w.1 w.2) .reconciliation)

/-- The recovery of a start, of at most `n` requests. -/
def starting (n : ℕ) : Moves := List.replicate n (.boot lost) ++ [.serve]

/-- The artifacts are put in place and the service starts. -/
def opening (files : List Bytes) : Moves :=
  .interfere (fun w => { w with artifacts := holding files }) (fun _ => rfl) :: starting 2

/-- The profile is commissioned, and grants and plans are issued and reviewed. -/
def authorities (grants : List GrantId) (plans : List (PlanId × List PlannedOperation)) :
    List (Call × Choice) :=
  (.commission operator profile, lost) ::
    (grants.map fun id => (.issueGrant operator agent (grant id), lost)) ++
    plans.flatMap fun plan =>
      [(.proposePlan agent (proposal plan.1 plan.2), lost),
        (.reviewProposal reviewer plan.1 (proposal plan.1 plan.2).digest, lost)]

/-- Where the moves lead from the first start. -/
def bench (moves : Moves) : daemon.Config := daemon.play daemon.start moves

/-- Every configuration of the bench is reachable. -/
theorem bench_reachable (moves : Moves) : daemon.Reachable (bench moves) :=
  Service.play_run daemon.start moves

/-- Playing on from a configuration of the bench is a run. -/
theorem bench_run (moves more : Moves) : daemon.Run (bench moves) (bench (moves ++ more)) := by
  unfold bench Service.play
  rw [List.foldl_append]
  exact Service.play_run _ more

/-- Where the moves and then a crash lead, after at most `n` requests of the recovery. -/
def resumed (moves : Moves) (n : ℕ) : daemon.Config :=
  daemon.play (bench moves).crashed (List.replicate n (.boot lost))

theorem resumed_restart (moves : Moves) (n : ℕ) :
    daemon.Restart (bench moves) (resumed moves n) := Service.boot_restart (bench moves) lost n

/-- A call that is made where the moves lead, with at most `n` requests. -/
def called (moves : Moves) (q : Call) (i : Choice) (n : ℕ) : daemon.Config :=
  daemon.play (bench moves) (.call q :: acts (bench moves).next i n)

theorem called_reachable (moves : Moves) (q : Call) (i : Choice) (n : ℕ) :
    daemon.Reachable (called moves q i n) :=
  (bench_reachable moves).run (Service.play_run _ _)

theorem called_serves {moves : Moves} {q : Call} {i : Choice} {n : ℕ} {reply : Reply}
    (hup : (bench moves).booting.isNone = true) (hq : q.admitted (bench moves).results)
    (hr : (called moves q i n).reply (bench moves).next = some reply) :
    daemon.Serves (bench moves) q reply (called moves q i n) :=
  Service.serves_of_play _ (Option.isNone_iff_eq_none.mp hup) hq (Service.reply_eq_some.mp hr)

/-- Returning from the call leads on. -/
theorem called_run {moves : Moves} {q : Call} {i : Choice} {t : ℕ}
    (ht : (bench moves).next = t) :
    daemon.Run (called moves q i 60) (bench (moves ++ serving t q i)) := by
  subst ht
  unfold called serving bench Service.play
  rw [List.foldl_append, ← List.cons_append, List.foldl_append]
  exact Service.play_run _ _

/-- The call has handed out a plan ticket. -/
def granted : Option Reply → Bool
  | some (.ticket (.ok _)) => true
  | _ => false

theorem exists_of_granted {reply : Option Reply} (h : granted reply = true) :
    ∃ ticket, reply = some (.ticket (.ok ticket)) := by
  unfold granted at h
  split at h
  · next ticket => exact ⟨ticket, rfl⟩
  · cases h

/-- The call has failed to hand out a plan ticket, with this error. -/
def declined (error : SupervisorError) : Option Reply → Bool
  | some (.ticket (.error e)) => decide (e = error)
  | _ => false

theorem eq_of_declined {error : SupervisorError} {reply : Option Reply}
    (h : declined error reply = true) : reply = some (.ticket (.error error)) := by
  unfold declined at h
  split at h
  · rw [of_decide_eq_true h]
  · cases h

/-- The call has failed to hand out a plan ticket. -/
def refused : Option Reply → Bool
  | some (.ticket (.error _)) => true
  | _ => false

theorem exists_of_refused {reply : Option Reply} (h : refused reply = true) :
    ∃ error, reply = some (.ticket (.error error)) := by
  unfold refused at h
  split at h
  · next error => exact ⟨error, rfl⟩
  · cases h

/-- The call has returned this reviewed plan. -/
def passed (plan : ReviewedPlan) : Option Reply → Bool
  | some (.plan (.ok p)) => decide (p = plan)
  | _ => false

theorem eq_of_passed {plan : ReviewedPlan} {reply : Option Reply} (h : passed plan reply = true) :
    reply = some (.plan (.ok plan)) := by
  unfold passed at h
  split at h
  · rw [of_decide_eq_true h]
  · cases h

/-- A plan is proposed and not yet reviewed. -/
def proposed : Moves :=
  opening (contents [] []) ++ script 1 [(.commission operator profile, lost),
    (.proposePlan agent (proposal p₁ [rest]), lost)]

/-- Two pairs, the first with a step whose effect is uncertain. -/
def uncertain : Moves :=
  opening (contents [] []) ++ script 1 (authorities [g₁, g₂] [(p₁, [rest]), (p₂, [rest])] ++
    [(.submit agent ⟨a₁, r₁, g₁, p₁, 0⟩, lost), (.execute agent ⟨a₁⟩, lost)])

/-- A takeover of the first pair's step by the second pair. -/
def renewed : RecoveryTakeoverRequest := ⟨r₂, r₃, a₂, [a₁], g₂, p₂, mark "reason"⟩

/-- The same, under the ids and the pair of the step itself. -/
def borrowed : RecoveryTakeoverRequest := ⟨r₁, r₃, a₁, [a₁], g₁, p₁, mark "reason"⟩

/-- The same with another run. -/
def disguised : RecoveryTakeoverRequest := ⟨r₁, r₄, a₁, [a₁], g₁, p₁, mark "reason"⟩

/-- A pair that took over has finished its plan, and another has an uncertain step. -/
def spent : Moves :=
  opening (contents [a₂] []) ++ script 1 (authorities [g₁, g₂, g₃, g₄] [(p₁, [rest])] ++
    [(.submit agent ⟨a₁, r₁, g₁, p₁, 0⟩, lost), (.execute agent ⟨a₁⟩, lost),
      (.takeoverRecovery operator ⟨r₂, r₂, a₂, [a₁], g₂, p₁, mark "reason"⟩, lost),
      (.resume agent r₂, completing a₂),
      (.submit agent ⟨a₃, r₃, g₃, p₁, 0⟩, lost), (.execute agent ⟨a₃⟩, lost)])

/-- A takeover from both of them. -/
def gathered : RecoveryTakeoverRequest := ⟨r₄, r₄, a₄, [a₂, a₃], g₄, p₁, mark "reason"⟩

/-- A pair that took over has an uncertain second step. -/
def relapsed : Moves :=
  opening (contents [a₂] []) ++ script 1 (authorities [g₁, g₂, g₃]
    [(p₁, [rest]), (p₂, [rest, rest])] ++
    [(.submit agent ⟨a₁, r₁, g₁, p₁, 0⟩, lost), (.execute agent ⟨a₁⟩, lost),
      (.takeoverRecovery operator ⟨r₂, r₂, a₂, [a₁], g₂, p₂, mark "reason"⟩, lost),
      (.resume agent r₂, completing a₂),
      (.submit agent ⟨a₃, r₃, g₂, p₂, 1⟩, lost), (.execute agent ⟨a₃⟩, lost)])

/-- A takeover that lists only its first, completed step. -/
def forgetful : RecoveryTakeoverRequest := ⟨r₄, r₄, a₄, [a₂], g₃, p₁, mark "reason"⟩

/-- A pair's plan of two steps, the second of which loses its effect. -/
def routine : Moves :=
  opening (contents [a₁] []) ++ script 1 (authorities [g₁] [(p₁, [look, actuate])] ++
    [(.submit agent ⟨a₁, r₁, g₁, p₁, 0⟩, lost), (.execute agent ⟨a₁⟩, completing a₁),
      (.submit agent ⟨a₂, r₂, g₁, p₁, 1⟩, lost), (.execute agent ⟨a₂⟩, lost)])

/-- The same, with the process dying after the second dispatch. -/
def mishap : Moves :=
  opening (contents [a₁] []) ++ script 1 (authorities [g₁] [(p₁, [look, rest])] ++
    [(.submit agent ⟨a₁, r₁, g₁, p₁, 0⟩, lost), (.execute agent ⟨a₁⟩, completing a₁),
      (.submit agent ⟨a₂, r₂, g₁, p₁, 1⟩, lost)]) ++ .call (.execute agent ⟨a₂⟩) :: acts 8 lost 2

/-- The status reading is uncertain, and a reconciliation configures the instrument in vain. -/
def reconfigured : Moves :=
  opening (contents [] []) ++ script 1 [(.commission operator profile, lost),
    (.issueGrant operator agent (grant g₁), lost),
    (.proposePlan agent (configuring (proposal p₁ [look])), lost),
    (.reviewProposal reviewer p₁ (configuring (proposal p₁ [look])).digest, lost),
    (.submit agent ⟨a₁, r₁, g₁, p₁, 0⟩, lost), (.execute agent ⟨a₁⟩, lost),
    (.reconcile agent a₁ r₂, lost)]

/-- The process dies right after the first step was claimed, a reconciliation completes that step,
and the second step of the invalid plan is executed. -/
def skipped : Moves :=
  opening (contents [] [(a₁, r₃)]) ++ script 1 (authorities [g₁] [(p₁, [rest, rest, actuate])] ++
    [(.submit agent ⟨a₁, r₁, g₁, p₁, 0⟩, lost)]) ++ .call (.execute agent ⟨a₁⟩) :: acts 6 lost 1 ++
  .crash :: starting 10 ++ script 8 [(.reconcile agent a₁ r₃, finding a₁ r₃),
    (.submit agent ⟨a₂, r₂, g₁, p₁, 1⟩, lost), (.execute agent ⟨a₂⟩, lost)]

/-- A run of a plan of one step, up to its end. -/
def accomplished : Moves :=
  opening (contents [a₁] []) ++ script 1 (authorities [g₁, g₂] [(p₁, [rest])] ++
    [(.admitPlan agent ⟨r₁, a₁, g₁, p₁⟩, lost),
      (.executeNext agent ⟨r₁, g₁, p₁, ⟨a₁⟩, 0⟩, completing a₁)])

/-- Then a run of another pair whose first attempt is to have the same id. -/
def impersonated : Moves := accomplished ++ script 8 [(.admitPlan agent ⟨r₂, a₁, g₂, p₁⟩, lost)]

/-- The attempt of the second step of run `r₁`. -/
def second : AttemptId := ⟨"a" ++ (sha256Text "plan-step:r1:1").value, by decide +kernel⟩

/-- While the first step's execution is about to move the cursor, the run is resumed and its
second step executed. -/
def crossed : Moves :=
  opening (contents [a₁, second] []) ++ script 1 (authorities [g₁] [(p₁, [rest, rest])] ++
    [(.admitPlan agent ⟨r₁, a₁, g₁, p₁⟩, lost)]) ++
  .call (.executeNext agent ⟨r₁, g₁, p₁, ⟨a₁⟩, 0⟩) :: acts 6 (completing a₁) 9 ++
  script 7 [(.resumePlan agent r₁, lost),
    (.executeNext agent ⟨r₁, g₁, p₁, ⟨second⟩, 1⟩, completing second)] ++ acts 6 lost 1

end Bench

end Cheirismos
