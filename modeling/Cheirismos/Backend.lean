import Cheirismos.Identities

/-! # The device backend

`service/backend/mod.rs` and the observing half of `service/backend/identity.rs`: one run of an
operation against the session of its instrument.

* A session keeps its connection between runs; an error drops it.
* `run` compares the binding with what was reviewed, connects, observes the instrument's identity,
  and only then performs the operation.
* The deadline of the run may drop it at any moment.  Such a run is one that is cut off; only the
  wait for the flash says it by itself (`Bus.deadlineExpired`). -/

namespace Cheirismos

open Process

/-- The connection of a session. -/
inductive Connected where
  | bpio2 (adapter : Bpio2Adapter)
  | numato
  | simulator (state : SimulatorState)
  | video

/-- The bindings of the configured instruments. -/
structure DeviceBackend where
  sessions : OrdMap InstrumentId DeviceBinding

namespace DeviceBackend

variable [Crates]

/-- An operation over the connection of one session. -/
abbrev Session (α : Type) := Action hardware (Option Connected) BackendError α

/-- `DeviceBackend::open`. -/
def openBackend (bindings : OrdMap InstrumentId DeviceBinding) :
    Except BackendError DeviceBackend := do
  validateUniquePhysicalIdentities [] (bindings.values.map DeviceBinding.config)
  bindings.values.forM fun binding => validateConfig binding.config
  return ⟨bindings⟩

/-! ### The instrument's identity -/

/-- `{:x}` of a digit. -/
def hexDigit (n : ℕ) : Char := if n < 10 then Char.ofNat (48 + n) else Char.ofNat (87 + n)

/-- `{:04x}`. -/
def hexWord (n : UInt16) : String :=
  String.ofList ([4096, 256, 16, 1].map fun place => hexDigit (n.toNat / place % 16))

/-- The identity of a USB port with a serial number. -/
def portIdentity (port : UsbPort) : Except BackendError String :=
  match port.serialNumber.filter (· ≠ "") with
  | some serial => .ok ("usb:" ++ hexWord port.vid ++ ":" ++ hexWord port.pid ++ ":" ++ serial)
  | none => .error (malformed "bound USB instrument has no serial identity")

/-- One port is at the bound path, and it is the expected one. -/
def uniqueIdentity (expected : String) (identities : List String) : Except BackendError String :=
  match identities with
  | [observed] =>
      if observed = expected then .ok observed
      else .error (malformed
        "bound serial path does not resolve to the unique commissioned USB identity")
  | _ => .error (malformed
      "bound serial path does not resolve to the unique commissioned USB identity")

/-- `verify_usb`. -/
def verifyUsb (config : InstrumentConfig) : Session ArtifactDigest := do
  let configured ← Action.result (configuredPhysicalIdentity config)
  match config.serial? with
  | none => return configured
  | some serial => do
      let ports ← Action.ask (F := hardware) (HardwareRequest.usbPorts serial.path)
      let ports ← Action.result (ports.mapError BackendError.transport)
      let identities ← Action.result (ports.mapM portIdentity)
      let observed ← Action.result (uniqueIdentity serial.expectedUsbIdentity identities)
      let key ← Action.result (canonicalSerialUsbIdentity observed)
      Action.refuse (physicalIdentity key ≠ configured)
        (malformed "observed USB identity differs from configured physical identity")
      return physicalIdentity key

def bpioIdentity (discovery : Bpio2Discovery) : Value :=
  .json [("protocol", .array [.nat discovery.flatbufferMajor.toNat,
      .nat discovery.flatbufferMinor.toNat]),
    ("hardware", .array [.nat discovery.hardwareMajor.toNat, .nat discovery.hardwareMinor.toNat]),
    ("firmware", .array [.nat discovery.firmwareMajor.toNat, .nat discovery.firmwareMinor.toNat]),
    ("firmware_git_hash", .option discovery.firmwareGitHash),
    ("firmware_date", .option discovery.firmwareDate),
    ("modes_available", .array (discovery.modesAvailable.map .string))]

def bpioStatus (discovery : Bpio2Discovery) : Value :=
  .json [("mode", .option discovery.modeCurrent),
    ("max_packet_bytes", .nat discovery.maxPacketBytes.toNat),
    ("max_write_bytes", .nat discovery.maxWriteBytes.toNat),
    ("max_read_bytes", .nat discovery.maxReadBytes.toNat),
    ("psu_enabled", .bool discovery.psuEnabled),
    ("psu_set_millivolts", .nat discovery.psuSetMillivolts.toNat),
    ("psu_set_milliamps", .nat discovery.psuSetMilliamps.toNat),
    ("psu_measured_millivolts", .nat discovery.psuMeasuredMillivolts.toNat),
    ("psu_measured_milliamps", .nat discovery.psuMeasuredMilliamps.toNat),
    ("adc_millivolts", .array (discovery.adcMillivolts.map fun mv => .nat mv.toNat)),
    ("io_direction", .nat discovery.ioDirection.toNat),
    ("io_value", .nat discovery.ioValue.toNat)]

/-- What is seen of a connected instrument: its identity, its status and its physical identity. -/
def observeConnected (config : InstrumentConfig) (configured usb : ArtifactDigest) :
    Connected → Session (Value × Value × ArtifactDigest)
  | .bpio2 adapter => do
      let discovery ← Action.inside (fun adapter => some (.bpio2 adapter)) adapter
        (Action.failing transport Bpio2Adapter.identify)
      Action.refuse (discovery.flatbufferMajor ≠ 2)
        (malformed "unsupported BPIO2 protocol major")
      return (bpioIdentity discovery, bpioStatus discovery, usb)
  | .numato => do
      let (firmware, moduleId) ← Action.inside (fun _ => some .numato) ()
        (Action.failing transport NumatoAdapter.identify)
      return (.json [("firmware", .string firmware), ("module_id", .string moduleId)],
        .json [("physical_contacts_observed", .bool false)], usb)
  | .simulator state =>
      return (.json [("implementation", .string "cheirismos-simulator-v1"),
          ("flash_bytes", .nat (Simulator.observe state).flashBytes)],
        Simulated.observationBody (Simulator.observe state), configured)
  | .video => do
      let video ← Action.result (match config with
        | .video config => .ok config
        | _ => .error (malformed "video configuration mismatch"))
      let identity ← Action.ask (F := hardware) (HardwareRequest.inspectVideo video)
      let identity ← Action.result (identity.mapError transport)
      let key ← Action.result (canonicalUsbIdentity identity)
      return (.json [("usb_identity", .string identity)],
        .json [("capture", .string "uvc_v4l2"), ("interpretation", .null)], physicalIdentity key)

/-- The digest of a binding. -/
def configurationDigest (binding : DeviceBinding) : ArtifactDigest :=
  Platform.sha256 (Crates.encodeBinding binding)

def observe (binding : DeviceBinding) (connected : Connected) : Session Observation := do
  let configured ← Action.result (configuredPhysicalIdentity binding.config)
  let usb ← verifyUsb binding.config
  let (identity, status, physical) ← observeConnected binding.config configured usb connected
  Action.refuse (physical ≠ configured) (malformed
    "observed instrument physical identity differs from configured stable identity")
  let configuration := configurationDigest binding
  let fingerprint := Platform.sha256 (Crates.encodeValue (.json
    [("configuration", .digest configuration), ("observed_identity", identity)]))
  let now ← Action.ask (F := hardware) HardwareRequest.now
  return {
    capturedAt := Platform.renderTimestamp now
    sourceFingerprint := fingerprint
    body := .json [("instrument_fingerprint", .digest fingerprint),
      ("physical_identity", .digest configured), ("configuration_digest", .digest configuration),
      ("observed_identity", identity), ("status", status),
      ("hardware_qualification", .string "separate_commissioning_evidence_required")]
    evidence := none }

/-! ### Connections -/

/-- Open the instrument of a configuration. -/
def openConnection : InstrumentConfig → Session Connected
  | .bpio2 config => do
      let opened ← Action.ask (F := hardware) (HardwareRequest.openSerial config.serial)
      Action.result (opened.mapError transport)
      return .bpio2 Bpio2Adapter.new
  | .numato config => do
      let opened ← Action.ask (F := hardware) (HardwareRequest.openSerial config.serial)
      Action.result (opened.mapError transport)
      return .numato
  | .simulator config => do
      let _ ← Action.result (configuredPhysicalIdentity (.simulator config))
      let state ← Action.failing transport (Simulator.openStore config)
      return .simulator state
  | .video config => do
      Action.result ((VideoConfig.accept config).mapError transport)
      return .video

def connect (binding : DeviceBinding) : Session Connected := do
  let _ ← verifyUsb binding.config
  match ← get with
  | some connected => return connected
  | none => do
      let connected ← openConnection binding.config
      set (some connected)
      return connected

/-! ### Evidence -/

/-- Publish something under the attempt. -/
def publishOne (request : DispatchRequest) (publication : Publication) : Session ArtifactDigest := do
  let digest ← Action.ask (F := hardware)
    (HardwareRequest.publish publication (.attempt request.attempt))
  Action.result (digest.mapError fun error => .transport error.toString)

/-- Publish captured bytes and add them to the body. -/
def publishBytes (request : DispatchRequest) (body : Value) : Option Bytes → Session Value
  | none => return body
  | some bytes => do
      Action.refuse (maxEvidenceBytes < bytes.length)
        (malformed "observation exceeds evidence size limit")
      let digest ← publishOne request (.bytes bytes)
      return (body.insert "artifact" (.digest digest)).insert "artifact_bytes" (.nat bytes.length)

def publish (request : DispatchRequest) (fingerprint : ArtifactDigest) (body : Value)
    (bytes : Option Bytes) : Session Observation := do
  let body ← publishBytes request body bytes
  let body := (body.insert "instrument_fingerprint" (.digest fingerprint)).insert
    "target_identity_basis" (.string "operator_commissioned_fixture_binding")
  let now ← Action.ask (F := hardware) HardwareRequest.now
  let observation : Observation := ⟨Platform.renderTimestamp now, fingerprint, body, none⟩
  let evidence ← publishOne request (.envelope ⟨request.attempt, request.evidenceChallenge,
    request.evidencePhase, observation⟩)
  return { observation with evidence := some evidence }

/-! ### One run -/

/-- What the run of a wait reports. -/
def waited (request : DispatchRequest) (milliseconds : UInt64) (reconcile : Bool) :
    Session OperationReceipt := do
  Action.refuse (request.deadlineMilliseconds < milliseconds)
    (malformed "wait exceeds operation deadline")
  Action.when (!reconcile) (Action.ask (F := hardware) (HardwareRequest.sleep milliseconds))
  let elapsed ← Action.ask (F := hardware) HardwareRequest.elapsed
  let observation ← publish request (sha256Text "cheirismos:monotonic-clock:v1")
    (.json [("source", .string "supervisor_clock"), ("elapsed_milliseconds", .nat elapsed),
      ("reconciliation", .bool reconcile)]) none
  return if reconcile then
    .unknown "current clock observation cannot prove the interrupted wait interval"
      (some observation)
  else .completed observation

/-- The milliseconds until the live interlocks expire, if that is in the future. -/
def interlockLeft (expires now : Timestamp) : Option ℕ :=
  let left := expires.asMillisecond - now.asMillisecond
  if 0 < left ∧ left < 2 ^ 63 then some left.toNat else none

/-- The milliseconds in which the run must end, or nothing when the interlocks have expired. -/
def deadlineOf (request : DispatchRequest) : Session (Option ℕ) :=
  match request.interlocksValidUntil with
  | none => return some request.deadlineMilliseconds.toNat
  | some expires => do
      let now ← Action.ask (F := hardware) HardwareRequest.now
      match interlockLeft expires now with
      | none => return none
      | some left => do
          let elapsed ← Action.ask (F := hardware) HardwareRequest.elapsed
          return some (min request.deadlineMilliseconds.toNat (elapsed + left))

/-- The live interlocks have expired while the identity was observed. -/
def interlocksExpired (request : DispatchRequest) : Session Bool :=
  match request.interlocksValidUntil with
  | none => return false
  | some expires => do
      let now ← Action.ask (F := hardware) HardwareRequest.now
      return decide (expires ≤ now)

/-- Capture one frame within what is left of the deadline. -/
def captureFrame (config : VideoConfig) (deadline : ℕ) (reconcile : Bool) :
    Session ResultData := do
  let elapsed ← Action.ask (F := hardware) HardwareRequest.elapsed
  Action.refuse (deadline < elapsed) (.timeout "video capture deadline exhausted")
  let left ← Action.result (if deadline - elapsed < 2 ^ 64 then .ok (UInt64.ofNat (deadline - elapsed))
    else .error (malformed conversionError))
  let limited := { config with
    frameTimeoutMilliseconds := min config.frameTimeoutMilliseconds left }
  let frame ← Action.ask (F := hardware) (HardwareRequest.captureVideo limited)
  let (png, identity) ← Action.result (frame.mapError transport)
  return .ofBytes png (.json [("media_type", .string "image/png"),
    ("usb_identity", .string identity), ("interpretation", .null),
    ("reconciliation", .bool reconcile)])

/-- Perform the operation on the connected instrument. -/
def operate (patience : ℕ) (binding : DeviceBinding) (request : DispatchRequest)
    (artifacts : ArtifactResolver) (reconcile : Bool) (observed : Observation) (deadline : ℕ) :
    Connected → Session ResultData
  | .bpio2 adapter => Action.inside (fun adapter => some (.bpio2 adapter)) adapter
      (Bus.execute patience binding request.operation artifacts reconcile
        request.configureInstrument)
  | .numato => Action.inside (fun _ => some .numato) ()
      (relayOperation binding.config request.operation reconcile)
  | .simulator state => Action.inside (fun state => some (.simulator state)) state
      (Simulated.execute request.operation artifacts reconcile)
  | .video => do
      let config ← Action.result (match binding.config with
        | .video config => .ok config
        | _ => .error (malformed "video configuration mismatch"))
      match request.operation with
      | .instrumentStatus _ _ => return .observation observed.body
      | .videoCapture _ _ => captureFrame config deadline reconcile
      | _ => throw (malformed "operation is unsupported by video capture instrument")

/-- The receipt of a result. -/
def receiptOf (reconcile : Bool) (observation : Observation) : Option String → OperationReceipt
  | none => .completed observation
  | some reason => if reconcile then .unknown reason (some observation)
      else .partially observation reason

/-- A member of an object that is a text. -/
def textMember (key : String) : Value → Option String
  | .object members => ((members.find? (·.1 = key)).map Prod.snd).bind Value.asStr
  | _ => none

/-- Check that the connected instrument is the reviewed one, and perform the operation. -/
def performReviewed (patience : ℕ) (binding : DeviceBinding) (id : InstrumentId)
    (request : DispatchRequest) (artifacts : ArtifactResolver) (reconcile : Bool) (deadline : ℕ)
    (connected : Connected) : Session OperationReceipt := do
  let observed ← observe binding connected
  if request.expectedInstrumentFingerprints.get? id ≠ some observed.sourceFingerprint then
    return .rejected "observed instrument identity/configuration differs from reviewed binding"
  else do
    let expired ← interlocksExpired request
    if expired then
      return .rejected "live interlock expired during instrument identity verification"
    else if textMember "physical_identity" observed.body ≠
        (request.expectedInstrumentPhysicalIdentities.get? id).map ArtifactDigest.value then
      return .rejected "physical instrument differs from the commissioned lease identity"
    else do
      let current ← get
      let result ← operate patience binding request artifacts reconcile observed deadline
        (current.getD connected)
      let observation ← publish request observed.sourceFingerprint result.body result.bytes
      return receiptOf reconcile observation result.shortfall

/-- Connect to the instrument and perform the operation on it. -/
def session (patience : ℕ) (binding : DeviceBinding) (id : InstrumentId)
    (request : DispatchRequest) (artifacts : ArtifactResolver) (reconcile : Bool) (deadline : ℕ) :
    Session OperationReceipt := do
  let connected ← connect binding
  performReviewed patience binding id request artifacts reconcile deadline connected

/-- Run on a session; an error drops the connection. -/
def guarded (x : Session OperationReceipt) : Session OperationReceipt := do
  match ← Action.outcome x with
  | .ok receipt => return receipt
  | .error error => do
      set (none : Option Connected)
      throw error

/-- The binding, the deadline and the interlocks allow the run. -/
def onSession (patience : ℕ) (binding : DeviceBinding) (id : InstrumentId)
    (request : DispatchRequest) (artifacts : ArtifactResolver) (reconcile : Bool) :
    Session OperationReceipt :=
  if binding.targetFingerprint ≠ request.expectedTargetFingerprint ∨
      binding.fixtureRevision ≠ request.expectedFixtureRevision then
    return .rejected "fixture or target binding changed since review"
  else if request.expectedInstrumentConfigurations.get? id ≠ some (configurationDigest binding) then
    return .rejected "instrument configuration differs from the reviewed configuration digest"
  else do
    match ← deadlineOf request with
    | none => return .rejected "live interlock expired before device access"
    | some deadline => do
        let elapsed ← Action.ask (F := hardware) HardwareRequest.elapsed
        Action.refuse (deadline < elapsed) (.timeout "device session wait exhausted deadline")
        guarded (session patience binding id request artifacts reconcile deadline)

def run (patience : ℕ) (backend : DeviceBackend) (request : DispatchRequest)
    (artifacts : ArtifactResolver) (reconcile : Bool) : Session OperationReceipt := do
  Action.refuse (request.deadlineMilliseconds = 0) (malformed "zero operation deadline")
  match request.operation with
  | .wait _ milliseconds => waited request milliseconds reconcile
  | operation => do
      let id ← Action.result (match operation.instrument with
        | some id => .ok id
        | none => .error (malformed "operation has no instrument"))
      let binding ← Action.result (match backend.sessions.get? id with
        | some binding => .ok binding
        | none => .error (malformed ("unconfigured instrument " ++ id.value)))
      onSession patience binding id request artifacts reconcile

/-- What is seen of an instrument, published for its commissioning; `encode` is
`serde_json::to_vec`. -/
def inspect (encode : Observation → Bytes) (backend : DeviceBackend) (id : InstrumentId) :
    Session Observation := do
  let binding ← Action.result (match backend.sessions.get? id with
    | some binding => .ok binding
    | none => .error (malformed ("unconfigured instrument " ++ id.value)))
  let observed ← Action.outcome (do
    let connected ← connect binding
    observe binding connected)
  match observed with
  | .error error => do
      set (none : Option Connected)
      throw error
  | .ok observation => do
      let digest ← Action.ask (F := hardware)
        (HardwareRequest.publish (.bytes (encode observation)) (.commissioning id))
      let digest ← Action.result (digest.mapError fun error => .transport error.toString)
      return { observation with evidence := some digest }

end DeviceBackend

end Cheirismos
