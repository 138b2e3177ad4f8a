import Cheirismos.Requests
import Cheirismos.Dialogues

/-! # Instruments and what a device session asks of its surroundings

* **Configuration** (`instruments/config.rs`, `service/backend/mod.rs`): the supervisor-owned
  settings of the four kinds of instrument and the binding of one instrument to a fixture.
* **Errors** (`instruments/error.rs`): `InstrumentError`, and the two ways it becomes a
  `BackendError`.
* **The hardware interface.** Every request that a session makes: one BPIO2 packet and its
  response, one Numato command line and what comes back up to the prompt, the simulator's store
  file, USB enumeration, video capture, the clocks, and publishing evidence.  Framing but for the
  length of a frame, timeouts, FlatBuffers and the operating system are behind it; any of them may
  fail at any request (`ExchangeError`), and a device may answer anything.

A session of a Bus Pirate, a relay controller or a simulator is an `Action` over this interface. -/

namespace Cheirismos

open Process

/-! ### Configuration -/

abbrev SimulatorId := Identifier "simulator id"

structure SerialBinding where
  path : String
  baudRate : UInt32
  expectedUsbIdentity : String
deriving DecidableEq

structure Bpio2Config where
  serial : SerialBinding
  spiHz : UInt32
  i2cHz : UInt32
  uartBaud : UInt32
  psuMaxMillivolts : UInt32
  psuMaxMilliamps : UInt32
  pinMap : OrdMap String UInt8
  flashCapacityBytes : Option UInt64
  flashPageBytes : Option UInt32
  flashEraseBytes : Option UInt32
  flashFourByteAddressing : Bool
deriving DecidableEq

structure NumatoConfig where
  serial : SerialBinding
  relayMap : OrdMap String UInt8
deriving DecidableEq

structure SimulatorConfig where
  identity : SimulatorId
  flashBytes : ℕ
deriving DecidableEq

structure VideoConfig where
  devicePath : String
  expectedUsbIdentity : String
  executable : String
  executableSha256 : String
  frameTimeoutMilliseconds : UInt64
  maxFrameBytes : ℕ
deriving DecidableEq

inductive InstrumentConfig where
  | bpio2 (config : Bpio2Config)
  | numato (config : NumatoConfig)
  | simulator (config : SimulatorConfig)
  | video (config : VideoConfig)
deriving DecidableEq

structure FlashIdentity where
  jedecId : UInt8 × UInt8 × UInt8
  sfdpDigest : ArtifactDigest
deriving DecidableEq

structure DeviceBinding where
  config : InstrumentConfig
  targetFingerprint : ArtifactDigest
  fixtureRevision : ArtifactDigest
  flashIdentity : Option FlashIdentity
deriving DecidableEq

/-! ### Errors -/

inductive InstrumentError where
  | io (action source : String)
  | timeout (operation : String)
  | endOfStream (operation : String)
  | frameTooLarge (limit : ℕ)
  | malformedCobs
  | malformedResponse (detail : String)
  | deviceRejected (detail : String)
  | unexpectedResponse (expected actual : String)
  | protocolLimit (requested limit : ℕ)
  | invalidRelayResponse (response : String)
  | invalidSimulatorStore (detail : String)
  | invalidVideoConfiguration (detail : String)
  | videoExecutableDigestMismatch (expected actual : String)
  | videoIdentityMismatch (expected actual : String)
  | invalidVideoFrame
  | videoCaptureFailed (detail : String)
deriving DecidableEq

def InstrumentError.toString [Formatter] : InstrumentError → String
  | io action source => action ++ ": " ++ source
  | timeout operation => "timed out while " ++ operation
  | endOfStream operation => "stream ended while " ++ operation
  | frameTooLarge limit => "frame exceeds " ++ ToString.toString limit ++ "-byte limit"
  | malformedCobs => "malformed COBS frame"
  | malformedResponse detail => "malformed response: " ++ detail
  | deviceRejected detail => "device rejected request: " ++ detail
  | unexpectedResponse expected actual =>
      "expected " ++ expected ++ " response, received " ++ actual
  | protocolLimit requested limit =>
      "requested " ++ ToString.toString requested ++ " bytes exceeds device limit " ++
        ToString.toString limit
  | invalidRelayResponse response =>
      "invalid Numato relay response " ++ Formatter.debugText response
  | invalidSimulatorStore detail => "invalid simulator store: " ++ detail
  | invalidVideoConfiguration detail => "invalid video configuration: " ++ detail
  | videoExecutableDigestMismatch expected actual =>
      "video executable digest mismatch: expected " ++ expected ++ ", observed " ++ actual
  | videoIdentityMismatch expected actual =>
      "video USB identity mismatch: expected " ++ expected ++ ", observed " ++ actual
  | invalidVideoFrame => "video capture output is not a PNG"
  | videoCaptureFailed detail => "video capture failed: " ++ detail

def malformed (message : String) : BackendError := .malformed message

def transport [Formatter] (error : InstrumentError) : BackendError := .transport error.toString

/-- How one exchange with a device can fail, whatever is asked of it. -/
inductive ExchangeError where
  | io (action source : String)
  | timeout (operation : String)
  | endOfStream (operation : String)
  | frameTooLarge (limit : ℕ)
  | malformedCobs
  | malformedResponse (detail : String)

def ExchangeError.error : ExchangeError → InstrumentError
  | io action source => .io action source
  | timeout operation => .timeout operation
  | endOfStream operation => .endOfStream operation
  | frameTooLarge limit => .frameTooLarge limit
  | malformedCobs => .malformedCobs
  | malformedResponse detail => .malformedResponse detail

/-! ### BPIO2 packets -/

structure ModeConfig where
  speed : UInt32
  clockPolarity : Bool
  clockPhase : Bool
  chipSelectIdle : Bool
  clockStretch : Bool
  dataBits : UInt8
  parity : Bool
  stopBits : UInt8
  flowControl : Bool
  signalInversion : Bool
deriving DecidableEq

/-- `ModeConfig::default()`. -/
def ModeConfig.preset : ModeConfig where
  speed := 20000
  clockPolarity := false
  clockPhase := false
  chipSelectIdle := true
  clockStretch := false
  dataBits := 8
  parity := false
  stopBits := 1
  flowControl := false
  signalInversion := false

inductive PsuSetting where
  | enable (millivolts : UInt32) (milliamps : UInt16)
  | disable
deriving DecidableEq

/-- A request packet: `StatusRequest`, `ConfigurationRequest` or `DataRequest`.  The pairs of a
configuration are a mask of IO pins and their directions or values. -/
inductive RequestPacket where
  | status
  | configuration (mode : Option (String × ModeConfig)) (psu : Option PsuSetting)
      (direction value : Option (UInt8 × UInt8)) (pullup : Option Bool)
  | data (startMain : Bool) (dataWrite : Bytes) (bytesRead : UInt16) (stopMain : Bool)
deriving DecidableEq

structure Bpio2Discovery where
  flatbufferMajor : UInt8
  flatbufferMinor : UInt16
  hardwareMajor : UInt8
  hardwareMinor : UInt8
  firmwareMajor : UInt8
  firmwareMinor : UInt8
  firmwareGitHash : Option String
  firmwareDate : Option String
  modesAvailable : List String
  modeCurrent : Option String
  maxPacketBytes : UInt32
  maxWriteBytes : UInt32
  maxReadBytes : UInt32
  psuEnabled : Bool
  psuSetMillivolts : UInt32
  psuSetMilliamps : UInt32
  psuMeasuredMillivolts : UInt32
  psuMeasuredMilliamps : UInt32
  adcMillivolts : List UInt32
  ioDirection : UInt8
  ioValue : UInt8
deriving DecidableEq

/-- The contents of a response packet by their declared type; the payload may be missing. -/
inductive ResponseContents where
  | status (payload : Option (Option String × Bpio2Discovery))
  | configuration (payload : Option (Option String))
  | data (payload : Option (Option String × Option Bytes))
  | other (contentsType : String)

namespace ResponseContents

/-- `{:?}` of the declared type. -/
def contentsType : ResponseContents → String
  | status _ => "StatusResponse"
  | configuration _ => "ConfigurationResponse"
  | data _ => "DataResponse"
  | other contentsType => contentsType

end ResponseContents

structure ResponsePacket where
  error : Option String
  contents : ResponseContents
  /-- The length of the frame that it came in, without the delimiter. -/
  frameBytes : ℕ

/-! ### The simulator's state -/

inductive SimulatorFault where
  | none
  | interruptNextEffect
  | interruptAfterBytes (bytes : ℕ)
deriving DecidableEq

structure SimulatorState where
  flash : Bytes
  relayClosed : List Bool
  effectCalls : UInt64
  partialEffectCalls : UInt64
  fault : SimulatorFault
  /-- `[bool; 4]`. -/
  relays : relayClosed.length = 4
deriving DecidableEq

/-! ### The hardware interface -/

/-- A USB serial port at a path. -/
structure UsbPort where
  vid : UInt16
  pid : UInt16
  serialNumber : Option String

/-- What is published as evidence: captured bytes, or an encoded envelope. -/
inductive Publication where
  | bytes (content : Bytes)
  | envelope (envelope : EvidenceEnvelope)

inductive HardwareRequest where
  | bpio (packet : RequestPacket)
  /-- A command line and what comes back up to the prompt. -/
  | numato (command : String)
  /-- The simulator's store file, if it is there. -/
  | readStore (config : SimulatorConfig)
  | writeStore (state : SimulatorState)
  /-- The USB ports whose canonical name is that of the path. -/
  | usbPorts (path : String)
  | openSerial (serial : SerialBinding)
  | inspectVideo (config : VideoConfig)
  /-- The frame and the USB identity observed with it. -/
  | captureVideo (config : VideoConfig)
  /-- Milliseconds since the run started. -/
  | elapsed
  | now
  | sleep (milliseconds : UInt64)
  | publish (publication : Publication) (source : EvidenceSource)

abbrev HardwareAnswer : HardwareRequest → Type
  | .bpio _ => Except ExchangeError ResponsePacket
  | .numato _ => Except ExchangeError String
  | .readStore _ => Except InstrumentError (Option SimulatorState)
  | .writeStore _ => Except InstrumentError Unit
  | .usbPorts _ => Except String (List UsbPort)
  | .openSerial _ => Except InstrumentError Unit
  | .inspectVideo _ => Except InstrumentError String
  | .captureVideo _ => Except InstrumentError (Bytes × String)
  | .elapsed => ℕ
  | .now => Timestamp
  | .sleep _ => Unit
  | .publish _ _ => Except EvidenceError ArtifactDigest

/-- The requests of a device session. -/
abbrev hardware : Interface := ⟨HardwareRequest, HardwareAnswer⟩

/-- What the backend uses of the `bpio2` and `flatbuffers` crates and of `serde_json`. -/
class Crates extends Platform where
  /-- The length of an encoded request packet. -/
  packetLength : RequestPacket → ℕ
  encodeBinding : DeviceBinding → Bytes
  encodeValue : Value → Bytes

/-- `ArtifactResolver::resolve`. -/
abbrev ArtifactResolver [Platform] := ArtifactDigest → Except EvidenceError VerifiedArtifact

/-! ### Conversions -/

/-- The text of `TryFromIntError`. -/
def conversionError : String := "out of range integral type conversion attempted"

/-- `u8::try_from` of a `u16`. -/
def u8TryFrom (n : UInt16) : Except BackendError UInt8 :=
  if n.toNat < 2 ^ 8 then .ok n.toUInt8 else .error (malformed conversionError)

/-- `u16::try_from` of a `u32`. -/
def u16TryFrom (n : UInt32) : Except BackendError UInt16 :=
  if n.toNat < 2 ^ 16 then .ok n.toUInt16 else .error (malformed conversionError)

/-- `u16::try_from` of a `usize`. -/
def u16OfUsize (n : ℕ) : Except BackendError UInt16 :=
  if n < 2 ^ 16 then .ok (UInt16.ofNat n) else .error (malformed conversionError)

/-- `u32::try_from` of a `usize`. -/
def u32OfUsize (n : ℕ) : Except BackendError UInt32 :=
  if n < 2 ^ 32 then .ok (UInt32.ofNat n) else .error (malformed conversionError)

theorem u16OfUsize_of_lt {n : ℕ} (h : n < 2 ^ 16) : u16OfUsize n = .ok (UInt16.ofNat n) :=
  if_pos h

/-! ### JSON bodies -/

/-- Insert a member into an object in key order. -/
def insertMember (key : String) (value : Value) : List (String × Value) → List (String × Value)
  | [] => [(key, value)]
  | (k, v) :: members =>
      if key < k then (key, value) :: (k, v) :: members
      else if key = k then (key, value) :: members
      else (k, v) :: insertMember key value members

namespace Value

/-- `json!` of an object. -/
def json (members : List (String × Value)) : Value :=
  object (members.foldl (fun object member => insertMember member.1 member.2 object) [])

def nat (n : ℕ) : Value := number (.posInt (UInt64.ofNat n))

def digest (digest : ArtifactDigest) : Value := string digest.value

def option (value : Option String) : Value := value.elim null string

/-- Add the members of an object to an object. -/
def merge (base additions : Value) : Value :=
  match base, additions with
  | object members, object more =>
      object (more.foldl (fun object member => insertMember member.1 member.2 object) members)
  | _, _ => base

/-- Set one member of an object. -/
def insert (body : Value) (key : String) (value : Value) : Value :=
  match body with
  | object members => object (insertMember key value members)
  | _ => body

end Value

end Cheirismos
