import Cheirismos.Backend
import Cheirismos.Bench

/-! # A device rig

Concrete surroundings of a device session, in which whole runs of the backend can be computed: a
simulator's store file and a Bus Pirate with a flash of a few bytes.

`respond` answers every request as such devices would; a run against it is `Program.against`. -/

namespace Cheirismos

open Process

namespace Rig

/-- The bench, with packets of one length and encodings that tell nothing apart. -/
scoped instance crates : Crates where
  toPlatform := Bench.platform
  packetLength _ := 64
  encodeBinding _ := []
  encodeValue _ := []

/-! ### Devices -/

structure State where
  file : Option SimulatorState
  flash : Bytes
  writeEnabled : Bool

def discovery : Bpio2Discovery where
  flatbufferMajor := 2
  flatbufferMinor := 0
  hardwareMajor := 6
  hardwareMinor := 0
  firmwareMajor := 1
  firmwareMinor := 0
  firmwareGitHash := none
  firmwareDate := none
  modesAvailable := ["SPI", "I2C", "UART"]
  modeCurrent := some "SPI"
  maxPacketBytes := 1024
  maxWriteBytes := 8
  maxReadBytes := 256
  psuEnabled := false
  psuSetMillivolts := 0
  psuSetMilliamps := 0
  psuMeasuredMillivolts := 0
  psuMeasuredMilliamps := 0
  adcMillivolts := []
  ioDirection := 0
  ioValue := 0

def adapter : Bpio2Adapter := ⟨1024, some discovery⟩

/-- Program the bytes from the address on. -/
def program (flash : Bytes) (first : ℕ) (data : Bytes) : Bytes :=
  Simulator.overlay flash first (Simulator.programNor (Simulator.window flash first data.length) data)

/-- What the flash does with a command of three-byte addressing. -/
def flashCommand (state : State) : Bytes → State
  | [0x06] => { state with writeEnabled := true }
  | 0x02 :: _ :: _ :: low :: data =>
      if state.writeEnabled then
        { state with flash := program state.flash low.toNat data, writeEnabled := false }
      else state
  | 0x20 :: _ =>
      if state.writeEnabled then
        { state with
          flash := List.replicate state.flash.length 0xFF
          writeEnabled := false }
      else state
  | _ => state

/-- The bytes that the flash answers a command with. -/
def flashReply (state : State) (write : Bytes) (n : UInt16) : Bytes :=
  match write with
  | [0x05] => List.replicate n.toNat (if state.writeEnabled then 2 else 0)
  | [0x03, _, _, low] => Simulator.window state.flash low.toNat n.toNat
  | _ => List.replicate n.toNat 0

def respondPacket (packet : RequestPacket) (state : State) :
    Except ExchangeError ResponsePacket × State :=
  match packet with
  | .status => (.ok ⟨none, .status (some (none, discovery)), 256⟩, state)
  | .configuration .. => (.ok ⟨none, .configuration (some none), 64⟩, state)
  | .data _ write n _ =>
      (.ok ⟨none, .data (some (none, some (flashReply state write n))), n.toNat + 64⟩,
        flashCommand state write)

def respond : (request : hardware.Request) → State → hardware.Answer request × State
  | .bpio packet, state => respondPacket packet state
  | .numato _, state => (.ok "00", state)
  | .readStore _, state => (.ok state.file, state)
  | .writeStore stored, state => (.ok (), { state with file := some stored })
  | .usbPorts _, state => (.ok [], state)
  | .openSerial _, state => (.ok (), state)
  | .inspectVideo _, state => (.ok "", state)
  | .captureVideo _, state => (.ok ([], ""), state)
  | .elapsed, state => (0, state)
  | .now, state => (Bench.now, state)
  | .sleep _, state => ((), state)
  | .publish _ _, state => (.ok (Bench.mark "evidence"), state)

/-! ### A simulator in a session -/

def simulatorConfig : SimulatorConfig := ⟨⟨"sim", by decide +kernel⟩, 4⟩

def simulatorBinding : DeviceBinding :=
  ⟨.simulator simulatorConfig, Bench.mark "target", Bench.mark "fixture", none⟩

def simulator : InstrumentId := ⟨"simulator", by decide +kernel⟩

def backend : DeviceBackend := ⟨⟨[(simulator, simulatorBinding)], by simp⟩⟩

/-- A simulator whose flash has been written and whose relays have been set. -/
def used : SimulatorState where
  flash := [1, 2, 3, 4]
  relayClosed := [true, false, true, false]
  effectCalls := 5
  partialEffectCalls := 1
  fault := .interruptNextEffect
  relays := rfl

/-- A dispatch of an operation on the simulator, reviewed against this rig. -/
def dispatch (operation : Operation) : DispatchRequest where
  attempt := Bench.a₁
  operation := operation
  deadlineMilliseconds := 100
  expectedTargetFingerprint := Bench.mark "target"
  expectedInstrumentFingerprints := ⟨[(simulator, Platform.sha256 [])], by simp⟩
  expectedInstrumentConfigurations := ⟨[(simulator, Platform.sha256 [])], by simp⟩
  expectedInstrumentPhysicalIdentities :=
    ⟨[(simulator, physicalIdentity "simulator:sim")], by simp⟩
  expectedFixtureRevision := Bench.mark "fixture"
  evidenceChallenge := Bench.mark "challenge"
  evidencePhase := .reconciliation
  configureInstrument := false
  interlocksValidUntil := none

/-! ### A flash behind a Bus Pirate -/

def flasher : InstrumentId := ⟨"flasher", by decide +kernel⟩

/-- Two sectors of pages of four bytes. -/
def geometry : FlashGeometry where
  capacityBytes := 8192
  pageBytes := 4
  eraseBytes := 4096
  addressMode := .threeByte
  capacity_ne_zero := by decide
  page_ne_zero := by decide
  erase_eq := rfl
  reached := by decide

/-- Three payload bytes fit beside a program command. -/
def limits : Bus.Limits := ⟨7, 256, by decide, by decide, by decide, by decide⟩

/-- The binding of the rig's flash, with a USB identity that its port shows. -/
def chipBinding : DeviceBinding where
  config := .bpio2
    { serial := ⟨"/dev/serial/by-id/flasher", 115200, "usb:1209:7331:flasher"⟩
      spiHz := 1000000
      i2cHz := 400000
      uartBaud := 115200
      psuMaxMillivolts := 3300
      psuMaxMilliamps := 100
      pinMap := ⟨[("spi_cs", 0)], by simp⟩
      flashCapacityBytes := some 8192
      flashPageBytes := some 4
      flashEraseBytes := some 4096
      flashFourByteAddressing := false }
  targetFingerprint := Bench.mark "target"
  fixtureRevision := Bench.mark "fixture"
  flashIdentity := some ⟨(0, 0, 0), Platform.sha256 (List.replicate 256 0)⟩

def flashEffects : Finset EffectPermission := {.instrumentConfigure, .flashErase, .flashWrite}

/-- The second sector may be changed. -/
def flashProfile : CommissionedProfile :=
  { Bench.profile with
    instruments := ⟨[(flasher, { Bench.binding with
      qualifiedCapabilities := {.flash}
      qualifiedEffectPermissions := flashEffects })], by simp⟩
    permittedCapabilities := {.flash}
    regionLimits := ⟨4096, 8192⟩
    liveInterlocks := [] }

def flashGrant : Grant :=
  { Bench.grant Bench.g₁ with
    capabilities := {.flash}
    effectPermissions := flashEffects }

/-- A reviewed plan of one operation. -/
def flashPlan (operation : Operation) : ReviewedPlan :=
  let proposal : PlanProposal :=
    { Bench.proposal Bench.p₁ [⟨operation, 1, []⟩] with
      instrumentFingerprints := ⟨[(flasher, Bench.mark "fingerprint")], by simp⟩
      instrumentConfigurationDigests := ⟨[(flasher, Bench.mark "configuration")], by simp⟩ }
  let plan : ReviewedPlan := ⟨proposal, Bench.reviewer.id, Bench.mark ""⟩
  { plan with reviewDigest := plan.digest }

/-- Bytes for the second page of the second sector, from its second byte on. -/
def candidate : Bytes := [1, 2, 3, 4, 5]

def artifacts : ArtifactResolver := fun _ => .ok ⟨Bench.digestOf candidate, candidate, rfl⟩

def eraseOperation : Operation := .flashErase Bench.target flasher 4096 4096

def writeOperation : Operation :=
  .flashWrite Bench.target flasher 4101 (Bench.digestOf candidate) 5

end Rig

end Cheirismos
