import Cheirismos.Identities

/-! # Preflight

`service/backend/preflight.rs` checks an operation against its binding and its artifact before any
device is opened.  `Preflight.validate` is the check, with one function for each kind of instrument.

An execution makes such checks again.  `BpioChecks`, `NumatoChecks` and `SimulatorChecks` list those
that depend on the binding, the operation and the artifacts alone, in the terms of the execution, and
`supports` the kinds of operations that a kind of instrument performs.  `validateBpio_checks` and its
siblings say that these checks pass for every operation that preflight accepts. -/

namespace Cheirismos

open Process

/-- `{:?}`. -/
def Capability.debugText : Capability → String
  | instrumentStatus => "InstrumentStatus"
  | spi => "Spi"
  | i2c => "I2c"
  | uart => "Uart"
  | gpio => "Gpio"
  | adc => "Adc"
  | psu => "Psu"
  | relay => "Relay"
  | flash => "Flash"
  | video => "Video"
  | wait => "Wait"

namespace Preflight

def bpioMaxRequestBytes : ℕ := 65535

def i2cAddressBytes : ℕ := 1

/-- Fail with the message when the condition holds. -/
def reject (bad : Prop) [Decidable bad] (message : String) : Except BackendError Unit :=
  if bad then .error (malformed message) else .ok ()

/-! ### Checks of lengths -/

def nonemptyExchange (writeBytes : ℕ) (readBytes : UInt32) (kind : String) :
    Except BackendError Unit :=
  reject (writeBytes = 0 ∧ readBytes = 0) (kind ++ " must write or capture at least one byte")

def nonzero (length : UInt32) (kind : String) : Except BackendError Unit :=
  reject (length = 0) (kind ++ " must capture at least one byte")

def boundedBytes (length : ℕ) (kind : String) : Except BackendError Unit :=
  reject (maxEvidenceBytes < length) (kind ++ " exceeds 64MiB evidence limit")

def boundedCapture (length : UInt32) (kind : String) : Except BackendError Unit := do
  nonzero length kind
  boundedBytes length.toNat kind

def boundedOptionalCapture (length : UInt32) (kind : String) : Except BackendError Unit :=
  if length = 0 then .ok () else boundedCapture length kind

def unsupported (instrument : String) (operation : Operation) : BackendError :=
  malformed (operation.capability.debugText ++ " is unsupported by " ++ instrument)

/-! ### Checks of flash operations -/

def qualifiedBpioGeometry (config : Bpio2Config) : Except BackendError FlashGeometry :=
  match config.flashCapacityBytes, config.flashPageBytes, config.flashEraseBytes with
  | some capacity, some page, some erase =>
      Bus.layout (FlashGeometry.tryNew capacity page erase
        (if config.flashFourByteAddressing then .fourByte else .threeByte))
  | _, _, _ =>
      .error (malformed "flash requires commissioned capacity, page, and erase geometry")

def requireFlashIdentity (binding : DeviceBinding) : Except BackendError Unit :=
  reject (binding.flashIdentity = none)
    "flash operation requires commissioned JEDEC and SFDP identity"

/-- `u64::try_from` of a `usize`. -/
def u64OfUsize (n : ℕ) : Except BackendError UInt64 :=
  if n < 2 ^ 64 then .ok (UInt64.ofNat n) else .error (malformed conversionError)

def simulatorRange (flashBytes : ℕ) (offset : UInt64) (length : UInt32) :
    Except BackendError Unit := do
  let capacity ← u64OfUsize flashBytes
  match u64CheckedAdd offset length.toUInt64 with
  | none => .error (malformed "simulator flash range overflows")
  | some last => reject (capacity < last) "simulator flash range exceeds configured capacity"

/-! ### The kinds of instruments -/

section kinds

variable [Crates]

def exactSource (artifacts : ArtifactResolver) (source : ArtifactDigest) (length : UInt32) :
    Except BackendError Unit := do
  let _ ← sourceBytes artifacts source length
  return ()

/-- Writing or comparing a candidate in the flash of a Bus Pirate. -/
def validateBpioCandidate (binding : DeviceBinding) (config : Bpio2Config)
    (artifacts : ArtifactResolver) (offset : UInt64) (source : ArtifactDigest) (length : UInt32) :
    Except BackendError Unit := do
  let geometry ← qualifiedBpioGeometry config
  nonzero length "flash write/verify"
  boundedCapture length "flash write/verify"
  requireFlashIdentity binding
  Bus.layout (geometry.validateRange offset length)
  exactSource artifacts source length

def validateBpioOperation (binding : DeviceBinding) (config : Bpio2Config)
    (artifacts : ArtifactResolver) (operation : Operation) : Except BackendError Unit :=
  match operation with
  | .instrumentStatus _ _ => return ()
  | .spiTransfer _ _ tx rxBytes => do
      nonemptyExchange tx.length rxBytes "SPI transfer"
      boundedBytes tx.length "SPI write"
      boundedOptionalCapture rxBytes "SPI capture"
  | .i2cTransfer _ _ address tx rxBytes => do
      reject (0x7f < address) "I2C address must be a seven-bit value"
      nonemptyExchange tx.length rxBytes "I2C transfer"
      boundedBytes tx.length "I2C write"
      boundedOptionalCapture rxBytes "I2C capture"
      reject (bpioMaxRequestBytes < tx.length + i2cAddressBytes ∨
        bpioMaxRequestBytes < rxBytes.toNat)
        "I2C transfer exceeds one unsplittable BPIO2 u16 request"
  | .i2cScan _ _ => return ()
  | .uartCapture _ _ maxBytes => boundedCapture maxBytes "UART capture"
  | .uartTransmit _ _ bytes => do
      reject (bytes = []) "UART transmit must contain at least one byte"
      boundedBytes bytes.length "UART transmit"
  | .gpioSet _ _ pin _ => do
      let pin ← u8TryFrom pin
      reject (8 ≤ pin ∨ pin ∉ config.pinMap.values)
        "GPIO pin is outside the configured fixture pin map"
  | .adcRead _ _ channel => reject (8 ≤ channel) "ADC channel is outside the BPIO IO pin range"
  | .psuSet _ _ millivolts milliamps =>
      reject (config.psuMaxMillivolts < millivolts ∨ config.psuMaxMilliamps < milliamps ∨
        65535 < milliamps) "PSU request exceeds configured electrical or protocol limits"
  | .flashIdentify _ _ => return ()
  | .flashRead _ _ offset length => do
      let geometry ← qualifiedBpioGeometry config
      boundedCapture length "flash read"
      requireFlashIdentity binding
      Bus.layout (geometry.validateRange offset length)
  | .flashErase _ _ offset length => do
      let geometry ← qualifiedBpioGeometry config
      nonzero length "flash erase"
      boundedCapture length "flash erase"
      requireFlashIdentity binding
      Bus.layout (geometry.validateErase offset length)
  | .flashWrite _ _ offset source length =>
      validateBpioCandidate binding config artifacts offset source length
  | .flashVerify _ _ offset source length =>
      validateBpioCandidate binding config artifacts offset source length
  | _ => throw (unsupported "BPIO2" operation)

def validateBpio (binding : DeviceBinding) (config : Bpio2Config) (operation : Operation)
    (artifacts : ArtifactResolver) : Except BackendError Unit := do
  reject (config.spiHz = 0 ∨ config.i2cHz = 0 ∨ config.uartBaud = 0)
    "BPIO2 configured bus speeds must be positive"
  reject (config.pinMap.values.any (8 ≤ ·) ∨ 65535 < config.psuMaxMilliamps)
    "BPIO2 electrical configuration exceeds protocol limits"
  validateBpioOperation binding config artifacts operation

/-- The relay is one of the fixture. -/
def validateRelay (config : NumatoConfig) (relay : UInt16) : Except BackendError Unit := do
  let relay ← u8TryFrom relay
  reject (4 ≤ relay ∨ relay ∉ config.relayMap.values)
    "relay is outside the configured Numato fixture map"

def validateNumato (config : NumatoConfig) (operation : Operation) : Except BackendError Unit := do
  reject (config.relayMap.values.any (4 ≤ ·))
    "Numato relay map is outside the four-channel module"
  match operation with
  | .instrumentStatus _ _ => return ()
  | .relaySet _ _ relay _ => validateRelay config relay
  | .relayRead _ _ relay => validateRelay config relay
  | _ => throw (unsupported "Numato" operation)

/-- Writing or comparing a candidate in the flash of a simulator. -/
def validateSimulatorCandidate (flashBytes : ℕ) (artifacts : ArtifactResolver) (offset : UInt64)
    (source : ArtifactDigest) (length : UInt32) : Except BackendError Unit := do
  nonzero length "simulator flash write/verify"
  boundedCapture length "simulator flash write/verify"
  simulatorRange flashBytes offset length
  exactSource artifacts source length

def validateSimulator (flashBytes : ℕ) (operation : Operation) (artifacts : ArtifactResolver) :
    Except BackendError Unit := do
  reject (flashBytes = 0 ∨ maxEvidenceBytes < flashBytes)
    "simulator flash capacity is outside 1..=64MiB"
  match operation with
  | .instrumentStatus _ _ => return ()
  | .flashIdentify _ _ => return ()
  | .relaySet _ _ relay _ => reject (4 ≤ relay) "simulator relay is outside 0..4"
  | .relayRead _ _ relay => reject (4 ≤ relay) "simulator relay is outside 0..4"
  | .flashRead _ _ offset length => do
      boundedCapture length "simulator flash read"
      simulatorRange flashBytes offset length
  | .flashErase _ _ offset length => do
      nonzero length "simulator flash erase"
      boundedCapture length "simulator flash erase"
      simulatorRange flashBytes offset length
  | .flashWrite _ _ offset source length =>
      validateSimulatorCandidate flashBytes artifacts offset source length
  | .flashVerify _ _ offset source length =>
      validateSimulatorCandidate flashBytes artifacts offset source length
  | _ => throw (unsupported "simulator" operation)

def validateVideo (config : VideoConfig) (operation : Operation) : Except BackendError Unit := do
  (VideoConfig.accept config).mapError transport
  reject (maxEvidenceBytes < config.maxFrameBytes)
    "video frame capacity exceeds 64MiB evidence limit"
  match operation with
  | .instrumentStatus _ _ => return ()
  | .videoCapture _ _ => return ()
  | _ => throw (unsupported "video" operation)

/-- `preflight::validate`. -/
def validate (binding : DeviceBinding) (operation : Operation) (artifacts : ArtifactResolver) :
    Except BackendError Unit :=
  match binding.config with
  | .bpio2 config => validateBpio binding config operation artifacts
  | .numato config => validateNumato config operation
  | .simulator config => validateSimulator config.flashBytes operation artifacts
  | .video config => validateVideo config operation

end kinds

end Preflight

/-! ### The checks of an execution -/

/-- The kinds of operations that a kind of instrument performs. -/
def supports : InstrumentConfig → Operation → Bool
  | .bpio2 _, .relaySet .. | .bpio2 _, .relayRead .. | .bpio2 _, .videoCapture ..
  | .bpio2 _, .wait .. => false
  | .bpio2 _, _ => true
  | .numato _, .instrumentStatus .. | .numato _, .relaySet .. | .numato _, .relayRead .. => true
  | .simulator _, .instrumentStatus .. | .simulator _, .relaySet .. | .simulator _, .relayRead ..
  | .simulator _, .flashIdentify .. | .simulator _, .flashRead .. | .simulator _, .flashErase ..
  | .simulator _, .flashWrite .. | .simulator _, .flashVerify .. => true
  | .video _, .instrumentStatus .. | .video _, .videoCapture .. => true
  | _, _ => false

/-- What an operation on a range of the flash of a Bus Pirate relies on. -/
structure FlashReady (binding : DeviceBinding) (offset : UInt64) (length : UInt32)
    (geometry : FlashGeometry) : Prop where
  speed : Bus.spiSpeed binding ≠ 0
  qualified : Bus.qualifiedFlashGeometry binding = .ok (.of geometry)
  identity : binding.flashIdentity.isSome = true
  bounded : Bus.boundedCapture length = .ok ()
  range : geometry.validateRange offset length = .ok ()

/-- The checks of an execution on a Bus Pirate that do not depend on the device. -/
def BpioChecks [Platform] (binding : DeviceBinding) (config : Bpio2Config)
    (artifacts : ArtifactResolver) : Operation → Prop
  | .spiTransfer _ _ _ rxBytes =>
      Bus.spiSpeed binding ≠ 0 ∧ Bus.boundedCapture rxBytes = .ok ()
  | .i2cTransfer _ _ address _ rxBytes => ¬ 0x7f < address ∧ Bus.i2cSpeed binding ≠ 0 ∧
      Bus.boundedCapture rxBytes = .ok () ∧ ∃ count, u16TryFrom rxBytes = .ok count
  | .i2cScan _ _ => Bus.i2cSpeed binding ≠ 0
  | .uartCapture _ _ maxBytes =>
      Bus.uartSpeed binding ≠ 0 ∧ Bus.boundedCapture maxBytes = .ok ()
  | .uartTransmit _ _ _ => Bus.uartSpeed binding ≠ 0
  | .gpioSet _ _ pin _ => ∃ pin', u8TryFrom pin = .ok pin' ∧ ¬ 8 ≤ pin' ∧
      pin' ∈ config.pinMap.values
  | .psuSet _ _ millivolts milliamps =>
      ¬ (config.psuMaxMillivolts < millivolts ∨ config.psuMaxMilliamps < milliamps) ∧
        ∃ milliamps', u16TryFrom milliamps = .ok milliamps'
  | .flashIdentify _ _ => Bus.spiSpeed binding ≠ 0
  | .flashRead _ _ offset length => ∃ geometry, FlashReady binding offset length geometry
  | .flashErase _ _ offset length => ∃ geometry, FlashReady binding offset length geometry ∧
      geometry.validateErase offset length = .ok ()
  | .flashWrite _ _ offset source length | .flashVerify _ _ offset source length =>
      ∃ geometry, FlashReady binding offset length geometry ∧
        ∃ bytes, sourceBytes artifacts source length = .ok bytes
  | _ => True

/-- The checks of an execution on a relay controller. -/
def NumatoChecks (config : NumatoConfig) : Operation → Prop
  | .relaySet _ _ relay _ | .relayRead _ _ relay =>
      ∃ relay', u8TryFrom relay = .ok relay' ∧ ¬ 4 ≤ relay' ∧ relay' ∈ config.relayMap.values
  | _ => True

/-- The checks of an execution on a simulator with a flash of so many bytes. -/
def SimulatorChecks [Platform] (flashBytes : ℕ) (artifacts : ArtifactResolver) : Operation → Prop
  | .relaySet _ _ relay _ | .relayRead _ _ relay => relay.toNat < 4
  | .flashRead _ _ offset length | .flashErase _ _ offset length =>
      offset.toNat + length.toNat ≤ flashBytes ∧ flashBytes < 2 ^ 64
  | .flashWrite _ _ offset source length | .flashVerify _ _ offset source length =>
      offset.toNat + length.toNat ≤ flashBytes ∧ flashBytes < 2 ^ 64 ∧
        ∃ bytes, sourceBytes artifacts source length = .ok bytes
  | _ => True

namespace Preflight

theorem reject_ok {bad : Prop} [Decidable bad] {message : String} {u : Unit} :
    reject bad message = .ok u ↔ ¬ bad := by
  unfold reject
  split_ifs with h <;> simp [h]

theorem u16TryFrom_of_le {n : UInt32} (h : ¬ 65535 < n) : ∃ m, u16TryFrom n = .ok m := by
  have hle : n.toNat ≤ 65535 := UInt32.le_iff_toNat_le.mp (UInt32.not_lt.mp h)
  exact ⟨n.toUInt16, if_pos (by omega)⟩

/-- A capture that preflight bounds is one that the bus bounds. -/
theorem boundedCapture_ok {length : UInt32} {kind : String} {u : Unit}
    (h : boundedCapture length kind = .ok u) : Bus.boundedCapture length = .ok () := by
  unfold boundedCapture at h
  obtain ⟨_, _, h⟩ := except_bind_ok.mp h
  exact if_neg (reject_ok.mp h)

theorem boundedOptionalCapture_ok {length : UInt32} {kind : String} {u : Unit}
    (h : boundedOptionalCapture length kind = .ok u) : Bus.boundedCapture length = .ok () := by
  unfold boundedOptionalCapture at h
  split_ifs at h with hzero
  · subst hzero
    rfl
  · exact boundedCapture_ok h

theorem requireFlashIdentity_ok {binding : DeviceBinding} {u : Unit}
    (h : requireFlashIdentity binding = .ok u) : binding.flashIdentity.isSome = true :=
  Option.isSome_iff_ne_none.mpr (reject_ok.mp h)

theorem layout_eq_ok {α : Type} {r : Except FlashLayoutError α} {v : α}
    (h : Bus.layout r = .ok v) : r = .ok v := by
  cases r with
  | error e => cases h
  | ok v' =>
      cases h
      rfl

theorem qualifiedBpioGeometry_configured {config : Bpio2Config} {geometry : FlashGeometry}
    (h : qualifiedBpioGeometry config = .ok geometry) : ∃ capacity page erase,
      config.flashCapacityBytes = some capacity ∧ config.flashPageBytes = some page ∧
      config.flashEraseBytes = some erase ∧
      FlashGeometry.tryNew capacity page erase
        (if config.flashFourByteAddressing then .fourByte else .threeByte) = .ok geometry := by
  unfold qualifiedBpioGeometry at h
  obtain ⟨_, _, _, _, _, _, _, capacity, page, erase, _⟩ := config
  cases capacity with
  | none => cases h
  | some capacity =>
      cases page with
      | none => cases h
      | some page =>
          cases erase with
          | none => cases h
          | some erase => exact ⟨capacity, page, erase, rfl, rfl, rfl, layout_eq_ok h⟩

/-- The geometry that preflight accepts is the one the bus uses. -/
theorem qualifiedBpioGeometry_ok {binding : DeviceBinding} {config : Bpio2Config}
    {geometry : FlashGeometry} (hconfig : binding.config = .bpio2 config)
    (h : qualifiedBpioGeometry config = .ok geometry) :
    Bus.qualifiedFlashGeometry binding = .ok (.of geometry) := by
  obtain ⟨capacity, page, erase, hcapacity, hpage, herase, hgeometry⟩ :=
    qualifiedBpioGeometry_configured h
  unfold Bus.qualifiedFlashGeometry Bus.bpioConfig
  simp only [bind, Except.bind, hconfig, hcapacity, hpage, herase, Bus.addressModeOf, hgeometry]

theorem simulatorRange_ok {flashBytes : ℕ} {offset : UInt64} {length : UInt32} {u : Unit}
    (h : simulatorRange flashBytes offset length = .ok u) :
    offset.toNat + length.toNat ≤ flashBytes ∧ flashBytes < 2 ^ 64 := by
  unfold simulatorRange at h
  obtain ⟨capacity, hcapacity, h⟩ := except_bind_ok.mp h
  unfold u64OfUsize at hcapacity
  split_ifs at hcapacity with hlt
  cases hcapacity
  unfold u64CheckedAdd at h
  rw [UInt32.toNat_toUInt64] at h
  split_ifs at h with hsum
  · have hle := reject_ok.mp h
    rw [UInt64.lt_iff_toNat_lt, UInt64.toNat_ofNat_of_lt' hlt, UInt64.toNat_add,
      UInt32.toNat_toUInt64, Nat.mod_eq_of_lt hsum] at hle
    exact ⟨Nat.not_lt.mp hle, hlt⟩

/-! ### What preflight accepts -/

section accepted

variable [Crates] {binding : DeviceBinding} {artifacts : ArtifactResolver} {operation : Operation}
  {u : Unit}

theorem exactSource_ok {source : ArtifactDigest} {length : UInt32}
    (h : exactSource artifacts source length = .ok u) :
    ∃ bytes, sourceBytes artifacts source length = .ok bytes := by
  obtain ⟨bytes, hbytes, _⟩ := except_bind_ok.mp h
  exact ⟨bytes, hbytes⟩

section bpio

variable {config : Bpio2Config} (hconfig : binding.config = .bpio2 config)

include hconfig

omit [Crates] in
theorem spiSpeed_eq : Bus.spiSpeed binding = config.spiHz := by
  simp only [Bus.spiSpeed, Bus.configuredSpeed, Bus.bpioConfig, hconfig]

omit [Crates] in
theorem i2cSpeed_eq : Bus.i2cSpeed binding = config.i2cHz := by
  simp only [Bus.i2cSpeed, Bus.configuredSpeed, Bus.bpioConfig, hconfig]

omit [Crates] in
theorem uartSpeed_eq : Bus.uartSpeed binding = config.uartBaud := by
  simp only [Bus.uartSpeed, Bus.configuredSpeed, Bus.bpioConfig, hconfig]

omit [Crates] in
/-- The checks before a range of the flash is touched. -/
theorem flashReady {geometry : FlashGeometry} {offset : UInt64} {length : UInt32} {kind : String}
    {a b c : Unit} (hspeed : config.spiHz ≠ 0)
    (hgeometry : qualifiedBpioGeometry config = .ok geometry)
    (hbounded : boundedCapture length kind = .ok a) (hidentity : requireFlashIdentity binding = .ok b)
    (hrange : geometry.validateRange offset length = .ok c) :
    FlashReady binding offset length geometry where
  speed := spiSpeed_eq hconfig ▸ hspeed
  qualified := qualifiedBpioGeometry_ok hconfig hgeometry
  identity := requireFlashIdentity_ok hidentity
  bounded := boundedCapture_ok hbounded
  range := hrange

theorem validateBpioCandidate_checks {offset : UInt64} {source : ArtifactDigest} {length : UInt32}
    (hspeed : config.spiHz ≠ 0)
    (h : validateBpioCandidate binding config artifacts offset source length = .ok u) :
    ∃ geometry, FlashReady binding offset length geometry ∧
      ∃ bytes, sourceBytes artifacts source length = .ok bytes := by
  obtain ⟨geometry, hgeometry, h⟩ := except_bind_ok.mp h
  obtain ⟨_, _, h⟩ := except_bind_ok.mp h
  obtain ⟨_, hbounded, h⟩ := except_bind_ok.mp h
  obtain ⟨_, hidentity, h⟩ := except_bind_ok.mp h
  obtain ⟨_, hrange, h⟩ := except_bind_ok.mp h
  exact ⟨geometry, flashReady hconfig hspeed hgeometry hbounded hidentity (layout_eq_ok hrange),
    exactSource_ok h⟩

theorem validateBpioOperation_checks
    (hspeeds : config.spiHz ≠ 0 ∧ config.i2cHz ≠ 0 ∧ config.uartBaud ≠ 0)
    (h : validateBpioOperation binding config artifacts operation = .ok u) :
    BpioChecks binding config artifacts operation ∧
      supports (.bpio2 config) operation = true := by
  obtain ⟨hspi, hi2c, huart⟩ := hspeeds
  have hspi' := spiSpeed_eq hconfig ▸ hspi
  have hi2c' := i2cSpeed_eq hconfig ▸ hi2c
  have huart' := uartSpeed_eq hconfig ▸ huart
  cases operation with
  | instrumentStatus => exact ⟨trivial, rfl⟩
  | spiTransfer target instrument tx rxBytes =>
      obtain ⟨_, _, h⟩ := except_bind_ok.mp h
      obtain ⟨_, _, h⟩ := except_bind_ok.mp h
      exact ⟨⟨hspi', boundedOptionalCapture_ok h⟩, rfl⟩
  | i2cTransfer target instrument address tx rxBytes =>
      obtain ⟨_, haddress, h⟩ := except_bind_ok.mp h
      obtain ⟨_, _, h⟩ := except_bind_ok.mp h
      obtain ⟨_, _, h⟩ := except_bind_ok.mp h
      obtain ⟨_, hbounded, h⟩ := except_bind_ok.mp h
      have hlengths := not_or.mp (reject_ok.mp h)
      refine ⟨⟨reject_ok.mp haddress, hi2c', boundedOptionalCapture_ok hbounded,
        u16TryFrom_of_le fun hlt => hlengths.2 ?_⟩, rfl⟩
      exact UInt32.lt_iff_toNat_lt.mp hlt
  | i2cScan => exact ⟨hi2c', rfl⟩
  | uartCapture target instrument maxBytes => exact ⟨⟨huart', boundedCapture_ok h⟩, rfl⟩
  | uartTransmit => exact ⟨huart', rfl⟩
  | gpioSet target instrument pin high =>
      obtain ⟨pin', hpin, h⟩ := except_bind_ok.mp h
      obtain ⟨hlt, hmem⟩ := not_or.mp (reject_ok.mp h)
      exact ⟨⟨pin', hpin, hlt, not_not.mp hmem⟩, rfl⟩
  | adcRead => exact ⟨trivial, rfl⟩
  | psuSet target instrument millivolts milliamps =>
      obtain ⟨hvolts, hrest⟩ := not_or.mp (reject_ok.mp h)
      obtain ⟨hamps, hwide⟩ := not_or.mp hrest
      exact ⟨⟨not_or.mpr ⟨hvolts, hamps⟩, u16TryFrom_of_le hwide⟩, rfl⟩
  | flashIdentify => exact ⟨hspi', rfl⟩
  | flashRead target instrument offset length =>
      obtain ⟨geometry, hgeometry, h⟩ := except_bind_ok.mp h
      obtain ⟨_, hbounded, h⟩ := except_bind_ok.mp h
      obtain ⟨_, hidentity, h⟩ := except_bind_ok.mp h
      exact ⟨⟨geometry, flashReady hconfig hspi hgeometry hbounded hidentity (layout_eq_ok h)⟩, rfl⟩
  | flashErase target instrument offset length =>
      obtain ⟨geometry, hgeometry, h⟩ := except_bind_ok.mp h
      obtain ⟨_, _, h⟩ := except_bind_ok.mp h
      obtain ⟨_, hbounded, h⟩ := except_bind_ok.mp h
      obtain ⟨_, hidentity, h⟩ := except_bind_ok.mp h
      have herase := layout_eq_ok h
      obtain ⟨_, hrange, _⟩ := except_bind_ok.mp herase
      exact ⟨⟨geometry, flashReady hconfig hspi hgeometry hbounded hidentity hrange, herase⟩, rfl⟩
  | flashWrite => exact ⟨validateBpioCandidate_checks hconfig hspi h, rfl⟩
  | flashVerify => exact ⟨validateBpioCandidate_checks hconfig hspi h, rfl⟩
  | _ => cases h

theorem validateBpio_checks (h : validateBpio binding config operation artifacts = .ok u) :
    BpioChecks binding config artifacts operation ∧
      supports (.bpio2 config) operation = true := by
  obtain ⟨_, hspeeds, h⟩ := except_bind_ok.mp h
  obtain ⟨_, _, h⟩ := except_bind_ok.mp h
  obtain ⟨hspi, hrest⟩ := not_or.mp (reject_ok.mp hspeeds)
  exact validateBpioOperation_checks hconfig ⟨hspi, not_or.mp hrest⟩ h

end bpio

omit [Crates] in
theorem validateRelay_ok {config : NumatoConfig} {relay : UInt16}
    (h : validateRelay config relay = .ok u) : ∃ relay', u8TryFrom relay = .ok relay' ∧
      ¬ 4 ≤ relay' ∧ relay' ∈ config.relayMap.values := by
  obtain ⟨relay', hrelay, h⟩ := except_bind_ok.mp h
  obtain ⟨hlt, hmem⟩ := not_or.mp (reject_ok.mp h)
  exact ⟨relay', hrelay, hlt, not_not.mp hmem⟩

omit [Crates] in
theorem validateNumato_checks {config : NumatoConfig}
    (h : validateNumato config operation = .ok u) :
    NumatoChecks config operation ∧ supports (.numato config) operation = true := by
  obtain ⟨_, _, h⟩ := except_bind_ok.mp h
  cases operation with
  | instrumentStatus => exact ⟨trivial, rfl⟩
  | relaySet => exact ⟨validateRelay_ok h, rfl⟩
  | relayRead => exact ⟨validateRelay_ok h, rfl⟩
  | _ => cases h

theorem validateSimulatorCandidate_checks {flashBytes : ℕ} {offset : UInt64}
    {source : ArtifactDigest} {length : UInt32}
    (h : validateSimulatorCandidate flashBytes artifacts offset source length = .ok u) :
    offset.toNat + length.toNat ≤ flashBytes ∧ flashBytes < 2 ^ 64 ∧
      ∃ bytes, sourceBytes artifacts source length = .ok bytes := by
  obtain ⟨_, _, h⟩ := except_bind_ok.mp h
  obtain ⟨_, _, h⟩ := except_bind_ok.mp h
  obtain ⟨_, hrange, h⟩ := except_bind_ok.mp h
  obtain ⟨hle, hlt⟩ := simulatorRange_ok hrange
  exact ⟨hle, hlt, exactSource_ok h⟩

theorem validateSimulator_checks {config : SimulatorConfig}
    (h : validateSimulator config.flashBytes operation artifacts = .ok u) :
    SimulatorChecks config.flashBytes artifacts operation ∧
      supports (.simulator config) operation = true := by
  obtain ⟨_, _, h⟩ := except_bind_ok.mp h
  cases operation with
  | instrumentStatus => exact ⟨trivial, rfl⟩
  | flashIdentify => exact ⟨trivial, rfl⟩
  | relaySet target instrument relay closed =>
      exact ⟨UInt16.lt_iff_toNat_lt.mp (UInt16.not_le.mp (reject_ok.mp h)), rfl⟩
  | relayRead target instrument relay =>
      exact ⟨UInt16.lt_iff_toNat_lt.mp (UInt16.not_le.mp (reject_ok.mp h)), rfl⟩
  | flashRead target instrument offset length =>
      obtain ⟨_, _, h⟩ := except_bind_ok.mp h
      exact ⟨simulatorRange_ok h, rfl⟩
  | flashErase target instrument offset length =>
      obtain ⟨_, _, h⟩ := except_bind_ok.mp h
      obtain ⟨_, _, h⟩ := except_bind_ok.mp h
      exact ⟨simulatorRange_ok h, rfl⟩
  | flashWrite => exact ⟨validateSimulatorCandidate_checks h, rfl⟩
  | flashVerify => exact ⟨validateSimulatorCandidate_checks h, rfl⟩
  | _ => cases h

theorem validateVideo_supports {config : VideoConfig}
    (h : validateVideo config operation = .ok u) : supports (.video config) operation = true := by
  obtain ⟨_, _, h⟩ := except_bind_ok.mp h
  obtain ⟨_, _, h⟩ := except_bind_ok.mp h
  cases operation with
  | instrumentStatus => rfl
  | videoCapture => rfl
  | _ => cases h

end accepted

end Preflight

end Cheirismos
