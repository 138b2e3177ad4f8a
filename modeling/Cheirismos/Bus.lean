import Cheirismos.Bpio2
import Cheirismos.Flash

/-! # Bus Pirate operations

`service/backend/bus.rs`: the operations of a plan over the BPIO2 adapter.

* Loops over chunks, reads and pages recurse on what remains.
* `wait_busy_clear` polls until the flash is no longer busy or the deadline of the operation drops
  it.  `patience` is the number of polls made before that, for every wait of the operation.
* `execute` is `bus::execute`.  Its raw operations share `rawOperation`, and the operations that
  need limits share `configured`; writing and verifying flash are `candidateOperation`.

A result carries the JSON body of the observation, the captured bytes, and the reason why the
result is not the requested one. -/

namespace Cheirismos

open Process

structure ResultData where
  body : Value
  bytes : Option Bytes
  /-- The field `partial`. -/
  shortfall : Option String

namespace ResultData

def observation (body : Value) : ResultData := ⟨body, none, none⟩

def ofBytes (bytes : Bytes) (body : Value) : ResultData := ⟨body, some bytes, none⟩

end ResultData

def maxEvidenceBytes : ℕ := 64 * 1024 * 1024

/-- `source_bytes`. -/
def sourceBytes [Platform] (artifacts : ArtifactResolver) (digest : ArtifactDigest)
    (length : UInt32) : Except BackendError Bytes :=
  match artifacts digest with
  | .error error => .error (.transport error.toString)
  | .ok artifact =>
      if artifact.bytes.length ≠ length.toNat ∨ maxEvidenceBytes < artifact.bytes.length then
        .error (malformed "candidate artifact length must exactly match planned region")
      else .ok artifact.bytes

/-- A source has exactly the planned length. -/
theorem sourceBytes_length [Platform] {artifacts : ArtifactResolver} {digest : ArtifactDigest}
    {length : UInt32} {bytes : Bytes} (h : sourceBytes artifacts digest length = .ok bytes) :
    bytes.length = length.toNat := by
  unfold sourceBytes at h
  split at h
  · cases h
  · split_ifs at h with hlength
    cases h
    exact not_not.mp (not_or.mp hlength).1

namespace Bus

def spiMode : String := "SPI"
def i2cMode : String := "I2C"
def uartMode : String := "UART"

/-! ### Limits -/

/-- What one transfer can carry; `from_discovery` refuses zero. -/
structure Limits where
  write : ℕ
  read : ℕ
  write_pos : 0 < write
  read_pos : 0 < read
  write_le : write < 2 ^ 16
  read_le : read < 2 ^ 16

def Limits.fromDiscovery (discovery : Bpio2Discovery) : Except BackendError Limits :=
  let write := min discovery.maxWriteBytes.toNat 65535
  let read := min discovery.maxReadBytes.toNat 65535
  if h : write = 0 ∨ read = 0 then
    .error (malformed "Bus Pirate reported a zero transfer limit")
  else .ok {
    write := write
    read := read
    write_pos := Nat.pos_of_ne_zero (not_or.mp h).1
    read_pos := Nat.pos_of_ne_zero (not_or.mp h).2
    write_le := lt_of_le_of_lt (min_le_right _ _) (by decide)
    read_le := lt_of_le_of_lt (min_le_right _ _) (by decide) }

/-! ### Bodies of results -/

def statusBody (discovery : Bpio2Discovery) (reconcile : Bool) : Value :=
  .json [("mode", .option discovery.modeCurrent),
    ("max_write_bytes", .nat discovery.maxWriteBytes.toNat),
    ("max_read_bytes", .nat discovery.maxReadBytes.toNat),
    ("psu_enabled", .bool discovery.psuEnabled),
    ("psu_set_millivolts", .nat discovery.psuSetMillivolts.toNat),
    ("psu_set_milliamps", .nat discovery.psuSetMilliamps.toNat),
    ("adc_millivolts", .array (discovery.adcMillivolts.map fun mv => .nat mv.toNat)),
    ("gpio_value", .nat discovery.ioValue.toNat),
    ("reconciliation", .bool reconcile),
    ("proves_original_actuation", .bool false),
    ("instrument_configuration_applied", .bool false)]

def withBytes [Platform] (body : Value) (bytes : Bytes) (field : String) : ResultData :=
  .ofBytes bytes (((body.insert "capture_kind" (.string field)).insert "capture_bytes"
    (.nat bytes.length)).insert "capture_digest" (.digest (Platform.sha256 bytes)))

def configurationApplied (body : Value) : Value :=
  body.insert "instrument_configuration_applied" (.bool true)

def uartResult [Platform] (body : Value) (bytes : Bytes) (requested : UInt32) (field : String) :
    ResultData :=
  { withBytes body bytes field with
    shortfall := if bytes.length < requested.toNat then
      some ("UART capture returned " ++ toString bytes.length ++
        " bytes before the requested upper bound " ++ toString requested)
    else none }

def unknownRaw (base : Value) (reason : String) : ResultData := ⟨base, none, some reason⟩

def modeUnavailable (base : Value) (mode : String) : ResultData :=
  ⟨base.merge (.json [("required_mode", .string mode)]), none,
    some "instrument configuration was not applied; status cannot prove required bus settings"⟩

/-! ### Configuration of the binding -/

def bpioConfig (binding : DeviceBinding) : Except BackendError Bpio2Config :=
  match binding.config with
  | .bpio2 config => .ok config
  | _ => .error (malformed "Bus Pirate adapter configuration mismatch")

/-- A speed of the binding, zero for another kind of instrument. -/
def configuredSpeed (binding : DeviceBinding) (speed : Bpio2Config → UInt32) : UInt32 :=
  match bpioConfig binding with
  | .ok config => speed config
  | .error _ => 0

def spiSpeed (binding : DeviceBinding) : UInt32 := configuredSpeed binding Bpio2Config.spiHz
def i2cSpeed (binding : DeviceBinding) : UInt32 := configuredSpeed binding Bpio2Config.i2cHz
def uartSpeed (binding : DeviceBinding) : UInt32 := configuredSpeed binding Bpio2Config.uartBaud

structure FlashProfile where
  geometry : FlashGeometry
  mode : AddressMode
  pageBytes : UInt32
  eraseBytes : UInt32
  mode_eq : mode = geometry.addressMode
  page_eq : pageBytes = geometry.pageBytes
  erase_eq : eraseBytes = geometry.eraseBytes

/-- The profile of an accepted geometry. -/
def FlashProfile.of (geometry : FlashGeometry) : FlashProfile :=
  ⟨geometry, geometry.addressMode, geometry.pageBytes, geometry.eraseBytes, rfl, rfl, rfl⟩

def addressModeOf (config : Bpio2Config) : AddressMode :=
  if config.flashFourByteAddressing then .fourByte else .threeByte

def qualifiedFlashGeometry (binding : DeviceBinding) : Except BackendError FlashProfile := do
  let config ← bpioConfig binding
  match config.flashCapacityBytes, config.flashPageBytes, config.flashEraseBytes with
  | some capacity, some page, some erase =>
      match FlashGeometry.tryNew capacity page erase (addressModeOf config) with
      | .ok geometry => .ok (.of geometry)
      | .error error => .error (malformed error.toString)
  | _, _, _ =>
      .error (malformed "flash requires commissioned capacity, page, and erase geometry")

/-! ### Checks -/

def requireConfigurationEffect (configureInstrument : Bool) : Except BackendError Unit :=
  if configureInstrument then .ok ()
  else .error (malformed "normal bus operation requires reviewed InstrumentConfigure authority")

def boundedCapture (length : UInt32) : Except BackendError Unit :=
  if maxEvidenceBytes < length.toNat then
    .error (malformed "requested capture exceeds evidence size limit")
  else .ok ()

def modeCurrent (discovery : Bpio2Discovery) (expected : String) : Bool :=
  discovery.modeCurrent.any (Bpio2Adapter.eqIgnoreAsciiCase · expected)

/-- A flash layout error as the backend reports it. -/
def layout {α : Type} (result : Except FlashLayoutError α) : Except BackendError α :=
  result.mapError fun error => malformed error.toString

/-! ### Bus operations -/

section operations

variable [Crates]

/-- An operation over the adapter. -/
abbrev Session (α : Type) := Action hardware Bpio2Adapter BackendError α

/-- An operation of the adapter, its errors reported as transport errors. -/
def linked {α : Type} (x : Bpio2Adapter.Link α) : Session α := Action.failing transport x

def ensureMode (mode : String) (speed : UInt32) : Session Limits := do
  Action.refuse (speed = 0) (malformed "configured bus speed must be non-zero")
  linked (Bpio2Adapter.configureMode mode { ModeConfig.preset with speed := speed })
  let refreshed ← linked Bpio2Adapter.identify
  Action.refuse (modeCurrent refreshed mode = false)
    (malformed "Bus Pirate did not enter requested mode")
  Action.result (Limits.fromDiscovery refreshed)

/-- Apply the mode when configuring is allowed. -/
def modeLimits (mode : String) (speed : UInt32) (configureInstrument : Bool) :
    Session (Option Limits) :=
  if configureInstrument then do
    let limits ← ensureMode mode speed
    return some limits
  else return none

def flashLimits (binding : DeviceBinding) (configureInstrument : Bool) :
    Session (Option Limits) := modeLimits spiMode (spiSpeed binding) configureInstrument

def transferChunk (write : Bytes) (readBytes : ℕ) (start stop : Bool) : Session Bytes := do
  let count ← Action.result (u16OfUsize readBytes)
  linked (Bpio2Adapter.transfer write count start stop)

/-- `slice::chunks`. -/
def chunks (size : ℕ) (bytes : Bytes) : List Bytes :=
  if bytes ≠ [] ∧ 0 < size then bytes.take size :: chunks size (bytes.drop size) else []
termination_by bytes.length
decreasing_by
  next h =>
    rw [List.length_drop]
    have := List.length_pos_of_ne_nil h.1
    omega

/-- Write the chunks; the first transfer of the transaction starts it. -/
def spiWrites (started : Bool) : List Bytes → Session Bool
  | [] => return started
  | chunk :: rest => do
      let _ ← linked (Bpio2Adapter.transfer chunk 0 (!started) false)
      spiWrites true rest

/-- Read what remains; the last transfer stops the transaction. -/
def spiReads (limits : Limits) (started : Bool) (received : Bytes) (remaining : ℕ) :
    Session (Bool × Bytes) :=
  if 0 < remaining then do
    let count := min remaining limits.read
    let bytes ← transferChunk [] count (!started) (decide (count = remaining))
    spiReads limits true (received ++ bytes) (remaining - count)
  else return (started, received)
termination_by remaining
decreasing_by
  have := limits.read_pos
  omega

def spiTransfer (tx : Bytes) (rxBytes : UInt32) (limits : Limits) : Session Bytes := do
  Action.result (boundedCapture rxBytes)
  let started ← spiWrites false (chunks limits.write tx)
  let (started, received) ← spiReads limits started [] rxBytes.toNat
  Action.when (decide (rxBytes = 0) && started) do
    let _ ← linked (Bpio2Adapter.transfer [] 0 false true)
    return ()
  return received

def i2cWriteAddress (address : UInt8) : UInt8 := address <<< 1
def i2cReadAddress (address : UInt8) : UInt8 := address <<< 1 ||| 1

def i2cTransfer (address : UInt8) (tx : Bytes) (rxBytes : UInt32) (limits : Limits) :
    Session Bytes := do
  Action.result (boundedCapture rxBytes)
  Action.refuse (limits.write < tx.length + 1 ∨ limits.read < rxBytes.toNat)
    (malformed "I2C transaction exceeds one BPIO2 request; splitting would change restart semantics")
  let count ← Action.result (u16TryFrom rxBytes)
  linked (Bpio2Adapter.transfer (i2cWriteAddress address :: tx) count true true)

/-- `str::contains`. -/
def contains (text pattern : List Char) : Bool := text.tails.any pattern.isPrefixOf

def isI2cNack (detail : String) : Bool :=
  let detail := detail.toList.map Char.toLower
  contains detail "nack".toList || contains detail "not acknowledged".toList

/-- What the write and the read probe of an address say about it. -/
def probed (write read : Except InstrumentError Bytes) : Except BackendError Bool :=
  match write, read with
  | .ok _, _ | _, .ok _ => .ok true
  | .error (.deviceRejected write), .error (.deviceRejected read) =>
      if isI2cNack write && isI2cNack read then .ok false
      else .error (transport (.deviceRejected write))
  | .error (.deviceRejected _), .error error => .error (transport error)
  | .error error, _ => .error (transport error)

def i2cProbes (found : Bytes) : List UInt8 → Session Bytes
  | [] => return found
  | address :: addresses => do
      let write ← Action.outcome (Bpio2Adapter.transfer [i2cWriteAddress address] 0 true true)
      let read ← Action.outcome (Bpio2Adapter.transfer [i2cReadAddress address] 1 true true)
      let present ← Action.result (probed write read)
      i2cProbes (if present then found ++ [address] else found) addresses

/-- `0x08..=0x77`. -/
def i2cAddresses : List UInt8 := (List.range' 0x08 0x70).map UInt8.ofNat

def i2cScan (limits : Limits) : Session Bytes := do
  Action.refuse (limits.write < 1) (malformed "Bus Pirate cannot send I2C address byte")
  i2cProbes [] i2cAddresses

def uartCaptureLoop (limits : Limits) (bytes : Bytes) (remaining : ℕ) : Session Bytes :=
  if 0 < remaining then do
    let requested := min remaining limits.read
    let count ← Action.result (u16OfUsize requested)
    let received ← linked (Bpio2Adapter.transferUpTo [] count false false)
    if received.length < requested then return bytes ++ received
    else uartCaptureLoop limits (bytes ++ received) (remaining - requested)
  else return bytes
termination_by remaining
decreasing_by
  have := limits.read_pos
  omega

def uartCapture (maxBytes : UInt32) (limits : Limits) : Session Bytes := do
  Action.result (boundedCapture maxBytes)
  uartCaptureLoop limits [] maxBytes.toNat

def uartWrites : List Bytes → Session Unit
  | [] => return ()
  | chunk :: rest => do
      let _ ← linked (Bpio2Adapter.transfer chunk 0 false false)
      uartWrites rest

def uartTransmit (bytes : Bytes) (limits : Limits) : Session Unit :=
  uartWrites (chunks limits.write bytes)

/-! ### Flash -/

def identifyFlash (limits : Limits) : Session ((UInt8 × UInt8 × UInt8) × Bytes) := do
  let response ← spiTransfer [0x9f] 3 limits
  let jedec ← Action.result (match response with
    | [a, b, c] => .ok (a, b, c)
    | _ => .error (malformed "JEDEC response must be exactly three bytes"))
  Action.refuse (limits.write < 5) (malformed "Bus Pirate SPI write limit cannot carry SFDP command")
  let sfdp ← spiTransfer [0x5a, 0, 0, 0, 0] 256 limits
  return (jedec, sfdp)

def verifyFlashIdentity (binding : DeviceBinding) (limits : Limits) : Session Unit := do
  let expected ← Action.result (match binding.flashIdentity with
    | some identity => .ok identity
    | none => .error (malformed "flash operation requires commissioned JEDEC and SFDP identity"))
  let (jedec, sfdp) ← identifyFlash limits
  Action.refuse (jedec ≠ expected.jedecId ∨ Platform.sha256 sfdp ≠ expected.sfdpDigest)
    (malformed "connected flash JEDEC/SFDP identity differs from commissioned binding")

def address (mode : AddressMode) (offset : UInt64) : Bytes :=
  match mode with
  | .threeByte => [(offset >>> 16).toUInt8, (offset >>> 8).toUInt8, offset.toUInt8]
  | .fourByte =>
      [(offset >>> 24).toUInt8, (offset >>> 16).toUInt8, (offset >>> 8).toUInt8, offset.toUInt8]

/-- The read, program and erase opcodes. -/
def opcodes : AddressMode → UInt8 × UInt8 × UInt8
  | .threeByte => (0x03, 0x02, 0x20)
  | .fourByte => (0x13, 0x12, 0x21)

/-- `checked_add` of an offset, and the error when it overflows. -/
def checkedOffset (offset : UInt64) (relative : ℕ) (message : String) :
    Except BackendError UInt64 :=
  match u64CheckedAdd offset (UInt64.ofNat relative) with
  | some absolute => .ok absolute
  | none => .error (malformed message)

def flashReadLoop (profile : FlashProfile) (limits : Limits) (cursor : UInt64) (bytes : Bytes)
    (remaining : ℕ) : Session Bytes :=
  if 0 < remaining then do
    let count := min remaining limits.read
    let read ← transferChunk ((opcodes profile.mode).1 :: address profile.mode cursor) count true true
    let cursor ← Action.result (checkedOffset cursor count "flash read offset overflow")
    flashReadLoop profile limits cursor (bytes ++ read) (remaining - count)
  else return bytes
termination_by remaining
decreasing_by
  have := limits.read_pos
  omega

def flashRead (profile : FlashProfile) (offset : UInt64) (length : UInt32) (limits : Limits) :
    Session Bytes := do
  Action.result (boundedCapture length)
  Action.result (layout (profile.geometry.validateRange offset length))
  Action.refuse (limits.write < (if profile.mode = .threeByte then 3 else 4) + 1)
    (malformed "Bus Pirate SPI write limit cannot carry flash read command")
  flashReadLoop profile limits offset [] length.toNat

def writeEnable : Session Unit := do
  let _ ← linked (Bpio2Adapter.transfer [0x06] 0 true true)
  let status ← linked (Bpio2Adapter.transfer [0x05] 1 true true)
  Action.refuse (status.head?.all (fun status => status &&& 0x02 = 0) = true)
    (malformed "flash did not assert WEL after WREN")

/-- The operation's deadline has dropped it. -/
def deadlineExpired : BackendError :=
  .timeout "operation deadline expired; session discarded, effect may be incomplete"

/-- Poll until the flash is not busy, or until the deadline. -/
def waitBusyClear : ℕ → Session Unit
  | 0 => throw deadlineExpired
  | patience + 1 => do
      let status ← linked (Bpio2Adapter.transfer [0x05] 1 true true)
      if status.head?.any (fun status => status &&& 0x01 = 0) then return ()
      else waitBusyClear patience

/-- Enable writing, send the command, and wait for its end. -/
def mutate (patience : ℕ) (command : Bytes) : Session Unit := do
  let _ ← linked (Bpio2Adapter.transfer command 0 true true)
  waitBusyClear patience

def flashEraseLoop (patience : ℕ) (profile : FlashProfile) (offset : UInt64) :
    List ℕ → Session Unit
  | [] => return ()
  | relative :: rest => do
      writeEnable
      let absolute ← Action.result (checkedOffset offset relative "flash erase offset overflow")
      mutate patience ((opcodes profile.mode).2.2 :: address profile.mode absolute)
      flashEraseLoop patience profile offset rest

def flashErase (patience : ℕ) (profile : FlashProfile) (offset : UInt64) (length : UInt32)
    (limits : Limits) : Session Unit := do
  Action.result (layout (profile.geometry.validateErase offset length))
  Action.refuse (limits.write < 1 + (address profile.mode offset).length)
    (malformed "Bus Pirate SPI write limit cannot carry flash erase command")
  flashEraseLoop patience profile offset (steps profile.eraseBytes.toNat length.toNat 0)

/-- A positive number of payload bytes. -/
def flashProgramPayloadLimit (limits : Limits) (overhead : ℕ) :
    Except BackendError { payload : ℕ // 0 < payload } :=
  if limits.write < overhead then
    .error (malformed "Bus Pirate SPI write limit cannot carry flash program command")
  else if h : limits.write - overhead = 0 then
    .error (malformed "Bus Pirate SPI write limit leaves no flash program payload bytes")
  else .ok ⟨limits.write - overhead, Nat.pos_of_ne_zero h⟩

omit [Crates] in
theorem FlashProfile.page_ne_zero (profile : FlashProfile) : profile.pageBytes ≠ 0 :=
  profile.page_eq ▸ profile.geometry.page_ne_zero

/-- The bytes of the next program command. -/
def programCount (profile : FlashProfile) (payload : ℕ) (absolute : UInt64) (left : ℕ) : ℕ :=
  min (NorPlan.pageRemaining profile.pageBytes absolute) (min payload left)

omit [Crates] in
theorem programCount_pos (profile : FlashProfile) {payload left : ℕ} (hpayload : 0 < payload)
    (absolute : UInt64) (hleft : 0 < left) : 0 < programCount profile payload absolute left :=
  Nat.lt_min.mpr ⟨NorPlan.pageRemaining_pos profile.page_ne_zero absolute,
    Nat.lt_min.mpr ⟨hpayload, hleft⟩⟩

def flashWriteLoop (patience : ℕ) (profile : FlashProfile) (offset : UInt64) (bytes : Bytes)
    (payload : { payload : ℕ // 0 < payload }) (cursor : ℕ) : Session Unit :=
  if hcursor : cursor < bytes.length then do
    let absolute ← Action.result (checkedOffset offset cursor "flash program offset overflow")
    let count := programCount profile payload.1 absolute (bytes.length - cursor)
    have : 0 < count := programCount_pos profile payload.2 absolute (Nat.sub_pos_of_lt hcursor)
    writeEnable
    mutate patience ((opcodes profile.mode).2.1 :: (address profile.mode absolute ++
      (bytes.drop cursor).take count))
    flashWriteLoop patience profile offset bytes payload (cursor + count)
  else return ()
termination_by bytes.length - cursor
decreasing_by omega

def flashWrite (patience : ℕ) (profile : FlashProfile) (offset : UInt64) (bytes : Bytes)
    (limits : Limits) : Session Unit := do
  let length ← Action.result (u32OfUsize bytes.length)
  Action.result (layout (profile.geometry.validateRange offset length))
  let payload ← Action.result
    (flashProgramPayloadLimit limits (1 + (address profile.mode offset).length))
  flashWriteLoop patience profile offset bytes payload 0

/-! ### The operations of a plan -/

/-- Run with the limits of the mode; without them, only say so. -/
def configured (mode : String) (limits : Session (Option Limits)) (base : Value)
    (run : Limits → Session ResultData) : Session ResultData := do
  let limits ← limits
  match limits with
  | none => return modeUnavailable base mode
  | some limits => run limits

/-- The read-back of a flash operation, with the difference it shows. -/
def readback (base : Value) (additions : List (String × Value)) (actual : Bytes)
    (field : String) (asRequested : Bool) (reason : String) : ResultData :=
  { withBytes ((configurationApplied base).merge (.json additions)) actual field with
    shortfall := if asRequested then none else some reason }

/-- The observation after a GPIO request. -/
def gpioResult (observed : Bpio2Discovery) (reconcile : Bool) (pin : UInt8) (high : Bool) :
    ResultData :=
  let actual := decide (observed.ioValue &&& (1 <<< pin) ≠ 0)
  { ResultData.observation ((statusBody observed reconcile).merge (.json
      [("gpio_pin", .nat pin.toNat), ("requested_high", .bool high),
        ("observed_high", .bool actual)])) with
    shortfall := if actual ≠ high then some "GPIO status differs from requested state" else none }

/-- The observation after a power supply request. -/
def psuResult (observed : Bpio2Discovery) (reconcile : Bool) (millivolts : UInt32)
    (milliamps : UInt16) : ResultData :=
  let expectedEnabled := decide (millivolts ≠ 0) || decide (milliamps ≠ 0)
  let asRequested := decide (observed.psuEnabled = expectedEnabled) &&
    (!expectedEnabled || (decide (observed.psuSetMillivolts = millivolts) &&
      decide (observed.psuSetMilliamps = milliamps.toUInt32)))
  { ResultData.observation ((statusBody observed reconcile).merge (.json
      [("psu_requested_millivolts", .nat millivolts.toNat),
        ("psu_requested_milliamps", .nat milliamps.toNat),
        ("psu_matches_request", .bool asRequested)])) with
    shortfall := if asRequested then none else some "PSU status differs from requested state" }

/-- Write the candidate when asked to, and compare the flash with it. -/
def candidateOperation (patience : ℕ) (binding : DeviceBinding) (artifacts : ArtifactResolver)
    (base : Value) (reconcile configureInstrument writes : Bool) (offset : UInt64)
    (source : ArtifactDigest) (length : UInt32) : Session ResultData := do
  let profile ← Action.result (qualifiedFlashGeometry binding)
  let candidate ← Action.result (sourceBytes artifacts source length)
  Action.when (!reconcile) (Action.result (requireConfigurationEffect configureInstrument))
  configured spiMode (flashLimits binding configureInstrument) base fun limits => do
    verifyFlashIdentity binding limits
    Action.when (writes && !reconcile) (flashWrite patience profile offset candidate limits)
    let actual ← flashRead profile offset length limits
    let asRequested := decide (actual = candidate)
    return readback base [("flash_offset", .nat offset.toNat), ("candidate", .digest source),
      ("matches_candidate", .bool asRequested),
      ("readback_digest", .digest (Platform.sha256 actual))] actual "flash_verify_readback"
      asRequested "flash readback differs from verified candidate artifact"

/-- A raw operation: its effect cannot be observed afterwards, so reconciling it does nothing. -/
def rawOperation (mode : String) (speed : UInt32) (base : Value) (reason : String)
    (reconcile configureInstrument : Bool) (run : Limits → Session ResultData) :
    Session ResultData :=
  if reconcile then return unknownRaw base reason
  else do
    Action.result (requireConfigurationEffect configureInstrument)
    let limits ← ensureMode mode speed
    run limits

def execute (patience : ℕ) (binding : DeviceBinding) (operation : Operation)
    (artifacts : ArtifactResolver) (reconcile configureInstrument : Bool) :
    Session ResultData := do
  let fresh ← linked Bpio2Adapter.identify
  let base := statusBody fresh reconcile
  match operation with
  | .instrumentStatus _ _ => return .observation base
  | .spiTransfer _ _ tx rxBytes =>
      rawOperation spiMode (spiSpeed binding) base
        "raw SPI transfer cannot prove its original effect" reconcile configureInstrument
        fun limits => do
          let bytes ← spiTransfer tx rxBytes limits
          return withBytes (configurationApplied base) bytes "spi"
  | .i2cTransfer _ _ address tx rxBytes => do
      Action.refuse (0x7f < address) (malformed "I2C address must be a seven-bit value")
      rawOperation i2cMode (i2cSpeed binding) base
        "raw I2C transfer cannot prove its original effect" reconcile configureInstrument
        fun limits => do
          let bytes ← i2cTransfer address tx rxBytes limits
          return withBytes (configurationApplied base) bytes "i2c"
  | .i2cScan _ _ =>
      rawOperation i2cMode (i2cSpeed binding) base
        "I2C scan cannot prove its original probe effects" reconcile configureInstrument
        fun limits => do
          let addresses ← i2cScan limits
          return .observation ((configurationApplied base).merge (.json
            [("i2c_acknowledged_addresses", .array (addresses.map fun a => .nat a.toNat))]))
  | .uartCapture _ _ maxBytes => do
      Action.when (!reconcile) (Action.result (requireConfigurationEffect configureInstrument))
      configured uartMode (modeLimits uartMode (uartSpeed binding) configureInstrument) base
        fun limits => do
          let bytes ← uartCapture maxBytes limits
          return uartResult (configurationApplied base) bytes maxBytes
            (if reconcile then "uart_reconciliation" else "uart")
  | .uartTransmit _ _ bytes =>
      rawOperation uartMode (uartSpeed binding) base
        "UART transmit cannot prove its original effect" reconcile configureInstrument
        fun limits => do
          uartTransmit bytes limits
          return .observation ((configurationApplied base).merge (.json
            [("uart_transmitted_bytes", .nat bytes.length)]))
  | .gpioSet _ _ pin high => do
      let pin ← Action.result (u8TryFrom pin)
      Action.refuse (8 ≤ pin) (malformed "GPIO pin is outside Bus Pirate pin range")
      let config ← Action.result (bpioConfig binding)
      Action.refuse (pin ∉ config.pinMap.values)
        (malformed "GPIO pin is outside the configured fixture pin map")
      Action.when (!reconcile) (linked (Bpio2Adapter.setGpio pin high))
      let observed ← linked Bpio2Adapter.identify
      return gpioResult observed reconcile pin high
  | .adcRead _ _ channel => do
      let millivolts ← Action.result (match fresh.adcMillivolts[channel.toNat]? with
        | some millivolts => .ok millivolts
        | none => .error (malformed "ADC channel is not reported by the connected Bus Pirate"))
      return .observation (base.merge (.json
        [("adc_channel", .nat channel.toNat), ("millivolts", .nat millivolts.toNat)]))
  | .psuSet _ _ millivolts milliamps => do
      let config ← Action.result (bpioConfig binding)
      Action.refuse (config.psuMaxMillivolts < millivolts ∨ config.psuMaxMilliamps < milliamps)
        (malformed "PSU request exceeds configured electrical limits")
      let milliamps ← Action.result (u16TryFrom milliamps)
      Action.when (!reconcile) (linked (Bpio2Adapter.setPsu millivolts milliamps))
      let observed ← linked Bpio2Adapter.identify
      return psuResult observed reconcile millivolts milliamps
  | .flashIdentify _ _ => do
      Action.when (!reconcile) (Action.result (requireConfigurationEffect configureInstrument))
      configured spiMode (flashLimits binding configureInstrument) base fun limits => do
        let (jedec, sfdp) ← identifyFlash limits
        let jedecBytes := [jedec.1, jedec.2.1, jedec.2.2]
        return .ofBytes (jedecBytes ++ sfdp) ((configurationApplied base).merge (.json
          [("jedec_id", .array (jedecBytes.map fun b => .nat b.toNat)),
            ("sfdp_digest", .digest (Platform.sha256 sfdp))]))
  | .flashRead _ _ offset length => do
      let profile ← Action.result (qualifiedFlashGeometry binding)
      Action.when (!reconcile) (Action.result (requireConfigurationEffect configureInstrument))
      configured spiMode (flashLimits binding configureInstrument) base fun limits => do
        verifyFlashIdentity binding limits
        let bytes ← flashRead profile offset length limits
        return withBytes ((configurationApplied base).merge (.json
          [("flash_offset", .nat offset.toNat), ("flash_length", .nat length.toNat)])) bytes
          "flash_read"
  | .flashErase _ _ offset length => do
      let profile ← Action.result (qualifiedFlashGeometry binding)
      Action.when (!reconcile) (Action.result (requireConfigurationEffect configureInstrument))
      configured spiMode (flashLimits binding configureInstrument) base fun limits => do
        verifyFlashIdentity binding limits
        Action.when (!reconcile) (flashErase patience profile offset length limits)
        let actual ← flashRead profile offset length limits
        let blank := actual.all (· == 0xff)
        return readback base [("flash_offset", .nat offset.toNat),
          ("flash_length", .nat length.toNat), ("all_erased", .bool blank),
          ("readback_digest", .digest (Platform.sha256 actual))] actual "flash_erase_readback"
          blank "flash erase readback is not fully erased"
  | .flashWrite _ _ offset source length =>
      candidateOperation patience binding artifacts base reconcile configureInstrument true offset
        source length
  | .flashVerify _ _ offset source length =>
      candidateOperation patience binding artifacts base reconcile configureInstrument false offset
        source length
  | _ => throw (malformed "operation is unsupported by Bus Pirate BPIO2")

end operations

end Bus

end Cheirismos
