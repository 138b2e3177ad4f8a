import Cheirismos.Devices

/-! # Physical identities and configured instruments

`service/backend/identity.rs` as far as it depends on the configuration alone, with the checks of a
video configuration (`instruments/config.rs`, `instruments/video.rs`).

A configuration is accepted by `validateConfig`.  Its physical identity is a digest of the USB
identity, or of the name of a simulator; paths, aliases and electrical settings do not enter it. -/

namespace Cheirismos

open Process

/-! ### USB identities -/

/-- `str::splitn(3, ':')`, if there are three pieces. -/
def splitThree (text : String) : Option (String × String × String) :=
  match splitOn ':' text.toList with
  | first :: second :: rest => match rest with
      | [] => none
      | pieces => some (String.ofList first, String.ofList second,
          String.ofList ([':'].intercalate pieces))
  | _ => none

/-- Four digits of `0`–`9` and `a`–`f`. -/
def isLowerHexWord (text : String) : Bool :=
  (utf8 text).length == 4 && (utf8 text).all digestByte

def isUnknownSerial (serial : String) : Bool :=
  let lower := String.ofList (serial.toList.map Char.toLower)
  lower == "unknown" || lower == "none" || lower == "null" || lower == "n/a"

def canonicalUsbIdentity (value : String) : Except BackendError String :=
  match splitThree value with
  | none => .error (malformed "USB identity must be vid:pid:serial")
  | some (vid, pid, serial) =>
      if isLowerHexWord vid = false ∨ isLowerHexWord pid = false ∨ serial = "" ∨
          isUnknownSerial serial = true then
        .error (malformed "USB identity requires lowercase four-hex VID:PID and a known serial")
      else .ok ("usb:" ++ vid ++ ":" ++ pid ++ ":" ++ serial)

def canonicalSerialUsbIdentity (value : String) : Except BackendError String :=
  match "usb:".toList.isPrefixOf value.toList with
  | false => .error (malformed "serial USB identity must start with usb:")
  | true => canonicalUsbIdentity (String.ofList (value.toList.drop 4))

/-! ### Video configurations -/

namespace VideoConfig

def invalid (detail : String) : InstrumentError := .invalidVideoConfiguration detail

/-- `Path::is_absolute`. -/
def isAbsolute (path : String) : Bool := path.toList.head? == some '/'

/-- `VideoConfig::validate`. -/
def validate (config : VideoConfig) : Except InstrumentError Unit :=
  if trim config.expectedUsbIdentity.toList = [] then
    .error (invalid "expected_usb_identity must not be empty")
  else if config.executable = "" then .error (invalid "executable must not be empty")
  else if validateDigest config.executableSha256 = false then
    .error (invalid "executable_sha256 must be 64 lowercase hexadecimal characters")
  else if config.frameTimeoutMilliseconds = 0 then
    .error (invalid "frame_timeout_milliseconds must be non-zero")
  else if config.maxFrameBytes = 0 then .error (invalid "max_frame_bytes must be non-zero")
  else .ok ()

def parseIdentity (value : String) : Except InstrumentError (String × String × String) :=
  let wrong : InstrumentError := invalid "expected_usb_identity must be lowercase vid:pid:serial"
  match splitOn ':' value.toList with
  | [vendor, product, serial] =>
      if isLowerHexWord (String.ofList vendor) = false ∨
          isLowerHexWord (String.ofList product) = false ∨ trim serial = [] then .error wrong
      else .ok (String.ofList vendor, String.ofList product, String.ofList serial)
  | _ => .error wrong

/-- `VideoAdapter::new`. -/
def accept (config : VideoConfig) : Except InstrumentError Unit := do
  validate config
  if isAbsolute config.devicePath = false then
    .error (invalid "device_path must be absolute")
  else if isAbsolute config.executable = false then
    .error (invalid "executable must be absolute")
  else do
    let (_, _, serial) ← parseIdentity config.expectedUsbIdentity
    if serial = "" then .error (invalid "expected_usb_identity serial must not be empty")
    else .ok ()

end VideoConfig

/-! ### Configurations -/

section configurations

variable [Crates]

/-- The serial stream that the instrument is bound to. -/
def InstrumentConfig.serial? : InstrumentConfig → Option SerialBinding
  | .bpio2 config => some config.serial
  | .numato config => some config.serial
  | _ => none

/-- The limits of each kind of instrument. -/
def validateLimits : InstrumentConfig → Except BackendError Unit
  | .bpio2 config =>
      if config.spiHz = 0 ∨ config.i2cHz = 0 ∨ config.uartBaud = 0 then
        .error (malformed "bus speeds must be positive")
      else if config.pinMap.values.any (8 ≤ ·) ∨ 65535 < config.psuMaxMilliamps then
        .error (malformed "instrument electrical configuration exceeds protocol limits")
      else .ok ()
  | .numato config =>
      if config.relayMap.values.any (4 ≤ ·) then
        .error (malformed "Numato relay map is outside the four-channel module")
      else .ok ()
  | .simulator config =>
      if config.flashBytes = 0 ∨ maxEvidenceBytes < config.flashBytes then
        .error (malformed "simulator flash capacity is outside 1..=64MiB")
      else .ok ()
  | .video config => (VideoConfig.accept config).mapError transport

def validateConfig (config : InstrumentConfig) : Except BackendError Unit := do
  validateLimits config
  match config.serial? with
  | none => .ok ()
  | some serial =>
      if VideoConfig.isAbsolute serial.path = false ∨ serial.baudRate = 0 then
        .error (malformed
          "serial configuration requires an absolute bound path and positive baud rate")
      else do
        let _ ← canonicalSerialUsbIdentity serial.expectedUsbIdentity
        .ok ()
  match config with
  | .video config => do
      let _ ← canonicalUsbIdentity config.expectedUsbIdentity
      .ok ()
  | _ => .ok ()

/-- The digest of a canonical identity. -/
def physicalIdentity (key : String) : ArtifactDigest :=
  sha256Text ("cheirismos:physical-identity:v1:" ++ key)

def configuredPhysicalIdentity (config : InstrumentConfig) : Except BackendError ArtifactDigest := do
  validateConfig config
  let key ← match config with
    | .bpio2 config => canonicalSerialUsbIdentity config.serial.expectedUsbIdentity
    | .numato config => canonicalSerialUsbIdentity config.serial.expectedUsbIdentity
    | .simulator config => .ok ("simulator:" ++ config.identity.value)
    | .video config => canonicalUsbIdentity config.expectedUsbIdentity
  return physicalIdentity key

/-- `validate_unique_physical_identities`: no two aliases of one physical instrument. -/
def validateUniquePhysicalIdentities (seen : List ArtifactDigest) :
    List InstrumentConfig → Except BackendError Unit
  | [] => .ok ()
  | config :: configs => do
      let identity ← configuredPhysicalIdentity config
      if identity ∈ seen then
        .error (malformed "multiple configured aliases resolve to the same physical instrument")
      else validateUniquePhysicalIdentities (identity :: seen) configs

/-- An accepted configuration has limits that its kind of instrument has. -/
theorem validateLimits_of_validateConfig {config : InstrumentConfig} {u : Unit}
    (h : validateConfig config = .ok u) : validateLimits config = .ok () := by
  unfold validateConfig at h
  cases hl : validateLimits config with
  | error e => rw [hl] at h; cases h
  | ok v => rfl

end configurations

end Cheirismos
