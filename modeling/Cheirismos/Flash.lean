import Cheirismos.Instruments

/-! # SPI-NOR geometry and command planning

`instruments/flash.rs`.  A `FlashGeometry` carries what `try_new` has checked: nothing is zero,
sectors have 4096 bytes, and the address mode reaches the whole capacity.

`NorPlan.forOperation` plans the commands of one operation.  Its loops over sectors and pages are
`erasePlan` and `writePlan`. -/

namespace Cheirismos

inductive AddressMode where
  | threeByte
  | fourByte
deriving DecidableEq

inductive FlashLayoutError where
  | zeroCapacity
  | zeroPage
  | zeroErase
  | unsupportedThreeByteCapacity (capacityBytes : UInt64)
  | unsupportedFourByteCapacity (capacityBytes : UInt64)
  | unsupportedEraseBytes (eraseBytes : UInt32)
  | outOfBounds (offset : UInt64) (length : UInt32) (capacityBytes : UInt64)
  | eraseUnaligned (offset : UInt64) (length eraseBytes : UInt32)
deriving DecidableEq

/-- `offset.saturating_add(length)`. -/
def saturatingEnd (offset : UInt64) (length : UInt32) : ℕ :=
  min (offset.toNat + length.toNat) (2 ^ 64 - 1)

def FlashLayoutError.toString : FlashLayoutError → String
  | zeroCapacity => "flash capacity must be non-zero"
  | zeroPage => "flash page size must be non-zero"
  | zeroErase => "flash erase size must be non-zero"
  | unsupportedThreeByteCapacity capacityBytes =>
      "three-byte addressing cannot represent " ++ ToString.toString capacityBytes ++ "-byte flash"
  | unsupportedFourByteCapacity capacityBytes =>
      "four-byte addressing cannot represent " ++ ToString.toString capacityBytes ++ "-byte flash"
  | unsupportedEraseBytes eraseBytes =>
      "the qualified NOR profile supports only 4096-byte erase sectors, not " ++
        ToString.toString eraseBytes
  | outOfBounds offset length capacityBytes =>
      "range " ++ ToString.toString offset ++ ".." ++
        ToString.toString (saturatingEnd offset length) ++ " exceeds " ++
        ToString.toString capacityBytes ++ "-byte flash"
  | eraseUnaligned offset length eraseBytes =>
      "erase " ++ ToString.toString offset ++ ".." ++
        ToString.toString (saturatingEnd offset length) ++ " is not aligned to " ++
        ToString.toString eraseBytes ++ "-byte sectors"

/-! ### Geometry -/

/-- The largest capacity that the address mode reaches. -/
def AddressMode.reach : AddressMode → UInt64
  | threeByte => 0x01000000
  | fourByte => 0x100000000

structure FlashGeometry where
  capacityBytes : UInt64
  pageBytes : UInt32
  eraseBytes : UInt32
  addressMode : AddressMode
  capacity_ne_zero : capacityBytes ≠ 0
  page_ne_zero : pageBytes ≠ 0
  erase_eq : eraseBytes = 4096
  reached : capacityBytes ≤ addressMode.reach
deriving DecidableEq

namespace FlashGeometry

def tryNew (capacityBytes : UInt64) (pageBytes eraseBytes : UInt32) (addressMode : AddressMode) :
    Except FlashLayoutError FlashGeometry :=
  if hcapacity : capacityBytes = 0 then .error .zeroCapacity
  else if hpage : pageBytes = 0 then .error .zeroPage
  else if eraseBytes = 0 then .error .zeroErase
  else if herase : eraseBytes ≠ 4096 then .error (.unsupportedEraseBytes eraseBytes)
  else if hreach : addressMode.reach < capacityBytes then
    .error (match addressMode with
      | .threeByte => .unsupportedThreeByteCapacity capacityBytes
      | .fourByte => .unsupportedFourByteCapacity capacityBytes)
  else .ok {
    capacityBytes := capacityBytes
    pageBytes := pageBytes
    eraseBytes := eraseBytes
    addressMode := addressMode
    capacity_ne_zero := hcapacity
    page_ne_zero := hpage
    erase_eq := not_not.mp herase
    reached := UInt64.not_lt.mp hreach }

variable (geometry : FlashGeometry)

def validateRange (offset : UInt64) (length : UInt32) : Except FlashLayoutError Unit :=
  match u64CheckedAdd offset length.toUInt64 with
  | none => .error (.outOfBounds offset length geometry.capacityBytes)
  | some last =>
      if geometry.capacityBytes < last then
        .error (.outOfBounds offset length geometry.capacityBytes)
      else .ok ()

def validateErase (offset : UInt64) (length : UInt32) : Except FlashLayoutError Unit := do
  geometry.validateRange offset length
  let eraseBytes := geometry.eraseBytes.toUInt64
  if offset % eraseBytes ≠ 0 ∨ length.toUInt64 % eraseBytes ≠ 0 then
    .error (.eraseUnaligned offset length geometry.eraseBytes)
  else .ok ()

def address (offset : UInt64) : Bytes :=
  match geometry.addressMode with
  | .threeByte => [(offset >>> 16).toUInt8, (offset >>> 8).toUInt8, offset.toUInt8]
  | .fourByte =>
      [(offset >>> 24).toUInt8, (offset >>> 16).toUInt8, (offset >>> 8).toUInt8, offset.toUInt8]

/-- The read, program and erase opcodes. -/
def opcodes : UInt8 × UInt8 × UInt8 :=
  match geometry.addressMode with
  | .threeByte => (0x03, 0x02, 0x20)
  | .fourByte => (0x13, 0x12, 0x21)

end FlashGeometry

/-! ### Command plans -/

inductive NorOperation where
  | identify
  | read (offset : UInt64) (length : UInt32)
  | erase (offset : UInt64) (length : UInt32)
  | write (offset : UInt64) (bytes : Bytes)
  | verify (offset : UInt64) (expected : Bytes)

inductive NorCommand where
  | transfer (bytes : Bytes) (readBytes : UInt32)
  | pollBusyClear
deriving DecidableEq

structure NorPlan where
  commands : List NorCommand
  expectedReadBytes : UInt32

/-- `(0..length).step_by(step)`, from `first` on. -/
def steps (step length first : ℕ) : List ℕ :=
  if first < length ∧ 0 < step then first :: steps step length (first + step) else []
termination_by length - first

namespace NorPlan

variable (geometry : FlashGeometry)

/-- The commands that erase the sectors at these distances from the offset. -/
def erasePlan (offset : UInt64) (length : UInt32) :
    List ℕ → Except FlashLayoutError (List NorCommand)
  | [] => .ok []
  | sector :: sectors => do
      let absolute ← match u64CheckedAdd offset (UInt64.ofNat sector) with
        | some absolute => .ok absolute
        | none => .error (.outOfBounds offset length geometry.capacityBytes)
      let rest ← erasePlan offset length sectors
      return .transfer [0x06] 0 ::
        .transfer (geometry.opcodes.2.2 :: geometry.address absolute) 0 :: .pollBusyClear :: rest

/-- The bytes up to the end of the page. -/
def pageRemaining (pageBytes : UInt32) (absolute : UInt64) : ℕ :=
  (pageBytes.toUInt64 - absolute % pageBytes.toUInt64).toNat

theorem pageRemaining_pos {pageBytes : UInt32} (hpage : pageBytes ≠ 0) (absolute : UInt64) :
    0 < pageRemaining pageBytes absolute := by
  have hpos : 0 < pageBytes.toUInt64.toNat := by
    rw [UInt32.toNat_toUInt64]
    exact Nat.pos_of_ne_zero fun h => hpage (UInt32.toNat_inj.mp h)
  have hlt := Nat.mod_lt absolute.toNat hpos
  rw [pageRemaining, UInt64.toNat_sub_of_le, UInt64.toNat_mod]
  · omega
  · rw [UInt64.le_iff_toNat_le, UInt64.toNat_mod]
    exact hlt.le

/-- The commands that program the bytes from the cursor on. -/
def writePlan (offset : UInt64) (length : UInt32) (bytes : Bytes) (cursor : ℕ) :
    Except FlashLayoutError (List NorCommand) :=
  if hcursor : cursor < bytes.length then do
    let writeOffset ← match u64CheckedAdd offset (UInt64.ofNat cursor) with
      | some writeOffset => .ok writeOffset
      | none => .error (.outOfBounds offset length geometry.capacityBytes)
    let count := min (pageRemaining geometry.pageBytes writeOffset) (bytes.length - cursor)
    have : 0 < count := Nat.lt_min.mpr
      ⟨pageRemaining_pos geometry.page_ne_zero writeOffset, Nat.sub_pos_of_lt hcursor⟩
    let rest ← writePlan offset length bytes (cursor + count)
    return .transfer [0x06] 0 ::
      .transfer (geometry.opcodes.2.1 :: (geometry.address writeOffset ++
        (bytes.drop cursor).take count)) 0 :: .pollBusyClear :: rest
  else .ok []
termination_by bytes.length - cursor
decreasing_by omega

/-- `u32::try_from` of the length of the bytes. -/
def lengthOf (offset : UInt64) (bytes : Bytes) : Except FlashLayoutError UInt32 :=
  if bytes.length < 2 ^ 32 then .ok (UInt32.ofNat bytes.length)
  else .error (.outOfBounds offset 0xFFFFFFFF geometry.capacityBytes)

def readPlan (offset : UInt64) (length : UInt32) : Except FlashLayoutError NorPlan := do
  geometry.validateRange offset length
  return ⟨[.transfer (geometry.opcodes.1 :: geometry.address offset) length], length⟩

def forOperation : NorOperation → Except FlashLayoutError NorPlan
  | .identify => .ok ⟨[.transfer [0x9F] 3, .transfer [0x5A, 0, 0, 0, 0] 256], 259⟩
  | .read offset length => readPlan geometry offset length
  | .erase offset length => do
      geometry.validateErase offset length
      let commands ← erasePlan geometry offset length
        (steps geometry.eraseBytes.toNat length.toNat 0)
      return ⟨commands, 0⟩
  | .write offset bytes => do
      let length ← lengthOf geometry offset bytes
      geometry.validateRange offset length
      let commands ← writePlan geometry offset length bytes 0
      return ⟨commands, 0⟩
  | .verify offset expected => do
      let length ← lengthOf geometry offset expected
      readPlan geometry offset length

end NorPlan

end Cheirismos
