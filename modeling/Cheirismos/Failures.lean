import Cheirismos.Mutations

/-! # How an operation of the bus can fail

The errors of `service/backend/bus.rs`, sorted by what decides them.

* `LinkFault` are the errors of one exchange and of the limits that the device has reported.
* `DeviceDecided` are the failures of the bus that depend on the device: a fault of the link, one of
  the answers in `deviceAnswers`, or the deadline.
* Each helper of the bus raises nothing else, as long as the checks that do not depend on the device
  pass; these checks are the hypotheses of its rule. -/

namespace Cheirismos

open Process

namespace Bpio2Adapter

/-- An error of the link to a device. -/
def LinkFault (e : InstrumentError) : Prop :=
  FromExchange e ∨ ∃ requested limit, e = .protocolLimit requested limit ∧ limit < requested

variable [Crates]

theorem request_raises {packet : RequestPacket} :
    Action.Raises (F := hardware) FromExchange (request packet) := by
  refine .bind .get fun _ => .bind (.refuse fun _ => trivial) fun _ => .bind (.ask _) fun v => ?_
  exact .result fun _ he => received_error he

theorem identify_raises : Action.Raises (F := hardware) FromExchange identify :=
  .bind request_raises fun _ => .checked (fun _ he => statusOf_error he) fun _ _ =>
    .bind (.set _) fun _ => .pure _

theorem expectConfigurationResponse_raises {packet : RequestPacket} :
    Action.Raises (F := hardware) FromExchange (expectConfigurationResponse packet) :=
  .bind request_raises fun _ => .result fun _ he => configurationOf_error he

theorem configureMode_raises {mode : String} {config : ModeConfig} :
    Action.Raises (F := hardware) FromExchange (configureMode mode config) := by
  refine .bind .get fun a => .checked (fun e he => ?_) fun _ _ => expectConfigurationResponse_raises
  unfold requireDiscoveredMode at he
  split at he
  · cases he
    trivial
  · split_ifs at he
    cases he
    trivial

theorem setPsu_raises {millivolts : UInt32} {milliamps : UInt16} :
    Action.Raises (F := hardware) FromExchange (setPsu millivolts milliamps) :=
  expectConfigurationResponse_raises

/-- Setting a pin that there is. -/
theorem setGpio_raises {pin : UInt8} {high : Bool} (h : ¬ 8 ≤ pin) :
    Action.Raises (F := hardware) FromExchange (setGpio pin high) :=
  .refused (fun hbad => absurd hbad h) fun _ => expectConfigurationResponse_raises

theorem transfer_raises {write : Bytes} {n : UInt16} {start stop exact : Bool} :
    Action.Raises (F := hardware) LinkFault
      (transferWithLengthPolicy write n start stop exact) := by
  refine .bind .get fun a => .checked (fun e he => Or.inr ?_) fun _ _ =>
    .bind (request_raises.mono fun _ => Or.inl) fun _ => .result fun _ he => Or.inl (readOf_error he)
  unfold withinLimits at he
  split at he
  · cases he
  · split_ifs at he with hwrite hread
    · cases he
      exact ⟨_, _, rfl, hwrite⟩
    · cases he
      exact ⟨_, _, rfl, hread⟩

end Bpio2Adapter

namespace Bus

open Bpio2Adapter

/-- The failures that an answer of the device, or a limit it has reported, decides. -/
def deviceAnswers : List String :=
  ["Bus Pirate did not enter requested mode",
    "Bus Pirate reported a zero transfer limit",
    "I2C transaction exceeds one BPIO2 request; splitting would change restart semantics",
    "JEDEC response must be exactly three bytes",
    "Bus Pirate SPI write limit cannot carry SFDP command",
    "connected flash JEDEC/SFDP identity differs from commissioned binding",
    "Bus Pirate SPI write limit cannot carry flash read command",
    "Bus Pirate SPI write limit cannot carry flash erase command",
    "Bus Pirate SPI write limit cannot carry flash program command",
    "Bus Pirate SPI write limit leaves no flash program payload bytes",
    "flash did not assert WEL after WREN",
    "ADC channel is not reported by the connected Bus Pirate"]

/-- A failure that no check of the binding, the operation or the artifacts decides. -/
inductive DeviceDecided [Formatter] : BackendError → Prop
  | link {e : InstrumentError} (h : LinkFault e) : DeviceDecided (transport e)
  | answer {message : String} (h : message ∈ deviceAnswers) : DeviceDecided (malformed message)
  | deadline : DeviceDecided deadlineExpired

/-- A failure in the middle of erasing or programming. -/
inductive MutationFault [Formatter] : BackendError → Prop
  | link {e : InstrumentError} (h : LinkFault e) : MutationFault (transport e)
  | latch : MutationFault (malformed "flash did not assert WEL after WREN")
  | deadline : MutationFault deadlineExpired

theorem MutationFault.decided [Formatter] {e : BackendError} (h : MutationFault e) :
    DeviceDecided e := by
  cases h with
  | link h => exact .link h
  | latch => exact .answer (by simp [deviceAnswers])
  | deadline => exact .deadline

variable [Crates] {patience : ℕ} {profile : FlashProfile} {offset : UInt64} {bytes : Bytes}
  {limits : Limits}

/-! ### Modes and transfers -/

theorem linked_raises {α : Type} {x : Link α} (h : Action.Raises (F := hardware) FromExchange x) :
    Action.Raises (F := hardware) DeviceDecided (linked x) :=
  .failing (h.mono fun _ he => .link (Or.inl he))

theorem ensureMode_raises {mode : String} {speed : UInt32} (h : speed ≠ 0) :
    Action.Raises (F := hardware) DeviceDecided (ensureMode mode speed) := by
  refine .refused (fun hbad => absurd hbad h) fun _ =>
    .bind (linked_raises configureMode_raises) fun _ => .bind (linked_raises identify_raises)
      fun discovery => .bind (.refuse fun _ => ?_) fun _ => .result fun e he => ?_
  · exact .answer (by simp [deviceAnswers])
  · unfold Limits.fromDiscovery at he
    dsimp only at he
    split_ifs at he
    cases he
    exact .answer (by simp [deviceAnswers])

theorem modeLimits_raises {mode : String} {speed : UInt32} {configureInstrument : Bool}
    (h : speed ≠ 0) :
    Action.Raises (F := hardware) DeviceDecided (modeLimits mode speed configureInstrument) := by
  unfold modeLimits
  split_ifs
  · exact .bind (ensureMode_raises h) fun _ => .pure _
  · exact .pure _

theorem linkedTransfer_raises {write : Bytes} {n : UInt16} {start stop exact : Bool} :
    Action.Raises (F := hardware) DeviceDecided
      (linked (transferWithLengthPolicy write n start stop exact)) :=
  .failing (transfer_raises.mono fun _ he => .link he)

theorem transferChunk_raises {write : Bytes} {n : ℕ} {start stop : Bool} (h : n < 2 ^ 16) :
    Action.Raises (F := hardware) DeviceDecided (transferChunk write n start stop) := by
  unfold transferChunk
  rw [u16OfUsize_of_lt h]
  exact .bind (.pure _) fun _ => linkedTransfer_raises

theorem spiWrites_raises {started : Bool} {rest : List Bytes} :
    Action.Raises (F := hardware) DeviceDecided (spiWrites started rest) := by
  induction rest generalizing started with
  | nil => exact .pure _
  | cons chunk rest ih => exact .bind linkedTransfer_raises fun _ => ih

theorem spiReads_raises {started : Bool} {received : Bytes} {remaining : ℕ} :
    Action.Raises (F := hardware) DeviceDecided (spiReads limits started received remaining) := by
  induction remaining using Nat.strong_induction_on generalizing started received with
  | _ remaining ih =>
      have hread := limits.read_pos
      have hlt := limits.read_le
      unfold spiReads
      split_ifs with h
      · exact .bind (transferChunk_raises (by omega)) fun _ => ih _ (by omega)
      · exact .pure _

theorem spiTransfer_raises {rxBytes : UInt32} (h : boundedCapture rxBytes = .ok ()) :
    Action.Raises (F := hardware) DeviceDecided (spiTransfer bytes rxBytes limits) := by
  unfold spiTransfer
  rw [h]
  refine .bind (.pure _) fun _ => .bind spiWrites_raises fun _ => .bind spiReads_raises fun _ =>
    .bind (.when fun _ => ?_) fun _ => .pure _
  exact .bind linkedTransfer_raises fun _ => .pure _

theorem i2cTransfer_raises {address : UInt8} {rxBytes : UInt32} {count : UInt16}
    (h : boundedCapture rxBytes = .ok ()) (hcount : u16TryFrom rxBytes = .ok count) :
    Action.Raises (F := hardware) DeviceDecided (i2cTransfer address bytes rxBytes limits) := by
  unfold i2cTransfer
  rw [h, hcount]
  refine .bind (.pure _) fun _ => .bind (.refuse fun _ => ?_) fun _ => .bind (.pure _) fun _ =>
    linkedTransfer_raises
  exact .answer (by simp [deviceAnswers])

theorem probed_error {write read : Except InstrumentError Bytes} {e : BackendError}
    (hwrite : ∀ e, write = .error e → LinkFault e) (hread : ∀ e, read = .error e → LinkFault e)
    (h : probed write read = .error e) : DeviceDecided e := by
  unfold probed at h
  split at h
  · cases h
  · cases h
  · split_ifs at h
    cases h
    exact .link (hwrite _ rfl)
  · cases h
    exact .link (hread _ rfl)
  · cases h
    exact .link (hwrite _ rfl)

theorem i2cProbes_raises {found : Bytes} {addresses : List UInt8} :
    Action.Raises (F := hardware) DeviceDecided (i2cProbes found addresses) := by
  induction addresses generalizing found with
  | nil => exact .pure _
  | cons address addresses ih =>
      exact .outcome transfer_raises fun write hwrite => .outcome transfer_raises fun read hread =>
        .bind (.result fun _ he => probed_error hwrite hread he) fun _ => ih

theorem i2cScan_raises : Action.Raises (F := hardware) DeviceDecided (i2cScan limits) :=
  .refused (fun hbad => absurd limits.write_pos (by omega)) fun _ => i2cProbes_raises

theorem uartCaptureLoop_raises {remaining : ℕ} :
    Action.Raises (F := hardware) DeviceDecided (uartCaptureLoop limits bytes remaining) := by
  induction remaining using Nat.strong_induction_on generalizing bytes with
  | _ remaining ih =>
      have hread := limits.read_pos
      have hlt := limits.read_le
      unfold uartCaptureLoop
      split_ifs with h
      · have hcount := u16OfUsize_of_lt (show min remaining limits.read < 2 ^ 16 by omega)
        refine .checked (fun _ he => by cases hcount.symm.trans he) fun _ _ =>
          .bind linkedTransfer_raises fun received => ?_
        split_ifs
        · exact .pure _
        · exact ih _ (by omega)
      · exact .pure _

theorem uartCapture_raises {maxBytes : UInt32} (h : boundedCapture maxBytes = .ok ()) :
    Action.Raises (F := hardware) DeviceDecided (uartCapture maxBytes limits) := by
  unfold uartCapture
  rw [h]
  exact .bind (.pure _) fun _ => uartCaptureLoop_raises

theorem uartWrites_raises {rest : List Bytes} :
    Action.Raises (F := hardware) DeviceDecided (uartWrites rest) := by
  induction rest with
  | nil => exact .pure _
  | cons chunk rest ih => exact .bind linkedTransfer_raises fun _ => ih

/-! ### Flash -/

theorem identifyFlash_raises :
    Action.Raises (F := hardware) DeviceDecided (identifyFlash limits) := by
  refine .bind (spiTransfer_raises (by decide)) fun response => .bind (.result fun e he => ?_)
    fun _ => .bind (.refuse fun _ => ?_) fun _ => .bind (spiTransfer_raises (by decide)) fun _ =>
      .pure _
  · split at he
    · cases he
    · cases he
      exact .answer (by simp [deviceAnswers])
  · exact .answer (by simp [deviceAnswers])

/-- The identity must be commissioned. -/
theorem verifyFlashIdentity_raises {binding : DeviceBinding}
    (h : binding.flashIdentity.isSome = true) :
    Action.Raises (F := hardware) DeviceDecided (verifyFlashIdentity binding limits) := by
  obtain ⟨identity, h⟩ := Option.isSome_iff_exists.mp h
  unfold verifyFlashIdentity
  rw [h]
  refine .bind (.pure _) fun _ => .bind identifyFlash_raises fun _ => .refuse fun _ => ?_
  exact .answer (by simp [deviceAnswers])

theorem flashReadLoop_raises {remaining : ℕ} (h : offset.toNat + remaining < 2 ^ 64) :
    Action.Raises (F := hardware) DeviceDecided
      (flashReadLoop profile limits offset bytes remaining) := by
  induction remaining using Nat.strong_induction_on generalizing offset bytes with
  | _ remaining ih =>
      have hread := limits.read_pos
      have hlt := limits.read_le
      unfold flashReadLoop
      split_ifs with hpos
      · have hsum : offset.toNat + min remaining limits.read < 2 ^ 64 := by omega
        have hnext : checkedOffset offset (min remaining limits.read)
            "flash read offset overflow" = _ := checkedOffset_eq hsum
        have htoNat : (UInt64.ofNat (offset.toNat + min remaining limits.read)).toNat =
            offset.toNat + min remaining limits.read := UInt64.toNat_ofNat_of_lt' hsum
        refine .bind (transferChunk_raises (by omega)) fun _ =>
          .checked (fun _ he => by cases hnext.symm.trans he) fun cursor hcursor =>
            ih _ (by omega) ?_
        cases hnext.symm.trans hcursor
        omega
      · exact .pure _

theorem flashRead_raises {length : UInt32} (hbound : boundedCapture length = .ok ())
    (hrange : profile.geometry.validateRange offset length = .ok ()) :
    Action.Raises (F := hardware) DeviceDecided (flashRead profile offset length limits) := by
  have hsum := validateRange_ok_iff.mp hrange
  have := profile.geometry.capacityBytes.toNat_lt
  unfold flashRead
  rw [hbound, hrange]
  refine .bind (.pure _) fun _ => .bind (.pure _) fun _ => .bind (.refuse fun _ => ?_) fun _ =>
    flashReadLoop_raises (by omega)
  exact .answer (by simp [deviceAnswers])

/-! ### Erasing and programming -/

theorem mutationTransfer_raises {write : Bytes} {n : UInt16} {start stop : Bool} :
    Action.Raises (F := hardware) MutationFault
      (linked (Bpio2Adapter.transfer write n start stop)) :=
  .failing (transfer_raises.mono fun _ he => .link he)

theorem writeEnable_raises : Action.Raises (F := hardware) MutationFault writeEnable := by
  refine .bind mutationTransfer_raises fun _ => .bind mutationTransfer_raises fun status =>
    .refuse fun _ => ?_
  exact .latch

theorem waitBusyClear_raises :
    Action.Raises (F := hardware) MutationFault (waitBusyClear patience) := by
  induction patience with
  | zero => exact .throw .deadline
  | succ patience ih =>
      unfold waitBusyClear
      refine .bind mutationTransfer_raises fun status => ?_
      split_ifs
      · exact .pure ()
      · exact ih

theorem mutate_raises {command : Bytes} :
    Action.Raises (F := hardware) MutationFault (mutate patience command) :=
  .bind mutationTransfer_raises fun _ => waitBusyClear_raises

theorem flashEraseLoop_raises {sectors : List ℕ}
    (h : ∀ relative ∈ sectors, offset.toNat + relative < 2 ^ 64) :
    Action.Raises (F := hardware) MutationFault
      (flashEraseLoop patience profile offset sectors) := by
  induction sectors with
  | nil => exact .pure ()
  | cons relative sectors ih =>
      unfold flashEraseLoop
      rw [checkedOffset_eq (h relative List.mem_cons_self)]
      exact .bind writeEnable_raises fun _ => .bind (.pure _) fun _ =>
        .bind mutate_raises fun _ => ih fun r hr => h r (List.mem_cons_of_mem _ hr)

omit [Crates] in
theorem eraseSectors_bounded {length : UInt32}
    (h : profile.geometry.validateErase offset length = .ok ()) :
    ∀ relative ∈ eraseSectors profile length, offset.toNat + relative < 2 ^ 64 := by
  intro relative hr
  have hlt := steps_lt hr
  have hrange := (validateErase_ok_iff.mp h).1
  have := profile.geometry.capacityBytes.toNat_lt
  omega

theorem flashErase_raises {length : UInt32}
    (h : profile.geometry.validateErase offset length = .ok ()) :
    Action.Raises (F := hardware) DeviceDecided
      (flashErase patience profile offset length limits) := by
  unfold flashErase
  rw [h]
  refine .bind (.pure _) fun _ => .bind (.refuse fun _ => ?_) fun _ =>
    (flashEraseLoop_raises (eraseSectors_bounded h)).mono fun _ => MutationFault.decided
  exact .answer (by simp [deviceAnswers])

theorem flashWriteLoop_raises {payload : { payload : ℕ // 0 < payload }} {cursor : ℕ}
    (h : offset.toNat + bytes.length < 2 ^ 64) :
    Action.Raises (F := hardware) MutationFault
      (flashWriteLoop patience profile offset bytes payload cursor) := by
  generalize hleft : bytes.length - cursor = left
  induction left using Nat.strong_induction_on generalizing cursor with
  | _ left ih =>
      rw [flashWriteLoop]
      by_cases hcursor : cursor < bytes.length
      · rw [dif_pos hcursor, checkedOffset_eq (by omega)]
        refine .bind (.pure _) fun absolute => .bind writeEnable_raises fun _ =>
          .bind mutate_raises fun _ => ih _ ?_ rfl
        have hpos := programCount_pos profile payload.2 absolute (Nat.sub_pos_of_lt hcursor)
        omega
      · rw [dif_neg hcursor]
        exact .pure ()

/-- A write of as many bytes as were checked. -/
theorem flashWrite_raises {length : UInt32} (hlength : bytes.length = length.toNat)
    (hrange : profile.geometry.validateRange offset length = .ok ()) :
    Action.Raises (F := hardware) DeviceDecided
      (flashWrite patience profile offset bytes limits) := by
  have hsum := validateRange_ok_iff.mp hrange
  have hlt := length.toNat_lt
  have := profile.geometry.capacityBytes.toNat_lt
  have hconvert : u32OfUsize bytes.length = .ok length := by
    rw [u32OfUsize, if_pos (by omega), hlength, UInt32.ofNat_toNat]
  have hlayout : layout (profile.geometry.validateRange offset length) = .ok () := by
    rw [hrange]
    rfl
  unfold flashWrite
  rw [hconvert]
  refine .checked (fun _ he => by cases he) fun converted hconverted => ?_
  cases hconverted
  refine .checked (fun _ he => by cases hlayout.symm.trans he) fun _ _ =>
    .bind (.result fun e he => ?_) fun payload =>
      (flashWriteLoop_raises (by omega)).mono fun _ => MutationFault.decided
  · unfold flashProgramPayloadLimit at he
    split_ifs at he
    · cases he
      exact .answer (by simp [deviceAnswers])
    · cases he
      exact .answer (by simp [deviceAnswers])

end Bus

end Cheirismos
