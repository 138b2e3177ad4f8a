import Cheirismos.Backend

/-! # Declared effects

What the operations of `bus::execute` and `relay_operation` ask of their devices, and that an
operation performs no effect that it does not declare.

* **Requests.** For each helper of an operation one lemma says which requests it makes, for an
  arbitrary property `P` of requests.
* **Effects.** `performed operation request` is the set of permissions that a request needs.  A
  payload is read as the operation means it: raw bytes of the caller on SPI and I2C, bytes on a
  UART, and commands to a flash otherwise.
* `declared_effects` states that the permissions a request needs are among those that the operation
  declares. -/

namespace Cheirismos

open Process

/-! ### The requests of the helpers -/

namespace Bus

variable [Crates] {P : HardwareRequest → Prop}

/-- Requests of this kind are made by an operation over the adapter. -/
abbrev Asks {α : Type} (P : HardwareRequest → Prop) (x : Session α) : Prop :=
  Action.Asks (F := hardware) P x

theorem identify_asks (h : P (.bpio .status)) : Asks P (linked Bpio2Adapter.identify) :=
  .failing (Bpio2Adapter.identify_asks h)

theorem transfer_asks {write : Bytes} {n : UInt16} {start stop exact : Bool}
    (h : P (.bpio (.data start write n stop))) :
    Asks P (linked (Bpio2Adapter.transferWithLengthPolicy write n start stop exact)) :=
  .failing (Bpio2Adapter.transferWithLengthPolicy_asks h)

theorem transferChunk_asks {write : Bytes} {count : ℕ} {start stop : Bool}
    (h : ∀ n, P (.bpio (.data start write n stop))) :
    Asks P (transferChunk write count start stop) := by
  unfold transferChunk
  exact .bind (.result _) fun n => transfer_asks (h n)

/-- The packet that configures a mode. -/
def modePacket (mode : String) (speed : UInt32) : RequestPacket :=
  .configuration (some (mode, { ModeConfig.preset with speed := speed })) none none none none

theorem ensureMode_asks {mode : String} {speed : UInt32} (hmode : mode ≠ "")
    (hstatus : P (.bpio .status)) (hset : P (.bpio (modePacket mode speed))) :
    Asks P (ensureMode mode speed) := by
  have hpacket : Bpio2Adapter.buildConfigurationRequest mode
      { ModeConfig.preset with speed := speed } none none none none = modePacket mode speed := by
    rw [Bpio2Adapter.buildConfigurationRequest, if_neg hmode]
    rfl
  unfold ensureMode
  refine .bind (.refuse _) fun _ => .bind (.failing (Bpio2Adapter.configureMode_asks ?_)) fun _ =>
    .bind (identify_asks hstatus) fun _ => .bind (.refuse _) fun _ => .result _
  rw [hpacket]
  exact hset

theorem modeLimits_asks {mode : String} {speed : UInt32} {configure : Bool} (hmode : mode ≠ "")
    (hstatus : P (.bpio .status))
    (hset : configure = true → P (.bpio (modePacket mode speed))) :
    Asks P (modeLimits mode speed configure) := by
  unfold modeLimits
  cases configure with
  | false => exact .pure _
  | true => exact .bind (ensureMode_asks hmode hstatus (hset rfl)) fun _ => .pure _

omit [Crates] in
/-- Bytes that fit are one chunk. -/
theorem chunks_of_le {size : ℕ} {bytes : Bytes} (hsize : bytes.length ≤ size) :
    chunks size bytes = if bytes = [] then [] else [bytes] := by
  by_cases hb : bytes = []
  · rw [hb, chunks]
    rfl
  · have hpos : 0 < size := lt_of_lt_of_le (List.length_pos_of_ne_nil hb) hsize
    rw [chunks, if_pos ⟨hb, hpos⟩, List.take_of_length_le hsize, List.drop_of_length_le hsize, chunks,
      if_neg (fun h => h.1 rfl), if_neg hb]

theorem spiWrites_asks {started : Bool} {list : List Bytes}
    (h : ∀ chunk ∈ list, ∀ start, P (.bpio (.data start chunk 0 false))) :
    Asks P (spiWrites started list) := by
  induction list generalizing started with
  | nil => exact .pure _
  | cons chunk rest ih =>
      unfold spiWrites
      refine .bind (transfer_asks (h chunk List.mem_cons_self _)) fun _ => ?_
      exact ih fun chunk hchunk => h chunk (List.mem_cons_of_mem _ hchunk)

theorem spiReads_asks {limits : Limits} {started : Bool} {received : Bytes} {remaining : ℕ}
    (h : ∀ start n stop, P (.bpio (.data start [] n stop))) :
    Asks P (spiReads limits started received remaining) := by
  induction remaining using Nat.strong_induction_on generalizing started received with
  | _ remaining ih =>
      rw [spiReads]
      split
      · next hpos =>
          refine .bind (transferChunk_asks fun n => h _ n _) fun bytes => ih _ ?_
          have := limits.read_pos
          omega
      · exact .pure _

theorem spiTransfer_asks {tx : Bytes} {rx : UInt32} {limits : Limits}
    (hwrite : ∀ chunk ∈ chunks limits.write tx, ∀ start, P (.bpio (.data start chunk 0 false)))
    (hread : ∀ start n stop, P (.bpio (.data start [] n stop))) :
    Asks P (spiTransfer tx rx limits) := by
  unfold spiTransfer
  refine .bind (.result _) fun _ => .bind (spiWrites_asks hwrite) fun started => ?_
  refine .bind (spiReads_asks hread) fun r => ?_
  exact .bind (.when fun _ => .bind (transfer_asks (hread _ _ _)) fun _ => .pure _) fun _ => .pure _

theorem i2cTransfer_asks {address : UInt8} {tx : Bytes} {rx : UInt32} {limits : Limits}
    (h : ∀ start write n stop, P (.bpio (.data start write n stop))) :
    Asks P (i2cTransfer address tx rx limits) := by
  unfold i2cTransfer
  exact .bind (.result _) fun _ => .bind (.refuse _) fun _ => .bind (.result _) fun _ =>
    transfer_asks (h _ _ _ _)

theorem i2cProbes_asks {found : Bytes} {addresses : List UInt8}
    (h : ∀ start byte n stop, P (.bpio (.data start [byte] n stop))) :
    Asks P (i2cProbes found addresses) := by
  induction addresses generalizing found with
  | nil => exact .pure _
  | cons address addresses ih =>
      unfold i2cProbes
      refine .bind (.outcome (Bpio2Adapter.transferWithLengthPolicy_asks (h _ _ _ _))) fun _ => ?_
      refine .bind (.outcome (Bpio2Adapter.transferWithLengthPolicy_asks (h _ _ _ _))) fun _ => ?_
      exact .bind (.result _) fun _ => ih

theorem i2cScan_asks {limits : Limits}
    (h : ∀ start byte n stop, P (.bpio (.data start [byte] n stop))) :
    Asks P (i2cScan limits) := by
  unfold i2cScan
  exact .bind (.refuse _) fun _ => i2cProbes_asks h

theorem uartCaptureLoop_asks {limits : Limits} {bytes : Bytes} {remaining : ℕ}
    (h : ∀ n, P (.bpio (.data false [] n false))) :
    Asks P (uartCaptureLoop limits bytes remaining) := by
  induction remaining using Nat.strong_induction_on generalizing bytes with
  | _ remaining ih =>
      rw [uartCaptureLoop]
      split
      · next hpos =>
          refine .bind (.result _) fun n => .bind (transfer_asks (h n)) fun received => ?_
          split
          · exact .pure _
          · refine ih _ ?_
            have := limits.read_pos
            omega
      · exact .pure _

theorem uartCapture_asks {max : UInt32} {limits : Limits}
    (h : ∀ n, P (.bpio (.data false [] n false))) : Asks P (uartCapture max limits) := by
  unfold uartCapture
  exact .bind (.result _) fun _ => uartCaptureLoop_asks h

theorem uartWrites_asks {list : List Bytes}
    (h : ∀ chunk ∈ list, P (.bpio (.data false chunk 0 false))) : Asks P (uartWrites list) := by
  induction list with
  | nil => exact .pure _
  | cons chunk rest ih =>
      unfold uartWrites
      refine .bind (transfer_asks (h chunk List.mem_cons_self)) fun _ => ?_
      exact ih fun chunk hchunk => h chunk (List.mem_cons_of_mem _ hchunk)

/-- The commands that read the identity of a flash, and the reads that follow them. -/
theorem identifyFlash_asks {limits : Limits}
    (hjedec : ∀ start, P (.bpio (.data start [0x9f] 0 false)))
    (hsfdp : ∀ start, P (.bpio (.data start [0x5a, 0, 0, 0, 0] 0 false)))
    (hread : ∀ start n stop, P (.bpio (.data start [] n stop))) :
    Asks P (identifyFlash limits) := by
  unfold identifyFlash
  refine .bind (spiTransfer_asks ?_ hread) fun response => .bind (.result _) fun jedec => ?_
  · intro chunk hchunk start
    rw [chunks_of_le limits.write_pos] at hchunk
    obtain rfl := List.mem_singleton.mp hchunk
    exact hjedec start
  · by_cases hlimit : limits.write < 5
    · rw [Action.refuse, if_pos hlimit]
      exact Action.Asks.throw (F := hardware) _
    · refine .bind (.refuse _) fun _ => .bind (spiTransfer_asks ?_ hread) fun _ => .pure _
      intro chunk hchunk start
      rw [chunks_of_le (Nat.not_lt.mp hlimit)] at hchunk
      obtain rfl := List.mem_singleton.mp hchunk
      exact hsfdp start

theorem verifyFlashIdentity_asks {binding : DeviceBinding} {limits : Limits}
    (hjedec : ∀ start, P (.bpio (.data start [0x9f] 0 false)))
    (hsfdp : ∀ start, P (.bpio (.data start [0x5a, 0, 0, 0, 0] 0 false)))
    (hread : ∀ start n stop, P (.bpio (.data start [] n stop))) :
    Asks P (verifyFlashIdentity binding limits) := by
  unfold verifyFlashIdentity
  exact .bind (.result _) fun _ => .bind (identifyFlash_asks hjedec hsfdp hread) fun _ => .refuse _

theorem flashReadLoop_asks {profile : FlashProfile} {limits : Limits} {cursor : UInt64}
    {bytes : Bytes} {remaining : ℕ}
    (h : ∀ cursor n, P (.bpio (.data true
      ((opcodes profile.mode).1 :: address profile.mode cursor) n true))) :
    Asks P (flashReadLoop profile limits cursor bytes remaining) := by
  induction remaining using Nat.strong_induction_on generalizing cursor bytes with
  | _ remaining ih =>
      rw [flashReadLoop]
      split
      · next hpos =>
          refine .bind (transferChunk_asks fun n => h cursor n) fun read =>
            .bind (.result _) fun cursor => ih _ ?_
          have := limits.read_pos
          omega
      · exact .pure _

theorem flashRead_asks {profile : FlashProfile} {offset : UInt64} {length : UInt32}
    {limits : Limits}
    (h : ∀ cursor n, P (.bpio (.data true
      ((opcodes profile.mode).1 :: address profile.mode cursor) n true))) :
    Asks P (flashRead profile offset length limits) := by
  unfold flashRead
  exact .bind (.result _) fun _ => .bind (.result _) fun _ => .bind (.refuse _) fun _ =>
    flashReadLoop_asks h

theorem writeEnable_asks (hwren : P (.bpio (.data true [0x06] 0 true)))
    (hpoll : P (.bpio (.data true [0x05] 1 true))) : Asks P writeEnable := by
  unfold writeEnable
  exact .bind (transfer_asks hwren) fun _ => .bind (transfer_asks hpoll) fun _ => .refuse _

theorem waitBusyClear_asks {patience : ℕ} (hpoll : P (.bpio (.data true [0x05] 1 true))) :
    Asks P (waitBusyClear patience) := by
  induction patience with
  | zero => exact .throw _
  | succ patience ih =>
      unfold waitBusyClear
      refine .bind (transfer_asks hpoll) fun status => ?_
      split
      · exact .pure _
      · exact ih

theorem mutate_asks {patience : ℕ} {command : Bytes} (hpoll : P (.bpio (.data true [0x05] 1 true)))
    (hcommand : P (.bpio (.data true command 0 true))) : Asks P (mutate patience command) := by
  unfold mutate
  exact .bind (transfer_asks hcommand) fun _ => waitBusyClear_asks hpoll

theorem flashErase_asks {patience : ℕ} {profile : FlashProfile} {offset : UInt64}
    {length : UInt32} {limits : Limits} (hwren : P (.bpio (.data true [0x06] 0 true)))
    (hpoll : P (.bpio (.data true [0x05] 1 true)))
    (h : ∀ absolute, P (.bpio (.data true
      ((opcodes profile.mode).2.2 :: address profile.mode absolute) 0 true))) :
    Asks P (flashErase patience profile offset length limits) := by
  unfold flashErase
  refine .bind (.result _) fun _ => .bind (.refuse _) fun _ => ?_
  generalize steps profile.eraseBytes.toNat length.toNat 0 = sectors
  induction sectors with
  | nil => exact .pure _
  | cons sector sectors ih =>
      unfold flashEraseLoop
      exact .bind (writeEnable_asks hwren hpoll) fun _ => .bind (.result _) fun absolute =>
        .bind (mutate_asks hpoll (h absolute)) fun _ => ih

theorem flashWriteLoop_asks {patience : ℕ} {profile : FlashProfile} {offset : UInt64}
    {bytes : Bytes} {payload : { payload : ℕ // 0 < payload }} {cursor : ℕ}
    (hwren : P (.bpio (.data true [0x06] 0 true))) (hpoll : P (.bpio (.data true [0x05] 1 true)))
    (h : ∀ absolute data, P (.bpio (.data true
      ((opcodes profile.mode).2.1 :: (address profile.mode absolute ++ data)) 0 true))) :
    Asks P (flashWriteLoop patience profile offset bytes payload cursor) := by
  generalize hleft : bytes.length - cursor = left
  induction left using Nat.strong_induction_on generalizing cursor with
  | _ left ih =>
      rw [flashWriteLoop]
      split
      · next hcursor =>
          refine .bind (.result _) fun absolute => .bind (writeEnable_asks hwren hpoll) fun _ =>
            .bind (mutate_asks hpoll (h absolute _)) fun _ => ?_
          refine ih _ ?_ rfl
          have := programCount_pos profile payload.2 absolute (Nat.sub_pos_of_lt hcursor)
          omega
      · exact .pure _

theorem flashWrite_asks {patience : ℕ} {profile : FlashProfile} {offset : UInt64} {bytes : Bytes}
    {limits : Limits} (hwren : P (.bpio (.data true [0x06] 0 true)))
    (hpoll : P (.bpio (.data true [0x05] 1 true)))
    (h : ∀ absolute data, P (.bpio (.data true
      ((opcodes profile.mode).2.1 :: (address profile.mode absolute ++ data)) 0 true))) :
    Asks P (flashWrite patience profile offset bytes limits) := by
  unfold flashWrite
  exact .bind (.result _) fun _ => .bind (.result _) fun _ => .bind (.result _) fun _ =>
    flashWriteLoop_asks hwren hpoll h

omit [Crates] in
theorem configured_asks {mode : String} {limits : Session (Option Limits)} {base : Value}
    {run : Limits → Session ResultData} (hlimits : Asks P limits) (hrun : ∀ l, Asks P (run l)) :
    Asks P (configured mode limits base run) := by
  unfold configured
  refine .bind hlimits fun l => ?_
  cases l with
  | none => exact .pure _
  | some l => exact hrun l

theorem rawOperation_asks {mode : String} {speed : UInt32} {base : Value} {reason : String}
    {reconcile configure : Bool} {run : Limits → Session ResultData} (hmode : mode ≠ "")
    (hstatus : P (.bpio .status)) (hset : reconcile = false → P (.bpio (modePacket mode speed)))
    (hrun : reconcile = false → ∀ l, Asks P (run l)) :
    Asks P (rawOperation mode speed base reason reconcile configure run) := by
  unfold rawOperation
  cases reconcile with
  | true => exact .pure _
  | false =>
      exact .bind (.result _) fun _ => .bind (ensureMode_asks hmode hstatus (hset rfl)) fun l =>
        hrun rfl l

end Bus

/-! ### The effects of requests -/

/-- What the payloads of an operation mean. -/
inductive PayloadKind where
  | raw
  | uart
  | flash
deriving DecidableEq

def payloadKind : Operation → PayloadKind
  | .spiTransfer .. | .i2cTransfer .. | .i2cScan .. => .raw
  | .uartCapture .. | .uartTransmit .. => .uart
  | _ => .flash

/-- The permission that a command to a flash needs: erase commands, program commands, and any
command that is not one of the reads and status commands. -/
def flashCommandEffects : Bytes → Finset EffectPermission
  | [] => ∅
  | opcode :: _ =>
      if opcode = 0x20 ∨ opcode = 0x21 then {.flashErase}
      else if opcode = 0x02 ∨ opcode = 0x12 then {.flashWrite}
      else if opcode ∈ ([0x9f, 0x5a, 0x03, 0x13, 0x05, 0x06] : List UInt8) then ∅
      else {.rawBusTransfer}

def payloadEffects (write : Bytes) : PayloadKind → Finset EffectPermission
  | .raw => {.rawBusTransfer}
  | .uart => if write = [] then ∅ else {.uartTransmit}
  | .flash => flashCommandEffects write

def packetEffects (kind : PayloadKind) : RequestPacket → Finset EffectPermission
  | .status => ∅
  | .configuration mode psu direction value pullup =>
      (if mode.isSome ∨ pullup.isSome then {.instrumentConfigure} else ∅) ∪
        ((if psu.isSome then {.powerSet} else ∅) ∪
          if direction.isSome ∨ value.isSome then {.gpioDrive} else ∅)
  | .data _ write _ _ => payloadEffects write kind

/-- The command lines that read a relay controller. -/
def relayReadings : List String := ["ver", "id get", "relay readall"]

/-- The permissions that a request needs when the operation makes it. -/
def performed (operation : Operation) : HardwareRequest → Finset EffectPermission
  | .bpio packet => packetEffects (payloadKind operation) packet
  | .numato line => if line ∈ relayReadings then ∅ else {.relayActuate}
  | _ => ∅

/-- A request needs no permission that the operation does not declare. -/
def Declared (operation : Operation) (request : HardwareRequest) : Prop :=
  performed operation request ⊆ operation.effectPermissions

instance (operation : Operation) (request : HardwareRequest) :
    Decidable (Declared operation request) :=
  inferInstanceAs (Decidable (performed operation request ⊆ operation.effectPermissions))

namespace Bus

/-! ### The requests of an operation -/

/-- The packets that an operation on a Bus Pirate can send. -/
inductive Sends (operation : Operation) (reconcile configure : Bool) : RequestPacket → Prop
  | status : Sends operation reconcile configure .status
  | mode (declared : .instrumentConfigure ∈ operation.effectPermissions)
      (allowed : reconcile = true → configure = true) (mode : String) (speed : UInt32) :
      Sends operation reconcile configure (modePacket mode speed)
  | raw (kind : payloadKind operation = .raw) (effect : reconcile = false) (start : Bool)
      (write : Bytes) (n : UInt16) (stop : Bool) :
      Sends operation reconcile configure (.data start write n stop)
  | transmit (kind : payloadKind operation = .uart)
      (declared : .uartTransmit ∈ operation.effectPermissions) (effect : reconcile = false)
      (write : Bytes) : Sends operation reconcile configure (.data false write 0 false)
  | capture (kind : payloadKind operation = .uart) (allowed : reconcile = true → configure = true)
      (n : UInt16) : Sends operation reconcile configure (.data false [] n false)
  | gpio (declared : .gpioDrive ∈ operation.effectPermissions) (effect : reconcile = false)
      (direction value : UInt8 × UInt8) :
      Sends operation reconcile configure (.configuration none none (some direction) (some value) none)
  | psu (declared : .powerSet ∈ operation.effectPermissions) (effect : reconcile = false)
      (setting : PsuSetting) :
      Sends operation reconcile configure (.configuration none (some setting) none none none)
  | jedec (kind : payloadKind operation = .flash) (allowed : reconcile = true → configure = true)
      (start : Bool) : Sends operation reconcile configure (.data start [0x9f] 0 false)
  | sfdp (kind : payloadKind operation = .flash) (allowed : reconcile = true → configure = true)
      (start : Bool) : Sends operation reconcile configure (.data start [0x5a, 0, 0, 0, 0] 0 false)
  | receive (kind : payloadKind operation = .flash) (allowed : reconcile = true → configure = true)
      (start : Bool) (n : UInt16) (stop : Bool) :
      Sends operation reconcile configure (.data start [] n stop)
  | read (kind : payloadKind operation = .flash) (allowed : reconcile = true → configure = true)
      (mode : AddressMode) (absolute : UInt64) (n : UInt16) :
      Sends operation reconcile configure
        (.data true ((opcodes mode).1 :: address mode absolute) n true)
  | writeEnable (kind : payloadKind operation = .flash)
      (declared : .flashErase ∈ operation.effectPermissions ∨
        .flashWrite ∈ operation.effectPermissions) (effect : reconcile = false) :
      Sends operation reconcile configure (.data true [0x06] 0 true)
  | poll (kind : payloadKind operation = .flash) (effect : reconcile = false) :
      Sends operation reconcile configure (.data true [0x05] 1 true)
  | erase (kind : payloadKind operation = .flash)
      (declared : .flashErase ∈ operation.effectPermissions) (effect : reconcile = false)
      (mode : AddressMode) (absolute : UInt64) :
      Sends operation reconcile configure
        (.data true ((opcodes mode).2.2 :: address mode absolute) 0 true)
  | program (kind : payloadKind operation = .flash)
      (declared : .flashWrite ∈ operation.effectPermissions) (effect : reconcile = false)
      (mode : AddressMode) (absolute : UInt64) (data : Bytes) :
      Sends operation reconcile configure
        (.data true ((opcodes mode).2.1 :: (address mode absolute ++ data)) 0 true)

/-- A request of an operation on a Bus Pirate. -/
def Requests (operation : Operation) (reconcile configure : Bool) : HardwareRequest → Prop
  | .bpio packet => Sends operation reconcile configure packet
  | _ => False

section execute

variable [Crates] {patience : ℕ} {binding : DeviceBinding} {artifacts : ArtifactResolver}
  {operation : Operation} {reconcile configure : Bool}

/-- The mode is configured only when a reconciliation may. -/
theorem modeLimits_requests {mode : String} {speed : UInt32} (hmode : mode ≠ "")
    (declared : .instrumentConfigure ∈ operation.effectPermissions) :
    Asks (Requests operation reconcile configure) (modeLimits mode speed configure) :=
  modeLimits_asks hmode .status fun h => .mode declared (fun _ => h) mode speed

/-- The limits of a mode are known only when the instrument was configured. -/
theorem configured_requests {mode : String} {speed : UInt32} {base : Value}
    {run : Limits → Session ResultData} (hmode : mode ≠ "")
    (declared : .instrumentConfigure ∈ operation.effectPermissions)
    (hrun : configure = true → ∀ limits, Asks (Requests operation reconcile configure) (run limits)) :
    Asks (Requests operation reconcile configure)
      (configured mode (modeLimits mode speed configure) base run) := by
  cases configure with
  | false => exact Action.Asks.pure (F := hardware) (modeUnavailable base mode)
  | true => exact configured_asks (modeLimits_requests hmode declared) (hrun rfl)

/-- Reading the identity of the flash. -/
theorem identity_requests (kind : payloadKind operation = .flash)
    (allowed : reconcile = true → configure = true) {limits : Limits} :
    Asks (Requests operation reconcile configure) (verifyFlashIdentity binding limits) :=
  verifyFlashIdentity_asks (.jedec kind allowed) (.sfdp kind allowed) (.receive kind allowed)

theorem flashRead_requests (kind : payloadKind operation = .flash)
    (allowed : reconcile = true → configure = true) {profile : FlashProfile} {offset : UInt64}
    {length : UInt32} {limits : Limits} :
    Asks (Requests operation reconcile configure) (flashRead profile offset length limits) :=
  flashRead_asks (.read kind allowed profile.mode)

theorem candidateOperation_requests {writes : Bool} {offset : UInt64} {source : ArtifactDigest}
    {length : UInt32} {base : Value} (kind : payloadKind operation = .flash)
    (declared : .instrumentConfigure ∈ operation.effectPermissions)
    (hwrites : writes = true → .flashWrite ∈ operation.effectPermissions) :
    Asks (Requests operation reconcile configure)
      (candidateOperation patience binding artifacts base reconcile configure writes offset source
        length) := by
  unfold candidateOperation
  refine .bind (.result _) fun profile => .bind (.result _) fun candidate =>
    .bind (.when fun _ => .result _) fun _ => configured_requests (by decide) declared ?_
  intro hc limits
  refine .bind (identity_requests kind fun _ => hc) fun _ => .bind (.when fun h => ?_) fun _ =>
    .bind (flashRead_requests kind fun _ => hc) fun _ => .pure _
  obtain ⟨hw, hr⟩ := Bool.and_eq_true_iff.mp h
  have hr : reconcile = false := by simpa using hr
  exact flashWrite_asks (.writeEnable kind (Or.inr (hwrites hw)) hr) (.poll kind hr)
    fun absolute data => .program kind (hwrites hw) hr profile.mode absolute data

/-- Every request of an operation is one that it can make. -/
theorem execute_requests :
    Asks (Requests operation reconcile configure)
      (execute patience binding operation artifacts reconcile configure) := by
  unfold execute
  refine .bind (identify_asks .status) fun fresh => ?_
  cases operation with
  | instrumentStatus => exact .pure _
  | spiTransfer t i tx rx =>
      refine rawOperation_asks (by decide) .status
        (fun hr => .mode (by simp [Operation.effectPermissions]) (by simp [hr]) _ _)
        fun hr limits =>
          .bind (spiTransfer_asks ?_ ?_) fun _ => .pure _
      · exact fun chunk _ start => .raw rfl hr start chunk 0 false
      · exact fun start n stop => .raw rfl hr start [] n stop
  | i2cTransfer t i address tx rx =>
      exact .bind (.refuse _) fun _ => rawOperation_asks (by decide) .status
        (fun hr => .mode (by simp [Operation.effectPermissions]) (by simp [hr]) _ _)
        fun hr limits =>
          .bind (i2cTransfer_asks fun start write n stop => .raw rfl hr start write n stop)
            fun _ => .pure _
  | i2cScan =>
      exact rawOperation_asks (by decide) .status
        (fun hr => .mode (by simp [Operation.effectPermissions]) (by simp [hr]) _ _)
        fun hr limits =>
          .bind (i2cScan_asks fun start byte n stop => .raw rfl hr start [byte] n stop)
            fun _ => .pure _
  | uartCapture t i max =>
      refine .bind (.when fun _ => .result _) fun _ => configured_requests (by decide)
        (by simp [Operation.effectPermissions]) ?_
      exact fun hc limits => .bind (uartCapture_asks (.capture rfl fun _ => hc)) fun _ => .pure _
  | uartTransmit t i bytes =>
      exact rawOperation_asks (by decide) .status
        (fun hr => .mode (by simp [Operation.effectPermissions]) (by simp [hr]) _ _)
        fun hr limits =>
          .bind (uartWrites_asks fun chunk _ => .transmit rfl
          (by simp [Operation.effectPermissions]) hr chunk) fun _ => .pure _
  | gpioSet t i pin high =>
      refine .bind (.result _) fun pin => .bind (.refuse _) fun _ => .bind (.result _) fun config =>
        .bind (.refuse _) fun _ => .bind (.when fun h => ?_) fun _ =>
          .bind (identify_asks .status) fun _ => .pure _
      exact .failing (Bpio2Adapter.setGpio_asks (.gpio (by simp [Operation.effectPermissions])
        (by simpa using h)))
  | adcRead => exact .bind (.result _) fun _ => .pure _
  | psuSet t i millivolts milliamps =>
      refine .bind (.result _) fun config => .bind (.refuse _) fun _ => .bind (.result _) fun _ =>
        .bind (.when fun h => ?_) fun _ => .bind (identify_asks .status) fun _ => .pure _
      exact .failing (Bpio2Adapter.setPsu_asks (.psu (by simp [Operation.effectPermissions])
        (by simpa using h)))
  | flashIdentify =>
      refine .bind (.when fun _ => .result _) fun _ => configured_requests (by decide)
        (by simp [Operation.effectPermissions]) ?_
      exact fun hc limits => .bind (identifyFlash_asks (.jedec rfl fun _ => hc)
        (.sfdp rfl fun _ => hc) (.receive rfl fun _ => hc)) fun _ => .pure _
  | flashRead t i offset length =>
      refine .bind (.result _) fun profile => .bind (.when fun _ => .result _) fun _ =>
        configured_requests (by decide)
        (by simp [Operation.effectPermissions]) ?_
      exact fun hc limits => .bind (identity_requests rfl fun _ => hc) fun _ =>
        .bind (flashRead_requests rfl fun _ => hc) fun _ => .pure _
  | flashErase t i offset length =>
      refine .bind (.result _) fun profile => .bind (.when fun _ => .result _) fun _ =>
        configured_requests (by decide)
        (by simp [Operation.effectPermissions]) ?_
      intro hc limits
      refine .bind (identity_requests rfl fun _ => hc) fun _ => .bind (.when fun h => ?_) fun _ =>
        .bind (flashRead_requests rfl fun _ => hc) fun _ => .pure _
      have hr : reconcile = false := by simpa using h
      exact flashErase_asks (.writeEnable rfl (Or.inl (by simp [Operation.effectPermissions])) hr)
        (.poll rfl hr)
        fun absolute => .erase rfl (by simp [Operation.effectPermissions]) hr profile.mode absolute
  | flashWrite t i offset source length =>
      exact candidateOperation_requests rfl (by simp [Operation.effectPermissions]) fun _ => by
        simp [Operation.effectPermissions]
  | flashVerify t i offset source length =>
      exact candidateOperation_requests rfl (by simp [Operation.effectPermissions])
        fun h => by cases h
  | relaySet | relayRead | videoCapture | wait => exact .throw _

end execute

end Bus

/-! ### The requests of a relay controller -/

section relays

variable {P : HardwareRequest → Prop}

section adapter

variable [Formatter]

theorem NumatoAdapter.command_asks {line : String} (h : P (.numato line)) :
    Action.Asks (F := hardware) P (NumatoAdapter.command line) := by
  unfold NumatoAdapter.command
  exact .bind (.ask h) fun _ => .bind (.result _) fun _ => .result _

theorem NumatoAdapter.readRelays_asks (h : P (.numato "relay readall")) :
    Action.Asks (F := hardware) P NumatoAdapter.readRelays := by
  unfold NumatoAdapter.readRelays
  exact .bind (NumatoAdapter.command_asks h) fun _ => .result _

theorem NumatoAdapter.identify_asks (h : ∀ line ∈ relayReadings, P (.numato line)) :
    Action.Asks (F := hardware) P NumatoAdapter.identify := by
  unfold NumatoAdapter.identify
  exact .bind (NumatoAdapter.command_asks (h _ (by decide))) fun _ =>
    .bind (NumatoAdapter.command_asks (h _ (by decide))) fun _ => .pure _

theorem NumatoAdapter.setRelay_asks {relay : UInt8} {state : RelayState}
    (hset : P (.numato (NumatoAdapter.relayCommand relay state)))
    (hread : P (.numato "relay readall")) :
    Action.Asks (F := hardware) P (NumatoAdapter.setRelay relay state) := by
  unfold NumatoAdapter.setRelay
  exact .bind (.refuse _) fun _ => .bind (NumatoAdapter.command_asks hset) fun _ =>
    NumatoAdapter.readRelays_asks hread

end adapter

/-- An operation that asks for a relay state declares it. -/
theorem relayTarget_declared {operation : Operation} {relay : Option UInt16} {closed : Bool}
    (h : relayTarget operation = some (relay, some closed)) :
    .relayActuate ∈ operation.effectPermissions := by
  cases operation with
  | relaySet => simp [Operation.effectPermissions]
  | _ => cases h

variable [Crates]

theorem actuateRelay_asks {config : NumatoConfig} {relay : UInt16} {expected : Option Bool}
    {reconcile : Bool} (hread : P (.numato "relay readall"))
    (hset : reconcile = false → expected ≠ none →
      ∀ relay state, P (.numato (NumatoAdapter.relayCommand relay state))) :
    Action.Asks (F := hardware) P (actuateRelay config relay expected reconcile) := by
  unfold actuateRelay
  refine .bind (.result _) fun relay => .bind (.refuse _) fun _ => ?_
  cases expected with
  | none => exact .pure _
  | some closed =>
      refine .bind (.when fun h => ?_) fun _ => .pure _
      exact .bind (.failing (NumatoAdapter.setRelay_asks
        (hset (by simpa using h) (by simp) _ _) hread)) fun _ => .pure _

/-- Apart from reading the relays, an operation may only set the relay that it asks for. -/
theorem relayOperation_asks {config : InstrumentConfig} {operation : Operation} {reconcile : Bool}
    (hread : P (.numato "relay readall"))
    (hset : reconcile = false → .relayActuate ∈ operation.effectPermissions →
      ∀ relay state, P (.numato (NumatoAdapter.relayCommand relay state))) :
    Action.Asks (F := hardware) P (relayOperation config operation reconcile) := by
  have hrest : ∀ (relay : Option UInt8) (expected : Option Bool),
      Action.Asks (F := hardware) P (do
        let states ← Action.failing transport NumatoAdapter.readRelays
        return relayResult relay expected reconcile states : Action hardware Unit BackendError _) :=
    fun _ _ => .bind (.failing (NumatoAdapter.readRelays_asks hread)) fun _ => .pure _
  unfold relayOperation
  refine .bind (.result _) fun config => ?_
  cases ht : relayTarget operation with
  | none => exact .throw _
  | some target =>
      refine .checked fun same h => ?_
      obtain rfl := Except.ok.inj h
      obtain ⟨_ | relay, expected⟩ := target
      · exact .bind (.pure _) fun _ => hrest _ _
      · refine .bind (.map some (actuateRelay_asks hread fun hr he => hset hr ?_)) fun _ =>
          hrest _ _
        obtain ⟨closed, rfl⟩ := Option.ne_none_iff_exists'.mp he
        exact relayTarget_declared ht

end relays

/-! ### Declared effects -/

section packets

variable {operation : Operation}

theorem declared_raw (kind : payloadKind operation = .raw) (write : Bytes) :
    payloadEffects write (payloadKind operation) ⊆ operation.effectPermissions := by
  rw [kind]
  refine Finset.singleton_subset_iff.mpr ?_
  cases operation with
  | spiTransfer | i2cTransfer | i2cScan => simp [Operation.effectPermissions]
  | _ => cases kind

/-- A flash command needs at most a permission that is declared. -/
theorem declared_command {command : Bytes} (kind : payloadKind operation = .flash)
    (h : flashCommandEffects command ⊆ operation.effectPermissions) :
    payloadEffects command (payloadKind operation) ⊆ operation.effectPermissions := by
  rw [kind]
  exact h

theorem read_effects (mode : AddressMode) (rest : Bytes) :
    flashCommandEffects ((Bus.opcodes mode).1 :: rest) = ∅ := by
  cases mode <;> rfl

theorem erase_effects (mode : AddressMode) (rest : Bytes) :
    flashCommandEffects ((Bus.opcodes mode).2.2 :: rest) = {.flashErase} := by
  cases mode <;> rfl

theorem program_effects (mode : AddressMode) (rest : Bytes) :
    flashCommandEffects ((Bus.opcodes mode).2.1 :: rest) = {.flashWrite} := by
  cases mode <;> rfl

/-- A packet of an operation that takes effect is one that the operation declares. -/
theorem sends_declared {configure : Bool} {packet : RequestPacket}
    (h : Bus.Sends operation false configure packet) : Declared operation (.bpio packet) := by
  cases h with
  | status => exact Finset.empty_subset _
  | mode declared | gpio declared | psu declared =>
      simpa [Declared, performed, packetEffects, Bus.modePacket] using declared
  | raw kind _ _ write => exact declared_raw kind write
  | transmit kind declared _ write =>
      show payloadEffects write (payloadKind operation) ⊆ _
      rw [kind, payloadEffects]
      split
      · exact Finset.empty_subset _
      · exact Finset.singleton_subset_iff.mpr declared
  | capture kind =>
      show payloadEffects [] (payloadKind operation) ⊆ _
      rw [kind]
      exact Finset.empty_subset _
  | jedec kind | sfdp kind | receive kind | writeEnable kind | poll kind =>
      exact declared_command kind (Finset.empty_subset _)
  | read kind _ mode absolute =>
      refine declared_command kind ?_
      rw [read_effects]
      exact Finset.empty_subset _
  | erase kind declared _ mode absolute =>
      refine declared_command kind ?_
      rw [erase_effects]
      exact Finset.singleton_subset_iff.mpr declared
  | program kind declared _ mode absolute data =>
      refine declared_command kind ?_
      rw [program_effects]
      exact Finset.singleton_subset_iff.mpr declared

end packets

/-- Whatever the devices answer, an operation makes only requests whose effects it declares. -/
theorem declared_effects [Crates] (patience : ℕ) (binding : DeviceBinding) (operation : Operation)
    (artifacts : ArtifactResolver) (configure : Bool) (config : InstrumentConfig) :
    Action.Asks (F := hardware) (Declared operation)
        (Bus.execute patience binding operation artifacts false configure) ∧
      Action.Asks (F := hardware) (Declared operation) (relayOperation config operation false) := by
  constructor
  · refine Bus.execute_requests.mono fun request h => ?_
    cases request with
    | bpio packet => exact sends_declared h
    | _ => exact h.elim
  · refine relayOperation_asks (Finset.empty_subset _) fun _ declared relay state => ?_
    rw [Declared, performed]
    split
    · exact Finset.empty_subset _
    · exact Finset.singleton_subset_iff.mpr declared

end Cheirismos
