import Cheirismos.Captures
import Cheirismos.Declared
import Mathlib.Algebra.Order.BigOperators.Group.List

/-! # The payload of an operation

An operation reserves `worst_case_budget().bytes` before it is dispatched.

* `moved` counts the payload bytes that an exchange writes to or reads from the target: not the
  opcodes and addresses of flash commands, not the address bytes of I2C, and not the status of a
  flash.
* `Moves` says what an operation moves in a run that ends well; every operation on a flash moves
  the identity of the flash besides its own bytes.
* `Covered` says when the reservation covers this, and `budget_covers_iff` that it is exact.

Each helper of the bus has a lemma about what it spends of this measure. -/

namespace Cheirismos

open Process

namespace Bus

/-! ### Payload bytes -/

/-- The bytes that a command to a flash programs. -/
def programmedBytes : Bytes → ℕ
  | [] => 0
  | opcode :: rest =>
      if opcode = 0x02 then rest.length - 3 else if opcode = 0x12 then rest.length - 4 else 0

/-- The payload bytes of an exchange that writes these bytes and receives so many. -/
def payload (operation : Operation) (write : Bytes) (received : ℕ) : ℕ :=
  match operation with
  | .spiTransfer .. | .uartCapture .. | .uartTransmit .. => write.length + received
  | .i2cTransfer .. | .i2cScan .. => write.length - 1 + received
  | _ => programmedBytes write + if write = [0x05] then 0 else received

/-- The payload bytes that an exchange moves. -/
def moved (operation : Operation) (x : Exchange hardware) : ℕ :=
  match x.request with
  | .bpio (.data _ write _ _) => payload operation write (received x)
  | _ => 0

def movedBytes (operation : Operation) (tr : List (Exchange hardware)) : ℕ :=
  (tr.map (moved operation)).sum

/-- The operation works on a flash. -/
def onFlash : Operation → Bool
  | .flashIdentify .. | .flashRead .. | .flashErase .. | .flashWrite .. | .flashVerify .. => true
  | _ => false

/-- A request that carries no payload. -/
def Bare : HardwareRequest → Prop
  | .bpio (.data _ _ _ _) => False
  | _ => True

theorem moved_bare {operation : Operation} {x : Exchange hardware} (h : Bare x.request) :
    moved operation x = 0 := by
  unfold moved
  split
  · next heq =>
      rw [heq] at h
      exact h.elim
  · rfl

/-! ### What the helpers spend -/

section helpers

variable [Crates] {operation : Operation} {limits : Limits} {binding : DeviceBinding}

/-- A helper spends payload bytes. -/
abbrev Spends {α : Type} (operation : Operation) (x : Session α) (P : α → ℕ → Prop) : Prop :=
  Action.Spends (F := hardware) (moved operation) x P

omit [Crates] in
theorem bare_spends {α : Type} {x : Session α} {P : α → ℕ → Prop} (h : Asks Bare x)
    (hP : ∀ a, P a 0) : Spends operation x P :=
  .of_asks h (fun _ hbare => moved_bare hbare) hP

theorem transfer_spends (t : Transfer) (exact : Bool) : Spends operation
    (linked (Bpio2Adapter.transferWithLengthPolicy t.write t.count t.start t.stop exact))
    (fun read n => n = payload operation t.write read.length ∧
      (exact = true → read.length = t.count.toNat)) := by
  refine .of_meets (I := fun _ => True) (E := fun _ _ _ => True) fun a => .failing
    (transfer_settles trivial trivial (fun _ => trivial) (fun _ _ _ => trivial)
      (fun _ _ _ _ => trivial) fun v read hsettle => ⟨?_, ?_⟩)
  · show payload operation t.write (received (t.answered v)) + 0 = _
    rw [received_of_settle hsettle, Nat.add_zero]
  · rintro rfl
    exact (Transfer.replied_of_settle hsettle).length

/-- What a script of transfers spends. -/
def scriptPayload (operation : Operation) (ts : List Transfer) : ℕ :=
  (ts.map fun t => payload operation t.write t.count.toNat).sum

theorem Conducted.moved {a : Bpio2Adapter} {ts : List Transfer} {tr : List (Exchange hardware)}
    {replies : List Bytes} (h : Conducted a ts tr replies) :
    movedBytes operation tr = scriptPayload operation ts := by
  induction h with
  | nil => rfl
  | @cons t ts v read tr replies _ _ first rest ih =>
      have hreceived : received (t.answered v) = t.count.toNat := by
        obtain ⟨response, rfl, hread⟩ := first
        show repliedBytes response = _
        rw [repliedBytes, readOf_none hread]
        exact Bpio2Adapter.readOf_length hread
      rw [movedBytes, List.map_cons, List.sum_cons, scriptPayload, List.map_cons, List.sum_cons]
      refine congrArg₂ (· + ·) ?_ ih
      show payload operation t.write (received (t.answered v)) = _
      rw [hreceived]

theorem Scripted.spends {α : Type} {ts : List Transfer} {x : Session α}
    {Q : List Bytes → α → Prop} (h : ∀ a, Scripted a ts x Q) :
    Spends operation x fun _ n => n = scriptPayload operation ts := by
  refine .of_meets (I := fun _ => True) (E := fun _ _ _ => True) fun a =>
    (h a).weaken (fun _ _ => trivial) (fun _ _ _ _ _ => trivial) ?_
  rintro _ _ tr _ ⟨_, replies, hconducted, _⟩
  exact hconducted.moved

theorem ensureMode_spends {mode : String} {speed : UInt32} (hmode : mode ≠ "") :
    Spends operation (ensureMode mode speed) fun _ n => n = 0 :=
  bare_spends (ensureMode_asks hmode trivial trivial) fun _ => rfl

/-! Buses -/

theorem spiTransfer_spends {tx : Bytes} {rxBytes : UInt32} : Spends operation
    (spiTransfer tx rxBytes limits)
    (fun _ n => n = scriptPayload operation (spiTransfers limits tx rxBytes.toNat)) := by
  cases hbounded : boundedCapture rxBytes with
  | error e =>
      rw [spiTransfer, hbounded]
      exact .throw e
  | ok u => exact Scripted.spends fun a => spiTransfer_scripted hbounded

omit [Crates] in
/-- A raw transfer moves what it writes and what it reads. -/
theorem rawScript_payload {tx : Bytes} {rx : ℕ}
    (hraw : ∀ write received, payload operation write received = write.length + received) :
    scriptPayload operation (spiTransfers limits tx rx) = tx.length + rx := by
  have hsum : ∀ ts : List Transfer, scriptPayload operation ts =
      (ts.map (·.write)).flatten.length + (ts.map (·.count.toNat)).sum := by
    intro ts
    induction ts with
    | nil => rfl
    | cons t ts ih =>
        simp only [scriptPayload, List.map_cons, List.sum_cons, List.flatten_cons,
          List.length_append, hraw] at ih ⊢
        omega
  rw [hsum, spiTransfers_written, spiTransfers_asked]

omit [Crates] in
/-- A command that reads from a flash moves what it reads. -/
theorem commandScript_payload {command : Bytes} {rx : ℕ} (hne : command ≠ [])
    (hfits : command.length ≤ limits.write) (hcommand : payload operation command 0 = 0)
    (hread : ∀ received, payload operation [] received = received) :
    scriptPayload operation (spiTransfers limits command rx) = rx := by
  have htail : ∀ ts : List Transfer, (∀ t ∈ ts, t.write = []) →
      scriptPayload operation ts = (ts.map (·.count.toNat)).sum := by
    intro ts h
    refine congrArg List.sum (List.map_congr_left fun t ht => ?_)
    rw [h t ht, hread]
  have hwrites : writeTransfers false (chunks limits.write command) =
      [⟨true, command, 0, false⟩] := by
    rw [chunks_of_le hfits, if_neg hne]
    rfl
  have hasked : ((spiTransfers limits command rx).map (·.count.toNat)).sum = rx :=
    spiTransfers_asked
  rw [spiTransfers, hwrites, List.singleton_append, List.map_cons, List.sum_cons] at hasked
  rw [spiTransfers, hwrites, List.singleton_append, scriptPayload, List.map_cons, List.sum_cons]
  have htail := htail (spiTail limits command rx) fun t ht => (mem_spiTail ht).1
  rw [scriptPayload] at htail
  rw [htail, show payload operation command (UInt16.toNat 0) = 0 from hcommand]
  exact hasked

theorem i2cTransfer_spends {address : UInt8} {tx : Bytes} {rxBytes : UInt32}
    (hi2c : ∀ write received, payload operation write received = write.length - 1 + received) :
    Spends operation (i2cTransfer address tx rxBytes limits)
      (fun _ n => n = tx.length + rxBytes.toNat ∧ tx.length < 2 ^ 16) := by
  have hlt := limits.write_le
  refine .checked fun _ _ => .refused fun hfits => .checked fun count hcount => ?_
  refine Action.Spends.mono (transfer_spends
    ⟨true, i2cWriteAddress address :: tx, count, true⟩ true) ?_
  rintro read n ⟨rfl, hexact⟩
  have hcount' : count.toNat = rxBytes.toNat := by
    unfold u16TryFrom at hcount
    split_ifs at hcount with h
    cases hcount
    rw [UInt32.toNat_toUInt16, Nat.mod_eq_of_lt h]
  rw [hi2c, hexact rfl, List.length_cons, Nat.add_sub_cancel, hcount']
  exact ⟨rfl, by omega⟩

theorem uartWrites_spends {rest : List Bytes}
    (hraw : ∀ write received, payload operation write received = write.length + received) :
    Spends operation (uartWrites rest) (fun _ n => n = rest.flatten.length) := by
  induction rest with
  | nil => exact .pure rfl
  | cons chunk rest ih =>
      refine .bind (transfer_spends ⟨false, chunk, 0, false⟩ true) ?_
      rintro read n ⟨rfl, hexact⟩
      refine Action.Spends.mono ih ?_
      rintro _ m rfl
      rw [hraw, hexact rfl, List.flatten_cons, List.length_append]
      rfl

theorem uartTransmit_spends {bytes : Bytes}
    (hraw : ∀ write received, payload operation write received = write.length + received) :
    Spends operation (uartTransmit bytes limits) (fun _ n => n = bytes.length) := by
  refine Action.Spends.mono (uartWrites_spends hraw) ?_
  rintro _ n rfl
  rw [chunks_flatten limits.write_pos]

/-! Flash -/

omit [Crates] in
theorem payload_flash (h : onFlash operation = true) (write : Bytes) (received : ℕ) :
    payload operation write received =
      programmedBytes write + if write = [0x05] then 0 else received := by
  cases operation <;> first | rfl | cases h

theorem identifyFlash_spends (h : onFlash operation = true) :
    Spends operation (identifyFlash limits) (fun _ n => n = 259) := by
  have hread : ∀ received, payload operation [] received = received := fun received => by
    rw [payload_flash h]
    exact Nat.zero_add _
  refine .bind spiTransfer_spends ?_
  rintro response n rfl
  refine .bind (.result (P := fun _ n => n = 0) fun _ _ => rfl) ?_
  rintro jedec _ rfl
  refine .refused fun hfits => .bind spiTransfer_spends ?_
  rintro sfdp n rfl
  have hjedec : scriptPayload operation (spiTransfers limits [0x9f] 3) = 3 :=
    commandScript_payload (by decide) (Nat.succ_le_of_lt limits.write_pos)
      (by rw [payload_flash h]; rfl) hread
  have hsfdp : scriptPayload operation (spiTransfers limits [0x5a, 0, 0, 0, 0] 256) = 256 :=
    commandScript_payload (by decide) (Nat.not_lt.mp hfits) (by rw [payload_flash h]; rfl) hread
  refine .pure ?_
  show scriptPayload operation (spiTransfers limits [0x9f] 3) +
    (0 + (scriptPayload operation (spiTransfers limits [0x5a, 0, 0, 0, 0] 256) + 0)) = 259
  rw [hjedec, hsfdp]

theorem verifyFlashIdentity_spends (h : onFlash operation = true) :
    Spends operation (verifyFlashIdentity binding limits) (fun _ n => n = 259) := by
  refine .checked fun identity _ => .bind (identifyFlash_spends h) ?_
  rintro found n rfl
  exact .result fun _ _ => rfl

omit [Crates] in
theorem readScript_payload {mode : AddressMode} {first remaining : ℕ}
    (h : onFlash operation = true) :
    scriptPayload operation (readTransfers mode limits first remaining) = remaining := by
  induction remaining using Nat.strong_induction_on generalizing first with
  | _ remaining ih =>
      have hread := limits.read_pos
      by_cases hpos : 0 < remaining
      · have hone : payload operation (readOpcode mode :: address mode (UInt64.ofNat first))
            (UInt16.ofNat (min remaining limits.read)).toNat = min remaining limits.read := by
          rw [payload_flash h, readCount_toNat]
          cases mode <;> exact Nat.zero_add _
        rw [readTransfers, readPieces_of_pos hpos, List.map_cons, scriptPayload, List.map_cons,
          List.sum_cons]
        refine (congrArg₂ (· + ·) hone (ih _ (by omega))).trans ?_
        show min remaining limits.read + (remaining - min remaining limits.read) = remaining
        omega
      · obtain rfl := Nat.eq_zero_of_not_pos hpos
        rw [readTransfers, readPieces_zero]
        rfl

theorem flashRead_spends {profile : FlashProfile} {offset : UInt64} {length : UInt32}
    (h : onFlash operation = true) :
    Spends operation (flashRead profile offset length limits) (fun _ n => n = length.toNat) := by
  refine .checked fun _ _ => .checked fun _ hrange => .refused fun _ => ?_
  have hlast := validateRange_ok_iff.mp (layout_ok hrange)
  have hcapacity := profile.geometry.capacityBytes.toNat_lt
  have hloop : ∀ a, Scripted a (readTransfers profile.mode limits offset.toNat length.toNat)
      (flashReadLoop profile limits (UInt64.ofNat offset.toNat) [] length.toNat)
      (fun replies b => b = [] ++ replies.flatten) := fun a => flashReadLoop_scripted (by omega)
  rw [UInt64.ofNat_toNat] at hloop
  refine (Scripted.spends hloop).mono ?_
  rintro _ n rfl
  exact readScript_payload h

/-! ### What an operation moves -/

theorem configured_spends {mode : String} {speed : UInt32} {base : Value} {configure : Bool}
    {run : Limits → Session ResultData} {P : ℕ → Prop} (hmode : mode ≠ "")
    (hnone : configure = false → P 0)
    (hrun : configure = true → ∀ limits, Spends operation (run limits) fun _ n => P n) :
    Spends operation (configured mode (modeLimits mode speed configure) base run)
      fun _ n => P n := by
  cases configure with
  | false => exact .pure (a := modeUnavailable base mode) (hnone rfl)
  | true =>
      have hmode : Spends operation (modeLimits mode speed true) fun l n => l.isSome ∧ n = 0 := by
        refine .bind (ensureMode_spends hmode) ?_
        rintro limits _ rfl
        exact .pure ⟨rfl, rfl⟩
      refine .bind hmode ?_
      rintro limits _ ⟨hsome, rfl⟩
      obtain ⟨limits, rfl⟩ := Option.isSome_iff_exists.mp hsome
      simp only [Nat.zero_add]
      exact hrun rfl limits

theorem rawOperation_spends {mode : String} {speed : UInt32} {base : Value} {reason : String}
    {reconcile configure : Bool} {run : Limits → Session ResultData} {P : ℕ → Prop}
    (hmode : mode ≠ "") (hnone : reconcile = true → P 0)
    (hrun : reconcile = false → ∀ limits, Spends operation (run limits) fun _ n => P n) :
    Spends operation (rawOperation mode speed base reason reconcile configure run)
      fun _ n => P n := by
  cases reconcile with
  | true => exact .pure (a := unknownRaw base reason) (hnone rfl)
  | false =>
      refine .checked fun _ _ => .bind (ensureMode_spends hmode) ?_
      rintro limits _ rfl
      simp only [Nat.zero_add]
      exact hrun rfl limits

/-- The bytes that an operation moves when it ends well. -/
def Moves (operation : Operation) (reconcile configureInstrument : Bool) (n : ℕ) : Prop :=
  match operation with
  | .spiTransfer _ _ tx rxBytes => n = if reconcile then 0 else tx.length + rxBytes.toNat
  | .i2cTransfer _ _ _ tx rxBytes =>
      n ≤ tx.length + rxBytes.toNat ∧ (n = 0 ∨ tx.length < 2 ^ 16)
  | .uartTransmit _ _ bytes => n = if reconcile then 0 else bytes.length
  | .flashIdentify .. => n = if configureInstrument then 259 else 0
  | .flashRead _ _ _ length | .flashErase _ _ _ length | .flashWrite _ _ _ _ length
  | .flashVerify _ _ _ _ length =>
      if configureInstrument then 259 + length.toNat ≤ n else n = 0
  | .i2cScan .. | .uartCapture .. => True
  | _ => n = 0

omit [Crates] in
/-- A check spends nothing. -/
theorem whenResult_spends {condition : Bool} {r : Except BackendError Unit} :
    Spends operation (Action.when condition (Action.result r)) fun _ n => n = 0 :=
  bare_spends (.when fun _ => .result _) fun _ => rfl

theorem candidateOperation_spends {patience : ℕ} {artifacts : ArtifactResolver} {base : Value}
    {reconcile configure writes : Bool} {offset : UInt64} {source : ArtifactDigest}
    {length : UInt32} (h : onFlash operation = true) :
    Spends operation (candidateOperation patience binding artifacts base reconcile configure writes
      offset source length)
      fun _ n => if configure then 259 + length.toNat ≤ n else n = 0 := by
  refine .checked fun profile _ => .checked fun candidate _ => .bind whenResult_spends ?_
  rintro _ _ rfl
  simp only [Nat.zero_add]
  refine configured_spends (P := fun n => if configure then 259 + length.toNat ≤ n else n = 0)
    (by decide) ?_ ?_
  · rintro rfl
    rfl
  · rintro rfl limits
    refine .bind (verifyFlashIdentity_spends h) ?_
    rintro _ _ rfl
    refine .bind .any fun _ n _ => .bind (flashRead_spends h) ?_
    rintro actual _ rfl
    refine .pure ?_
    show 259 + length.toNat ≤ 259 + (n + (length.toNat + 0))
    omega

theorem execute_moves {patience : ℕ} {artifacts : ArtifactResolver} {reconcile configure : Bool} :
    Spends operation (execute patience binding operation artifacts reconcile configure)
      fun _ n => Moves operation reconcile configure n := by
  unfold execute
  refine .bind (bare_spends (P := fun _ n => n = 0) (identify_asks trivial) fun _ => rfl) ?_
  rintro fresh _ rfl
  simp only [Nat.zero_add]
  cases operation with
  | instrumentStatus => exact .pure rfl
  | spiTransfer t i tx rx =>
      refine rawOperation_spends (P := fun n => n = if reconcile then 0 else tx.length + rx.toNat)
        (by decide) (fun hr => (if_pos hr).symm) fun hr limits => .bind spiTransfer_spends ?_
      rintro bytes n rfl
      refine .pure ?_
      rw [hr, Nat.add_zero, rawScript_payload fun _ _ => rfl]
      rfl
  | i2cTransfer t i address tx rx =>
      refine .refused fun _ => rawOperation_spends
        (P := fun n => n ≤ tx.length + rx.toNat ∧ (n = 0 ∨ tx.length < 2 ^ 16))
        (by decide) (fun _ => ⟨Nat.zero_le _, Or.inl rfl⟩) fun hr limits =>
          .bind (i2cTransfer_spends fun _ _ => rfl) ?_
      rintro bytes n ⟨rfl, hlength⟩
      exact .pure ⟨le_refl _, Or.inr hlength⟩
  | i2cScan | uartCapture => exact .any
  | uartTransmit t i bytes =>
      refine rawOperation_spends (P := fun n => n = if reconcile then 0 else bytes.length)
        (by decide) (fun hr => (if_pos hr).symm) fun hr limits =>
          .bind (uartTransmit_spends fun _ _ => rfl) ?_
      rintro _ n rfl
      refine .pure ?_
      rw [hr]
      rfl
  | gpioSet t i pin high =>
      refine .checked fun pin _ => .refused fun _ => .checked fun config _ => .refused fun _ =>
        bare_spends (.bind (.when fun _ => ?_) fun _ => .bind (identify_asks trivial) fun _ =>
          .pure _) fun _ => rfl
      exact .failing (Bpio2Adapter.setGpio_asks fun _ _ => trivial)
  | adcRead => exact .checked fun _ _ => .pure rfl
  | psuSet t i millivolts milliamps =>
      refine .checked fun config _ => .refused fun _ => .checked fun _ _ =>
        bare_spends (.bind (.when fun _ => ?_) fun _ => .bind (identify_asks trivial) fun _ =>
          .pure _) fun _ => rfl
      exact .failing (Bpio2Adapter.setPsu_asks fun _ => trivial)
  | flashIdentify =>
      refine .bind whenResult_spends ?_
      rintro _ _ rfl
      simp only [Nat.zero_add]
      refine configured_spends (P := fun n => n = if configure then 259 else 0) (by decide)
        (fun hc => by rw [hc]; rfl) fun hc limits => .bind (identifyFlash_spends rfl) ?_
      rintro found n rfl
      refine .pure ?_
      rw [hc]
      rfl
  | flashRead t i offset length =>
      refine .checked fun profile _ => .bind whenResult_spends ?_
      rintro _ _ rfl
      simp only [Nat.zero_add]
      refine configured_spends (P := fun n => if configure then 259 + length.toNat ≤ n else n = 0)
        (by decide) (fun hc => by rw [hc]; rfl) fun hc limits =>
          .bind (verifyFlashIdentity_spends rfl) ?_
      rintro _ _ rfl
      refine .bind (flashRead_spends rfl) ?_
      rintro bytes _ rfl
      refine .pure ?_
      rw [hc]
      exact le_refl _
  | flashErase t i offset length =>
      refine .checked fun profile _ => .bind whenResult_spends ?_
      rintro _ _ rfl
      simp only [Nat.zero_add]
      refine configured_spends (P := fun n => if configure then 259 + length.toNat ≤ n else n = 0)
        (by decide) (fun hc => by rw [hc]; rfl) fun hc limits =>
          .bind (verifyFlashIdentity_spends rfl) ?_
      rintro _ _ rfl
      refine .bind .any fun _ n _ => .bind (flashRead_spends rfl) ?_
      rintro actual _ rfl
      refine .pure ?_
      rw [hc]
      show 259 + length.toNat ≤ 259 + (n + (length.toNat + 0))
      omega
  | flashWrite | flashVerify => exact candidateOperation_spends rfl
  | relaySet | relayRead | videoCapture | wait => exact .throw _

/-! Operations whose course depends on the answers. -/

/-- Requests that write no more than so many bytes. -/
def Writes (most : ℕ) : HardwareRequest → Prop
  | .bpio (.data _ write _ _) => write.length ≤ most
  | _ => True

variable {patience : ℕ} {artifacts : ArtifactResolver} {target : TargetId}
  {instrument : InstrumentId} {reconcile configure : Bool} {a a' : Bpio2Adapter}
  {tr : List (Exchange hardware)} {result : ResultData}

theorem i2cScan_moves (h : ((execute patience binding (.i2cScan target instrument) artifacts
    reconcile configure).start a).Runs tr (some (.ok result, a'))) :
    movedBytes (.i2cScan target instrument) tr = receivedBytes tr := by
  have hasks : Asks (Writes 1) (execute patience binding (.i2cScan target instrument) artifacts
      reconcile configure) :=
    .bind (identify_asks trivial) fun _ => rawOperation_asks (by decide) trivial
      (fun _ => trivial) fun _ limits =>
        .bind (i2cScan_asks fun _ _ _ _ => le_refl _) fun _ => .pure _
  refine congrArg List.sum (List.map_congr_left fun x hx => ?_)
  have hwrites := hasks.runs h x hx
  obtain ⟨request, answer⟩ := x
  cases request with
  | bpio packet =>
      cases packet with
      | data start write n stop =>
          show write.length - 1 + _ = _
          rw [Nat.sub_eq_zero_of_le hwrites, Nat.zero_add]
      | _ => rfl
  | _ => rfl

theorem uartCapture_moves {maxBytes : UInt32}
    (h : ((execute patience binding (.uartCapture target instrument maxBytes) artifacts
      reconcile configure).start a).Runs tr (some (.ok result, a'))) :
    movedBytes (.uartCapture target instrument maxBytes) tr = receivedBytes tr ∧
      requestedBytes tr ≤ maxBytes.toNat := by
  constructor
  · have hasks : Asks (Writes 0) (execute patience binding (.uartCapture target instrument maxBytes)
        artifacts reconcile configure) :=
      .bind (identify_asks trivial) fun _ => .bind (.when fun _ => .result _) fun _ =>
        configured_asks (modeLimits_asks (by decide) trivial fun _ => trivial) fun limits =>
          .bind (uartCapture_asks fun _ => le_refl _) fun _ => .pure _
    refine congrArg List.sum (List.map_congr_left fun x hx => ?_)
    have hwrites := hasks.runs h x hx
    obtain ⟨request, answer⟩ := x
    cases request with
    | bpio packet =>
        cases packet with
        | data start write n stop =>
            show write.length + _ = _
            rw [Nat.le_zero.mp hwrites, Nat.zero_add]
        | _ => rfl
    | _ => rfl
  · let cost : Exchange hardware → ℕ := fun x => requested x.request
    have hbare : ∀ y : Exchange hardware, Bare y.request → cost y = 0 := by
      rintro ⟨request, answer⟩ hbare
      cases request with
      | bpio packet =>
          cases packet with
          | data => exact hbare.elim
          | _ => rfl
      | _ => rfl
    have hloop : ∀ limits, Action.Spends (F := hardware) cost (uartCapture maxBytes limits)
        fun _ n => n ≤ maxBytes.toNat := fun limits =>
      .checked fun _ _ => .of_meets (I := fun _ => True) (E := fun _ _ _ => True) fun a s o hr =>
        ⟨trivial, fun _ _ _ => trivial, fun _ _ _ => (uartCaptureLoop_meets s o hr).1⟩
    suffices hspends : Action.Spends (F := hardware) cost (execute patience binding
        (.uartCapture target instrument maxBytes) artifacts reconcile configure)
        fun _ n => n ≤ maxBytes.toNat from hspends a tr result a' h
    refine .bind (P := fun _ n => n = 0)
      (.of_asks (identify_asks (P := Bare) trivial) hbare fun _ => rfl) ?_
    rintro fresh _ rfl
    refine .bind (P := fun _ n => n = 0)
      (.of_asks (Z := Bare) (.when fun _ => .result _) hbare fun _ => rfl) ?_
    rintro _ _ rfl
    refine .bind (P := fun _ n => n = 0) (.of_asks (Z := Bare)
      (modeLimits_asks (by decide) trivial fun _ => trivial) hbare fun _ => rfl) ?_
    rintro limits _ rfl
    cases limits with
    | none => exact .pure (Nat.zero_le _)
    | some limits =>
        refine .bind (hloop limits) fun bytes n hn => .pure ?_
        omega

end helpers

/-! ### The reservation -/

/-- The bytes that the operation reserves cover what it moves: it does not touch a flash, and its
device returns no more than the operation asks for. -/
def Covered (operation : Operation) (reconcile configureInstrument : Bool)
    (tr : List (Exchange hardware)) : Prop :=
  match operation with
  | .spiTransfer _ _ tx rxBytes => reconcile = true ∨ tx.length + rxBytes.toNat < 2 ^ 64
  | .uartTransmit _ _ bytes => reconcile = true ∨ bytes.length < 2 ^ 64
  | .i2cScan .. => ∀ x ∈ tr, received x = 0
  | .uartCapture _ _ maxBytes => excessBytes tr ≤ maxBytes.toNat - deliveredBytes tr
  | .flashIdentify .. | .flashRead .. | .flashErase .. | .flashWrite .. | .flashVerify .. =>
      configureInstrument = false
  | _ => True

theorem transferBudget_toNat {tx : Bytes} {rxBytes : UInt32} :
    (UInt64.ofNat tx.length + rxBytes.toUInt64).toNat =
      (tx.length + rxBytes.toNat) % 2 ^ 64 := by
  rw [UInt64.toNat_add, UInt64.toNat_ofNat', UInt32.toNat_toUInt64, Nat.mod_add_mod]

end Bus

open Bus in
/-- A run of an operation moves no more than the operation reserves exactly when it is covered. -/
theorem budget_covers_iff [Crates] (patience : ℕ) (binding : DeviceBinding)
    (operation : Operation) (artifacts : ArtifactResolver) (reconcile configureInstrument : Bool)
    (a a' : Bpio2Adapter) (tr : List (Exchange hardware)) (result : ResultData)
    (h : ((execute patience binding operation artifacts reconcile configureInstrument).start a).Runs
      tr (some (.ok result, a'))) :
    movedBytes operation tr ≤ operation.worstCaseBudget.bytes.toNat ↔
      Covered operation reconcile configureInstrument tr := by
  have hmoves : Moves operation reconcile configureInstrument (movedBytes operation tr) :=
    execute_moves a tr result a' h
  cases operation with
  | spiTransfer t i tx rx =>
      show _ ≤ (UInt64.ofNat tx.length + rx.toUInt64).toNat ↔ _
      rw [transferBudget_toNat, show movedBytes _ tr = _ from hmoves]
      cases reconcile with
      | true => exact ⟨fun _ => Or.inl rfl, fun _ => Nat.zero_le _⟩
      | false =>
          show tx.length + rx.toNat ≤ _ ↔ (false = true ∨ _)
          simp only [Bool.false_eq_true, false_or]
          omega
  | i2cTransfer t i address tx rx =>
      have hrx := rx.toNat_lt
      obtain ⟨hle, hlength⟩ := hmoves
      refine iff_of_true ?_ trivial
      show _ ≤ (UInt64.ofNat tx.length + rx.toUInt64).toNat
      rw [transferBudget_toNat]
      omega
  | i2cScan =>
      rw [i2cScan_moves h]
      show receivedBytes tr ≤ 0 ↔ _
      rw [Nat.le_zero, receivedBytes, List.sum_eq_zero_iff, List.forall_mem_map]
      rfl
  | uartCapture t i max =>
      obtain ⟨hmoved, hrequested⟩ := uartCapture_moves h
      have hdelivered := (deliveredBytes_le tr).trans hrequested
      rw [hmoved, receivedBytes_eq]
      show _ ≤ max.toUInt64.toNat ↔ excessBytes tr ≤ max.toNat - deliveredBytes tr
      rw [UInt32.toNat_toUInt64]
      omega
  | uartTransmit t i bytes =>
      show _ ≤ (UInt64.ofNat bytes.length).toNat ↔ _
      rw [UInt64.toNat_ofNat', show movedBytes _ tr = _ from hmoves]
      cases reconcile with
      | true => exact ⟨fun _ => Or.inl rfl, fun _ => Nat.zero_le _⟩
      | false =>
          show bytes.length ≤ _ ↔ (false = true ∨ _)
          simp only [Bool.false_eq_true, false_or]
          omega
  | flashIdentify =>
      rw [show movedBytes _ tr = _ from hmoves]
      cases configureInstrument with
      | true => exact iff_of_false (Nat.not_succ_le_zero 258) (by rintro ⟨⟩)
      | false => exact iff_of_true (Nat.zero_le _) rfl
  | flashRead t i offset length | flashErase t i offset length
  | flashWrite t i offset source length | flashVerify t i offset source length =>
      show _ ≤ length.toUInt64.toNat ↔ _
      rw [UInt32.toNat_toUInt64]
      cases configureInstrument with
      | true =>
          have hmoves : 259 + length.toNat ≤ movedBytes _ tr := hmoves
          exact iff_of_false (by omega) (by rintro ⟨⟩)
      | false =>
          rw [show movedBytes _ tr = 0 from hmoves]
          exact iff_of_true (Nat.zero_le _) rfl
  | _ =>
      rw [show movedBytes _ tr = 0 from hmoves]
      exact iff_of_true (Nat.zero_le _) trivial

/-! ### On the rig -/

section rig

open Rig Bus

/-- The flash behind the Bus Pirate of the rig, with the identity it answers. -/
def Rig.flasherBinding : DeviceBinding where
  config := .bpio2
    { serial := ⟨"/dev/serial/by-id/flasher", 115200, "flasher"⟩
      spiHz := 1000000
      i2cHz := 400000
      uartBaud := 115200
      psuMaxMillivolts := 3300
      psuMaxMilliamps := 100
      pinMap := ⟨[], by simp⟩
      flashCapacityBytes := some 8192
      flashPageBytes := some 4
      flashEraseBytes := some 4096
      flashFourByteAddressing := false }
  targetFingerprint := Bench.mark "target"
  fixtureRevision := Bench.mark "fixture"
  flashIdentity := some ⟨(0, 0, 0), Platform.sha256 (List.replicate 256 0)⟩

def Rig.readOperation : Operation := .flashRead Bench.target flasher 0 4

/-- The flash of the rig is read. -/
def Rig.readRun : List (Exchange hardware) × (Except BackendError ResultData × Bpio2Adapter) × State :=
  ((execute 1 flasherBinding readOperation artifacts false true).start adapter).against
    respond ⟨none, List.replicate 8192 7, false⟩

theorem readRun_runs : ∃ result a', ((execute 1 flasherBinding readOperation artifacts false
    true).start adapter).Runs readRun.1 (some (.ok result, a')) := by
  have hended : readRun.2.1.1.isOk = true := by decide +kernel
  have hruns : ((execute 1 flasherBinding readOperation artifacts false true).start adapter).Runs
      readRun.1 (some readRun.2.1) := Program.against_runs respond _ _
  cases hr : readRun.2.1 with
  | mk r a' =>
      rw [hr] at hended hruns
      cases r with
      | error e => cases hended
      | ok result => exact ⟨result, a', hruns⟩

theorem budget_covers_iff_rig :
    movedBytes readOperation readRun.1 ≤ readOperation.worstCaseBudget.bytes.toNat ↔
      Covered readOperation false true readRun.1 := by
  obtain ⟨result, a', hruns⟩ := readRun_runs
  exact budget_covers_iff 1 flasherBinding readOperation artifacts false true adapter a' _ result
    hruns

/-- A read of four bytes moves the identity of the flash too. -/
theorem flashRead_exceeds_budget : (∃ result a', ((execute 1 flasherBinding readOperation artifacts false
    true).start adapter).Runs readRun.1 (some (.ok result, a'))) ∧
      ¬ movedBytes readOperation readRun.1 ≤ readOperation.worstCaseBudget.bytes.toNat :=
  ⟨readRun_runs, by decide +kernel⟩

end rig

end Cheirismos
