import Cheirismos.Failures
import Cheirismos.Regions

/-! # Two planners of flash commands

`NorPlan::for_operation` plans the commands of an erase or a write; `flash_erase` and `flash_write`
send such commands themselves, with status reads between them and a limit on each write.

* `NorPlan.blocks` is how a plan lists its commands.  `forOperation_erase` and `forOperation_write`
  give the plans in closed form.
* `Pieces mode command group` says that the group programs the data of one command in consecutive
  pieces.
* `Follows` says of a plan and the operation on the bus that both are rejected for the same inputs,
  and that otherwise every run has begun the commands of the plan, can only fail by a fault of the
  device, and has completed the commands when it ends well. -/

namespace Cheirismos

open Process

/-! ### Plans in closed form -/

namespace NorPlan

/-- Each command with the write enable before it and the poll after it. -/
def blocks (commands : List Bytes) : List NorCommand :=
  commands.flatMap fun command => [.transfer [0x06] 0, .transfer command 0, .pollBusyClear]

variable {geometry : FlashGeometry} {offset : UInt64} {length : UInt32} {bytes : Bytes}

theorem opcodes_eq (geometry : FlashGeometry) :
    geometry.opcodes = Bus.opcodes geometry.addressMode := by
  unfold FlashGeometry.opcodes
  cases geometry.addressMode <;> rfl

theorem address_eq (geometry : FlashGeometry) (absolute : UInt64) :
    geometry.address absolute = Bus.address geometry.addressMode absolute := by
  unfold FlashGeometry.address
  cases geometry.addressMode <;> rfl

theorem erasePlan_ok {sectors : List ℕ}
    (h : ∀ relative ∈ sectors, offset.toNat + relative < 2 ^ 64) :
    erasePlan geometry offset length sectors =
      .ok (blocks (Bus.eraseCommands (.of geometry) offset sectors)) := by
  induction sectors with
  | nil => rfl
  | cons relative sectors ih =>
      rw [erasePlan, Bus.checkedAdd_ofNat (h relative List.mem_cons_self),
        ih fun r hr => h r (List.mem_cons_of_mem _ hr), opcodes_eq]
      simp only [address_eq]
      rfl

/-- A plan takes whole pages. -/
theorem pageCount_eq {cursor : ℕ} (h : offset.toNat + bytes.length < 2 ^ 64)
    (hcursor : cursor < bytes.length) :
    min (pageRemaining geometry.pageBytes (UInt64.ofNat (offset.toNat + cursor)))
        (bytes.length - cursor) =
      Paging.next geometry.pageBytes.toNat geometry.pageBytes.toNat (offset.toNat + cursor)
        (offset.toNat + bytes.length) := by
  have htoNat : (UInt64.ofNat (offset.toNat + cursor)).toNat = offset.toNat + cursor :=
    UInt64.toNat_ofNat_of_lt' (show offset.toNat + cursor < 2 ^ 64 by omega)
  have hroom := Paging.room_le geometry.pageBytes.toNat (offset.toNat + cursor)
  rw [Bus.pageRemaining_eq geometry.page_ne_zero, htoNat, Paging.next]
  omega

theorem writePlan_ok {cursor : ℕ} (h : offset.toNat + bytes.length < 2 ^ 64) :
    writePlan geometry offset length bytes cursor =
      .ok (blocks (Bus.programCommands geometry.addressMode offset bytes
        (Bus.writePieces geometry.pageBytes geometry.pageBytes.toNat offset bytes cursor))) := by
  have hpage : 0 < geometry.pageBytes.toNat := Bus.page_pos (.of geometry)
  generalize hleft : bytes.length - cursor = left
  induction left using Nat.strong_induction_on generalizing cursor with
  | _ left ih =>
      rw [writePlan]
      by_cases hcursor : cursor < bytes.length
      · have hpos := Paging.next_pos hpage hpage
          (show offset.toNat + cursor < offset.toNat + bytes.length by omega)
        rw [dif_pos hcursor, Bus.checkedAdd_ofNat (by omega)]
        simp only [bind, Except.bind, pageCount_eq h hcursor]
        rw [ih _ (by omega) rfl, Bus.programCommands_of_lt _ hpage hpage hcursor rfl, opcodes_eq,
          address_eq]
        rfl
      · have hnone : Bus.writePieces geometry.pageBytes geometry.pageBytes.toNat offset bytes
            cursor = [] := Paging.slices_of_le (by omega)
        rw [dif_neg hcursor, hnone]
        rfl

/-- The sectors of an erase in the range. -/
theorem forOperation_erase (h : geometry.validateErase offset length = .ok ()) :
    forOperation geometry (.erase offset length) =
      .ok ⟨blocks (Bus.eraseCommands (.of geometry) offset
        (Bus.eraseSectors (.of geometry) length)), 0⟩ := by
  have hrange := (Bus.validateErase_ok_iff.mp h).1
  have hcapacity := geometry.capacityBytes.toNat_lt
  have hplan : erasePlan geometry offset length (Bus.eraseSectors (.of geometry) length) = _ :=
    erasePlan_ok fun relative hr => by
      have := Bus.steps_lt hr
      omega
  rw [forOperation, h]
  exact congrArg (fun plan => plan.bind fun commands => .ok (⟨commands, 0⟩ : NorPlan)) hplan

theorem forOperation_erase_error {e : FlashLayoutError}
    (h : geometry.validateErase offset length = .error e) :
    forOperation geometry (.erase offset length) = .error e := by
  rw [forOperation, h]
  rfl

/-- The pages of a write in the range. -/
theorem forOperation_write (hlength : bytes.length < 2 ^ 32)
    (h : offset.toNat + bytes.length ≤ geometry.capacityBytes.toNat) :
    forOperation geometry (.write offset bytes) =
      .ok ⟨blocks (Bus.programCommands geometry.addressMode offset bytes
        (Bus.writePieces geometry.pageBytes geometry.pageBytes.toNat offset bytes 0)), 0⟩ := by
  have htoNat : (UInt32.ofNat bytes.length).toNat = bytes.length :=
    UInt32.toNat_ofNat_of_lt' hlength
  have hcapacity := geometry.capacityBytes.toNat_lt
  have hplan : writePlan geometry offset (UInt32.ofNat bytes.length) bytes 0 = _ :=
    writePlan_ok (by omega)
  rw [forOperation, lengthOf, if_pos hlength]
  simp only [bind, Except.bind, Bus.validateRange_ok_iff.mpr (htoNat.symm ▸ h), hplan]
  rfl

theorem forOperation_write_error (h : ¬ (bytes.length < 2 ^ 32 ∧
    offset.toNat + bytes.length ≤ geometry.capacityBytes.toNat)) :
    ∃ e, forOperation geometry (.write offset bytes) = .error e := by
  rw [forOperation, lengthOf]
  by_cases hlength : bytes.length < 2 ^ 32
  · have htoNat : (UInt32.ofNat bytes.length).toNat = bytes.length :=
      UInt32.toNat_ofNat_of_lt' hlength
    rw [if_pos hlength]
    cases hrange : geometry.validateRange offset (UInt32.ofNat bytes.length) with
    | error e => exact ⟨e, by simp only [bind, Except.bind, hrange]⟩
    | ok u =>
        have hle := Bus.validateRange_ok_iff.mp hrange
        rw [htoNat] at hle
        exact absurd ⟨hlength, hle⟩ h
  · rw [if_neg hlength]
    exact ⟨_, rfl⟩

end NorPlan

/-! ### How the bus starts -/

namespace Bus

variable [Crates] {patience : ℕ} {profile : FlashProfile} {offset : UInt64} {bytes : Bytes}

/-- Nothing is sent before the error. -/
def RejectsUnsent (x : Session Unit) : Prop :=
  ∀ a : Bpio2Adapter, ∃ e, x.start a = .pure (.error e, a)

/-- The adapter lets a write enable pass. -/
def Carries (a : Bpio2Adapter) : Prop :=
  Bpio2Adapter.withinLimits a.discovery [0x06] 0 = .ok () ∧
    Crates.packetLength (.data true [0x06] 0 true) ≤ a.frameLimit

/-- The first request of an erase or a write that has something to do. -/
theorem writeEnable_starts {a : Bpio2Adapter} (h : Carries a) :
    ∃ next, writeEnable.start a = .ask (issue [0x06] 0) next := by
  refine Action.start_bind_ask (Action.start_failing_ask ?_)
  obtain ⟨hlimits, hframe⟩ := h
  show ∃ next, Action.start (Action.result (Bpio2Adapter.withinLimits a.discovery [0x06] 0) >>=
    fun _ => Bpio2Adapter.request (.data true [0x06] 0 true) >>= fun response =>
      Action.result (Bpio2Adapter.readOf response (some 0)) : Bpio2Adapter.Link Bytes) a = _
  rw [hlimits]
  refine Action.start_bind_ask (x := Bpio2Adapter.request (.data true [0x06] 0 true)) ?_
  show ∃ next, Action.start (Action.refuse
    (a.frameLimit < Crates.packetLength (.data true [0x06] 0 true)) (.frameTooLarge a.frameLimit) >>=
      fun _ => Action.ask (F := hardware) (issue [0x06] 0) >>= fun response =>
        Action.result (Bpio2Adapter.received a.frameLimit response) :
          Bpio2Adapter.Link ResponsePacket) a = _
  rw [Action.refuse, if_neg (Nat.not_lt.mpr hframe)]
  exact ⟨_, rfl⟩

/-- The operation follows the plan; `Splits` relates the planned commands and the ones sent. -/
structure Follows (planned : Except FlashLayoutError NorPlan) (x : Session Unit)
    (Splits : List Bytes → List Bytes → Prop) : Prop where
  rejected : (∃ e, planned = .error e) ↔ RejectsUnsent x
  followed : ∀ plan, planned = .ok plan → ∃ commands sent,
    plan.commands = NorPlan.blocks commands ∧ Splits commands sent ∧
    ∀ a tr o, (x.start a).Runs tr o → Begun sent tr ∧
      (∀ e a', o = some (.error e, a') → MutationFault e) ∧
      ∀ a', o = some (.ok (), a') → Completed sent tr

section follows

variable {planned : Except FlashLayoutError NorPlan} {x : Session Unit}
  {Splits : List Bytes → List Bytes → Prop}

theorem follows_of_error (hplanned : ∃ e, planned = .error e) (hrejects : RejectsUnsent x) :
    Follows planned x Splits := by
  obtain ⟨e, rfl⟩ := hplanned
  exact ⟨iff_of_true ⟨e, rfl⟩ hrejects, fun plan hplan => by cases hplan⟩

/-- An accepted operation starts with a write enable, unless there is nothing to do. -/
theorem follows_of_ok {commands sent : List Bytes}
    (hplanned : planned = .ok ⟨NorPlan.blocks commands, 0⟩) (hsplits : Splits commands sent)
    (hstarts : ∀ a, Carries a → (∃ next, x.start a = .ask (issue [0x06] 0) next) ∨
      x.start a = .pure (.ok (), a))
    (hmeets : ∀ a, x.Meets a (Begun sent) (fun _ _ _ => True) (fun _ _ tr => Completed sent tr))
    (hraises : x.Raises MutationFault) : Follows planned x Splits := by
  subst hplanned
  refine ⟨iff_of_false (fun h => ?_) fun h => ?_, fun plan hplan => ?_⟩
  · obtain ⟨e, h⟩ := h
    cases h
  · have hcarries : Carries ⟨Crates.packetLength (.data true [0x06] 0 true), none⟩ :=
      ⟨rfl, le_refl _⟩
    obtain ⟨e, hrejected⟩ := h ⟨Crates.packetLength (.data true [0x06] 0 true), none⟩
    rcases hstarts _ hcarries with ⟨next, hstart⟩ | hstart
    · rw [hstart] at hrejected
      cases hrejected
    · rw [hstart] at hrejected
      cases hrejected
  · cases hplan
    refine ⟨commands, sent, rfl, hsplits, fun a tr o hr => ?_⟩
    obtain ⟨hbegun, _, hok⟩ := hmeets a tr o hr
    refine ⟨hbegun, fun e a' ho => ?_, fun a' ho => hok () a' ho⟩
    subst ho
    exact hraises a tr e a' hr

end follows

/-! ### Erasing -/

/-- After its checks, an erase is its loop. -/
theorem flashErase_eq {length : UInt32} {limits : Limits}
    (hvalid : profile.geometry.validateErase offset length = .ok ())
    (hlimits : 1 + (address profile.mode offset).length < limits.write) :
    flashErase patience profile offset length limits =
      flashEraseLoop patience profile offset (eraseSectors profile length) := by
  rw [flashErase, hvalid, Action.refuse, if_neg (Nat.not_lt.mpr hlimits.le)]
  rfl

theorem flashEraseLoop_starts {sectors : List ℕ} {a : Bpio2Adapter} (h : Carries a) :
    (∃ next, (flashEraseLoop patience profile offset sectors).start a =
      .ask (issue [0x06] 0) next) ∨
      (flashEraseLoop patience profile offset sectors).start a = .pure (.ok (), a) := by
  cases sectors with
  | nil => exact Or.inr rfl
  | cons relative sectors => exact Or.inl (Action.start_bind_ask (writeEnable_starts h))

theorem flashErase_follows {geometry : FlashGeometry} {length : UInt32} {limits : Limits}
    (hlimits : 1 + (address geometry.addressMode offset).length < limits.write) :
    Follows (NorPlan.forOperation geometry (.erase offset length))
      (flashErase patience (.of geometry) offset length limits)
      (fun commands sent => sent = commands) := by
  cases hvalid : geometry.validateErase offset length with
  | error e =>
      refine follows_of_error ⟨e, NorPlan.forOperation_erase_error hvalid⟩ fun a => ?_
      have hgeometry : (FlashProfile.of geometry).geometry.validateErase offset length = .error e :=
        hvalid
      rw [flashErase, hgeometry]
      exact ⟨_, rfl⟩
  | ok u =>
      have hbound : ∀ relative ∈ eraseSectors (.of geometry) length,
          offset.toNat + relative < 2 ^ 64 := eraseSectors_bounded hvalid
      rw [@flashErase_eq _ patience (.of geometry) offset length limits hvalid hlimits]
      exact follows_of_ok (NorPlan.forOperation_erase hvalid) rfl
        (fun a h => flashEraseLoop_starts h) (fun a => flashEraseLoop_meets hbound)
        (flashEraseLoop_raises hbound)

/-! ### Programming -/

/-- The group programs the data from the address on, piece by piece. -/
inductive Pieces (mode : AddressMode) : ℕ → Bytes → List Bytes → Prop
  | nil (first : ℕ) : Pieces mode first [] []
  | cons {first : ℕ} {data rest : Bytes} {group : List Bytes} (pos : data ≠ [])
      (others : Pieces mode (first + data.length) rest group) :
      Pieces mode first (data ++ rest) (programCommand mode first data :: group)

/-- Each command has a group of its own. -/
def Split (mode : AddressMode) (commands sent : List Bytes) : Prop :=
  ∃ groups, sent = groups.flatten ∧ List.Forall₂ (fun command group =>
    ∃ first data, command = programCommand mode first data ∧ Pieces mode first data group)
    commands groups

omit [Crates] in
theorem programCommands_pieces {mode : AddressMode} {a b : ℕ} {pieces : List (ℕ × ℕ)}
    (h : Paging.Covers a pieces b) (ha : offset.toNat ≤ a) (hb : b ≤ offset.toNat + bytes.length) :
    Pieces mode a (pieceBytes offset bytes (a, b - a))
      (programCommands mode offset bytes pieces) := by
  induction h with
  | nil a =>
      rw [Nat.sub_self]
      exact .nil a
  | @cons a n b pieces pos rest ih =>
      have hle := rest.le
      have hlength : (pieceBytes offset bytes (a, n)).length = n :=
        pieceBytes_length ha (show a + n ≤ _ by omega)
      have hsplit : pieceBytes offset bytes (a, b - a) =
          pieceBytes offset bytes (a, n) ++ pieceBytes offset bytes (a + n, b - (a + n)) := by
        rw [pieceBytes, pieceBytes, pieceBytes, show b - a = n + (b - (a + n)) by omega,
          List.take_add, List.drop_drop, show a - offset.toNat + n = a + n - offset.toNat by omega]
      rw [hsplit]
      refine .cons (fun hnil => ?_) (hlength.symm ▸ ih (by omega) hb)
      rw [hnil] at hlength
      exact absurd hlength (Nat.ne_of_lt pos)

omit [Crates] in
/-- A smaller payload splits the commands of whole pages. -/
theorem writePieces_split {mode : AddressMode} {pageBytes : UInt32} {payload : ℕ}
    (hpage : 0 < pageBytes.toNat) (hpayload : 0 < payload) :
    Split mode
      (programCommands mode offset bytes (writePieces pageBytes pageBytes.toNat offset bytes 0))
      (programCommands mode offset bytes (writePieces pageBytes payload offset bytes 0)) := by
  have hcoarse : Paging.Covers offset.toNat (writePieces pageBytes pageBytes.toNat offset bytes 0)
      (offset.toNat + bytes.length) :=
    Paging.slices_covers hpage hpage (Nat.le_add_right _ _)
  have hrefine : writePieces pageBytes payload offset bytes 0 =
      (writePieces pageBytes pageBytes.toNat offset bytes 0).flatMap fun piece =>
        Paging.slices pageBytes.toNat payload piece.1 (piece.1 + piece.2) :=
    Paging.slices_refine hpage hpayload (le_refl _) _
  refine ⟨(writePieces pageBytes pageBytes.toNat offset bytes 0).map fun piece =>
    programCommands mode offset bytes
      (Paging.slices pageBytes.toNat payload piece.1 (piece.1 + piece.2)), ?_, ?_⟩
  · rw [hrefine, programCommands, List.map_flatMap, List.flatMap_def]
    rfl
  · rw [programCommands, List.forall₂_map_left_iff, List.forall₂_map_right_iff, List.forall₂_same]
    intro piece hmem
    obtain ⟨hfirst, _, hlast⟩ := hcoarse.within hmem
    have hfine : Paging.Covers piece.1 (Paging.slices pageBytes.toNat payload piece.1
        (piece.1 + piece.2)) (piece.1 + piece.2) :=
      Paging.slices_covers hpage hpayload (Nat.le_add_right _ _)
    have hpieces : Pieces mode piece.1 (pieceBytes offset bytes
        (piece.1, piece.1 + piece.2 - piece.1)) _ := programCommands_pieces hfine hfirst hlast
    rw [Nat.add_sub_cancel_left] at hpieces
    exact ⟨piece.1, _, rfl, hpieces⟩

/-- After its checks, a write is its loop. -/
theorem flashWrite_eq {limits : Limits} (hlength : bytes.length < 2 ^ 32)
    (hrange : offset.toNat + bytes.length ≤ profile.geometry.capacityBytes.toNat)
    (hpayload : 0 < payloadOf profile offset limits) :
    flashWrite patience profile offset bytes limits =
      flashWriteLoop patience profile offset bytes ⟨payloadOf profile offset limits, hpayload⟩ 0 := by
  have htoNat : (UInt32.ofNat bytes.length).toNat = bytes.length :=
    UInt32.toNat_ofNat_of_lt' hlength
  have hlimit : flashProgramPayloadLimit limits (1 + (address profile.mode offset).length) =
      .ok ⟨payloadOf profile offset limits, hpayload⟩ := by
    have hpos : 0 < limits.write - (1 + (address profile.mode offset).length) := hpayload
    rw [flashProgramPayloadLimit, if_neg (by omega), dif_neg (by omega)]
    rfl
  rw [flashWrite, u32OfUsize, if_pos hlength, hlimit]
  show (Action.result (layout (profile.geometry.validateRange offset (UInt32.ofNat bytes.length))) >>=
    fun _ => _) = _
  rw [validateRange_ok_iff.mpr (htoNat.symm ▸ hrange)]
  rfl

theorem flashWriteLoop_starts {payload : { payload : ℕ // 0 < payload }} {cursor : ℕ}
    {a : Bpio2Adapter} (hbound : offset.toNat + bytes.length < 2 ^ 64) (h : Carries a) :
    (∃ next, (flashWriteLoop patience profile offset bytes payload cursor).start a =
      .ask (issue [0x06] 0) next) ∨
      (flashWriteLoop patience profile offset bytes payload cursor).start a = .pure (.ok (), a) := by
  rw [flashWriteLoop]
  by_cases hcursor : cursor < bytes.length
  · rw [dif_pos hcursor, checkedOffset_eq (by omega)]
    exact Or.inl (Action.start_bind_ask (x := writeEnable) (writeEnable_starts h))
  · rw [dif_neg hcursor]
    exact Or.inr rfl

/-- A write that does not fit is rejected before anything is sent. -/
theorem flashWrite_rejects {limits : Limits} (h : ¬ (bytes.length < 2 ^ 32 ∧
    offset.toNat + bytes.length ≤ profile.geometry.capacityBytes.toNat)) :
    RejectsUnsent (flashWrite patience profile offset bytes limits) := by
  intro a
  rw [flashWrite, u32OfUsize]
  by_cases hlength : bytes.length < 2 ^ 32
  · have htoNat : (UInt32.ofNat bytes.length).toNat = bytes.length :=
      UInt32.toNat_ofNat_of_lt' hlength
    rw [if_pos hlength]
    cases hrange : profile.geometry.validateRange offset (UInt32.ofNat bytes.length) with
    | error e =>
        show ∃ e', ((Action.result (layout (profile.geometry.validateRange offset
          (UInt32.ofNat bytes.length))) >>= fun _ => _ : Session Unit)).start a = .pure (.error e', a)
        rw [hrange]
        exact ⟨_, rfl⟩
    | ok u =>
        have hle := validateRange_ok_iff.mp hrange
        rw [htoNat] at hle
        exact absurd ⟨hlength, hle⟩ h
  · rw [if_neg hlength]
    exact ⟨_, rfl⟩

theorem flashWrite_follows {geometry : FlashGeometry} {limits : Limits}
    (hlimits : 1 + (address geometry.addressMode offset).length < limits.write) :
    Follows (NorPlan.forOperation geometry (.write offset bytes))
      (flashWrite patience (.of geometry) offset bytes limits)
      (fun commands sent => Split geometry.addressMode commands sent ∧
        (geometry.pageBytes.toNat ≤ payloadOf (.of geometry) offset limits → sent = commands)) := by
  by_cases h : bytes.length < 2 ^ 32 ∧
      offset.toNat + bytes.length ≤ geometry.capacityBytes.toNat
  · have hpage : 0 < geometry.pageBytes.toNat := page_pos (.of geometry)
    have hpayload : 0 < payloadOf (.of geometry) offset limits := Nat.sub_pos_of_lt hlimits
    have hbound : offset.toNat + bytes.length < 2 ^ 64 := by
      have := geometry.capacityBytes.toNat_lt
      omega
    rw [@flashWrite_eq _ patience (.of geometry) offset bytes limits h.1 h.2 hpayload]
    refine follows_of_ok (NorPlan.forOperation_write h.1 h.2)
      ⟨writePieces_split hpage hpayload, fun hle => ?_⟩
      (fun a hcarries => flashWriteLoop_starts hbound hcarries)
      (fun a => flashWriteLoop_meets hbound) (flashWriteLoop_raises hbound)
    exact congrArg (programCommands geometry.addressMode offset bytes)
      (Paging.slices_of_page_le hpage hle (le_refl _) _)
  · exact follows_of_error (NorPlan.forOperation_write_error h) (flashWrite_rejects h)

end Bus

/-! ### Agreement -/

/-- For limits that leave room for the payload of a command, the planner and the bus reject the same
operations and otherwise carry out the same erase commands, and the same program commands up to
cutting them into pieces. -/
theorem planners_agree [Crates] (geometry : FlashGeometry) (offset : UInt64) (length : UInt32)
    (bytes : Bytes) (limits : Bus.Limits) (patience : ℕ)
    (hlimits : 1 + (Bus.address geometry.addressMode offset).length < limits.write) :
    Bus.Follows (NorPlan.forOperation geometry (.erase offset length))
      (Bus.flashErase patience (.of geometry) offset length limits)
      (fun commands sent => sent = commands) ∧
    Bus.Follows (NorPlan.forOperation geometry (.write offset bytes))
      (Bus.flashWrite patience (.of geometry) offset bytes limits)
      (fun commands sent => Bus.Split geometry.addressMode commands sent ∧
        (geometry.pageBytes.toNat ≤ Bus.payloadOf (.of geometry) offset limits → sent = commands)) :=
  ⟨Bus.flashErase_follows hlimits, Bus.flashWrite_follows hlimits⟩

open Rig in
/-- Three payload bytes fit into a command of the rig, whose pages have four. -/
theorem planners_agree_rig :
    1 + (Bus.address geometry.addressMode 4096).length < limits.write ∧
    Bus.Follows (NorPlan.forOperation geometry (.erase 4096 4096))
      (Bus.flashErase 1 (.of geometry) 4096 4096 limits) (fun commands sent => sent = commands) ∧
    Bus.Follows (NorPlan.forOperation geometry (.write 4096 candidate))
      (Bus.flashWrite 1 (.of geometry) 4096 candidate limits)
      (fun commands sent => Bus.Split geometry.addressMode commands sent ∧
        (geometry.pageBytes.toNat ≤ Bus.payloadOf (.of geometry) 4096 limits → sent = commands)) :=
  have h : 1 + (Bus.address geometry.addressMode 4096).length < limits.write := by decide
  ⟨h, planners_agree geometry 4096 4096 candidate limits 1 h⟩

end Cheirismos
