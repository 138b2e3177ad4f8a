import Cheirismos.Regions

/-! # Programming a flash

`flash_write` against a NOR flash that programs by clearing bits, wraps inside a page, and takes a
program command only after a write enable.

* `Nor.step` is one exchange with such a flash.  It may ignore a write enable, but it tells the
  truth about its latch; it may say as long as it likes that it is busy.  A transfer that fails may
  or may not have reached it.
* `flashWrite_programs` says that after a write that ended well the range holds its old contents
  cleared by the given bytes and everything else is unchanged.  Every command fits the write limit,
  no program command crosses the end of a page, and every run is bounded. -/

namespace Cheirismos

open Process

namespace Nor

/-! ### The flash -/

structure State where
  memory : ℕ → UInt8
  /-- The write-enable latch. -/
  latched : Bool

/-- Clear bits from the byte `i` of a program command on. -/
def programMemory (page first : ℕ) : ℕ → Bytes → (ℕ → UInt8) → ℕ → UInt8
  | _, [], memory => memory
  | i, byte :: data, memory =>
      programMemory page first (i + 1) data (Function.update memory (pageAddress page first i)
        (memory (pageAddress page first i) &&& byte))

def eraseMemory (first : ℕ) (memory : ℕ → UInt8) : ℕ → UInt8 := fun y =>
  if first / sectorBytes * sectorBytes ≤ y ∧ y < first / sectorBytes * sectorBytes + sectorBytes then
    0xFF
  else memory y

/-- What a command can do. -/
def Accepts (page : ℕ) (s : State) : Option Command → State → Prop
  | some .writeEnable, s' => s' = s ∨ s' = { s with latched := true }
  | some (.erase first), s' =>
      s' = if s.latched then ⟨eraseMemory first s.memory, false⟩ else s
  | some (.program first data), s' =>
      s' = if s.latched then ⟨programMemory page first 0 data s.memory, false⟩ else s
  | _, s' => s' = s

/-- The second bit of a status is the latch. -/
def Truthful (s : State) (write : Bytes) (n : UInt16) (response : ResponsePacket) : Prop :=
  write = [0x05] → ∀ status, Bpio2Adapter.readOf response (some n) = .ok [status] →
    (status &&& 0x02 ≠ 0 ↔ s.latched = true)

/-- One exchange. -/
def step (mode : AddressMode) (page : ℕ) (s : State) : Exchange hardware → State → Prop
  | ⟨.bpio (.data _ write n _), some (.ok response)⟩, s' =>
      Accepts page s (Command.ofBytes mode write) s' ∧ Truthful s write n response
  | ⟨.bpio (.data _ write _ _), _⟩, s' => s' = s ∨ Accepts page s (Command.ofBytes mode write) s'
  | _, s' => s' = s

/-- Up to the end of the page, programming clears bits of consecutive bytes. -/
theorem programMemory_apply {page first i : ℕ} {data : Bytes} {memory : ℕ → UInt8}
    (h : i + data.length ≤ Paging.room page first) (y : ℕ) :
    programMemory page first i data memory y =
      if first + i ≤ y ∧ y < first + i + data.length then
        memory y &&& data.getD (y - (first + i)) 0
      else memory y := by
  induction data generalizing i memory with
  | nil =>
      rw [programMemory, if_neg]
      rintro ⟨hle, hlt⟩
      exact absurd hlt (Nat.not_lt.mpr hle)
  | cons byte data ih =>
      rw [List.length_cons] at h
      have hat : pageAddress page first i = first + i := pageAddress_of_lt (by omega)
      rw [programMemory, ih (by omega), hat, List.length_cons]
      by_cases hy : y = first + i
      · subst hy
        rw [if_neg (by omega), Function.update_self, if_pos (by omega), Nat.sub_self,
          List.getD_cons_zero]
      · rw [Function.update_of_ne hy]
        by_cases hin : first + i ≤ y ∧ y < first + i + (data.length + 1)
        · obtain ⟨k, hk⟩ : ∃ k, y - (first + i) = k + 1 := ⟨y - (first + i) - 1, by omega⟩
          rw [if_pos hin, if_pos (by omega), hk, List.getD_cons_succ,
            show y - (first + (i + 1)) = k by omega]
        · rw [if_neg hin, if_neg (by omega)]

/-! ### A flash that answers at once -/

def accept (page : ℕ) (s : State) : Option Command → State
  | some .writeEnable => { s with latched := true }
  | some (.erase first) =>
      if s.latched then ⟨eraseMemory first s.memory, false⟩ else s
  | some (.program first data) =>
      if s.latched then ⟨programMemory page first 0 data s.memory, false⟩ else s
  | _ => s

/-- Every transfer is answered with as many copies of the status as were asked for. -/
def respond (mode : AddressMode) (page : ℕ) :
    (request : hardware.Request) → State → hardware.Answer request × State
  | .bpio (.data _ write n _), s =>
      (.ok ⟨none, .data (some (none, some (List.replicate n.toNat (if s.latched then 2 else 0)))),
        n.toNat + 64⟩, accept page s (Command.ofBytes mode write))
  | request, s => ((Rig.respond request ⟨none, [], false⟩).1, s)

theorem accept_accepts (page : ℕ) (s : State) (command : Option Command) :
    Accepts page s command (accept page s command) := by
  rcases command with _ | ⟨_ | _ | first | ⟨first, data⟩⟩
  · rfl
  · exact Or.inr rfl
  · rfl
  · rfl
  · rfl

theorem readOf_data {bytes : Bytes} {n : UInt16} {frameBytes : ℕ} (h : bytes.length = n.toNat) :
    Bpio2Adapter.readOf ⟨none, .data (some (none, some bytes)), frameBytes⟩ (some n) = .ok bytes :=
  if_neg (by simp [h])

theorem respond_step {mode : AddressMode} {page : ℕ} (request : hardware.Request) (s : State) :
    step mode page s ⟨request, some (respond mode page request s).1⟩
      (respond mode page request s).2 := by
  rcases request with (_ | _ | ⟨start, write, n, stop⟩) | _ | _ | _ | _ | _ | _ | _ | _ | _ | _ | _
  case bpio.data =>
    refine ⟨accept_accepts page s _, fun _ status hread => ?_⟩
    have hbytes : [status] = List.replicate n.toNat (if s.latched then 2 else 0) :=
      Except.ok.inj (hread.symm.trans (readOf_data List.length_replicate))
    have hstatus := List.eq_of_mem_replicate (hbytes ▸ List.mem_singleton.mpr rfl)
    cases hlatched : s.latched <;> simp [hstatus, hlatched]
  all_goals rfl

/-! ### One command -/

section tracks

variable {mode : AddressMode} {page : ℕ} {s s' : State} {tr : List (Exchange hardware)}

/-- An answered transfer did what its command does, and told the truth. -/
theorem step_answered {write read : Bytes} {n : UInt16} {x : Exchange hardware}
    (hx : Bus.Answered write n read x) (h : step mode page s x s') :
    Accepts page s (Command.ofBytes mode write) s' ∧
      (write = [0x05] → ∀ status, read = [status] → (status &&& 0x02 ≠ 0 ↔ s.latched = true)) := by
  obtain ⟨response, rfl, hread⟩ := hx
  exact ⟨h.1, fun hw status hs => h.2 hw status (hs ▸ hread)⟩

theorem polled_tracks (h : Bus.Polled tr) (ht : Tracks (step mode page) s tr s') : s' = s := by
  induction h generalizing s with
  | idle answered free =>
      obtain ⟨s₁, first, rest⟩ := ht.cons_inv
      rw [rest.nil_inv]
      exact (step_answered answered first).1
  | busy answered occupied rest ih =>
      obtain ⟨s₁, first, rest⟩ := ht.cons_inv
      rw [ih rest]
      exact (step_answered answered first).1

/-- A command that has completed was taken while the latch was set, whatever it was before. -/
theorem mutated_accepts {command : Bytes} (h : Bus.Mutated command tr)
    (ht : Tracks (step mode page) s tr s') :
    Accepts page { s with latched := true } (Command.ofBytes mode command) s' := by
  obtain ⟨enable, shown, enabled, taken, idle⟩ := h
  obtain ⟨s₁, h₁, ht₁⟩ := ht.cons_inv
  obtain ⟨s₂, h₂, ht₂⟩ := ht₁.cons_inv
  obtain ⟨s₃, h₃, ht₃⟩ := ht₂.cons_inv
  obtain ⟨hsame, htruth⟩ := step_answered shown h₂
  obtain rfl : s₂ = s₁ := hsame
  have hlatched := (htruth rfl _ rfl).mp enabled
  have hset : s₂ = { s with latched := true } := by
    rcases (step_answered enable h₁).1 with rfl | rfl
    · cases s₂
      exact congrArg _ hlatched
    · rfl
  obtain rfl : s' = s₃ := polled_tracks idle ht₃
  rw [← hset]
  exact (step_answered taken h₃).1

/-- A program command that has completed has programmed the memory. -/
theorem mutated_tracks {command : Bytes} {first : ℕ} {data : Bytes}
    (hcommand : Command.ofBytes mode command = some (.program first data))
    (h : Bus.Mutated command tr) (ht : Tracks (step mode page) s tr s') :
    s'.memory = programMemory page first 0 data s.memory := by
  have haccepted := mutated_accepts h ht
  rw [hcommand] at haccepted
  exact congrArg State.memory haccepted

/-- The bytes of a piece are those of the range. -/
theorem pieceBytes_getD {offset : UInt64} {bytes : Bytes} {a n y : ℕ} (ha : offset.toNat ≤ a)
    (hy : a ≤ y ∧ y < a + n) :
    (Bus.pieceBytes offset bytes (a, n)).getD (y - a) 0 = bytes.getD (y - offset.toNat) 0 := by
  rw [Bus.pieceBytes, List.getD_eq_getElem?_getD, List.getD_eq_getElem?_getD,
    List.getElem?_take_of_lt (by omega), List.getElem?_drop,
    show a - offset.toNat + (y - a) = y - offset.toNat by omega]

/-- Program commands for consecutive pieces clear the bits of the whole range. -/
theorem completed_tracks {offset : UInt64} {bytes : Bytes} {a : ℕ} {pieces : List (ℕ × ℕ)}
    (hcovers : Paging.Covers a pieces (offset.toNat + bytes.length)) (ha : offset.toNat ≤ a)
    (hpieces : ∀ piece ∈ pieces, piece.1 < mode.reach.toNat ∧
      piece.2 ≤ Paging.room page piece.1)
    (h : Bus.Completed (Bus.programCommands mode offset bytes pieces) tr)
    (ht : Tracks (step mode page) s tr s') (y : ℕ) :
    s'.memory y = if a ≤ y ∧ y < offset.toNat + bytes.length then
      s.memory y &&& bytes.getD (y - offset.toNat) 0 else s.memory y := by
  generalize hb : offset.toNat + bytes.length = b at hcovers
  induction hcovers generalizing s tr with
  | nil a =>
      cases h
      rw [ht.nil_inv, if_neg (by omega)]
  | @cons a n b pieces pos rest ih =>
      subst hb
      have hle := rest.le
      obtain ⟨hreach, hroom⟩ := hpieces _ List.mem_cons_self
      cases h with
      | cons first others =>
          obtain ⟨s₁, ht₁, ht₂⟩ := ht.append_inv
          have hlength : (Bus.pieceBytes offset bytes (a, n)).length = n :=
            pieceBytes_length ha hle
          have hfirst := mutated_tracks (ofBytes_program hreach) first ht₁
          rw [ih (by omega) (fun piece hp => hpieces piece (List.mem_cons_of_mem _ hp)) others ht₂
            rfl, hfirst, programMemory_apply (by omega), hlength]
          by_cases hin : a ≤ y ∧ y < a + n
          · rw [if_neg (by omega), if_pos (by omega), if_pos (by omega), Nat.add_zero,
              pieceBytes_getD ha hin]
          · rw [if_neg (show ¬ (a + 0 ≤ y ∧ y < a + 0 + n) by omega)]
            by_cases hafter : a + n ≤ y ∧ y < offset.toNat + bytes.length
            · rw [if_pos hafter, if_pos (by omega)]
            · rw [if_neg hafter, if_neg (by omega)]

end tracks

end Nor

/-! ### A bound on the exchanges -/

namespace Bus

variable [Crates] {patience : ℕ} {profile : FlashProfile} {offset : UInt64} {bytes : Bytes}

theorem transfer_within {write : Bytes} {n : UInt16} {start stop : Bool} :
    Action.Within (F := hardware) 1 (linked (Bpio2Adapter.transfer write n start stop)) :=
  .failing Bpio2Adapter.transferWithLengthPolicy_within

theorem waitBusyClear_within : Action.Within (F := hardware) patience (waitBusyClear patience) := by
  induction patience with
  | zero => exact .throw _
  | succ patience ih =>
      unfold waitBusyClear
      refine .mono (.bind transfer_within fun status => ?_) (Nat.add_comm 1 patience).le
      split
      · exact .mono (.pure _) (Nat.zero_le patience)
      · exact ih

theorem writeEnable_within : Action.Within (F := hardware) 2 writeEnable :=
  .bind transfer_within fun _ => .bind transfer_within fun _ => .result _

theorem mutate_within {command : Bytes} :
    Action.Within (F := hardware) (1 + patience) (mutate patience command) :=
  .bind transfer_within fun _ => waitBusyClear_within

/-- Every byte costs at most one command with its polls. -/
theorem flashWriteLoop_within {payload : { payload : ℕ // 0 < payload }} {cursor : ℕ} :
    Action.Within (F := hardware) ((bytes.length - cursor) * (3 + patience))
      (flashWriteLoop patience profile offset bytes payload cursor) := by
  generalize hleft : bytes.length - cursor = left
  induction left using Nat.strong_induction_on generalizing cursor with
  | _ left ih =>
      rw [flashWriteLoop]
      by_cases hcursor : cursor < bytes.length
      · rw [dif_pos hcursor]
        obtain ⟨left, rfl⟩ : ∃ k, left = k + 1 := ⟨left - 1, by omega⟩
        refine .mono (.bind (.result _) fun absolute => .bind writeEnable_within fun _ =>
          .bind mutate_within fun _ => (ih _ ?_ rfl).mono (m := left * (3 + patience)) ?_) ?_
        · have := programCount_pos profile payload.2 absolute (Nat.sub_pos_of_lt hcursor)
          omega
        · have := programCount_pos profile payload.2 absolute (Nat.sub_pos_of_lt hcursor)
          exact Nat.mul_le_mul_right _ (by omega)
        · rw [Nat.add_mul]
          omega
      · rw [dif_neg hcursor]
        exact .mono (.pure _) (Nat.zero_le _)

theorem flashWrite_within {limits : Limits} :
    Action.Within (F := hardware) (bytes.length * (3 + patience))
      (flashWrite patience profile offset bytes limits) := by
  unfold flashWrite
  refine .mono (.bind (.result _) fun _ => .bind (.result _) fun _ => .bind (.result _) fun _ =>
    flashWriteLoop_within) ?_
  rw [Nat.sub_zero]
  omega

end Bus

/-! ### The write -/

section write

variable [Crates] {geometry : FlashGeometry} {offset : UInt64} {bytes : Bytes} {limits : Bus.Limits}

omit [Crates] in
/-- The pieces of an accepted write. -/
theorem writePieces_spec (h : Bus.Writable (.of geometry) offset bytes limits) :
    Paging.Covers offset.toNat (Bus.writePieces geometry.pageBytes
        (Bus.payloadOf (.of geometry) offset limits) offset bytes 0)
        (offset.toNat + bytes.length) ∧
      ∀ piece ∈ Bus.writePieces geometry.pageBytes (Bus.payloadOf (.of geometry) offset limits)
          offset bytes 0, piece.1 < geometry.addressMode.reach.toNat ∧
        (Bus.pieceBytes offset bytes piece).length = piece.2 ∧
        piece.2 ≤ Paging.room geometry.pageBytes.toNat piece.1 ∧
        (Bus.programCommand geometry.addressMode piece.1
          (Bus.pieceBytes offset bytes piece)).length ≤ limits.write := by
  have hreach := capacity_le_reach geometry
  have hcapacity : offset.toNat + bytes.length ≤ geometry.capacityBytes.toNat := h.range
  have hcovers : Paging.Covers offset.toNat (Bus.writePieces geometry.pageBytes
      (Bus.payloadOf (.of geometry) offset limits) offset bytes 0)
      (offset.toNat + bytes.length) :=
    Paging.slices_covers (Bus.page_pos (.of geometry)) h.payload_pos (Nat.le_add_right _ _)
  refine ⟨hcovers, fun piece hmem => ?_⟩
  obtain ⟨hfirst, hpos, hlast⟩ := hcovers.within hmem
  obtain ⟨hroom, hpayload⟩ := Paging.slices_bounds hmem
  have hlength := pieceBytes_length hfirst hlast
  refine ⟨by omega, hlength, hroom, ?_⟩
  have haddress : ∀ first : UInt64, (Bus.address geometry.addressMode first).length =
      Nor.addressLength geometry.addressMode := Nor.address_length _
  have hsum : (Bus.programCommand geometry.addressMode piece.1
      (Bus.pieceBytes offset bytes piece)).length =
      Nor.addressLength geometry.addressMode + piece.2 + 1 := by
    rw [Bus.programCommand, List.length_cons, List.length_append, haddress, hlength]
  have hbound : piece.2 ≤ limits.write - (1 + (Bus.address geometry.addressMode offset).length) :=
    hpayload
  rw [haddress] at hbound
  omega

/-- The bytes of a range are those that were there, cleared by the given ones. -/
def Programmed (offset : UInt64) (bytes : Bytes) (memory memory' : ℕ → UInt8) : Prop :=
  ∀ y, memory' y = if offset.toNat ≤ y ∧ y < offset.toNat + bytes.length then
    memory y &&& bytes.getD (y - offset.toNat) 0 else memory y

/-- A write that ends well has programmed its bytes and nothing else. -/
theorem flashWrite_programs (geometry : FlashGeometry) (offset : UInt64) (bytes : Bytes)
    (limits : Bus.Limits) (patience : ℕ) (a : Bpio2Adapter) (tr : List (Exchange hardware))
    (o : Option (Except BackendError Unit × Bpio2Adapter))
    (h : ((Bus.flashWrite patience (.of geometry) offset bytes limits).start a).Runs tr o) :
    (∀ a', o = some (.ok (), a') → ∀ s s' : Nor.State,
      Tracks (Nor.step geometry.addressMode geometry.pageBytes.toNat) s tr s' →
        Programmed offset bytes s.memory s'.memory) ∧
    (∀ x ∈ tr, ∃ write n, x.request = .bpio (.data true write n true) ∧
      write.length ≤ limits.write ∧
      ∀ first data, Nor.Command.ofBytes geometry.addressMode write = some (.program first data) →
        first % geometry.pageBytes.toNat + data.length ≤ geometry.pageBytes.toNat) ∧
    tr.length ≤ bytes.length * (3 + patience) := by
  obtain ⟨⟨hbegun, hsent⟩, _, hok⟩ := Bus.flashWrite_meets tr o h
  refine ⟨fun a' ho s s' ht y => ?_, fun x hx => ?_, Bus.flashWrite_within a tr o h⟩
  · obtain ⟨hwritable, hcompleted⟩ := hok () a' ho
    obtain ⟨hcovers, hpieces⟩ := writePieces_spec hwritable
    exact Nor.completed_tracks hcovers (le_refl _)
      (fun piece hmem => ⟨(hpieces piece hmem).1, (hpieces piece hmem).2.2.1⟩) hcompleted ht y
  · obtain ⟨_, hpieces⟩ := writePieces_spec (hsent (List.ne_nil_of_mem hx))
    have hone := limits.write_pos
    rcases hbegun.requests x hx with hreq | hreq | ⟨command, hmem, hreq⟩
    · exact ⟨_, _, hreq, hone, fun first data hread => by cases hread⟩
    · exact ⟨_, _, hreq, hone, fun first data hread => by cases hread⟩
    · obtain ⟨piece, hpiece, rfl⟩ := List.mem_map.mp hmem
      obtain ⟨hreach, hlength, hroom, hfits⟩ := hpieces piece hpiece
      refine ⟨_, _, hreq, hfits, fun first data hread => ?_⟩
      have hcommand := (Nor.ofBytes_program hreach).symm.trans hread
      cases hcommand
      have hpage : 0 < geometry.pageBytes.toNat := Bus.page_pos (.of geometry)
      have := Nat.mod_lt piece.1 hpage
      rw [hlength]
      unfold Paging.room at hroom
      omega

end write

theorem ended_of_isOk {r : Except BackendError Unit × Bpio2Adapter} (h : r.1.isOk = true) :
    some r = some (.ok (), r.2) := by
  obtain ⟨_ | _, a⟩ := r
  · cases h
  · rfl

open Rig in
/-- A write across a page boundary, against the flash that answers at once. -/
theorem flashWrite_programs_rig :
    let flash := Nor.respond .threeByte 4
    let run := ((Bus.flashWrite 1 (.of geometry) 4101 candidate limits).start adapter).against flash
      ⟨fun _ => 0xFE, false⟩
    run.2.1.1.isOk = true ∧ Programmed 4101 candidate (fun _ => 0xFE) run.2.2.memory ∧
      run.1.length ≤ 5 * 4 :=
  have h := flashWrite_programs geometry 4101 candidate limits 1 adapter _ _
    (Program.against_runs (Nor.respond .threeByte 4) _ ⟨fun _ => 0xFE, false⟩)
  ⟨by decide +kernel, h.1 _ (ended_of_isOk (by decide +kernel)) _ _
    (Program.against_tracks Nor.respond_step _ _), h.2.2⟩

end Cheirismos
