import Cheirismos.Backend
import Cheirismos.Paging

/-! # What erasing and programming a flash sends

The exchanges of `flash_erase` and `flash_write`, for every sequence of answers.

* `Mutated command tr` says that the device was write-enabled, took the command and became idle
  again: write enable, a status that shows it, the command, and polls until the flash is not busy.
* `Completed commands tr` is one such block for each command, in order.
* `Begun commands tr` is the same wherever it was cut off or failed: some commands have completed,
  and the next one has got as far as the requests say.

`flashErase_meets` and `flashWrite_meets` say that every run has begun its commands, and that one
that ends well has completed them. -/

namespace Cheirismos

open Process

namespace Bus

/-! ### Blocks of exchanges -/

/-- The transfer was answered with these bytes. -/
def Answered (write : Bytes) (n : UInt16) (read : Bytes) (x : Exchange hardware) : Prop :=
  ∃ response, x = Bpio2Adapter.exchanged (.data true write n true) (some (.ok response)) ∧
    Bpio2Adapter.readOf response (some n) = .ok read

/-- One transfer of its own. -/
abbrev issue (write : Bytes) (n : UInt16) : HardwareRequest := .bpio (.data true write n true)

theorem Answered.request {write read : Bytes} {n : UInt16} {x : Exchange hardware}
    (h : Answered write n read x) : x.request = issue write n := by
  obtain ⟨response, rfl, _⟩ := h
  rfl

/-- Polls of the status; only the last one shows that the flash is not busy. -/
inductive Polled : List (Exchange hardware) → Prop
  | idle {x : Exchange hardware} {status : UInt8} (answered : Answered [0x05] 1 [status] x)
      (free : status &&& 0x01 = 0) : Polled [x]
  | busy {x : Exchange hardware} {status : UInt8} {tr : List (Exchange hardware)}
      (answered : Answered [0x05] 1 [status] x) (occupied : status &&& 0x01 ≠ 0)
      (rest : Polled tr) : Polled (x :: tr)

/-- The flash was write-enabled, took the command and became idle. -/
inductive Mutated (command : Bytes) : List (Exchange hardware) → Prop
  | intro {w e c : Exchange hardware} {status : UInt8} {polls : List (Exchange hardware)}
      (enable : Answered [0x06] 0 [] w) (shown : Answered [0x05] 1 [status] e)
      (enabled : status &&& 0x02 ≠ 0) (taken : Answered command 0 [] c) (idle : Polled polls) :
      Mutated command (w :: e :: c :: polls)

/-- The commands one after the other. -/
inductive Completed : List Bytes → List (Exchange hardware) → Prop
  | nil : Completed [] []
  | cons {command : Bytes} {commands : List Bytes} {tr₁ tr₂ : List (Exchange hardware)}
      (first : Mutated command tr₁) (rest : Completed commands tr₂) :
      Completed (command :: commands) (tr₁ ++ tr₂)

/-- The requests of one command with as many polls. -/
def block (command : Bytes) (polls : ℕ) : List HardwareRequest :=
  issue [0x06] 0 :: issue [0x05] 1 :: issue command 0 :: List.replicate polls (issue [0x05] 1)

/-- The requests so far are the first ones of a block. -/
def Ongoing (command : Bytes) (tr : List (Exchange hardware)) : Prop :=
  ∃ polls, tr.map Exchange.request <+: block command polls

/-- Some commands have completed, and the next one may have begun. -/
inductive Begun : List Bytes → List (Exchange hardware) → Prop
  | nil (commands : List Bytes) : Begun commands []
  | ongoing {command : Bytes} {tr : List (Exchange hardware)} (commands : List Bytes)
      (first : Ongoing command tr) : Begun (command :: commands) tr
  | cons {command : Bytes} {commands : List Bytes} {tr₁ tr₂ : List (Exchange hardware)}
      (first : Mutated command tr₁) (rest : Begun commands tr₂) :
      Begun (command :: commands) (tr₁ ++ tr₂)

/-! ### The transfers of a block -/

section transfers

variable [Crates] {a : Bpio2Adapter}

/-- Every run of a transfer makes at most its one exchange. -/
theorem transfer_answered {write : Bytes} {n : UInt16} :
    (linked (Bpio2Adapter.transfer write n true true)).Meets a
      (fun tr => tr.map Exchange.request <+: [issue write n]) (fun _ _ _ => True)
      (fun read a' tr => a' = a ∧ ∃ x, tr = [x] ∧ Answered write n read x ∧
        read.length = n.toNat) := by
  refine .failing (Bpio2Adapter.transfer_meets (List.nil_prefix) (List.prefix_refl _)
    (fun _ => List.prefix_refl _) (fun _ _ => trivial) (fun _ _ => trivial)
    (fun _ _ _ => trivial) fun response read h => ?_)
  exact ⟨rfl, _, rfl, ⟨response, rfl, h⟩, Bpio2Adapter.readOf_length h⟩

/-- The write-enabling part of a block. -/
theorem writeEnable_meets : writeEnable.Meets a
    (fun tr => tr.map Exchange.request <+: [issue [0x06] 0, issue [0x05] 1]) (fun _ _ _ => True)
    (fun _ a' tr => a' = a ∧ ∃ w e status, tr = [w, e] ∧ Answered [0x06] 0 [] w ∧
      Answered [0x05] 1 [status] e ∧ status &&& 0x02 ≠ 0) := by
  unfold writeEnable
  refine .bind (transfer_answered.weaken (fun _ h => h.trans (List.prefix_append _ _))
    (fun _ _ _ _ h => h) fun _ _ _ _ h => h) ?_
  rintro read _ _ _ ⟨rfl, w, rfl, hw, hlength⟩
  obtain rfl := List.length_eq_zero_iff.mp hlength
  refine .bind (transfer_answered.weaken (fun _ h => ?_) (fun _ _ _ _ h => h)
    fun _ _ _ _ h => h) ?_
  · rw [List.map_append, List.map_singleton, hw.request]
    exact List.prefix_append_right_inj _ |>.mpr h
  rintro status _ _ _ ⟨rfl, e, rfl, he, hlength⟩
  obtain ⟨status, rfl⟩ := List.length_eq_one_iff.mp hlength
  have hall : [w, e].map Exchange.request <+: [issue [0x06] 0, issue [0x05] 1] := by
    rw [List.map_cons, List.map_singleton, hw.request, he.request]
  refine .result hall (fun _ _ => trivial) fun _ h => ⟨rfl, w, e, status, rfl, hw, he, ?_⟩
  split at h
  · cases h
  · next hset => simpa using hset

/-- Waiting polls until the flash is idle, or until the operation is dropped. -/
theorem waitBusyClear_meets {patience : ℕ} : (waitBusyClear patience).Meets a
    (fun tr => ∃ polls, tr.map Exchange.request = List.replicate polls (issue [0x05] 1))
    (fun _ _ _ => True) (fun _ a' tr => a' = a ∧ Polled tr) := by
  induction patience with
  | zero => exact .throw ⟨0, rfl⟩ trivial
  | succ patience ih =>
      unfold waitBusyClear
      refine .bind (transfer_answered.weaken (fun tr h => ?_) (fun _ _ _ _ h => h)
        fun _ _ _ _ h => h) ?_
      · rcases List.prefix_cons_iff.mp h with h | ⟨rest, h, hrest⟩
        · exact ⟨0, h⟩
        · rw [List.prefix_nil.mp hrest] at h
          exact ⟨1, h⟩
      rintro status _ _ _ ⟨rfl, x, rfl, hx, hlength⟩
      obtain ⟨status, rfl⟩ := List.length_eq_one_iff.mp hlength
      by_cases hfree : status &&& 0x01 = 0
      · rw [if_pos (by simpa using hfree)]
        exact .pure ⟨1, by rw [List.append_nil, List.map_singleton, hx.request]; rfl⟩
          ⟨rfl, .idle hx hfree⟩
      · rw [if_neg (by simpa using hfree)]
        refine ih.weaken (fun tr h => ?_) (fun _ _ _ _ h => h) fun _ _ tr _ h => ?_
        · obtain ⟨polls, h⟩ := h
          exact ⟨polls + 1, by rw [List.singleton_append, List.map_cons, hx.request, h]; rfl⟩
        · exact ⟨h.1, .busy hx hfree h.2⟩

theorem mutate_meets {patience : ℕ} {command : Bytes} : (mutate patience command).Meets a
    (fun tr => ∃ polls, tr.map Exchange.request <+:
      issue command 0 :: List.replicate polls (issue [0x05] 1))
    (fun _ _ _ => True)
    (fun _ a' tr => a' = a ∧ ∃ c polls, tr = c :: polls ∧ Answered command 0 [] c ∧
      Polled polls) := by
  unfold mutate
  refine .bind (transfer_answered.weaken (fun _ h => ⟨0, h⟩) (fun _ _ _ _ h => h)
    fun _ _ _ _ h => h) ?_
  rintro read _ _ _ ⟨rfl, c, rfl, hc, hlength⟩
  obtain rfl := List.length_eq_zero_iff.mp hlength
  refine waitBusyClear_meets.weaken (fun tr h => ?_) (fun _ _ _ _ h => h) fun _ _ tr _ h => ?_
  · obtain ⟨polls, h⟩ := h
    exact ⟨polls, by rw [List.singleton_append, List.map_cons, hc.request, h]⟩
  · exact ⟨h.1, c, tr, rfl, hc, h.2⟩

/-- One block, and then the rest. -/
theorem block_meets {β : Type} {patience : ℕ} {command : Bytes} {f : Session β}
    {I : List (Exchange hardware) → Prop} {Q : β → Bpio2Adapter → List (Exchange hardware) → Prop}
    (hongoing : ∀ tr, Ongoing command tr → I tr)
    (hf : ∀ tr₁, Mutated command tr₁ → f.Meets a (fun tr => I (tr₁ ++ tr)) (fun _ _ _ => True)
      (fun b a' tr => Q b a' (tr₁ ++ tr))) :
    (writeEnable >>= fun _ => mutate patience command >>= fun _ => f).Meets a I
      (fun _ _ _ => True) Q := by
  refine .bind (writeEnable_meets.weaken (fun tr h => hongoing tr ⟨0, ?_⟩) (fun _ _ _ _ h => h)
    fun _ _ _ _ h => h) ?_
  · exact h.trans (List.prefix_append _ [issue command 0])
  rintro _ _ _ _ ⟨rfl, w, e, status, rfl, hw, he, hset⟩
  have hfirst : ∀ tr polls, tr.map Exchange.request <+:
      issue command 0 :: List.replicate polls (issue [0x05] 1) → I ([w, e] ++ tr) := by
    intro tr polls h
    refine hongoing _ ⟨polls, ?_⟩
    rw [List.map_append, List.map_cons, List.map_singleton, hw.request, he.request]
    exact (List.prefix_append_right_inj _).mpr h
  refine .bind (mutate_meets.weaken (fun tr h => h.elim fun polls h => hfirst tr polls h)
    (fun _ _ _ _ h => h) fun _ _ _ _ h => h) ?_
  rintro _ _ _ _ ⟨rfl, c, polls, rfl, hc, hpolled⟩
  have := hf _ (.intro hw he hset hc hpolled)
  exact this

end transfers

/-! ### Offsets -/

theorem toNat_add_ofNat {offset : UInt64} {k : ℕ} (h : offset.toNat + k < 2 ^ 64) :
    (offset + UInt64.ofNat k).toNat = offset.toNat + k := by
  rw [UInt64.toNat_add, UInt64.toNat_ofNat_of_lt' (show k < 2 ^ 64 by omega),
    Nat.mod_eq_of_lt h]

theorem add_ofNat {offset : UInt64} {k : ℕ} (h : offset.toNat + k < 2 ^ 64) :
    offset + UInt64.ofNat k = UInt64.ofNat (offset.toNat + k) := by
  rw [← UInt64.toNat_inj, toNat_add_ofNat h, UInt64.toNat_ofNat_of_lt' h]

theorem checkedAdd_ofNat {offset : UInt64} {k : ℕ} (h : offset.toNat + k < 2 ^ 64) :
    u64CheckedAdd offset (UInt64.ofNat k) = some (UInt64.ofNat (offset.toNat + k)) := by
  have hk : (UInt64.ofNat k).toNat = k := UInt64.toNat_ofNat_of_lt' (show k < 2 ^ 64 by omega)
  rw [u64CheckedAdd, if_pos (by rw [hk]; exact h), add_ofNat h]

theorem checkedOffset_eq {offset : UInt64} {k : ℕ} {message : String}
    (h : offset.toNat + k < 2 ^ 64) :
    checkedOffset offset k message = .ok (UInt64.ofNat (offset.toNat + k)) := by
  rw [checkedOffset, checkedAdd_ofNat h]

theorem pageRemaining_eq {pageBytes : UInt32} (hpage : pageBytes ≠ 0) (absolute : UInt64) :
    NorPlan.pageRemaining pageBytes absolute = Paging.room pageBytes.toNat absolute.toNat := by
  have hpos : 0 < pageBytes.toUInt64.toNat := by
    rw [UInt32.toNat_toUInt64]
    exact Nat.pos_of_ne_zero fun h => hpage (UInt32.toNat_inj.mp h)
  have hlt := Nat.mod_lt absolute.toNat hpos
  rw [NorPlan.pageRemaining, UInt64.toNat_sub_of_le, UInt64.toNat_mod, UInt32.toNat_toUInt64]
  · rfl
  · rw [UInt64.le_iff_toNat_le, UInt64.toNat_mod]
    exact hlt.le

/-! ### Checks of the geometry -/

section checks

variable {geometry : FlashGeometry} {offset : UInt64} {length : UInt32}

/-- A range is accepted when it ends inside the flash. -/
theorem validateRange_ok_iff : geometry.validateRange offset length = .ok () ↔
    offset.toNat + length.toNat ≤ geometry.capacityBytes.toNat := by
  have hcapacity := geometry.capacityBytes.toNat_lt
  unfold FlashGeometry.validateRange u64CheckedAdd
  rw [UInt32.toNat_toUInt64]
  by_cases hsum : offset.toNat + length.toNat < 2 ^ 64
  · have hlast : (offset + length.toUInt64).toNat = offset.toNat + length.toNat := by
      rw [UInt64.toNat_add, UInt32.toNat_toUInt64, Nat.mod_eq_of_lt hsum]
    rw [if_pos hsum]
    simp only [UInt64.lt_iff_toNat_lt, hlast]
    split
    · simp only [reduceCtorEq, false_iff]
      omega
    · simp only [true_iff]
      omega
  · rw [if_neg hsum]
    simp only [reduceCtorEq, false_iff]
    omega

theorem eraseBytes_toNat (geometry : FlashGeometry) : geometry.eraseBytes.toNat = 4096 := by
  rw [geometry.erase_eq]
  rfl

/-- An erase is accepted when it also starts and ends at a sector boundary. -/
theorem validateErase_ok_iff : geometry.validateErase offset length = .ok () ↔
    offset.toNat + length.toNat ≤ geometry.capacityBytes.toNat ∧ 4096 ∣ offset.toNat ∧
      4096 ∣ length.toNat := by
  have hsector : geometry.eraseBytes.toUInt64.toNat = 4096 := by
    rw [UInt32.toNat_toUInt64, eraseBytes_toNat]
  have hmod : ∀ n : UInt64, n % geometry.eraseBytes.toUInt64 = 0 ↔ 4096 ∣ n.toNat := by
    intro n
    rw [← UInt64.toNat_inj, UInt64.toNat_mod, hsector, Nat.dvd_iff_mod_eq_zero]
    rfl
  unfold FlashGeometry.validateErase
  rw [← validateRange_ok_iff]
  cases hrange : geometry.validateRange offset length with
  | error e =>
      simp only [reduceCtorEq, false_and, iff_false]
      exact fun h => by cases h
  | ok u =>
      simp only [bind, Except.bind, ne_eq, hmod, UInt32.toNat_toUInt64, true_and]
      by_cases h : 4096 ∣ offset.toNat ∧ 4096 ∣ length.toNat
      · rw [if_neg (by omega)]
        exact iff_of_true rfl h
      · rw [if_pos (by omega)]
        exact iff_of_false (fun h => by cases h) h

end checks

/-- The sectors of a range of whole sectors lie end to end. -/
theorem steps_covers {step length first : ℕ} (base : ℕ) (hstep : 0 < step) (hfirst : first ≤ length)
    (hwhole : step ∣ length - first) :
    Paging.Covers (base + first) ((steps step length first).map fun relative =>
      (base + relative, step)) (base + length) := by
  induction first using steps.induct step length with
  | case1 first h ih =>
      have hle : step ≤ length - first := Nat.le_of_dvd (by omega) hwhole
      have hrest : step ∣ length - (first + step) := by
        rw [Nat.sub_add_eq]
        exact Nat.dvd_sub hwhole (dvd_refl step)
      have hcovers := ih (by omega) hrest
      rw [steps, if_pos h, List.map_cons]
      rw [← Nat.add_assoc] at hcovers
      exact .cons hstep hcovers
  | case2 first h =>
      obtain rfl : first = length := by omega
      rw [steps, if_neg h]
      exact .nil _

theorem steps_lt {step length first relative : ℕ} (h : relative ∈ steps step length first) :
    relative < length := by
  induction first using steps.induct step length with
  | case1 first hlt ih =>
      rw [steps, if_pos hlt] at h
      rcases List.mem_cons.mp h with rfl | h
      · exact hlt.1
      · exact ih h
  | case2 first hend =>
      rw [steps, if_neg hend] at h
      exact absurd h List.not_mem_nil

theorem steps_dvd {step length first relative : ℕ} (hfirst : step ∣ first)
    (h : relative ∈ steps step length first) : step ∣ relative := by
  induction first using steps.induct step length with
  | case1 first hlt ih =>
      rw [steps, if_pos hlt] at h
      rcases List.mem_cons.mp h with rfl | h
      · exact hfirst
      · exact ih (Nat.dvd_add hfirst (dvd_refl step)) h
  | case2 first hend =>
      rw [steps, if_neg hend] at h
      exact absurd h List.not_mem_nil

/-! ### The commands of an erase and of a write -/

/-- The command that erases the sector at an address. -/
def eraseCommand (mode : AddressMode) (first : ℕ) : Bytes :=
  (opcodes mode).2.2 :: address mode (UInt64.ofNat first)

/-- The command that programs bytes at an address. -/
def programCommand (mode : AddressMode) (first : ℕ) (data : Bytes) : Bytes :=
  (opcodes mode).2.1 :: (address mode (UInt64.ofNat first) ++ data)

/-- The erase commands of the sectors at these distances from the offset. -/
def eraseCommands (profile : FlashProfile) (offset : UInt64) (sectors : List ℕ) : List Bytes :=
  sectors.map fun relative => eraseCommand profile.mode (offset.toNat + relative)

/-- The bytes of a piece of the range that starts at the offset. -/
def pieceBytes (offset : UInt64) (bytes : Bytes) (piece : ℕ × ℕ) : Bytes :=
  (bytes.drop (piece.1 - offset.toNat)).take piece.2

/-- The program commands for the pieces of a range. -/
def programCommands (mode : AddressMode) (offset : UInt64) (bytes : Bytes)
    (pieces : List (ℕ × ℕ)) : List Bytes :=
  pieces.map fun piece => programCommand mode piece.1 (pieceBytes offset bytes piece)

/-- The pieces in which the bytes from a cursor on are programmed. -/
def writePieces (pageBytes : UInt32) (payload : ℕ) (offset : UInt64) (bytes : Bytes)
    (cursor : ℕ) : List (ℕ × ℕ) :=
  Paging.slices pageBytes.toNat payload (offset.toNat + cursor) (offset.toNat + bytes.length)

section loops

variable [Crates] {a : Bpio2Adapter} {patience : ℕ} {profile : FlashProfile} {offset : UInt64}

theorem flashEraseLoop_meets {sectors : List ℕ}
    (h : ∀ relative ∈ sectors, offset.toNat + relative < 2 ^ 64) :
    (flashEraseLoop patience profile offset sectors).Meets a
      (Begun (eraseCommands profile offset sectors)) (fun _ _ _ => True)
      (fun _ _ tr => Completed (eraseCommands profile offset sectors) tr) := by
  induction sectors with
  | nil => exact .pure (.nil _) .nil
  | cons relative sectors ih =>
      have hrest := ih fun r hr => h r (List.mem_cons_of_mem _ hr)
      unfold flashEraseLoop
      rw [checkedOffset_eq (h relative List.mem_cons_self)]
      refine block_meets (fun tr ht => .ongoing _ ht) fun tr₁ hfirst => ?_
      exact hrest.weaken (fun tr ht => .cons hfirst ht) (fun _ _ _ _ h => h)
        fun _ _ tr _ ht => .cons hfirst ht

omit [Crates] in
/-- The bytes of the next program command are the next slice. -/
theorem programCount_eq {payload cursor : ℕ} {bytes : Bytes}
    (h : offset.toNat + bytes.length < 2 ^ 64) (hcursor : cursor < bytes.length) :
    programCount profile payload (UInt64.ofNat (offset.toNat + cursor)) (bytes.length - cursor) =
      Paging.next profile.pageBytes.toNat payload (offset.toNat + cursor)
        (offset.toNat + bytes.length) := by
  have htoNat : (UInt64.ofNat (offset.toNat + cursor)).toNat = offset.toNat + cursor :=
    UInt64.toNat_ofNat_of_lt' (show offset.toNat + cursor < 2 ^ 64 by omega)
  have hleft : bytes.length - cursor = offset.toNat + bytes.length - (offset.toNat + cursor) := by
    omega
  rw [programCount, pageRemaining_eq profile.page_ne_zero, htoNat, hleft]
  rfl

omit [Crates] in
/-- The first program command, and those after it. -/
theorem programCommands_of_lt {pageBytes : UInt32} {payload cursor count : ℕ} {bytes : Bytes}
    (mode : AddressMode) (hpage : 0 < pageBytes.toNat) (hpayload : 0 < payload)
    (hcursor : cursor < bytes.length)
    (hcount : Paging.next pageBytes.toNat payload (offset.toNat + cursor)
      (offset.toNat + bytes.length) = count) :
    programCommands mode offset bytes (writePieces pageBytes payload offset bytes cursor) =
      programCommand mode (offset.toNat + cursor) ((bytes.drop cursor).take count) ::
        programCommands mode offset bytes
          (writePieces pageBytes payload offset bytes (cursor + count)) := by
  have hlt : offset.toNat + cursor < offset.toNat + bytes.length := by omega
  rw [writePieces, Paging.slices_of_lt hpage hpayload hlt, hcount, programCommands, List.map_cons,
    pieceBytes, Nat.add_sub_cancel_left, Nat.add_assoc]
  rfl

omit [Crates] in
theorem page_pos (profile : FlashProfile) : 0 < profile.pageBytes.toNat :=
  Nat.pos_of_ne_zero fun h => profile.page_ne_zero (UInt32.toNat_inj.mp h)

theorem flashWriteLoop_meets {bytes : Bytes} {payload : { payload : ℕ // 0 < payload }}
    {cursor : ℕ} (h : offset.toNat + bytes.length < 2 ^ 64) :
    (flashWriteLoop patience profile offset bytes payload cursor).Meets a
      (Begun (programCommands profile.mode offset bytes
        (writePieces profile.pageBytes payload offset bytes cursor))) (fun _ _ _ => True)
      (fun _ _ tr => Completed (programCommands profile.mode offset bytes
        (writePieces profile.pageBytes payload offset bytes cursor)) tr) := by
  generalize hleft : bytes.length - cursor = left
  induction left using Nat.strong_induction_on generalizing cursor with
  | _ left ih =>
      rw [flashWriteLoop]
      by_cases hcursor : cursor < bytes.length
      · rw [dif_pos hcursor, checkedOffset_eq (by omega)]
        obtain ⟨count, hcount⟩ : ∃ count, programCount profile payload
          (UInt64.ofNat (offset.toNat + cursor)) (bytes.length - cursor) = count := ⟨_, rfl⟩
        have hpos : 0 < count := hcount ▸ programCount_pos profile payload.2 _
          (Nat.sub_pos_of_lt hcursor)
        rw [programCommands_of_lt profile.mode (page_pos profile) payload.2 hcursor
          ((programCount_eq h hcursor).symm.trans hcount)]
        refine block_meets (fun tr ht => .ongoing _ (hcount ▸ ht)) fun tr₁ hfirst => ?_
        rw [hcount] at hfirst ⊢
        refine (ih _ (by omega) rfl).weaken (fun tr ht => .cons hfirst ht) (fun _ _ _ _ h => h) ?_
        exact fun _ _ tr _ ht => .cons hfirst ht
      · have hnone : writePieces profile.pageBytes payload offset bytes cursor = [] :=
          Paging.slices_of_le (by omega)
        rw [dif_neg hcursor, hnone]
        exact .pure (.nil _) .nil

/-- The sectors of an erase, as distances from the offset. -/
def eraseSectors (profile : FlashProfile) (length : UInt32) : List ℕ :=
  steps profile.eraseBytes.toNat length.toNat 0

omit [Crates] in
theorem layout_ok {α : Type} {r : Except FlashLayoutError α} {v : α} (h : layout r = .ok v) :
    r = .ok v := by
  cases r with
  | error e => cases h
  | ok v' =>
      cases h
      rfl

/-- Every run of an erase has begun its commands, if the range was accepted; one that ends well has
completed them. -/
theorem flashErase_meets {length : UInt32} {limits : Limits} :
    (flashErase patience profile offset length limits).Meets a
      (fun tr => Begun (eraseCommands profile offset (eraseSectors profile length)) tr ∧
        (tr ≠ [] → profile.geometry.validateErase offset length = .ok ()))
      (fun _ _ _ => True)
      (fun _ _ tr => profile.geometry.validateErase offset length = .ok () ∧
        Completed (eraseCommands profile offset (eraseSectors profile length)) tr) := by
  unfold flashErase
  refine .checked ⟨.nil _, fun h => absurd rfl h⟩ (fun _ _ => trivial) fun _ hlayout => ?_
  have hvalid := layout_ok hlayout
  refine .refused ⟨.nil _, fun h => absurd rfl h⟩ (fun _ => trivial) fun _ => ?_
  refine (flashEraseLoop_meets fun relative h => ?_).weaken (fun _ h => ⟨h, fun _ => hvalid⟩)
    (fun _ _ _ _ h => h) fun _ _ _ _ h => ⟨hvalid, h⟩
  have hlt := steps_lt h
  have hrange := (validateErase_ok_iff.mp hvalid).1
  have := profile.geometry.capacityBytes.toNat_lt
  omega

/-- What a write limit leaves for the bytes of a program command. -/
def payloadOf (profile : FlashProfile) (offset : UInt64) (limits : Limits) : ℕ :=
  limits.write - (1 + (address profile.mode offset).length)

/-- The program commands of a write. -/
def writeCommands (profile : FlashProfile) (offset : UInt64) (bytes : Bytes) (limits : Limits) :
    List Bytes :=
  programCommands profile.mode offset bytes
    (writePieces profile.pageBytes (payloadOf profile offset limits) offset bytes 0)

/-- The checks that a write makes before it sends anything. -/
structure Writable (profile : FlashProfile) (offset : UInt64) (bytes : Bytes) (limits : Limits) :
    Prop where
  length_lt : bytes.length < 2 ^ 32
  range : offset.toNat + bytes.length ≤ profile.geometry.capacityBytes.toNat
  payload_pos : 0 < payloadOf profile offset limits

/-- The same for a write. -/
theorem flashWrite_meets {bytes : Bytes} {limits : Limits} :
    (flashWrite patience profile offset bytes limits).Meets a
      (fun tr => Begun (writeCommands profile offset bytes limits) tr ∧
        (tr ≠ [] → Writable profile offset bytes limits))
      (fun _ _ _ => True)
      (fun _ _ tr => Writable profile offset bytes limits ∧
        Completed (writeCommands profile offset bytes limits) tr) := by
  unfold flashWrite
  refine .checked ⟨.nil _, fun h => absurd rfl h⟩ (fun _ _ => trivial) fun length hlength => ?_
  obtain ⟨hlt, rfl⟩ : bytes.length < 2 ^ 32 ∧ UInt32.ofNat bytes.length = length := by
    unfold u32OfUsize at hlength
    split_ifs at hlength with h
    cases hlength
    exact ⟨h, rfl⟩
  have htoNat : (UInt32.ofNat bytes.length).toNat = bytes.length :=
    UInt32.toNat_ofNat_of_lt' hlt
  refine .checked ⟨.nil _, fun h => absurd rfl h⟩ (fun _ _ => trivial) fun _ hlayout => ?_
  have hrange := validateRange_ok_iff.mp (layout_ok hlayout)
  rw [htoNat] at hrange
  refine .checked ⟨.nil _, fun h => absurd rfl h⟩ (fun _ _ => trivial) fun payload hpayload => ?_
  have hvalue : payloadOf profile offset limits = payload.1 := by
    unfold flashProgramPayloadLimit at hpayload
    split_ifs at hpayload with h₁ h₂
    cases hpayload
    rfl
  have hwritable : Writable profile offset bytes limits := ⟨hlt, hrange, hvalue ▸ payload.2⟩
  have := profile.geometry.capacityBytes.toNat_lt
  rw [writeCommands, hvalue]
  exact (flashWriteLoop_meets (by omega)).weaken (fun _ h => ⟨h, fun _ => hwritable⟩)
    (fun _ _ _ _ h => h) fun _ _ _ _ h => ⟨hwritable, h⟩

end loops

end Bus

end Cheirismos
