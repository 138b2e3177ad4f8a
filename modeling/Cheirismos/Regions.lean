import Cheirismos.Nor
import Cheirismos.Rig

/-! # Mutations stay in the commissioned region

From the region limits that `authorize` checks, through the geometry of the binding and the cutting
into sectors and pages, to the address bytes on the wire.

`StaysInside` says of the exchanges of one erase or write that every command carries the address it
is meant for, that no address outside the region or beyond the capacity is touched, and that a run
that ends well has touched exactly the range.  `flash_mutations_stay` proves it for every operation
that `authorize` accepts. -/

namespace Cheirismos

open Process

/-! ### What has been sent -/

/-- The command that a request carries to the flash. -/
def commandOf (mode : AddressMode) : HardwareRequest → Option Nor.Command
  | .bpio (.data _ write _ _) => Nor.Command.ofBytes mode write
  | _ => none

/-- A command for an address is one that the flash reads with that address. -/
def Intended (mode : AddressMode) (first : ℕ) (write : Bytes) : Prop :=
  write = Bus.eraseCommand mode first ∧
      Nor.Command.ofBytes mode write = some (.erase first) ∨
    ∃ data, write = Bus.programCommand mode first data ∧
      Nor.Command.ofBytes mode write = some (.program first data)

/-- The exchanges of an erase or a write of a range, and whether it ended well. -/
structure StaysInside (region : RegionLimits) (geometry : FlashGeometry) (offset : UInt64)
    (length : ℕ) (tr : List (Exchange hardware)) (done : Prop) : Prop where
  /-- Apart from write enables and status reads, only commands for addresses of the range. -/
  intended : ∀ x ∈ tr, ∃ write n, x.request = .bpio (.data true write n true) ∧
    (write = [0x06] ∨ write = [0x05] ∨ ∃ first, offset.toNat ≤ first ∧
      first < offset.toNat + length ∧ Intended geometry.addressMode first write)
  inside : ∀ x ∈ tr, ∀ command, commandOf geometry.addressMode x.request = some command →
    ∀ y, command.Touches geometry.pageBytes.toNat y → region.flashStart.toNat ≤ y ∧
      y < region.flashEndExclusive.toNat ∧ y < geometry.capacityBytes.toNat
  complete : done → ∀ y, (∃ x ∈ tr, ∃ command,
      commandOf geometry.addressMode x.request = some command ∧
        command.Touches geometry.pageBytes.toNat y) ↔
    offset.toNat ≤ y ∧ y < offset.toNat + length

namespace Bus

theorem Polled.requests {tr : List (Exchange hardware)} (h : Polled tr) :
    ∀ x ∈ tr, x.request = issue [0x05] 1 := by
  induction h with
  | idle answered free =>
      intro x hx
      obtain rfl := List.mem_singleton.mp hx
      exact answered.request
  | busy answered occupied rest ih =>
      intro x hx
      rcases List.mem_cons.mp hx with rfl | hx
      · exact answered.request
      · exact ih x hx

theorem mem_block {command : Bytes} {polls : ℕ} {request : HardwareRequest}
    (h : request ∈ block command polls) :
    request = issue [0x06] 0 ∨ request = issue [0x05] 1 ∨ request = issue command 0 := by
  rcases List.mem_cons.mp h with rfl | h
  · exact Or.inl rfl
  rcases List.mem_cons.mp h with rfl | h
  · exact Or.inr (Or.inl rfl)
  rcases List.mem_cons.mp h with rfl | h
  · exact Or.inr (Or.inr rfl)
  · exact Or.inr (Or.inl (List.eq_of_mem_replicate h))

theorem Mutated.requests {command : Bytes} {tr : List (Exchange hardware)}
    (h : Mutated command tr) : ∀ x ∈ tr, x.request = issue [0x06] 0 ∨
      x.request = issue [0x05] 1 ∨ x.request = issue command 0 := by
  obtain ⟨enable, shown, _, taken, idle⟩ := h
  intro x hx
  rcases List.mem_cons.mp hx with rfl | hx
  · exact Or.inl enable.request
  rcases List.mem_cons.mp hx with rfl | hx
  · exact Or.inr (Or.inl shown.request)
  rcases List.mem_cons.mp hx with rfl | hx
  · exact Or.inr (Or.inr taken.request)
  · exact Or.inr (Or.inl (idle.requests x hx))

/-- Only write enables, status reads and the given commands are sent. -/
theorem Begun.requests {commands : List Bytes} {tr : List (Exchange hardware)}
    (h : Begun commands tr) : ∀ x ∈ tr, x.request = issue [0x06] 0 ∨
      x.request = issue [0x05] 1 ∨ ∃ command ∈ commands, x.request = issue command 0 := by
  induction h with
  | nil commands => exact fun _ h => absurd h List.not_mem_nil
  | ongoing commands first =>
      intro x hx
      obtain ⟨polls, hfirst⟩ := first
      rcases mem_block (hfirst.subset (List.mem_map_of_mem hx)) with h | h | h
      · exact Or.inl h
      · exact Or.inr (Or.inl h)
      · exact Or.inr (Or.inr ⟨_, List.mem_cons_self, h⟩)
  | cons first rest ih =>
      intro x hx
      rcases List.mem_append.mp hx with hx | hx
      · rcases first.requests x hx with h | h | h
        · exact Or.inl h
        · exact Or.inr (Or.inl h)
        · exact Or.inr (Or.inr ⟨_, List.mem_cons_self, h⟩)
      · rcases ih x hx with h | h | ⟨command, hmem, h⟩
        · exact Or.inl h
        · exact Or.inr (Or.inl h)
        · exact Or.inr (Or.inr ⟨command, List.mem_cons_of_mem _ hmem, h⟩)

/-- Each of the commands has been sent. -/
theorem Completed.sent {commands : List Bytes} {tr : List (Exchange hardware)}
    (h : Completed commands tr) {command : Bytes} (hmem : command ∈ commands) :
    ∃ x ∈ tr, x.request = issue command 0 := by
  induction h with
  | nil => exact absurd hmem List.not_mem_nil
  | cons first rest ih =>
      rcases List.mem_cons.mp hmem with rfl | hmem
      · obtain ⟨_, _, _, taken, _⟩ := first
        exact ⟨_, List.mem_append_left _ (by simp), taken.request⟩
      · obtain ⟨x, hx, h⟩ := ih hmem
        exact ⟨x, List.mem_append_right _ hx, h⟩

end Bus

/-! ### From pieces to addresses -/

section pieces

variable {region : RegionLimits} {geometry : FlashGeometry} {offset : UInt64} {length : ℕ}
  {tr : List (Exchange hardware)} {done : Prop}

/-- Commands for consecutive pieces of the range stay inside. -/
theorem staysInside_of_pieces {pieces : List (ℕ × ℕ)} {bytesOf : ℕ × ℕ → Bytes}
    {R : ℕ × ℕ → Nor.Command}
    (hregion : region.flashStart.toNat ≤ offset.toNat ∧
      offset.toNat + length ≤ region.flashEndExclusive.toNat)
    (hcapacity : offset.toNat + length ≤ geometry.capacityBytes.toNat)
    (hcovers : Paging.Covers offset.toNat pieces (offset.toNat + length))
    (hintended : ∀ piece ∈ pieces, Intended geometry.addressMode piece.1 (bytesOf piece))
    (hread : ∀ piece ∈ pieces,
      Nor.Command.ofBytes geometry.addressMode (bytesOf piece) = some (R piece))
    (htouches : ∀ piece ∈ pieces, ∀ y, (R piece).Touches geometry.pageBytes.toNat y ↔
      piece.1 ≤ y ∧ y < piece.1 + piece.2)
    (hbegun : Bus.Begun (pieces.map bytesOf) tr)
    (hdone : done → Bus.Completed (pieces.map bytesOf) tr) :
    StaysInside region geometry offset length tr done := by
  have htouched : ∀ x ∈ tr, ∀ command,
      commandOf geometry.addressMode x.request = some command → ∀ y,
        command.Touches geometry.pageBytes.toNat y →
          offset.toNat ≤ y ∧ y < offset.toNat + length := by
    intro x hx command hcommand y hy
    rcases hbegun.requests x hx with h | h | ⟨bytes, hbytes, h⟩
    · rw [h] at hcommand
      cases hcommand
      exact hy.elim
    · rw [h] at hcommand
      cases hcommand
      exact hy.elim
    · obtain ⟨piece, hpiece, rfl⟩ := List.mem_map.mp hbytes
      rw [h] at hcommand
      obtain rfl := Option.some.inj ((hread piece hpiece).symm.trans hcommand)
      exact (hcovers.mem_iff y).mpr ⟨piece, hpiece, (htouches piece hpiece y).mp hy⟩
  refine ⟨fun x hx => ?_, fun x hx command hcommand y hy => ?_, fun h y => ⟨?_, fun hy => ?_⟩⟩
  · rcases hbegun.requests x hx with h | h | ⟨bytes, hbytes, h⟩
    · exact ⟨_, _, h, Or.inl rfl⟩
    · exact ⟨_, _, h, Or.inr (Or.inl rfl)⟩
    · obtain ⟨piece, hpiece, rfl⟩ := List.mem_map.mp hbytes
      obtain ⟨hfirst, hpos, hlast⟩ := hcovers.within hpiece
      exact ⟨_, _, h, Or.inr (Or.inr ⟨piece.1, hfirst, by omega, hintended piece hpiece⟩)⟩
  · have := htouched x hx command hcommand y hy
    omega
  · rintro ⟨x, hx, command, hcommand, hy⟩
    exact htouched x hx command hcommand y hy
  · obtain ⟨piece, hpiece, hy⟩ := (hcovers.mem_iff y).mp hy
    obtain ⟨x, hx, hrequest⟩ := (hdone h).sent (List.mem_map_of_mem hpiece)
    refine ⟨x, hx, R piece, ?_, (htouches piece hpiece y).mpr hy⟩
    rw [hrequest]
    exact hread piece hpiece

/-- A run that sent nothing and failed. -/
theorem staysInside_unsent (htr : tr = []) (hdone : ¬ done) :
    StaysInside region geometry offset length tr done := by
  subst htr
  exact ⟨fun _ h => absurd h List.not_mem_nil, fun _ h => absurd h List.not_mem_nil,
    fun h => absurd h hdone⟩

theorem contains_bounds {length : UInt32} (h : region.contains offset length = true) :
    region.flashStart.toNat ≤ offset.toNat ∧
      offset.toNat + length.toNat ≤ region.flashEndExclusive.toNat := by
  unfold RegionLimits.contains u64CheckedAdd at h
  rw [UInt32.toNat_toUInt64] at h
  by_cases hsum : offset.toNat + length.toNat < 2 ^ 64
  · rw [if_pos hsum] at h
    simp only [Bool.and_eq_true, decide_eq_true_eq, UInt64.le_iff_toNat_le, UInt64.toNat_add,
      UInt32.toNat_toUInt64, Nat.mod_eq_of_lt hsum] at h
    exact h
  · rw [if_neg hsum] at h
    cases h

theorem capacity_le_reach (geometry : FlashGeometry) :
    geometry.capacityBytes.toNat ≤ geometry.addressMode.reach.toNat :=
  UInt64.le_iff_toNat_le.mp geometry.reached

variable [Crates] {a a' : Bpio2Adapter} {patience : ℕ} {limits : Bus.Limits}
  {o : Option (Except BackendError Unit × Bpio2Adapter)}

theorem flashErase_staysInside {length : UInt32}
    (hregion : region.contains offset length = true)
    (h : ((Bus.flashErase patience (.of geometry) offset length limits).start a).Runs tr o) :
    StaysInside region geometry offset length.toNat tr (∃ a', o = some (.ok (), a')) := by
  obtain ⟨⟨hbegun, hsent⟩, _, hok⟩ := Bus.flashErase_meets tr o h
  by_cases hvalid : geometry.validateErase offset length = .ok ()
  · obtain ⟨hcapacity, hoffset, hlength⟩ := Bus.validateErase_ok_iff.mp hvalid
    have hreach := capacity_le_reach geometry
    have hsectors : Bus.eraseSectors (.of geometry) length = steps 4096 length.toNat 0 := by
      rw [Bus.eraseSectors, ← Bus.eraseBytes_toNat geometry]
      rfl
    have hcovers : Paging.Covers (offset.toNat + 0) ((steps 4096 length.toNat 0).map
        fun relative => (offset.toNat + relative, 4096)) (offset.toNat + length.toNat) :=
      Bus.steps_covers offset.toNat (by decide) (Nat.zero_le _) hlength
    have hcommands : Bus.eraseCommands (.of geometry) offset (steps 4096 length.toNat 0) =
        ((steps 4096 length.toNat 0).map fun relative => (offset.toNat + relative, 4096)).map
          fun piece => Bus.eraseCommand geometry.addressMode piece.1 := by
      rw [List.map_map]
      rfl
    have hpiece : ∀ piece ∈ (steps 4096 length.toNat 0).map fun relative =>
        (offset.toNat + relative, 4096), piece.1 < geometry.addressMode.reach.toNat ∧
          4096 ∣ piece.1 ∧ piece.2 = 4096 := by
      intro piece hmem
      have hinside := hcovers.within hmem
      obtain ⟨relative, hrelative, rfl⟩ := List.mem_map.mp hmem
      exact ⟨by omega, Nat.dvd_add hoffset (Bus.steps_dvd (dvd_zero _) hrelative), rfl⟩
    rw [hsectors, hcommands] at hbegun hok
    refine staysInside_of_pieces (R := fun piece => .erase piece.1) (contains_bounds hregion)
      hcapacity hcovers (fun piece hmem => ?_) (fun piece hmem => ?_) (fun piece hmem y => ?_)
      hbegun fun ⟨a', ho⟩ => (hok _ _ ho).2
    · exact Or.inl ⟨rfl, Nor.ofBytes_erase (hpiece piece hmem).1⟩
    · exact Nor.ofBytes_erase (hpiece piece hmem).1
    · rw [Nor.touches_erase (hpiece piece hmem).2.1, (hpiece piece hmem).2.2]
      rfl
  · refine staysInside_unsent ?_ fun ⟨a', ho⟩ => hvalid (hok _ _ ho).1
    by_contra hne
    exact hvalid (hsent hne)

omit [Crates] in
theorem pieceBytes_length {bytes : Bytes} {piece : ℕ × ℕ} (hfirst : offset.toNat ≤ piece.1)
    (hlast : piece.1 + piece.2 ≤ offset.toNat + bytes.length) :
    (Bus.pieceBytes offset bytes piece).length = piece.2 := by
  rw [Bus.pieceBytes, List.length_take, List.length_drop]
  omega

theorem flashWrite_staysInside {length : UInt32} {bytes : Bytes}
    (hlength : bytes.length = length.toNat) (hregion : region.contains offset length = true)
    (h : ((Bus.flashWrite patience (.of geometry) offset bytes limits).start a).Runs tr o) :
    StaysInside region geometry offset length.toNat tr (∃ a', o = some (.ok (), a')) := by
  obtain ⟨⟨hbegun, hsent⟩, _, hok⟩ := Bus.flashWrite_meets tr o h
  by_cases hwritable : Bus.Writable (.of geometry) offset bytes limits
  · have hreach := capacity_le_reach geometry
    have hcapacity : offset.toNat + bytes.length ≤ geometry.capacityBytes.toNat := hwritable.range
    have hcovers : Paging.Covers offset.toNat (Bus.writePieces geometry.pageBytes
        (Bus.payloadOf (.of geometry) offset limits) offset bytes 0)
        (offset.toNat + bytes.length) :=
      Paging.slices_covers (Bus.page_pos (.of geometry)) hwritable.payload_pos
        (Nat.le_add_right _ _)
    have hpiece : ∀ piece ∈ Bus.writePieces geometry.pageBytes
        (Bus.payloadOf (.of geometry) offset limits) offset bytes 0,
        piece.1 < geometry.addressMode.reach.toNat ∧
          (Bus.pieceBytes offset bytes piece).length = piece.2 ∧
          piece.2 ≤ Paging.room geometry.pageBytes.toNat piece.1 := by
      intro piece hmem
      obtain ⟨hfirst, hpos, hlast⟩ := hcovers.within hmem
      exact ⟨by omega, pieceBytes_length hfirst hlast, (Paging.slices_bounds hmem).1⟩
    rw [hlength] at hcapacity hcovers
    refine staysInside_of_pieces
      (R := fun piece => .program piece.1 (Bus.pieceBytes offset bytes piece))
      (contains_bounds hregion) hcapacity hcovers (fun piece hmem => ?_) (fun piece hmem => ?_)
      (fun piece hmem y => ?_) hbegun fun ⟨a', ho⟩ => (hok _ _ ho).2
    · exact Or.inr ⟨_, rfl, Nor.ofBytes_program (hpiece piece hmem).1⟩
    · exact Nor.ofBytes_program (hpiece piece hmem).1
    · obtain ⟨_, hsize, hroom⟩ := hpiece piece hmem
      rw [Nor.touches_program (by rw [hsize]; exact hroom), hsize]
  · refine staysInside_unsent ?_ fun ⟨a', ho⟩ => hwritable (hok _ _ ho).1
    by_contra hne
    exact hwritable (hsent hne)

end pieces

/-! ### From authorization to the wire -/

section authorized

variable [Crates]

/-- Whatever the transfer limits and the answers, the erase and program commands of an authorized
operation stay inside the commissioned region and the flash. -/
theorem flash_mutations_stay {grant : Grant} {profile : CommissionedProfile} {plan : ReviewedPlan}
    {planned : PlannedOperation} (h : authorize grant profile plan planned = .ok ())
    (geometry : FlashGeometry) (limits : Bus.Limits) (patience : ℕ) (a : Bpio2Adapter)
    (tr : List (Exchange hardware)) (o : Option (Except BackendError Unit × Bpio2Adapter)) :
    (∀ target instrument offset length,
      planned.operation = .flashErase target instrument offset length →
      ((Bus.flashErase patience (.of geometry) offset length limits).start a).Runs tr o →
      StaysInside profile.regionLimits geometry offset length.toNat tr
        (∃ a', o = some (.ok (), a'))) ∧
    ∀ target instrument offset source length artifacts bytes,
      planned.operation = .flashWrite target instrument offset source length →
      sourceBytes artifacts source length = .ok bytes →
      ((Bus.flashWrite patience (.of geometry) offset bytes limits).start a).Runs tr o →
      StaysInside profile.regionLimits geometry offset length.toNat tr
        (∃ a', o = some (.ok (), a')) := by
  have hlimits := (authorize_ok h).limits
  refine ⟨fun target instrument offset length hop hr => ?_,
    fun target instrument offset source length artifacts bytes hop hbytes hr => ?_⟩
  · rw [hop] at hlimits
    exact flashErase_staysInside hlimits hr
  · rw [hop] at hlimits
    exact flashWrite_staysInside (sourceBytes_length hbytes) hlimits hr

end authorized

open Rig in
/-- An erase and a write on the rig, both of which end well. -/
theorem flash_mutations_stay_rig :
    let erase := ((Bus.flashErase 1 (.of geometry) 4096 4096 limits).start adapter).against respond
      ⟨none, [], false⟩
    let write := ((Bus.flashWrite 1 (.of geometry) 4101 candidate limits).start adapter).against
      respond ⟨none, [], false⟩
    (StaysInside flashProfile.regionLimits geometry 4096 4096 erase.1
        (∃ a', some erase.2.1 = some (.ok (), a')) ∧ erase.2.1.1.isOk = true) ∧
      StaysInside flashProfile.regionLimits geometry 4101 5 write.1
        (∃ a', some write.2.1 = some (.ok (), a')) ∧ write.2.1.1.isOk = true :=
  have herase : authorize flashGrant flashProfile (flashPlan eraseOperation)
      ⟨eraseOperation, 1, []⟩ = .ok () := by decide +kernel
  have hwrite : authorize flashGrant flashProfile (flashPlan writeOperation)
      ⟨writeOperation, 1, []⟩ = .ok () := by decide +kernel
  ⟨⟨(flash_mutations_stay herase geometry limits 1 adapter _ _).1 Bench.target flasher 4096 4096
      rfl (Program.against_runs respond _ _), by decide +kernel⟩,
    (flash_mutations_stay hwrite geometry limits 1 adapter _ _).2 Bench.target flasher 4101 _ 5
      artifacts candidate rfl rfl (Program.against_runs respond _ _), by decide +kernel⟩

end Cheirismos
