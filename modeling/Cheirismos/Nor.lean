import Cheirismos.Mutations

/-! # A NOR flash

The flash on the other side of the transfers.

* `Command.ofBytes` is how the flash reads what is sent in one transaction; `Command.Touches` are
  the addresses that a command concerns.  A sector has 4096 bytes, and programming wraps at the end
  of a page.
* The commands of `flash_erase` and `flash_write` are read as they are meant (`ofBytes_erase`,
  `ofBytes_program`): no address is truncated as long as the address mode reaches it. -/

namespace Cheirismos

open Process

namespace Nor

/-! ### Commands -/

/-- The number that bytes stand for, the most significant one first. -/
def decode (bytes : Bytes) : ℕ := bytes.foldl (fun n byte => n * 256 + byte.toNat) 0

def addressLength : AddressMode → ℕ
  | .threeByte => 3
  | .fourByte => 4

def eraseOpcode : AddressMode → UInt8
  | .threeByte => 0x20
  | .fourByte => 0x21

def programOpcode : AddressMode → UInt8
  | .threeByte => 0x02
  | .fourByte => 0x12

inductive Command where
  | writeEnable
  | status
  | erase (first : ℕ)
  | program (first : ℕ) (data : Bytes)
deriving DecidableEq

/-- The command that the bytes of one transaction stand for. -/
def Command.ofBytes (mode : AddressMode) : Bytes → Option Command
  | [] => none
  | opcode :: rest =>
      if opcode = 0x06 then some .writeEnable
      else if opcode = 0x05 then some .status
      else if opcode = eraseOpcode mode then
        some (.erase (decode (rest.take (addressLength mode))))
      else if opcode = programOpcode mode then
        some (.program (decode (rest.take (addressLength mode))) (rest.drop (addressLength mode)))
      else none

/-- The address of the byte `i` of a program command: it wraps at the end of the page. -/
def pageAddress (page first i : ℕ) : ℕ := first / page * page + (first % page + i) % page

def sectorBytes : ℕ := 4096

/-- The addresses that a command changes. -/
def Command.Touches (page : ℕ) : Command → ℕ → Prop
  | erase first, y => first / sectorBytes * sectorBytes ≤ y ∧
      y < first / sectorBytes * sectorBytes + sectorBytes
  | program first data, y => ∃ i < data.length, y = pageAddress page first i
  | _, _ => False

theorem pageAddress_of_lt {page first i : ℕ} (h : i < Paging.room page first) :
    pageAddress page first i = first + i := by
  unfold Paging.room at h
  rw [pageAddress, Nat.mod_eq_of_lt (show first % page + i < page by omega), ← Nat.add_assoc,
    Nat.div_add_mod']

/-- Up to the end of the page, programming concerns consecutive addresses. -/
theorem touches_program {page first : ℕ} {data : Bytes}
    (h : data.length ≤ Paging.room page first) (y : ℕ) :
    Command.Touches page (.program first data) y ↔ first ≤ y ∧ y < first + data.length := by
  constructor
  · rintro ⟨i, hi, rfl⟩
    rw [pageAddress_of_lt (lt_of_lt_of_le hi h)]
    omega
  · intro hy
    refine ⟨y - first, by omega, ?_⟩
    rw [pageAddress_of_lt (by omega)]
    omega

theorem touches_erase {page first : ℕ} (h : sectorBytes ∣ first) (y : ℕ) :
    Command.Touches page (.erase first) y ↔ first ≤ y ∧ y < first + sectorBytes := by
  rw [Command.Touches, Nat.div_mul_cancel h]

/-! ### Addresses -/

theorem toNat_byte (n : UInt64) (k : ℕ) (hk : k < 64) :
    (n >>> UInt64.ofNat k).toUInt8.toNat = n.toNat / 2 ^ k % 256 := by
  rw [UInt64.toNat_toUInt8, UInt64.toNat_shiftRight,
    UInt64.toNat_ofNat_of_lt' (show k < 2 ^ 64 by omega), Nat.mod_eq_of_lt hk,
    Nat.shiftRight_eq_div_pow]

theorem address_length (mode : AddressMode) (offset : UInt64) :
    (Bus.address mode offset).length = addressLength mode := by
  cases mode <;> rfl

/-- An address that the mode reaches is sent without truncation. -/
theorem decode_address {mode : AddressMode} {absolute : UInt64}
    (h : absolute.toNat < mode.reach.toNat) :
    decode (Bus.address mode absolute) = absolute.toNat := by
  cases mode with
  | threeByte =>
      have h₁ := toNat_byte absolute 16 (by decide)
      have h₂ := toNat_byte absolute 8 (by decide)
      have hlt : absolute.toNat < 0x01000000 := h
      show ((0 * 256 + (absolute >>> 16).toUInt8.toNat) * 256 + (absolute >>> 8).toUInt8.toNat) * 256
        + absolute.toUInt8.toNat = absolute.toNat
      rw [show (absolute >>> 16).toUInt8.toNat = _ from h₁,
        show (absolute >>> 8).toUInt8.toNat = _ from h₂, UInt64.toNat_toUInt8]
      omega
  | fourByte =>
      have h₀ := toNat_byte absolute 24 (by decide)
      have h₁ := toNat_byte absolute 16 (by decide)
      have h₂ := toNat_byte absolute 8 (by decide)
      have hlt : absolute.toNat < 0x100000000 := h
      show (((0 * 256 + (absolute >>> 24).toUInt8.toNat) * 256 +
        (absolute >>> 16).toUInt8.toNat) * 256 + (absolute >>> 8).toUInt8.toNat) * 256
        + absolute.toUInt8.toNat = absolute.toNat
      rw [show (absolute >>> 24).toUInt8.toNat = _ from h₀,
        show (absolute >>> 16).toUInt8.toNat = _ from h₁,
        show (absolute >>> 8).toUInt8.toNat = _ from h₂, UInt64.toNat_toUInt8]
      omega

theorem ofBytes_erase {mode : AddressMode} {first : ℕ} (h : first < mode.reach.toNat) :
    Command.ofBytes mode (Bus.eraseCommand mode first) = some (.erase first) := by
  have hfirst : (UInt64.ofNat first).toNat = first :=
    UInt64.toNat_ofNat_of_lt' (show first < 2 ^ 64 from h.trans mode.reach.toNat_lt)
  have htake : (Bus.address mode (UInt64.ofNat first)).take (addressLength mode) =
      Bus.address mode (UInt64.ofNat first) := by
    rw [← address_length mode (UInt64.ofNat first), List.take_length]
  have hdecode := decode_address (show (UInt64.ofNat first).toNat < mode.reach.toNat by rwa [hfirst])
  cases mode <;>
  · simp only [Bus.eraseCommand, Bus.opcodes, Command.ofBytes, htake, hdecode, hfirst, eraseOpcode]
    rfl

theorem ofBytes_program {mode : AddressMode} {first : ℕ} {data : Bytes}
    (h : first < mode.reach.toNat) :
    Command.ofBytes mode (Bus.programCommand mode first data) = some (.program first data) := by
  have hfirst : (UInt64.ofNat first).toNat = first :=
    UInt64.toNat_ofNat_of_lt' (show first < 2 ^ 64 from h.trans mode.reach.toNat_lt)
  have htake : (Bus.address mode (UInt64.ofNat first) ++ data).take (addressLength mode) =
      Bus.address mode (UInt64.ofNat first) := by
    rw [← address_length mode (UInt64.ofNat first), List.take_left]
  have hdrop : (Bus.address mode (UInt64.ofNat first) ++ data).drop (addressLength mode) = data := by
    rw [← address_length mode (UInt64.ofNat first), List.drop_left]
  have hdecode := decode_address (show (UInt64.ofNat first).toNat < mode.reach.toNat by rwa [hfirst])
  cases mode <;>
  · simp only [Bus.programCommand, Bus.opcodes, Command.ofBytes, htake, hdrop, hdecode, hfirst,
      eraseOpcode, programOpcode]
    rfl

end Nor

end Cheirismos
