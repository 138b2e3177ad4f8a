import Cheirismos.Driving
import Cheirismos.Programming
import Cheirismos.Restraint
import Cheirismos.Transfers

/-! # Flash operations, to the end

Erasing, writing and verifying a flash through the device backend, against a flash that also
answers reads.

* `Nor.chip` is such a flash: it moves as `Nor.step` says, and a read of it inside its capacity is
  answered with what its memory holds, if it is answered with bytes at all.
* For the helpers of `bus.rs` one lemma each says what they make of the flash: `flash_erase` and
  `flash_write` change their range only, `flash_read` returns the range and changes nothing.
* `flash_reported` puts this together for `DeviceBackend.run`: a receipt that is not a rejection
  says that the operation is complete exactly when the range then holds what the operation asks
  for. -/

namespace Cheirismos

open Process

namespace Nor

/-! ### A flash that is read -/

/-- The bytes of the memory from an address on. -/
def contents (memory : ℕ → UInt8) (first n : ℕ) : Bytes := (List.range' first n).map memory

theorem contents_add (memory : ℕ → UInt8) (first n k : ℕ) :
    contents memory first (n + k) = contents memory first n ++ contents memory (first + n) k := by
  rw [contents, contents, contents, ← List.map_append, List.range'_append_1]

theorem contents_length (memory : ℕ → UInt8) (first n : ℕ) :
    (contents memory first n).length = n := by
  rw [contents, List.length_map, List.length_range']

/-- The contents are these bytes when each address holds its byte. -/
theorem contents_eq_iff {memory : ℕ → UInt8} {first : ℕ} {bytes : Bytes} :
    contents memory first bytes.length = bytes ↔
      ∀ y, first ≤ y → y < first + bytes.length → memory y = bytes.getD (y - first) 0 := by
  constructor
  · intro h y hfirst hlast
    have hat : (contents memory first bytes.length).getD (y - first) 0 =
        bytes.getD (y - first) 0 := congrArg (fun b => List.getD b (y - first) 0) h
    rw [← hat, contents, List.getD_eq_getElem?_getD, List.getElem?_map,
      List.getElem?_range' (by omega), Option.map_some, Option.getD_some, Nat.one_mul,
      Nat.add_sub_cancel' hfirst]
  · intro h
    refine List.ext_getElem (contents_length _ _ _) fun i hi hi' => ?_
    have hat := h (first + i) (by omega) (by omega)
    rw [Nat.add_sub_cancel_left, List.getD_eq_getElem?_getD, List.getElem?_eq_getElem hi'] at hat
    simpa [contents] using hat

/-- A read inside the flash that is answered with bytes is answered with what the memory holds. -/
def Serves (geometry : FlashGeometry) (s : State) (x : Exchange hardware) : Prop :=
  ∀ (t : Bus.Transfer) (first : Bytes) v read,
    t.write = Bus.readOpcode geometry.addressMode :: first →
    first.length = addressLength geometry.addressMode →
    decode first + t.count.toNat ≤ geometry.capacityBytes.toNat → x = t.answered v →
    t.Replied v read → read = contents s.memory (decode first) t.count.toNat

/-- One exchange with a flash of this geometry. -/
def chip (geometry : FlashGeometry) (s : State) (x : Exchange hardware) (s' : State) : Prop :=
  step geometry.addressMode geometry.pageBytes.toNat s x s' ∧ Serves geometry s x

/-- The requests that carry no command to which a flash moves. -/
def Passive (mode : AddressMode) (request : HardwareRequest) : Prop :=
  commandOf mode request = none

section chip

variable {geometry : FlashGeometry} {mode : AddressMode} {page : ℕ} {s s' : State}
  {x : Exchange hardware} {tr : List (Exchange hardware)}

theorem tracks_of_chip (h : Tracks (chip geometry) s tr s') :
    Tracks (step geometry.addressMode geometry.pageBytes.toNat) s tr s' := by
  induction h with
  | nil s => exact .nil s
  | cons first rest ih => exact .cons first.1 ih

/-- Whatever becomes of a request, the flash does at most what its command says. -/
theorem step_accepts (h : step mode page s x s') :
    s' = s ∨ Accepts page s (commandOf mode x.request) s' := by
  obtain ⟨request, answer⟩ := x
  rcases request with (_ | _ | ⟨start, write, n, stop⟩) | _ | _ | _ | _ | _ | _ | _ | _ | _ | _ | _
  case bpio.data =>
    rcases answer with _ | _ | response
    · exact h
    · exact h
    · exact Or.inr h.1
  all_goals exact Or.inl h

theorem chip_passive (s : State) (x : Exchange hardware) (s' : State)
    (hx : Passive geometry.addressMode x.request) (h : chip geometry s x s') : s' = s := by
  rcases step_accepts h.1 with h | h
  · exact h
  · rw [show commandOf geometry.addressMode x.request = none from hx] at h
    exact h

/-- Programming changes the addresses of its bytes only. -/
theorem programMemory_of_ne {first i y : ℕ} {data : Bytes} {memory : ℕ → UInt8}
    (h : ∀ k, i ≤ k → k < i + data.length → y ≠ pageAddress page first k) :
    programMemory page first i data memory y = memory y := by
  induction data generalizing i memory with
  | nil => rfl
  | cons byte data ih =>
      rw [List.length_cons] at h
      rw [programMemory, ih fun k hk hlt => h k (by omega) (by omega),
        Function.update_of_ne (h i (Nat.le_refl i) (by omega))]

/-- An address that the command does not touch keeps its byte. -/
theorem accepts_untouched {command : Option Command} {y : ℕ} (h : Accepts page s command s')
    (hy : ∀ c, command = some c → ¬ c.Touches page y) : s'.memory y = s.memory y := by
  rcases command with _ | ⟨_ | _ | first | ⟨first, data⟩⟩
  · rw [show s' = s from h]
  · rcases h with rfl | rfl
    · rfl
    · rfl
  · rw [show s' = s from h]
  · obtain rfl : s' = if s.latched then ⟨eraseMemory first s.memory, false⟩ else s := h
    split
    · exact if_neg (hy _ rfl)
    · rfl
  · obtain rfl : s' = if s.latched then ⟨programMemory page first 0 data s.memory, false⟩ else s := h
    split
    · exact programMemory_of_ne fun k _ hk heq => hy _ rfl ⟨k, by omega, heq⟩
    · rfl

/-- Exchanges whose commands do not touch an address keep its byte. -/
theorem tracks_untouched {y : ℕ} (h : Tracks (step mode page) s tr s')
    (hy : ∀ x ∈ tr, ∀ c, commandOf mode x.request = some c → ¬ c.Touches page y) :
    s'.memory y = s.memory y := by
  induction h with
  | nil s => rfl
  | cons first rest ih =>
      rw [ih fun x hx => hy x (List.mem_cons_of_mem _ hx)]
      rcases step_accepts first with rfl | h
      · rfl
      · exact accepts_untouched h (hy _ List.mem_cons_self)

end chip

/-! ### Commands that erase -/

/-- The range is erased, and nothing else. -/
def Erased (offset : UInt64) (length : ℕ) (memory memory' : ℕ → UInt8) : Prop :=
  ∀ y, memory' y = if offset.toNat ≤ y ∧ y < offset.toNat + length then 0xFF else memory y

/-- Nothing outside the range has changed. -/
def Confined (offset : UInt64) (length : ℕ) (memory : ℕ → UInt8) (s : State) : Prop :=
  ∀ y, ¬ (offset.toNat ≤ y ∧ y < offset.toNat + length) → s.memory y = memory y

theorem Confined.refl {offset : UInt64} {length : ℕ} {s : State} :
    Confined offset length s.memory s := fun _ _ => rfl

section erase

variable {profile : Bus.FlashProfile} {page : ℕ} {offset : UInt64} {s s' : State}
  {tr : List (Exchange hardware)} {sectors : List ℕ}

/-- Erase commands for these sectors erase them. -/
theorem erased_tracks
    (hsectors : ∀ sector ∈ sectors, offset.toNat + sector < profile.mode.reach.toNat ∧
      sectorBytes ∣ offset.toNat + sector)
    (h : Bus.Completed (Bus.eraseCommands profile offset sectors) tr)
    (ht : Tracks (step profile.mode page) s tr s') (y : ℕ) :
    s'.memory y = if ∃ sector ∈ sectors, offset.toNat + sector ≤ y ∧
      y < offset.toNat + sector + sectorBytes then 0xFF else s.memory y := by
  induction sectors generalizing s tr with
  | nil =>
      cases h
      rw [ht.nil_inv, if_neg]
      rintro ⟨_, hmem, _⟩
      exact absurd hmem List.not_mem_nil
  | cons sector sectors ih =>
      obtain ⟨hreach, hwhole⟩ := hsectors sector List.mem_cons_self
      cases h with
      | cons first rest =>
          obtain ⟨s₁, ht₁, ht₂⟩ := ht.append_inv
          have haccepted := mutated_accepts first ht₁
          rw [ofBytes_erase hreach] at haccepted
          have hmemory : s₁.memory y = if offset.toNat + sector ≤ y ∧
              y < offset.toNat + sector + sectorBytes then 0xFF else s.memory y := by
            rw [congrArg State.memory (show s₁ = _ from haccepted)]
            show eraseMemory (offset.toNat + sector) s.memory y = _
            rw [eraseMemory, Nat.div_mul_cancel hwhole]
          rw [ih (fun r hr => hsectors r (List.mem_cons_of_mem _ hr)) rest ht₂, hmemory]
          by_cases hin : offset.toNat + sector ≤ y ∧ y < offset.toNat + sector + sectorBytes
          · rw [if_pos hin, ite_self, if_pos ⟨sector, List.mem_cons_self, hin⟩]
          · rw [if_neg hin]
            refine if_congr ⟨?_, ?_⟩ rfl rfl
            · rintro ⟨r, hr, hy⟩
              exact ⟨r, List.mem_cons_of_mem _ hr, hy⟩
            · rintro ⟨r, hr, hy⟩
              rcases List.mem_cons.mp hr with rfl | hr
              · exact absurd hy hin
              · exact ⟨r, hr, hy⟩

/-- The sectors of an accepted erase. -/
theorem eraseSectors_spec {length : UInt32}
    (h : profile.geometry.validateErase offset length = .ok ()) :
    (∀ sector ∈ Bus.eraseSectors profile length, offset.toNat + sector < profile.mode.reach.toNat ∧
      sectorBytes ∣ offset.toNat + sector ∧
        offset.toNat + sector + sectorBytes ≤ offset.toNat + length.toNat) ∧
    ∀ y, (∃ sector ∈ Bus.eraseSectors profile length, offset.toNat + sector ≤ y ∧
      y < offset.toNat + sector + sectorBytes) ↔
        offset.toNat ≤ y ∧ y < offset.toNat + length.toNat := by
  obtain ⟨hrange, hoffset, hlength⟩ := Bus.validateErase_ok_iff.mp h
  have hsize : profile.eraseBytes.toNat = sectorBytes := by
    rw [profile.erase_eq]
    exact Bus.eraseBytes_toNat profile.geometry
  have hreach := capacity_le_reach profile.geometry
  rw [← profile.mode_eq] at hreach
  have hcovers : Paging.Covers (offset.toNat + 0) ((Bus.eraseSectors profile length).map
      fun sector => (offset.toNat + sector, sectorBytes)) (offset.toNat + length.toNat) := by
    unfold Bus.eraseSectors
    rw [hsize]
    exact Bus.steps_covers offset.toNat (by decide) (Nat.zero_le _) hlength
  rw [Nat.add_zero] at hcovers
  refine ⟨fun sector hmem => ?_, fun y => ?_⟩
  · obtain ⟨_, _, hlast⟩ := hcovers.within (List.mem_map_of_mem hmem)
    have hpos : 0 < sectorBytes := by decide
    have hdvd : sectorBytes ∣ sector := by
      unfold Bus.eraseSectors at hmem
      rw [hsize] at hmem
      exact Bus.steps_dvd (Nat.dvd_zero _) hmem
    exact ⟨by omega, Nat.dvd_add hoffset hdvd, hlast⟩
  · rw [hcovers.mem_iff]
    constructor
    · rintro ⟨sector, hmem, hy⟩
      exact ⟨_, List.mem_map_of_mem hmem, hy⟩
    · rintro ⟨_, hmem, hy⟩
      obtain ⟨sector, hsector, rfl⟩ := List.mem_map.mp hmem
      exact ⟨sector, hsector, hy⟩

end erase

end Nor

/-! ### The helpers of the flash operations -/

namespace Bus

open Nor

/-- What an action over the adapter makes of a flash. -/
abbrev Drives {α : Type} (geometry : FlashGeometry) (x : Session α) (a : Bpio2Adapter) (s : State)
    (I : State → Prop) (Q : α → Bpio2Adapter → State → Prop) : Prop :=
  Action.Drives (F := hardware) (chip geometry) x a s I Q

section reading

variable {geometry : FlashGeometry} {mode : AddressMode}

theorem read_passive (mode : AddressMode) (absolute : UInt64) (n : UInt16) :
    Passive mode (.bpio (.data true ((opcodes mode).1 :: address mode absolute) n true)) := by
  cases mode <;> rfl

theorem jedec_passive (mode : AddressMode) (start : Bool) :
    Passive mode (.bpio (.data start [0x9f] 0 false)) := by
  cases mode <;> rfl

theorem sfdp_passive (mode : AddressMode) (start : Bool) :
    Passive mode (.bpio (.data start [0x5a, 0, 0, 0, 0] 0 false)) := by
  cases mode <;> rfl

variable [Crates] {a : Bpio2Adapter} {s : State} {offset : UInt64} {length : UInt32}
  {limits : Limits}

/-- The reads of consecutive pieces return what is there. -/
theorem conducted_contents {first last : ℕ} {pieces : List (ℕ × ℕ)} {tr : List (Exchange hardware)}
    {replies : List Bytes} {s' : State} (hcovers : Paging.Covers first pieces last)
    (hcounts : ∀ piece ∈ pieces, (UInt16.ofNat piece.2).toNat = piece.2)
    (hlast : last ≤ geometry.capacityBytes.toNat)
    (h : Conducted a (pieces.map (readTransfer geometry.addressMode)) tr replies)
    (ht : Tracks (chip geometry) s tr s') :
    replies.flatten = contents s.memory first (last - first) := by
  induction hcovers generalizing s tr replies with
  | nil first =>
      cases h
      rw [Nat.sub_self]
      rfl
  | @cons first n last pieces pos rest ih =>
      have hle := rest.le
      have hcount : (UInt16.ofNat n).toNat = n := hcounts (first, n) List.mem_cons_self
      have hdecode : decode (address geometry.addressMode (UInt64.ofNat first)) = first :=
        decode_first (by have := capacity_le_reach geometry; omega)
      rw [List.map_cons] at h
      cases h with
      | @cons _ _ v read tr replies _ _ hreplied hrest =>
          obtain ⟨s₁, hstep, htracks⟩ := ht.cons_inv
          have hpassive : Passive geometry.addressMode
              (readTransfer geometry.addressMode (first, n)).request := by
            unfold readTransfer
            cases geometry.addressMode <;> rfl
          obtain rfl : s₁ = s := chip_passive _ _ _ hpassive hstep
          have hread := hstep.2 (readTransfer geometry.addressMode (first, n)) _ v read rfl
            (address_length _ _) (by rw [hdecode]; show first + (UInt16.ofNat n).toNat ≤ _; omega)
            rfl hreplied
          rw [hdecode] at hread
          rw [List.flatten_cons, ih (fun p hp => hcounts p (List.mem_cons_of_mem _ hp)) hlast hrest
            htracks, hread, show (readTransfer geometry.addressMode (first, n)).count.toNat = n from hcount,
            ← contents_add]
          congr 1
          omega

/-- A read returns the range, and leaves the flash as it is. -/
theorem flashRead_drives : Drives geometry (flashRead (.of geometry) offset length limits) a s (· = s)
    (fun bytes _ s' => bytes = contents s.memory offset.toNat length.toNat ∧ s' = s) := by
  unfold flashRead
  refine .checked rfl fun _ _ => .checked rfl fun _ hlayout => .refused rfl fun _ => ?_
  have hlast := validateRange_ok_iff.mp (layout_ok hlayout)
  have hcapacity := geometry.capacityBytes.toNat_lt
  have hsum : offset.toNat + length.toNat ≤ geometry.capacityBytes.toNat := hlast
  have hscript : Scripted a (readTransfers geometry.addressMode limits offset.toNat length.toNat)
      (flashReadLoop (.of geometry) limits (UInt64.ofNat offset.toNat) [] length.toNat)
      (fun replies b => b = [] ++ replies.flatten) := flashReadLoop_scripted (by omega)
  rw [UInt64.ofNat_toNat] at hscript
  have hasks : Asks (Passive geometry.addressMode)
      (flashReadLoop (.of geometry) limits offset [] length.toNat) :=
    flashReadLoop_asks fun absolute n => read_passive _ absolute n
  refine .of_meets (hasks.and_meets hscript)
    (fun tr s' ht h => Action.Drives.tracks_still chip_passive h.1 ht) ?_
  rintro bytes _ tr s' ht ⟨hpassive, _⟩ ⟨_, replies, hconducted, rfl⟩
  refine ⟨?_, Action.Drives.tracks_still chip_passive hpassive ht⟩
  rw [List.nil_append, conducted_contents readPieces_covers (fun _ => pieceCount_toNat) hsum
    hconducted ht, Nat.add_sub_cancel_left]

end reading

section mutating

variable [Crates] {geometry : FlashGeometry} {a : Bpio2Adapter} {s : State} {offset : UInt64}
  {limits : Limits} {patience : ℕ}

omit [Crates] in
/-- Commands that have begun keep what none of them touches. -/
theorem Begun.untouched {commands : List Bytes} {tr : List (Exchange hardware)} {s s' : State} {y : ℕ}
    (h : Begun commands tr) (ht : Tracks (chip geometry) s tr s')
    (hy : ∀ command ∈ commands, ∀ c, Command.ofBytes geometry.addressMode command = some c →
      ¬ c.Touches geometry.pageBytes.toNat y) : s'.memory y = s.memory y := by
  refine tracks_untouched (tracks_of_chip ht) fun x hx c hc => ?_
  rcases h.requests x hx with hreq | hreq | ⟨command, hmem, hreq⟩
  · rw [hreq] at hc
    cases hc
    exact fun h => h
  · rw [hreq] at hc
    cases hc
    exact fun h => h
  · rw [hreq] at hc
    exact hy command hmem c hc

theorem flashErase_drives {length : UInt32} :
    Drives geometry (flashErase patience (.of geometry) offset length limits) a s
      (Confined offset length.toNat s.memory)
      (fun _ _ s' => Erased offset length.toNat s.memory s'.memory) := by
  refine .of_meets flashErase_meets (fun tr s' ht h y hy => ?_) ?_
  · by_cases htr : tr = []
    · subst htr
      rw [ht.nil_inv]
    · obtain ⟨hsectors, hspec⟩ := eraseSectors_spec (h.2 htr)
      refine h.1.untouched ht fun command hmem c hc htouches => hy ?_
      obtain ⟨sector, hsector, rfl⟩ := List.mem_map.mp hmem
      obtain ⟨hreach, hwhole, _⟩ := hsectors sector hsector
      cases (ofBytes_erase hreach).symm.trans hc
      exact (hspec y).mp ⟨sector, hsector, (touches_erase hwhole y).mp htouches⟩
  · rintro _ _ tr s' ht _ ⟨hvalid, hcompleted⟩ y
    obtain ⟨hsectors, hspec⟩ := eraseSectors_spec hvalid
    rw [erased_tracks (fun sector hmem => ⟨(hsectors sector hmem).1, (hsectors sector hmem).2.1⟩)
      hcompleted (tracks_of_chip ht) y]
    exact if_congr (hspec y) rfl rfl

theorem flashWrite_drives {bytes : Bytes} :
    Drives geometry (flashWrite patience (.of geometry) offset bytes limits) a s
      (Confined offset bytes.length s.memory)
      (fun _ _ s' => Programmed offset bytes s.memory s'.memory) := by
  refine .of_meets flashWrite_meets (fun tr s' ht h y hy => ?_) ?_
  · by_cases htr : tr = []
    · subst htr
      rw [ht.nil_inv]
    · obtain ⟨hcovers, hpieces⟩ := writePieces_spec (h.2 htr)
      refine h.1.untouched ht fun command hmem c hc htouches => hy ?_
      obtain ⟨piece, hpiece, rfl⟩ := List.mem_map.mp hmem
      obtain ⟨hreach, hlength, hroom, _⟩ := hpieces piece hpiece
      cases (ofBytes_program hreach).symm.trans hc
      have hinside := (touches_program (hlength.le.trans hroom) y).mp htouches
      rw [hlength] at hinside
      exact (hcovers.mem_iff y).mpr ⟨piece, hpiece, hinside⟩
  · rintro _ _ tr s' ht _ ⟨hwritable, hcompleted⟩ y
    obtain ⟨hcovers, hpieces⟩ := writePieces_spec hwritable
    exact completed_tracks hcovers (Nat.le_refl _)
      (fun piece hmem => ⟨(hpieces piece hmem).1, (hpieces piece hmem).2.2.1⟩) hcompleted
      (tracks_of_chip ht) y

end mutating

/-! ### The operations -/

section operations

variable [Crates] {geometry : FlashGeometry} {binding : DeviceBinding} {a : Bpio2Adapter} {s : State}
  {limits : Limits}

/-- A request for the status leaves the flash as it is. -/
theorem identify_drives : Drives geometry (linked Bpio2Adapter.identify) a s (· = s)
    fun _ _ s' => True ∧ s' = s := by
  have hasks : Asks (Passive geometry.addressMode) (linked Bpio2Adapter.identify) :=
    identify_asks rfl
  exact .weaken (.of_asks hasks chip_passive) (fun _ h => h) fun _ _ _ _ h => ⟨trivial, h⟩

/-- Checking the identity of the flash leaves it as it is. -/
theorem verifyFlashIdentity_drives : Drives geometry (verifyFlashIdentity binding limits) a s (· = s)
    fun _ _ s' => s' = s :=
  .of_asks (verifyFlashIdentity_asks (jedec_passive geometry.addressMode)
    (sfdp_passive geometry.addressMode) fun _ _ _ => rfl) chip_passive

/-- What an operation makes of the flash before it has the limits. -/
theorem configured_drives {mode : String} {speed : UInt32} {base : Value} {configure : Bool}
    {run : Limits → Session ResultData} {I : State → Prop} {Q : ResultData → Bpio2Adapter → State → Prop}
    (hmode : mode ≠ "") (hI : I s)
    (hnone : configure = false → ∀ a', Q (modeUnavailable base mode) a' s)
    (hrun : configure = true → ∀ limits a', Drives geometry (run limits) a' s I Q) :
    Drives geometry (configured mode (modeLimits mode speed configure) base run) a s I Q := by
  unfold configured modeLimits
  cases configure with
  | false => exact .pure hI (hnone rfl a)
  | true =>
      have hasks : Asks (Passive geometry.addressMode) (ensureMode mode speed) :=
        ensureMode_asks hmode rfl rfl
      have hfirst : Drives geometry (do
          let limits ← ensureMode mode speed
          return some limits) a s I fun limits _ s' => limits ≠ none ∧ s' = s := by
        refine .bind (R := fun _ _ s' => s' = s) (.weaken (.of_asks hasks chip_passive) ?_
          fun _ _ _ _ h => h) fun limits a' s' hi h => .pure hi ⟨fun h => (by cases h), h⟩
        rintro _ rfl
        exact hI
      refine .bind hfirst ?_
      rintro limits a' _ _ ⟨hlimits, rfl⟩
      cases limits with
      | none => exact absurd rfl hlimits
      | some limits => exact hrun rfl limits a'

/-- Change the range, or not, and judge what is read back. -/
theorem readback_drives {condition : Bool} {mutation : Session Unit} {judge : Bytes → ResultData}
    {offset : UInt64} {length : UInt32} {C : (ℕ → UInt8) → Prop}
    (hmutation : ∀ a', Drives geometry mutation a' s (Confined offset length.toNat s.memory)
      fun _ _ s' => C s'.memory) :
    Drives geometry (do
        verifyFlashIdentity binding limits
        Action.when condition mutation
        let actual ← flashRead (.of geometry) offset length limits
        return judge actual) a s
      (fun s' => Confined offset length.toNat s.memory s' ∧ (condition = false → s' = s))
      (fun result _ s' => (condition = true → C s'.memory) ∧
        result = judge (contents s'.memory offset.toNat length.toNat)) := by
  have hread : ∀ a' s₁, Confined offset length.toNat s.memory s₁ → (condition = false → s₁ = s) →
      (condition = true → C s₁.memory) → Drives geometry (do
          let actual ← flashRead (.of geometry) offset length limits
          return judge actual) a' s₁
        (fun s' => Confined offset length.toNat s.memory s' ∧ (condition = false → s' = s))
        (fun result _ s' => (condition = true → C s'.memory) ∧
          result = judge (contents s'.memory offset.toNat length.toNat)) := by
    intro a' s₁ hconfined hstill hchanged
    refine .bind (R := fun bytes _ s' => bytes = contents s₁.memory offset.toNat length.toNat ∧
      s' = s₁) (.weaken flashRead_drives ?_ fun _ _ _ _ h => h) ?_
    · rintro _ rfl
      exact ⟨hconfined, hstill⟩
    · rintro _ a'' _ hi ⟨rfl, rfl⟩
      exact .pure hi ⟨hchanged, rfl⟩
  have hstart : Confined offset length.toNat s.memory s ∧ (condition = false → s = s) :=
    ⟨.refl, fun _ => rfl⟩
  refine .after (R := fun _ _ => True) (.weaken verifyFlashIdentity_drives (fun _ h => h)
    fun _ _ _ _ h => ⟨trivial, h⟩) hstart fun _ a' _ => ?_
  cases condition with
  | false => exact hread a' s .refl (fun _ => rfl) fun h => by cases h
  | true =>
      refine .bind (.weaken (hmutation a') (fun _ h => ⟨h, fun h => by cases h⟩)
        fun _ _ _ _ h => h) fun _ a'' s₁ hi h => ?_
      exact hread a'' s₁ hi.1 hi.2 fun _ => h

end operations

end Bus

/-! ### What a flash operation is for -/

open Nor

/-- The range of an operation that erases, writes or verifies a flash. -/
def flashRange : Operation → Option (UInt64 × UInt32)
  | .flashErase _ _ offset length => some (offset, length)
  | .flashWrite _ _ offset _ length => some (offset, length)
  | .flashVerify _ _ offset _ length => some (offset, length)
  | _ => none

/-- The bytes that the range is to hold. -/
def flashWanted [Platform] (artifacts : ArtifactResolver) : Operation → Except BackendError Bytes
  | .flashErase _ _ _ length => .ok (List.replicate length.toNat 0xFF)
  | .flashWrite _ _ _ source length => sourceBytes artifacts source length
  | .flashVerify _ _ _ source length => sourceBytes artifacts source length
  | _ => .ok []

/-- What performing the operation does to the memory. -/
def FlashChange [Platform] (artifacts : ArtifactResolver) :
    Operation → (ℕ → UInt8) → (ℕ → UInt8) → Prop
  | .flashErase _ _ offset length, memory, memory' => Erased offset length.toNat memory memory'
  | .flashWrite _ _ offset source length, memory, memory' =>
      ∃ bytes, sourceBytes artifacts source length = .ok bytes ∧
        Programmed offset bytes memory memory'
  | _, memory, memory' => memory' = memory

/-- The operation changes the flash. -/
def altersFlash : Operation → Bool
  | .flashErase .. | .flashWrite .. => true
  | _ => false

/-- The operation may change the flash. -/
def mutatesFlash (operation : Operation) (reconcile configureInstrument : Bool) : Bool :=
  altersFlash operation && (!reconcile && configureInstrument)

/-- Wherever a run is cut off, only the range has changed, and only by an operation that may. -/
structure Careful (operation : Operation) (reconcile configureInstrument : Bool) (offset : UInt64)
    (length : UInt32) (s s' : State) : Prop where
  confined : Confined offset length.toNat s.memory s'
  still : mutatesFlash operation reconcile configureInstrument = false → s' = s

theorem Careful.refl {operation : Operation} {reconcile configureInstrument : Bool}
    {offset : UInt64} {length : UInt32} {s : State} :
    Careful operation reconcile configureInstrument offset length s s := ⟨.refl, fun _ => rfl⟩

/-- The operation has been performed, and `complete` tells whether the range is as wanted. -/
structure Achieved [Platform] (artifacts : ArtifactResolver) (operation : Operation)
    (reconcile configureInstrument : Bool) (offset : UInt64) (length : UInt32) (s s' : State)
    (complete : Prop) : Prop where
  changed : mutatesFlash operation reconcile configureInstrument = true →
    FlashChange artifacts operation s.memory s'.memory
  complete_iff : complete ↔ configureInstrument = true ∧
    flashWanted artifacts operation = .ok (contents s'.memory offset.toNat length.toNat)

namespace Bus

section execute

variable [Crates] {geometry : FlashGeometry} {binding : DeviceBinding} {artifacts : ArtifactResolver}
  {operation : Operation} {reconcile configure : Bool} {offset : UInt64} {length : UInt32}
  {patience : ℕ} {base : Value} {a : Bpio2Adapter} {s : State}

omit [Crates] in
theorem mutatesFlash_unconfigured : mutatesFlash operation reconcile false = false := by
  rw [mutatesFlash, Bool.and_false, Bool.and_false]

/-- Without the limits of the mode nothing is done and nothing is known. -/
theorem achieved_unavailable {mode : String} (hconfigure : configure = false) :
    Achieved artifacts operation reconcile configure offset length s s
      ((modeUnavailable base mode).shortfall = none) := by
  subst hconfigure
  refine ⟨fun h => ?_, iff_of_false (fun h => by cases h) fun h => by cases h.1⟩
  rw [mutatesFlash_unconfigured] at h
  cases h

/-- A read-back is as requested, or says what is wrong. -/
theorem readback_shortfall {additions : List (String × Value)} {actual : Bytes} {field reason : String}
    {asRequested : Bool} : (readback base additions actual field asRequested reason).shortfall = none ↔
      asRequested = true := by
  cases asRequested with
  | false => exact iff_of_false (fun h => by cases h) fun h => by cases h
  | true => exact iff_of_true rfl rfl

/-- Perform an operation with a read-back that shows whether the range is as wanted. -/
theorem performed_drives {condition : Bool} {limits : Limits} {mutation : Session Unit}
    {judge : Bytes → ResultData} (hconfigure : configure = true)
    (hcondition : mutatesFlash operation reconcile configure = condition)
    (hmutation : ∀ a', Drives geometry mutation a' s (Confined offset length.toNat s.memory)
      fun _ _ s' => condition = true → FlashChange artifacts operation s.memory s'.memory)
    (hjudge : ∀ bytes : Bytes, bytes.length = length.toNat →
      ((judge bytes).shortfall = none ↔ flashWanted artifacts operation = .ok bytes)) :
    Drives geometry (do
        verifyFlashIdentity binding limits
        Action.when condition mutation
        let actual ← flashRead (.of geometry) offset length limits
        return judge actual) a s
      (Careful operation reconcile configure offset length s)
      (fun result _ s' => Achieved artifacts operation reconcile configure offset length s s'
        (result.shortfall = none)) := by
  refine (readback_drives (C := fun memory => condition = true →
    FlashChange artifacts operation s.memory memory) hmutation).weaken (fun s' h => ⟨h.1, fun hnone => ?_⟩) ?_
  · exact h.2 (hcondition ▸ hnone)
  · rintro result _ s' _ ⟨hchanged, rfl⟩
    refine ⟨fun h => hchanged (hcondition ▸ h) (hcondition ▸ h), ?_⟩
    rw [hjudge _ (contents_length _ _ _)]
    exact (and_iff_right hconfigure).symm

theorem flashErase_execute {target : TargetId} {instrument : InstrumentId}
    (hprofile : qualifiedFlashGeometry binding = .ok (.of geometry)) :
    Drives geometry (execute patience binding (.flashErase target instrument offset length) artifacts
        reconcile configure) a s
      (Careful (.flashErase target instrument offset length) reconcile configure offset length s)
      (fun result _ s' => Achieved artifacts (.flashErase target instrument offset length) reconcile
        configure offset length s s' (result.shortfall = none)) := by
  unfold execute
  refine .after identify_drives .refl fun fresh a' _ => ?_
  refine .checked .refl fun profile hp => .guarded .refl fun hallowed => ?_
  obtain rfl := Except.ok.inj (hprofile.symm.trans hp)
  refine configured_drives (by decide) .refl (fun h _ => achieved_unavailable h) fun h limits a'' => ?_
  refine performed_drives h (by rw [h, mutatesFlash, altersFlash, Bool.true_and, Bool.and_true])
    (fun _ => .weaken flashErase_drives (fun _ h => h) fun _ _ _ _ h _ => h) fun bytes hlength => ?_
  rw [readback_shortfall, List.all_eq_true]
  show _ ↔ Except.ok (List.replicate length.toNat 0xFF) = Except.ok bytes
  rw [Except.ok.injEq, eq_comm, List.eq_replicate_iff]
  simp [hlength]

theorem candidateOperation_drives {writes : Bool} {source : ArtifactDigest}
    (hwrites : mutatesFlash operation reconcile true = (writes && !reconcile))
    (hwanted : flashWanted artifacts operation = sourceBytes artifacts source length)
    (hchange : writes = true → ∀ bytes memory memory',
      sourceBytes artifacts source length = .ok bytes → Programmed offset bytes memory memory' →
        FlashChange artifacts operation memory memory')
    (hprofile : qualifiedFlashGeometry binding = .ok (.of geometry)) :
    Drives geometry (candidateOperation patience binding artifacts base reconcile configure writes
        offset source length) a s
      (Careful operation reconcile configure offset length s)
      (fun result _ s' => Achieved artifacts operation reconcile configure offset length s s'
        (result.shortfall = none)) := by
  unfold candidateOperation
  refine .checked .refl fun profile hp => .checked .refl fun candidate hcandidate =>
    .guarded .refl fun hallowed => ?_
  obtain rfl := Except.ok.inj (hprofile.symm.trans hp)
  have hlength := sourceBytes_length hcandidate
  refine configured_drives (by decide) .refl (fun h _ => achieved_unavailable h) fun h limits a' => ?_
  refine performed_drives h (h ▸ hwrites) (fun _ => .weaken flashWrite_drives ?_ ?_) fun bytes _ => ?_
  · rw [hlength]
    exact fun _ h => h
  · intro _ _ s' _ hprogrammed hcondition
    exact hchange (Bool.and_eq_true_iff.mp hcondition).1 _ _ _ hcandidate hprogrammed
  · rw [readback_shortfall, decide_eq_true_eq, hwanted, hcandidate, Except.ok.injEq, eq_comm]

/-- What `bus::execute` makes of the flash. -/
theorem execute_drives (hrange : flashRange operation = some (offset, length))
    (hprofile : qualifiedFlashGeometry binding = .ok (.of geometry)) :
    Drives geometry (execute patience binding operation artifacts reconcile configure) a s
      (Careful operation reconcile configure offset length s)
      (fun result _ s' => Achieved artifacts operation reconcile configure offset length s s'
        (result.shortfall = none)) := by
  cases operation
  case flashErase =>
    cases hrange
    exact flashErase_execute hprofile
  case flashWrite =>
    cases hrange
    refine .after identify_drives .refl fun fresh a' _ => candidateOperation_drives ?_ rfl ?_ hprofile
    · rw [mutatesFlash, altersFlash, Bool.and_true]
    · exact fun _ bytes _ _ hbytes h => ⟨bytes, hbytes, h⟩
  case flashVerify =>
    cases hrange
    refine .after identify_drives .refl fun fresh a' _ => candidateOperation_drives ?_ rfl ?_ hprofile
    · rfl
    · exact fun h => by cases h
  all_goals cases hrange

end execute

end Bus

/-! ### A run of the backend -/

namespace DeviceBackend

section run

variable [Crates] {geometry : FlashGeometry} {binding : DeviceBinding} {artifacts : ArtifactResolver}
  {request : DispatchRequest} {reconcile : Bool} {offset : UInt64} {length : UInt32}
  {patience : ℕ} {c : Option Connected} {s : State}

/-- What an action of a session makes of a flash. -/
abbrev Drives {α : Type} (geometry : FlashGeometry) (x : Session α) (c : Option Connected)
    (s : State) (I : State → Prop) (Q : α → Option Connected → State → Prop) : Prop :=
  Action.Drives (F := hardware) (chip geometry) x c s I Q

omit [Crates] in
/-- Without leave to configure, nothing is said to a flash. -/
theorem passive_of_observing {operation : Operation} {request : HardwareRequest} {mode : AddressMode}
    (h : Observing operation false request) : Passive mode request := by
  rcases request with (_ | _ | ⟨start, write, n, stop⟩) | _ | _ | _ | _ | _ | _ | _ | _ | _ | _ | _
  case bpio.data => cases h.1
  all_goals rfl

/-- The session is connected to a Bus Pirate. -/
def OnBus (c : Option Connected) : Prop := ∃ adapter, c = some (.bpio2 adapter)

omit [Crates] in
/-- A quiet action leaves the flash and the connection as they are. -/
theorem drives_of_quiet {α : Type} {operation : Operation} {x : Session α}
    (h : Quiet operation false id c x) : Drives geometry x c s (· = s) fun _ c' s' => c' = c ∧ s' = s :=
  .of_keeps h fun s x s' hx => chip_passive s x s' (passive_of_observing hx)

omit [Crates] in
/-- A quiet action, and then the rest. -/
theorem after_quiet {α β : Type} {operation : Operation} {x : Session α} {f : α → Session β}
    {I : State → Prop} {Q : β → Option Connected → State → Prop} (h : Quiet operation false id c x)
    (hI : I s) (hf : ∀ v, Drives geometry (f v) c s I Q) : Drives geometry (x >>= f) c s I Q := by
  refine .after (R := fun _ c' => c' = c) (drives_of_quiet h) hI ?_
  rintro v _ rfl
  exact hf v

/-- Observing a Bus Pirate leaves the flash as it is and the session on the bus. -/
theorem observe_drives (operation : Operation) {adapter : Bpio2Adapter} :
    Drives geometry (observe binding (.bpio2 adapter)) c s (· = s)
      fun _ c' s' => OnBus c' ∧ s' = s := by
  have hidentify : Drives geometry (Action.inside (fun adapter => some (.bpio2 adapter)) adapter
      (Action.failing transport Bpio2Adapter.identify)) c s (· = s)
      fun _ c' s' => OnBus c' ∧ s' = s := by
    refine .inside ((Bus.identify_drives).weaken (fun _ h => h) ?_)
    exact fun _ adapter _ _ h => ⟨⟨adapter, rfl⟩, h.2⟩
  have husb : Quiet operation false id c (verifyUsb binding.config) := verifyUsb_quiet
  unfold observe
  refine .checked rfl fun configured _ => after_quiet husb rfl fun usb => ?_
  refine .after (R := fun _ c' => OnBus c') ?_ rfl ?_
  · unfold observeConnected
    exact .after hidentify rfl fun _ _ h => .refused rfl fun _ => .pure rfl ⟨h, rfl⟩
  · rintro ⟨identity, status, physical⟩ c' hbus
    have hnow : Quiet operation false id c' (Action.ask (F := hardware) HardwareRequest.now) :=
      .ask trivial
    exact .refused rfl fun _ => after_quiet hnow rfl fun _ => .pure rfl ⟨hbus, rfl⟩

/-- Connecting to a Bus Pirate leaves the flash as it is. -/
theorem connect_drives (operation : Operation) (hc : c = none ∨ OnBus c) {config : Bpio2Config}
    (hconfig : binding.config = .bpio2 config) :
    Drives geometry (connect binding) c s (· = s)
      fun connected c' s' => (∃ adapter, connected = .bpio2 adapter ∧ c' = some connected) ∧
        s' = s := by
  have husb : Quiet operation false id c (verifyUsb binding.config) := verifyUsb_quiet
  unfold connect
  refine after_quiet husb rfl fun _ => .reading ?_
  rcases hc with rfl | ⟨adapter, rfl⟩
  · rw [hconfig]
    have hopen : Quiet operation false id none
        (Action.ask (F := hardware) (HardwareRequest.openSerial config.serial)) := .ask trivial
    refine .bind (R := fun connected c' s' => connected = .bpio2 Bpio2Adapter.new ∧ s' = s)
      (after_quiet hopen rfl fun _ => .checked rfl fun _ _ => .pure rfl ⟨rfl, rfl⟩) ?_
    rintro _ _ _ _ ⟨rfl, rfl⟩
    exact .writing (.pure rfl ⟨⟨_, rfl, rfl⟩, rfl⟩)
  · exact .pure rfl ⟨⟨adapter, rfl, rfl⟩, rfl⟩

/-- What a receipt says of the flash. -/
structure FlashReport (artifacts : ArtifactResolver) (request : DispatchRequest) (reconcile : Bool)
    (offset : UInt64) (length : UInt32) (s s' : State) (receipt : OperationReceipt) : Prop where
  rejected : receipt.state = .rejected → s' = s
  achieved : receipt.state ≠ .rejected → Achieved artifacts request.operation reconcile
    request.configureInstrument offset length s s' (receipt.state = .completed)

omit [Crates] in
theorem receiptOf_state (reconcile : Bool) (observation : Observation) (shortfall : Option String) :
    (receiptOf reconcile observation shortfall).state ≠ .rejected ∧
      ((receiptOf reconcile observation shortfall).state = .completed ↔ shortfall = none) := by
  cases shortfall <;> cases reconcile <;> simp [receiptOf, OperationReceipt.state]

theorem rejected_report {reason : String} :
    FlashReport artifacts request reconcile offset length s s (.rejected reason) :=
  ⟨fun _ => rfl, fun h => absurd rfl h⟩

/-- What a run that reports makes of the flash. -/
abbrev Reports (geometry : FlashGeometry) (artifacts : ArtifactResolver) (request : DispatchRequest)
    (reconcile : Bool) (offset : UInt64) (length : UInt32) (x : Session OperationReceipt)
    (c : Option Connected) (s : State) : Prop :=
  Drives geometry x c s
    (Careful request.operation reconcile request.configureInstrument offset length s)
    fun receipt _ s' => FlashReport artifacts request reconcile offset length s s' receipt

omit [Crates] in
/-- Only a Bus Pirate has a flash of a qualified geometry. -/
theorem config_of_qualified {profile : Bus.FlashProfile}
    (h : Bus.qualifiedFlashGeometry binding = .ok profile) :
    ∃ config, binding.config = .bpio2 config := by
  unfold Bus.qualifiedFlashGeometry Bus.bpioConfig at h
  split at h
  · next config hconfig => exact ⟨config, hconfig⟩
  · cases h

variable (hrange : flashRange request.operation = some (offset, length))
  (hprofile : Bus.qualifiedFlashGeometry binding = .ok (.of geometry))

include hrange hprofile

theorem performReviewed_reports {instrument : InstrumentId} {deadline : ℕ} {adapter : Bpio2Adapter} :
    Reports geometry artifacts request reconcile offset length (performReviewed patience binding
      instrument request artifacts reconcile deadline (.bpio2 adapter)) c s := by
  unfold performReviewed
  refine .after (R := fun _ c' => OnBus c') (observe_drives request.operation) .refl ?_
  rintro observed _ ⟨adapter', rfl⟩
  split
  · exact .pure .refl rejected_report
  · have hexpired : Quiet request.operation false id (some (.bpio2 adapter'))
        (interlocksExpired request) := interlocksExpired_quiet
    refine after_quiet hexpired .refl fun expired => ?_
    split
    · exact .pure .refl rejected_report
    · split
      · exact .pure .refl rejected_report
      · have hoperate : Drives geometry (operate patience binding request artifacts reconcile observed
            deadline (.bpio2 adapter')) (some (.bpio2 adapter')) s
            (Careful request.operation reconcile request.configureInstrument offset length s)
            fun result _ s' => Achieved artifacts request.operation reconcile
              request.configureInstrument offset length s s' (result.shortfall = none) := by
          unfold operate
          exact .inside (Bus.execute_drives hrange hprofile)
        refine .reading (.bind hoperate fun result c₁ s₁ hcareful h => ?_)
        have hpublish : Quiet request.operation false id c₁
            (publish request observed.sourceFingerprint result.body result.bytes) := publish_quiet
        refine after_quiet hpublish hcareful fun observation => .pure hcareful ?_
        obtain ⟨hsettled, hcomplete⟩ := receiptOf_state reconcile observation result.shortfall
        exact ⟨fun hrejected => absurd hrejected hsettled, fun _ =>
          ⟨h.changed, hcomplete.trans h.complete_iff⟩⟩

theorem onSession_reports {instrument : InstrumentId} (hc : c = none ∨ OnBus c) :
    Reports geometry artifacts request reconcile offset length
      (onSession patience binding instrument request artifacts reconcile) c s := by
  unfold onSession
  split
  · exact .pure .refl rejected_report
  · split
    · exact .pure .refl rejected_report
    · have hdeadline : Quiet request.operation false id c (deadlineOf request) := deadlineOf_quiet
      refine after_quiet hdeadline .refl fun deadline => ?_
      cases deadline with
      | none => exact .pure .refl rejected_report
      | some deadline =>
          have helapsed : Quiet request.operation false id c
              (Action.ask (F := hardware) HardwareRequest.elapsed) := .ask trivial
          refine after_quiet helapsed .refl fun elapsed => .refused .refl fun _ => ?_
          have hsession : Reports geometry artifacts request reconcile offset length
              (session patience binding instrument request artifacts reconcile deadline) c s := by
            obtain ⟨config, hconfig⟩ := config_of_qualified hprofile
            unfold session
            refine .after (connect_drives request.operation hc hconfig) .refl ?_
            rintro _ _ ⟨adapter, rfl, rfl⟩
            exact performReviewed_reports hrange hprofile
          unfold guarded
          refine .bind (R := fun r _ s' => ∀ receipt, r = .ok receipt →
            FlashReport artifacts request reconcile offset length s s' receipt) (.outcome
              (hsession.weaken (fun _ h => h) fun a _ _ _ h receipt hreceipt => ?_) ?_) ?_
          · cases hreceipt
            exact h
          · exact fun e _ _ _ receipt h => by cases h
          · intro r c₁ s₁ hcareful h
            cases r with
            | error e => exact .writing (.throw hcareful)
            | ok receipt => exact .pure hcareful (h receipt rfl)

theorem run_reports {backend : DeviceBackend} {instrument : InstrumentId}
    (hinstrument : request.operation.instrument = some instrument)
    (hbinding : backend.sessions.get? instrument = some binding) (hc : c = none ∨ OnBus c) :
    Reports geometry artifacts request reconcile offset length
      (run patience backend request artifacts reconcile) c s := by
  unfold run
  refine .refused .refl fun _ => ?_
  split
  · next heq =>
      rw [heq] at hrange
      cases hrange
  · rw [hinstrument]
    refine .checked .refl fun _ h => ?_
    cases h
    rw [hbinding]
    refine .checked .refl fun _ h => ?_
    cases h
    exact onSession_reports hrange hprofile hc

end run

end DeviceBackend

/-! ### Writing over what is there -/

/-- The bytes can be programmed over the memory: no bit of it would have to be set. -/
def Programmable (offset : UInt64) (bytes : Bytes) (memory : ℕ → UInt8) : Prop :=
  ∀ y, offset.toNat ≤ y → y < offset.toNat + bytes.length →
    memory y &&& bytes.getD (y - offset.toNat) 0 = bytes.getD (y - offset.toNat) 0

theorem Programmed.contents_iff {offset : UInt64} {bytes : Bytes} {memory memory' : ℕ → UInt8}
    (h : Programmed offset bytes memory memory') :
    contents memory' offset.toNat bytes.length = bytes ↔ Programmable offset bytes memory := by
  rw [contents_eq_iff]
  refine forall_congr' fun y => forall_congr' fun hfirst => forall_congr' fun hlast => ?_
  rw [h y, if_pos ⟨hfirst, hlast⟩]

/-- Anything can be programmed over a blank range. -/
theorem programmable_of_blank {first n : ℕ} {offset : UInt64} {bytes : Bytes} {memory : ℕ → UInt8}
    (h : contents memory first n = List.replicate n 0xFF) (hfirst : first ≤ offset.toNat)
    (hlast : offset.toNat + bytes.length ≤ first + n) : Programmable offset bytes memory := by
  intro y hy hy'
  have hblank : contents memory first (List.replicate n (0xFF : UInt8)).length =
      List.replicate n 0xFF := by
    rw [List.length_replicate]
    exact h
  have hat := contents_eq_iff.mp hblank y (by omega) (by rw [List.length_replicate]; omega)
  have hset : memory y = 0xFF := by
    rw [hat, List.getD_eq_getElem?_getD, List.getElem?_replicate_of_lt (by omega)]
    rfl
  rw [hset]
  exact UInt8.and_comm _ _ ▸ UInt8.and_neg_one

/-! ### The reports -/

section reports

variable [Crates] {patience : ℕ} {backend : DeviceBackend} {request : DispatchRequest}
  {artifacts : ArtifactResolver} {reconcile : Bool} {instrument : InstrumentId}
  {binding : DeviceBinding} {profile : Bus.FlashProfile} {offset : UInt64} {length : UInt32}
  {c : Option Connected} {tr : List (Exchange hardware)}
  {o : Option (Except BackendError OperationReceipt × Option Connected)} {s s' : State}

/-- A run beside the flash that its binding describes. -/
theorem DeviceBackend.reports (hrange : flashRange request.operation = some (offset, length))
    (hinstrument : request.operation.instrument = some instrument)
    (hbinding : backend.sessions.get? instrument = some binding)
    (hprofile : Bus.qualifiedFlashGeometry binding = .ok profile)
    (hc : c = none ∨ DeviceBackend.OnBus c)
    (hr : ((DeviceBackend.run patience backend request artifacts reconcile).start c).Runs tr o)
    (ht : Tracks (chip profile.geometry) s tr s') :
    Careful request.operation reconcile request.configureInstrument offset length s s' ∧
      ∀ receipt c', o = some (.ok receipt, c') →
        DeviceBackend.FlashReport artifacts request reconcile offset length s s' receipt := by
  have hof : Bus.qualifiedFlashGeometry binding = .ok (.of profile.geometry) := by
    rw [hprofile]
    obtain ⟨geometry, mode, pageBytes, eraseBytes, rfl, rfl, rfl⟩ := profile
    rfl
  exact (DeviceBackend.run_reports hrange hof hinstrument hbinding hc).runs hr ht

/-- A write that is performed is complete when its bytes could be programmed. -/
theorem DeviceBackend.FlashReport.written {receipt : OperationReceipt} {target : TargetId}
    {source : ArtifactDigest} {bytes : Bytes}
    (h : FlashReport artifacts request reconcile offset length s s' receipt)
    (hoperation : request.operation = .flashWrite target instrument offset source length)
    (hbytes : sourceBytes artifacts source length = .ok bytes) (hreconcile : reconcile = false)
    (hconfigure : request.configureInstrument = true) (hreceipt : receipt.state ≠ .rejected) :
    receipt.state = .completed ↔ Programmable offset bytes s.memory := by
  obtain ⟨hchanged, hcomplete⟩ := h.achieved hreceipt
  have hmutates : mutatesFlash request.operation reconcile request.configureInstrument = true := by
    rw [hoperation, hreconcile, hconfigure]
    rfl
  have hperformed := hchanged hmutates
  rw [hoperation] at hperformed hcomplete
  obtain ⟨bytes', hbytes', hprogrammed⟩ := hperformed
  obtain rfl : bytes = bytes' := Except.ok.inj (hbytes.symm.trans hbytes')
  have hlength := sourceBytes_length hbytes
  rw [hcomplete, flashWanted, hbytes, Except.ok.injEq, ← hlength, and_iff_right hconfigure,
    ← hprogrammed.contents_iff]
  exact eq_comm

/-- A write into a range that an erase has reported to be blank is complete when it is performed. -/
theorem DeviceBackend.FlashReport.written_after_erase {erase : DispatchRequest}
    {artifacts' : ArtifactResolver} {reconciled : Bool} {first : UInt64} {size : UInt32} {s₀ : State}
    {erased receipt : OperationReceipt} {target target' : TargetId} {instrument' : InstrumentId}
    {source : ArtifactDigest} {bytes : Bytes}
    (h₀ : FlashReport artifacts' erase reconciled first size s₀ s erased)
    (herase : erase.operation = .flashErase target' instrument' first size)
    (herased : erased.state = .completed)
    (h : FlashReport artifacts request reconcile offset length s s' receipt)
    (hoperation : request.operation = .flashWrite target instrument offset source length)
    (hbytes : sourceBytes artifacts source length = .ok bytes) (hreconcile : reconcile = false)
    (hconfigure : request.configureInstrument = true) (hreceipt : receipt.state ≠ .rejected)
    (hfirst : first.toNat ≤ offset.toNat)
    (hlast : offset.toNat + bytes.length ≤ first.toNat + size.toNat) :
    receipt.state = .completed := by
  obtain ⟨_, hblank⟩ := (h₀.achieved (by rw [herased]; decide)).complete_iff.mp herased
  rw [herase] at hblank
  refine (h.written hoperation hbytes hreconcile hconfigure hreceipt).mpr ?_
  exact programmable_of_blank (Except.ok.inj hblank).symm hfirst hlast

/-- A flash operation that is not rejected reports to be complete exactly when the flash then holds
what it asks for; a write does so exactly when no bit of the range had to be set.  Wherever a run is
cut off or fails, only the range has changed, and nothing has unless the operation is an erase or a
write that is not reconciled and may configure the instrument. -/
theorem flash_reported (hrange : flashRange request.operation = some (offset, length))
    (hinstrument : request.operation.instrument = some instrument)
    (hbinding : backend.sessions.get? instrument = some binding)
    (hprofile : Bus.qualifiedFlashGeometry binding = .ok profile)
    (hc : c = none ∨ DeviceBackend.OnBus c)
    (hr : ((DeviceBackend.run patience backend request artifacts reconcile).start c).Runs tr o)
    (ht : Tracks (chip profile.geometry) s tr s') :
    Careful request.operation reconcile request.configureInstrument offset length s s' ∧
      ∀ receipt c', o = some (.ok receipt, c') →
        DeviceBackend.FlashReport artifacts request reconcile offset length s s' receipt ∧
        ∀ target source bytes,
          request.operation = .flashWrite target instrument offset source length →
          sourceBytes artifacts source length = .ok bytes → reconcile = false →
          request.configureInstrument = true → receipt.state ≠ .rejected →
          (receipt.state = .completed ↔ Programmable offset bytes s.memory) := by
  obtain ⟨hcareful, hreport⟩ :=
    DeviceBackend.reports hrange hinstrument hbinding hprofile hc hr ht
  refine ⟨hcareful, fun receipt c' ho => ⟨hreport receipt c' ho, ?_⟩⟩
  intro target source bytes hoperation hbytes hreconcile hconfigure hreceipt
  exact (hreport receipt c' ho).written hoperation hbytes hreconcile hconfigure hreceipt

end reports

/-! ### On the rig -/

section rig

open Rig

/-- What the flash puts on the bus: its status, or what its memory holds. -/
def Rig.chipReply (s : Nor.State) (write : Bytes) (n : UInt16) : Bytes :=
  match write with
  | 0x03 :: first => contents s.memory (decode first) n.toNat
  | _ => List.replicate n.toNat (if s.latched then 2 else 0)

def Rig.chipRespond : (request : hardware.Request) → Nor.State → hardware.Answer request × Nor.State
  | .bpio (.data _ write n _), s => (.ok ⟨none, .data (some (none, some (chipReply s write n))),
      n.toNat + 64⟩, accept 4 s (Command.ofBytes .threeByte write))
  | .usbPorts _, s => (.ok [⟨0x1209, 0x7331, some "flasher"⟩], s)
  | request, s => ((Rig.respond request ⟨none, [], false⟩).1, s)

theorem chipReply_length (s : Nor.State) (write : Bytes) (n : UInt16) :
    (chipReply s write n).length = n.toNat := by
  unfold chipReply
  split
  · exact contents_length _ _ _
  · exact List.length_replicate

theorem chipRespond_chip (request : hardware.Request) (s : Nor.State) :
    chip geometry s ⟨request, some (chipRespond request s).1⟩ (chipRespond request s).2 := by
  rcases request with (_ | _ | ⟨start, write, n, stop⟩) | _ | _ | _ | _ | _ | _ | _ | _ | _ | _ | _
  case bpio.data =>
    have hread : ∀ read, Bpio2Adapter.readOf ⟨none,
        .data (some (none, some (chipReply s write n))), n.toNat + 64⟩ (some n) = .ok read →
        read = chipReply s write n := fun read h =>
      (Except.ok.inj (h.symm.trans (readOf_data (chipReply_length s write n))))
    refine ⟨⟨accept_accepts 4 s _, ?_⟩, ?_⟩
    · rintro rfl status hstatus
      have hbytes : [status] = List.replicate n.toNat (if s.latched then 2 else 0) :=
        hread _ hstatus
      have hmem := List.eq_of_mem_replicate (hbytes ▸ List.mem_singleton.mpr rfl)
      cases hlatched : s.latched <;> simp [hmem, hlatched]
    · rintro ⟨_, _, _, _⟩ first v read rfl _ _ hx ⟨response, rfl, hreplied⟩
      cases hx
      exact hread _ hreplied
  all_goals
    refine ⟨rfl, ?_⟩
    rintro t first v read _ _ _ hx
    cases hx

/-- The dispatch of a write to the flash of the rig. -/
def Rig.writeDispatch : DispatchRequest :=
  { dispatch writeOperation with
    expectedInstrumentFingerprints := ⟨[(flasher, Platform.sha256 [])], by simp⟩
    expectedInstrumentConfigurations := ⟨[(flasher, Platform.sha256 [])], by simp⟩
    expectedInstrumentPhysicalIdentities :=
      ⟨[(flasher, physicalIdentity "usb:1209:7331:flasher")], by simp⟩
    configureInstrument := true }

def Rig.chipRun : List (Exchange hardware) ×
    (Except BackendError OperationReceipt × Option Connected) × Nor.State :=
  ((DeviceBackend.run 2 ⟨⟨[(flasher, chipBinding)], by simp⟩⟩ writeDispatch artifacts false).start
    none).against chipRespond ⟨fun _ => 0xFF, false⟩

/-- The write of the rig reports to be complete, and the flash holds the candidate. -/
theorem flash_reported_rig : ∃ receipt c', chipRun.2.1 = (.ok receipt, c') ∧
    receipt.state = .completed ∧ contents chipRun.2.2.memory 4101 5 = candidate := by
  have hended : chipRun.2.1.1.toOption.map OperationReceipt.state = some .completed := by
    decide +kernel
  have hrange : flashRange writeDispatch.operation = some (4101, 5) := rfl
  have hprofile : Bus.qualifiedFlashGeometry chipBinding = .ok (.of geometry) := rfl
  have hsource : flashWanted artifacts writeDispatch.operation = .ok candidate := rfl
  have htracks : Tracks (chip geometry) ⟨fun _ => 0xFF, false⟩ chipRun.1 chipRun.2.2 :=
    Program.against_tracks chipRespond_chip _ _
  obtain ⟨_, hreport⟩ := flash_reported (o := some chipRun.2.1) hrange rfl rfl hprofile (Or.inl rfl)
    (Program.against_runs chipRespond _ _) htracks
  cases hr : chipRun.2.1 with
  | mk r c' =>
      cases r with
      | error e =>
          rw [hr] at hended
          cases hended
      | ok receipt =>
          rw [hr] at hended
          have hcompleted : receipt.state = .completed := Option.some.inj hended
          obtain ⟨⟨_, hachieved⟩, _⟩ := hreport receipt c' (congrArg some hr)
          obtain ⟨_, hwanted⟩ := (hachieved (by rw [hcompleted]; decide)).complete_iff.mp hcompleted
          exact ⟨receipt, c', rfl, hcompleted, Except.ok.inj (hwanted.symm.trans hsource)⟩

end rig

end Cheirismos
