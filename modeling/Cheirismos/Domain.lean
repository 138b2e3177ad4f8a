import Cheirismos.Ordered
import Mathlib.Data.String.Basic
import Mathlib.Data.Prod.Lex
import Mathlib.Data.Finset.Basic
import Mathlib.Data.Finset.Card

/-! # Identifiers, operations and budgets

The vocabulary of `domain/mod.rs` that does not depend on conditions: identifiers and digests
(validated strings), capabilities, effect permissions, budgets of three `u64` counters with
checked arithmetic, the eighteen typed operations with what each may do and cost, principals,
and the physical resources that are leased.

Identifiers of every kind are one type with the kind's name as a parameter, as the source's
`identifier!` macro makes them.  `BTreeSet`s of permissions and capabilities are `Finset`s;
the sets the source iterates over are `OrdSet`s. -/

namespace Cheirismos

/-- A byte string. -/
abbrev Bytes := List UInt8

/-- The UTF-8 bytes of a text. -/
def utf8 (text : String) : Bytes := text.toUTF8.data.toList

theorem utf8_ofList (l : List Char) : utf8 (String.ofList l) = l.flatMap String.utf8EncodeChar := by
  unfold utf8
  simp [List.utf8Encode]

/-! ### Identifiers and digests -/

def maxIdentifierLength : ℕ := 128

inductive DomainError where
  | invalidIdentifier (kind : String)
  | invalidDigest
  | invalidBudget
  | emptyPlan
deriving DecidableEq

namespace DomainError

def toString : DomainError → String
  | invalidIdentifier kind => kind ++ " must contain 1..=128 ASCII identifier characters"
  | invalidDigest => "digest must be a 64-character lowercase SHA-256 hex string"
  | invalidBudget => "budget must be finite and non-zero"
  | emptyPlan => "plan has no operations"

end DomainError

/-- ASCII letters and digits, `-`, `_`, `.` and `:`. -/
def identifierByte (byte : UInt8) : Bool :=
  (48 ≤ byte && byte ≤ 57) || (65 ≤ byte && byte ≤ 90) || (97 ≤ byte && byte ≤ 122) ||
    byte == 45 || byte == 95 || byte == 46 || byte == 58

def validateIdentifier (value : String) : Bool :=
  !(value == "." || value == ".." || value.isEmpty ||
    decide (maxIdentifierLength < (utf8 value).length) || !(utf8 value).all identifierByte)

/-- An identifier of one kind. -/
structure Identifier (kind : String) where
  value : String
  valid : validateIdentifier value = true

namespace Identifier

variable {kind : String}

instance : LinearOrder (Identifier kind) :=
  LinearOrder.lift' Identifier.value (by rintro ⟨a, _⟩ ⟨b, _⟩ h; cases h; rfl)

def tryFrom (kind : String) (value : String) : Except DomainError (Identifier kind) :=
  if h : validateIdentifier value = true then .ok ⟨value, h⟩ else .error (.invalidIdentifier kind)

end Identifier

abbrev TargetId := Identifier "target id"
abbrev InstrumentId := Identifier "instrument id"
abbrev ProfileId := Identifier "profile id"
abbrev FixtureSessionId := Identifier "fixture session id"
abbrev GrantId := Identifier "grant id"
abbrev PlanId := Identifier "plan id"
abbrev CaseId := Identifier "case id"
abbrev PrincipalId := Identifier "principal id"
abbrev RequestId := Identifier "request id"
abbrev AttemptId := Identifier "attempt id"

/-- `0`–`9` and `a`–`f`. -/
def digestByte (byte : UInt8) : Bool := (48 ≤ byte && byte ≤ 57) || (97 ≤ byte && byte ≤ 102)

def validateDigest (value : String) : Bool :=
  (utf8 value).length == 64 && (utf8 value).all digestByte

/-- A SHA-256 digest as 64 lowercase hex digits. -/
structure ArtifactDigest where
  value : String
  valid : validateDigest value = true

namespace ArtifactDigest

instance : LinearOrder ArtifactDigest :=
  LinearOrder.lift' ArtifactDigest.value (by rintro ⟨a, _⟩ ⟨b, _⟩ h; cases h; rfl)

def tryFrom (value : String) : Except DomainError ArtifactDigest :=
  if h : validateDigest value = true then .ok ⟨value, h⟩ else .error .invalidDigest

end ArtifactDigest

/-! ### Capabilities, permissions, budgets -/

inductive Capability where
  | instrumentStatus | spi | i2c | uart | gpio | adc | psu | relay | flash | video | wait
deriving DecidableEq

inductive EffectPermission where
  | instrumentConfigure | rawBusTransfer | uartTransmit | gpioDrive | powerSet | relayActuate
  | flashErase | flashWrite
deriving DecidableEq

/-- Three `u64` counters. -/
structure Budget where
  effects : UInt64
  bytes : UInt64
  milliseconds : UInt64
deriving DecidableEq

/-- `u64::checked_sub`. -/
def u64CheckedSub (a b : UInt64) : Option UInt64 := if b ≤ a then some (a - b) else none

/-- `u64::checked_add`. -/
def u64CheckedAdd (a b : UInt64) : Option UInt64 :=
  if a.toNat + b.toNat < 2 ^ 64 then some (a + b) else none

namespace Budget

def zero : Budget := ⟨0, 0, 0⟩

def checkedSub (b amount : Budget) : Option Budget := do
  return {
    effects := ← u64CheckedSub b.effects amount.effects
    bytes := ← u64CheckedSub b.bytes amount.bytes
    milliseconds := ← u64CheckedSub b.milliseconds amount.milliseconds }

def checkedAdd (b amount : Budget) : Option Budget := do
  return {
    effects := ← u64CheckedAdd b.effects amount.effects
    bytes := ← u64CheckedAdd b.bytes amount.bytes
    milliseconds := ← u64CheckedAdd b.milliseconds amount.milliseconds }

end Budget

/-! ### Operations -/

inductive Operation where
  | instrumentStatus (target : TargetId) (instrument : InstrumentId)
  | spiTransfer (target : TargetId) (instrument : InstrumentId) (tx : Bytes) (rxBytes : UInt32)
  | i2cTransfer (target : TargetId) (instrument : InstrumentId) (address : UInt8) (tx : Bytes)
      (rxBytes : UInt32)
  | i2cScan (target : TargetId) (instrument : InstrumentId)
  | uartCapture (target : TargetId) (instrument : InstrumentId) (maxBytes : UInt32)
  | uartTransmit (target : TargetId) (instrument : InstrumentId) (bytes : Bytes)
  | gpioSet (target : TargetId) (instrument : InstrumentId) (pin : UInt16) (high : Bool)
  | adcRead (target : TargetId) (instrument : InstrumentId) (channel : UInt16)
  | psuSet (target : TargetId) (instrument : InstrumentId) (millivolts milliamps : UInt32)
  | relaySet (target : TargetId) (instrument : InstrumentId) (relay : UInt16) (closed : Bool)
  | relayRead (target : TargetId) (instrument : InstrumentId) (relay : UInt16)
  | flashIdentify (target : TargetId) (instrument : InstrumentId)
  | flashRead (target : TargetId) (instrument : InstrumentId) (offset : UInt64) (length : UInt32)
  | flashErase (target : TargetId) (instrument : InstrumentId) (offset : UInt64) (length : UInt32)
  | flashWrite (target : TargetId) (instrument : InstrumentId) (offset : UInt64)
      (source : ArtifactDigest) (length : UInt32)
  | flashVerify (target : TargetId) (instrument : InstrumentId) (offset : UInt64)
      (source : ArtifactDigest) (length : UInt32)
  | videoCapture (target : TargetId) (instrument : InstrumentId)
  | wait (target : TargetId) (milliseconds : UInt64)
deriving DecidableEq

namespace Operation

/-- The instrument the operation uses; waiting uses none. -/
def instrument : Operation → Option InstrumentId
  | instrumentStatus _ i | spiTransfer _ i _ _ | i2cTransfer _ i _ _ _ | i2cScan _ i
  | uartCapture _ i _ | uartTransmit _ i _ | gpioSet _ i _ _ | adcRead _ i _ | psuSet _ i _ _
  | relaySet _ i _ _ | relayRead _ i _ | flashIdentify _ i | flashRead _ i _ _
  | flashErase _ i _ _ | flashWrite _ i _ _ _ | flashVerify _ i _ _ _ | videoCapture _ i => some i
  | wait _ _ => none

def target : Operation → TargetId
  | instrumentStatus t _ | spiTransfer t _ _ _ | i2cTransfer t _ _ _ _ | i2cScan t _
  | uartCapture t _ _ | uartTransmit t _ _ | gpioSet t _ _ _ | adcRead t _ _ | psuSet t _ _ _
  | relaySet t _ _ _ | relayRead t _ _ | flashIdentify t _ | flashRead t _ _ _
  | flashErase t _ _ _ | flashWrite t _ _ _ _ | flashVerify t _ _ _ _ | videoCapture t _
  | wait t _ => t

def capability : Operation → Capability
  | instrumentStatus .. => .instrumentStatus
  | spiTransfer .. => .spi
  | i2cTransfer .. | i2cScan .. => .i2c
  | uartCapture .. | uartTransmit .. => .uart
  | gpioSet .. => .gpio
  | adcRead .. => .adc
  | psuSet .. => .psu
  | relaySet .. | relayRead .. => .relay
  | flashIdentify .. | flashRead .. | flashErase .. | flashWrite .. | flashVerify .. => .flash
  | videoCapture .. => .video
  | wait .. => .wait

def effectPermissions : Operation → Finset EffectPermission
  | spiTransfer .. | i2cTransfer .. | i2cScan .. => {.instrumentConfigure, .rawBusTransfer}
  | uartCapture .. => {.instrumentConfigure}
  | uartTransmit .. => {.instrumentConfigure, .uartTransmit}
  | flashIdentify .. | flashRead .. | flashVerify .. => {.instrumentConfigure}
  | flashErase .. => {.instrumentConfigure, .flashErase}
  | flashWrite .. => {.instrumentConfigure, .flashWrite}
  | gpioSet .. => {.gpioDrive}
  | psuSet .. => {.powerSet}
  | relaySet .. => {.relayActuate}
  | _ => ∅

def worstCaseBudget (operation : Operation) : Budget where
  effects := UInt64.ofNat operation.effectPermissions.card
  bytes := match operation with
    | spiTransfer _ _ tx rxBytes | i2cTransfer _ _ _ tx rxBytes =>
        UInt64.ofNat tx.length + rxBytes.toUInt64
    | uartCapture _ _ maxBytes => maxBytes.toUInt64
    | uartTransmit _ _ bytes => UInt64.ofNat bytes.length
    | flashRead _ _ _ length | flashErase _ _ _ length | flashWrite _ _ _ _ length
    | flashVerify _ _ _ _ length => length.toUInt64
    | _ => 0
  milliseconds := 0

end Operation

/-! ### Principals and physical resources -/

inductive PrincipalRole where
  | operator | admin | agent | reviewer
deriving DecidableEq

structure Principal where
  id : PrincipalId
  role : PrincipalRole
  authenticationFingerprint : ArtifactDigest
deriving DecidableEq

structure ElectricalLimits where
  maxMillivolts : UInt32
  maxMilliamps : UInt32
deriving DecidableEq

structure RegionLimits where
  flashStart : UInt64
  flashEndExclusive : UInt64
deriving DecidableEq

/-- The range starts inside the region and ends, without overflow, inside it. -/
def RegionLimits.contains (limits : RegionLimits) (offset : UInt64) (length : UInt32) : Bool :=
  match u64CheckedAdd offset length.toUInt64 with
  | some last => decide (limits.flashStart ≤ offset) && decide (last ≤ limits.flashEndExclusive)
  | none => false

/-- What a lease is held on. -/
inductive PhysicalResource where
  | target (digest : ArtifactDigest)
  | fixture (id : FixtureSessionId)
  | instrument (digest : ArtifactDigest)

namespace PhysicalResource

/-- Position of the variant, then its text: the derived order of the source. -/
def rank : PhysicalResource → ℕ ×ₗ String
  | target digest => toLex (0, digest.value)
  | fixture id => toLex (1, id.value)
  | instrument digest => toLex (2, digest.value)

theorem rank_injective : Function.Injective rank := by
  intro a b h
  cases a <;> cases b <;> simp [rank] at h
  case target.target a b => cases a; cases b; cases h; rfl
  case fixture.fixture a b => cases a; cases b; cases h; rfl
  case instrument.instrument a b => cases a; cases b; cases h; rfl

instance : LinearOrder PhysicalResource := LinearOrder.lift' rank rank_injective

/-- The lease key. -/
def key : PhysicalResource → String
  | target digest => "target:" ++ digest.value
  | fixture id => "fixture:" ++ id.value
  | instrument digest => "instrument:" ++ digest.value

end PhysicalResource

end Cheirismos
