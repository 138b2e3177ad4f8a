import Cheirismos.Bus

/-! # Relay controllers and the simulator

* `instruments/numato.rs` and `relay_operation` of `service/backend/mod.rs`: command lines of a
  four-channel relay controller, and the operations that use it.
* `instruments/simulator.rs` and `service/backend/simulated.rs`: a simulated flash and four relays
  that persist in a store file, with injected faults, and the operations that use them.

Every change of the simulator is written to its store; the state in memory has changed before that
is known to have succeeded. -/

namespace Cheirismos

open Process

/-! ### Texts -/

/-- The pieces of a text between separators. -/
def splitOn (separator : Char) : List Char → List (List Char)
  | [] => [[]]
  | c :: cs =>
      if c = separator then [] :: splitOn separator cs
      else match splitOn separator cs with
        | [] => [[c]]
        | piece :: pieces => (c :: piece) :: pieces

/-- `char::is_whitespace`. -/
def isWhitespace (c : Char) : Bool :=
  let n := c.toNat
  (9 ≤ n && n ≤ 13) || n == 0x20 || n == 0x85 || n == 0xA0 || n == 0x1680 ||
    (0x2000 ≤ n && n ≤ 0x200A) || n == 0x2028 || n == 0x2029 || n == 0x202F || n == 0x205F ||
    n == 0x3000

def trim (text : List Char) : List Char :=
  ((text.dropWhile isWhitespace).reverse.dropWhile isWhitespace).reverse

/-- The value of a hexadecimal digit. -/
def hexValue (c : Char) : Option ℕ :=
  if '0' ≤ c ∧ c ≤ '9' then some (c.toNat - 48)
  else if 'a' ≤ c ∧ c ≤ 'f' then some (c.toNat - 87)
  else if 'A' ≤ c ∧ c ≤ 'F' then some (c.toNat - 55)
  else none

/-- `u8::from_str_radix(text, 16)`; a plus sign may come first. -/
def u8FromHex (text : List Char) : Option UInt8 :=
  let digits := if text.head? = some '+' ∧ text ≠ ['+'] then text.drop 1 else text
  if digits = [] then none
  else do
    let values ← digits.mapM hexValue
    let n := values.foldl (fun n digit => n * 16 + digit) 0
    if n < 256 then some (UInt8.ofNat n) else none

/-! ### The relay controller -/

inductive RelayState where
  | off
  | on
deriving DecidableEq

namespace NumatoAdapter

/-- What a command answers, out of what came back up to the prompt. -/
def parseTranscript [Formatter] (command transcript : String) : Except InstrumentError String :=
  let normalized := transcript.toList.map fun c => if c = '\r' then '\n' else c
  let lines := ((splitOn '\n' normalized).map trim).filter fun line =>
    line ≠ [] ∧ line ≠ command.toList ∧ line ≠ ['>']
  match lines with
  | [response] => .ok (String.ofList response)
  | [] => .ok ""
  | _ => .error (.malformedResponse
      ("ambiguous Numato transcript " ++ Formatter.debugText transcript))

/-- The states of the four relays, out of the answer to `relay readall`. -/
def parseRelays (response : String) : Except InstrumentError (List RelayState) :=
  match u8FromHex (trim response.toList) with
  | none => .error (.invalidRelayResponse response)
  | some mask =>
      if 0x0F < mask then .error (.invalidRelayResponse response)
      else .ok ((List.range 4).map fun index =>
        if mask &&& (1 <<< UInt8.ofNat index) = 0 then .off else .on)

variable [Formatter]

/-- An operation of the controller, which has no state on this side. -/
abbrev Link (α : Type) := Action hardware Unit InstrumentError α

def command (line : String) : Link String := do
  let transcript ← Action.ask (F := hardware) (HardwareRequest.numato line)
  let transcript ← Action.result (transcript.mapError ExchangeError.error)
  Action.result (parseTranscript line transcript)

/-- The firmware version and the module id. -/
def identify : Link (String × String) := do
  let firmware ← command "ver"
  let moduleId ← command "id get"
  return (firmware, moduleId)

def readRelays : Link (List RelayState) := do
  let response ← command "relay readall"
  Action.result (parseRelays response)

/-- The command line that sets a relay. -/
def relayCommand (relay : UInt8) : RelayState → String
  | .off => "relay off " ++ toString relay.toNat
  | .on => "relay on " ++ toString relay.toNat

def setRelay (relay : UInt8) (state : RelayState) : Link (List RelayState) := do
  Action.refuse (4 ≤ relay)
    (.invalidRelayResponse ("relay index " ++ toString relay.toNat ++ " outside 0..4"))
  let _ ← command (relayCommand relay state)
  readRelays

end NumatoAdapter

/-- Set the relay as requested, and return its number. -/
def actuateRelay [Crates] (config : NumatoConfig) (relay : UInt16) (expected : Option Bool)
    (reconcile : Bool) : Action hardware Unit BackendError UInt8 := do
  let relay ← Action.result (u8TryFrom relay)
  Action.refuse (relay ∉ config.relayMap.values)
    (malformed "relay is outside configured fixture map")
  match expected with
  | some closed =>
      Action.when (!reconcile) do
        let _ ← Action.failing transport
          (NumatoAdapter.setRelay relay (if closed then .on else .off))
        return ()
      return relay
  | none => return relay

/-- The relay an operation is about, and the state it asks for. -/
def relayTarget : Operation → Option (Option UInt16 × Option Bool)
  | .instrumentStatus _ _ => some (none, none)
  | .relayRead _ _ relay => some (some relay, none)
  | .relaySet _ _ relay closed => some (some relay, some closed)
  | _ => none

/-- Read the relays back and compare. -/
def relayResult (relay : Option UInt8) (expected : Option Bool) (reconcile : Bool)
    (states : List RelayState) : ResultData :=
  let closed := states.map fun state => decide (state = .on)
  let mismatch := match relay, expected with
    | some relay, some expected => decide (closed[relay.toNat]? ≠ some expected)
    | _, _ => false
  ⟨.json [("controller_relay_closed", .array (closed.map .bool)),
      ("physical_contacts_observed", .bool false), ("reconciliation", .bool reconcile),
      ("proves_original_actuation", .bool false)], none,
    if mismatch then some "controller state differs from requested state" else none⟩

def relayOperation [Crates] (config : InstrumentConfig) (operation : Operation)
    (reconcile : Bool) : Action hardware Unit BackendError ResultData := do
  let config ← Action.result (match config with
    | .numato config => .ok config
    | _ => .error (malformed "relay adapter configuration mismatch"))
  let (relay, expected) ← Action.result (match relayTarget operation with
    | some target => .ok target
    | none => .error (malformed "operation is unsupported by Numato relay controller"))
  let relay ← match relay with
    | some relay => some <$> actuateRelay config relay expected reconcile
    | none => pure none
  let states ← Action.failing transport NumatoAdapter.readRelays
  return relayResult relay expected reconcile states

/-! ### The simulator -/

structure SimulatorObservation where
  relayClosed : List Bool
  flashBytes : ℕ
  effectCalls : UInt64
  partialEffectCalls : UInt64
deriving DecidableEq

namespace Simulator

/-- An operation of the simulator. -/
abbrev Link (α : Type) := Action hardware SimulatorState InstrumentError α

/-- `u64::saturating_add(1)`. -/
def countOne (n : UInt64) : UInt64 := if n.toNat < 2 ^ 64 - 1 then n + 1 else n

def observe (state : SimulatorState) : SimulatorObservation :=
  ⟨state.relayClosed, state.flash.length, state.effectCalls, state.partialEffectCalls⟩

/-- The state of a new store. -/
def initial (flashBytes : ℕ) : SimulatorState where
  flash := List.replicate flashBytes 0xFF
  relayClosed := List.replicate 4 false
  effectCalls := 0
  partialEffectCalls := 0
  fault := .none
  relays := rfl

/-- The range is inside the flash. -/
def range (state : SimulatorState) (offset length : ℕ) : Except InstrumentError Unit :=
  if 2 ^ 64 ≤ offset + length then .error (.protocolLimit length state.flash.length)
  else if state.flash.length < offset + length then
    .error (.protocolLimit (offset + length) state.flash.length)
  else .ok ()

/-- Replace the bytes from the offset on. -/
def overlay (flash : Bytes) (offset : ℕ) (bytes : Bytes) : Bytes :=
  flash.take offset ++ bytes ++ flash.drop (offset + bytes.length)

/-- The bytes of a range. -/
def window (flash : Bytes) (offset length : ℕ) : Bytes := (flash.drop offset).take length

/-- Programming only clears bits. -/
def programNor (destination source : Bytes) : Bytes := List.zipWith (· &&& ·) destination source

/-- Some bit that is set in the request is clear in the flash. -/
def raisesBit (existing requested : Bytes) : Bool :=
  (List.zip existing requested).any fun pair => decide (pair.2 &&& ~~~pair.1 ≠ 0)

/-- Count an effect and take the injected fault. -/
def begun (state : SimulatorState) : SimulatorState :=
  { state with effectCalls := countOne state.effectCalls, fault := .none }

/-- Count a partial effect. -/
def interrupted (state : SimulatorState) : SimulatorState :=
  { state with partialEffectCalls := countOne state.partialEffectCalls }

/-- Change the state and write it to the store. -/
def commit (state : SimulatorState) : Link Unit := do
  set state
  let written ← Action.ask (F := hardware) (HardwareRequest.writeStore state)
  Action.result written

/-- Change the state, write it to the store and fail. -/
def abort {α : Type} (state : SimulatorState) (detail : String) : Link α := do
  commit state
  throw (.deviceRejected detail)

/-- The flash with other contents. -/
def withFlash (state : SimulatorState) (flash : Bytes) : SimulatorState :=
  { state with flash := flash }

def setRelay (relay : ℕ) (closed : Bool) : Link Unit := do
  let state ← get
  Action.refuse (state.relayClosed.length ≤ relay)
    (.invalidRelayResponse ("relay index " ++ toString relay ++ " outside 0..4"))
  let next := begun state
  if state.fault = .interruptNextEffect then
    abort (interrupted next) "simulated interruption before relay actuation"
  else
    commit { next with
      relayClosed := next.relayClosed.set relay closed
      relays := (List.length_set ..).trans next.relays }

def readFlash (offset length : ℕ) : Link Bytes := do
  let state ← get
  Action.result (range state offset length)
  return window state.flash offset length

def eraseFlash (offset length : ℕ) : Link Unit := do
  let state ← get
  Action.result (range state offset length)
  let next := begun state
  if state.fault = .none then
    commit (withFlash next (overlay next.flash offset (List.replicate length 0xFF)))
  else
    abort (withFlash (interrupted next)
      (overlay next.flash offset (List.replicate (length / 2) 0xFF))) "simulated interrupted erase"

def writeFlash (offset : ℕ) (bytes : Bytes) : Link Unit := do
  let state ← get
  Action.result (range state offset bytes.length)
  Action.refuse (raisesBit (window state.flash offset bytes.length) bytes = true)
    (.deviceRejected "NOR write would change a programmed bit from zero to one; erase first")
  let next := begun state
  match state.fault with
  | .none =>
      commit (withFlash next (overlay next.flash offset
        (programNor (window next.flash offset bytes.length) bytes)))
  | .interruptNextEffect =>
      abort (interrupted next) "simulated interruption before flash write"
  | .interruptAfterBytes permitted =>
      let count := min permitted bytes.length
      abort (withFlash (interrupted next) (overlay next.flash offset
        (programNor (window next.flash offset count) (bytes.take count))))
        ("simulated interruption after " ++ toString count ++ " bytes")

/-- Read the store file, or make it. -/
def openStore {σ : Type} (config : SimulatorConfig) :
    Action hardware σ InstrumentError SimulatorState := do
  let stored ← Action.ask (F := hardware) (HardwareRequest.readStore config)
  let stored ← Action.result stored
  let state ← match stored with
    | some state => pure state
    | none => do
        let state := initial config.flashBytes
        let written ← Action.ask (F := hardware) (HardwareRequest.writeStore state)
        Action.result written
        pure state
  Action.refuse (state.flash.length ≠ config.flashBytes)
    (.invalidSimulatorStore ("existing flash is " ++ toString state.flash.length ++
      " bytes, requested " ++ toString config.flashBytes))
  return state

end Simulator

/-! ### Simulated operations -/

namespace Simulated

variable [Crates]

/-- An operation over the simulator. -/
abbrev Session (α : Type) := Action hardware SimulatorState BackendError α

/-- An operation of the simulator, its errors reported as transport errors. -/
def linked {α : Type} (x : Simulator.Link α) : Session α := Action.failing transport x

/-- `json!` of an observation of the simulator. -/
def observationBody (observed : SimulatorObservation) : Value :=
  .json [("relay_closed", .array (observed.relayClosed.map .bool)),
    ("flash_bytes", .nat observed.flashBytes), ("effect_calls", .nat observed.effectCalls.toNat),
    ("partial_effect_calls", .nat observed.partialEffectCalls.toNat)]

/-- Write the candidate when asked to, and compare the flash with it. -/
def candidateOperation (artifacts : ArtifactResolver) (writes : Bool) (offset : UInt64)
    (source : ArtifactDigest) (length : UInt32) : Session ResultData := do
  let bytes ← Action.result (sourceBytes artifacts source length)
  Action.when writes (linked (Simulator.writeFlash offset.toNat bytes))
  let actual ← linked (Simulator.readFlash offset.toNat bytes.length)
  let asRequested := decide (actual = bytes)
  return ⟨.json [("offset", .nat offset.toNat), ("matches_candidate", .bool asRequested),
    ("candidate", .digest source)], some actual,
    if asRequested then none else some "readback differs from candidate"⟩

/-- Set the relay when asked to, and compare it with the request. -/
def relayOperation (relay : UInt16) (expected : Option Bool) (reconcile : Bool) :
    Session ResultData := do
  Action.when (!reconcile) (match expected with
    | some closed => linked (Simulator.setRelay relay.toNat closed)
    | none => pure ())
  let state ← get
  let closed ← Action.result (match (Simulator.observe state).relayClosed[relay.toNat]? with
    | some closed => .ok closed
    | none => .error (malformed "simulator relay outside 0..4"))
  return ⟨.json [("relay", .nat relay.toNat), ("closed", .bool closed),
    ("physical_contacts_observed", .bool false)], none,
    if expected.any (fun expected => closed ≠ expected) then
      some "simulated relay state differs from request" else none⟩

/-- The operation before the marks that every simulated result carries. -/
def perform (operation : Operation) (artifacts : ArtifactResolver) (reconcile : Bool) :
    Session ResultData := do
  match operation with
  | .instrumentStatus _ _ => return .observation (observationBody (Simulator.observe (← get)))
  | .flashIdentify _ _ =>
      return .observation (.json [("implementation", .string "simulated_nor"),
        ("capacity_bytes", .nat (Simulator.observe (← get)).flashBytes)])
  | .flashRead _ _ offset length => do
      let bytes ← linked (Simulator.readFlash offset.toNat length.toNat)
      return .ofBytes bytes (.json [("offset", .nat offset.toNat)])
  | .flashWrite _ _ offset source length =>
      candidateOperation artifacts (!reconcile) offset source length
  | .flashVerify _ _ offset source length =>
      candidateOperation artifacts false offset source length
  | .flashErase _ _ offset length => do
      Action.when (!reconcile) (linked (Simulator.eraseFlash offset.toNat length.toNat))
      let actual ← linked (Simulator.readFlash offset.toNat length.toNat)
      let blank := actual.all (· == 0xff)
      return ⟨.json [("offset", .nat offset.toNat), ("all_erased", .bool blank)], some actual,
        if blank then none else some "readback is not fully erased"⟩
  | .relayRead _ _ relay => relayOperation relay none reconcile
  | .relaySet _ _ relay closed => relayOperation relay (some closed) reconcile
  | _ => throw (malformed "operation is outside this simulator's flash/relay model")

def execute (operation : Operation) (artifacts : ArtifactResolver) (reconcile : Bool) :
    Session ResultData := do
  let result ← perform operation artifacts reconcile
  return { result with
    body := ((result.body.insert "simulated" (.bool true)).insert "reconciliation"
      (.bool reconcile)).insert "proves_original_actuation" (.bool false) }

end Simulated

end Cheirismos
