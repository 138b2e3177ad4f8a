import Cheirismos.Cobs

/-! # The BPIO2 adapter

`instruments/bpio2.rs`: status queries, configuration requests and data transfers over a bound
serial stream.

A request is refused when its packet exceeds the frame limit; otherwise it is one exchange.  A
response in a frame beyond the limit is refused by `received`, any other one is read by `statusOf`,
`configurationOf` or `readOf`.  `request_meets`, `answered_meets` and `transfer_meets` say what each
operation of the adapter can do, as rules for `Action.Meets`. -/

namespace Cheirismos

open Process

structure Bpio2Adapter where
  frameLimit : ℕ
  discovery : Option Bpio2Discovery

namespace Bpio2Adapter

def discoveryFrameLimit : ℕ := 16 * 1024

/-- `Bpio2Adapter::new`. -/
def new : Bpio2Adapter := ⟨discoveryFrameLimit, none⟩

/-! ### Responses -/

def rejectPacketError : Option String → Except InstrumentError Unit
  | none => .ok ()
  | some detail => if detail = "" then .ok () else .error (.deviceRejected detail)

/-- The discovery in a response to a status query. -/
def statusOf (response : ResponsePacket) : Except InstrumentError Bpio2Discovery := do
  rejectPacketError response.error
  match response.contents with
  | .status none => .error (.malformedResponse "status union has no status payload")
  | .status (some (error, discovery)) => do
      rejectPacketError error
      return discovery
  | contents => .error (.unexpectedResponse "BPIO2 status" contents.contentsType)

def configurationOf (response : ResponsePacket) : Except InstrumentError Unit := do
  rejectPacketError response.error
  match response.contents with
  | .configuration none =>
      .error (.malformedResponse "configuration union has no configuration payload")
  | .configuration (some error) => rejectPacketError error
  | contents => .error (.unexpectedResponse "BPIO2 configuration" contents.contentsType)

/-- The bytes in a response to a transfer; `expected` is their number, if it is exact. -/
def readOf (response : ResponsePacket) (expected : Option UInt16) :
    Except InstrumentError Bytes := do
  rejectPacketError response.error
  match response.contents with
  | .data none => .error (.malformedResponse "data union has no data payload")
  | .data (some (error, dataRead)) => do
      rejectPacketError error
      let read := dataRead.getD []
      if expected.any (fun n => read.length ≠ n.toNat) then
        .error (.malformedResponse ("BPIO2 data response has " ++ toString read.length ++
          " bytes, expected " ++ toString (expected.getD 0)))
      else return read
  | contents => .error (.unexpectedResponse "BPIO2 data" contents.contentsType)

/-! ### Requests -/

/-- What `cobs::read_delimited` makes of an answer: a frame beyond the limit is refused. -/
def received (limit : ℕ) :
    Except ExchangeError ResponsePacket → Except InstrumentError ResponsePacket
  | .error e => .error e.error
  | .ok response =>
      if limit < response.frameBytes then .error (.frameTooLarge limit) else .ok response

/-- One packet with what came back. -/
abbrev exchanged (packet : RequestPacket) (answer : Option (Except ExchangeError ResponsePacket)) :
    Exchange hardware := ⟨HardwareRequest.bpio packet, answer⟩

variable [Crates]

/-- An operation of the adapter. -/
abbrev Link (α : Type) := Action hardware Bpio2Adapter InstrumentError α

/-- Send a packet within the frame limit, and read one frame within it. -/
def request (packet : RequestPacket) : Link ResponsePacket := do
  let adapter ← get
  Action.refuse (adapter.frameLimit < Crates.packetLength packet)
    (.frameTooLarge adapter.frameLimit)
  let response ← Action.ask (F := hardware) (HardwareRequest.bpio packet)
  Action.result (received adapter.frameLimit response)

/-- The frame limit after a discovery. -/
def frameLimitOf (discovery : Bpio2Discovery) : ℕ :=
  if 0 < discovery.maxPacketBytes.toNat then min discovery.maxPacketBytes.toNat discoveryFrameLimit
  else discoveryFrameLimit

def identify : Link Bpio2Discovery := do
  let response ← request .status
  let discovery ← Action.result (statusOf response)
  set (⟨frameLimitOf discovery, some discovery⟩ : Bpio2Adapter)
  return discovery

/-- `build_configuration_request`: an empty mode leaves the mode and its configuration out. -/
def buildConfigurationRequest (mode : String) (config : ModeConfig) (psu : Option PsuSetting)
    (direction value : Option (UInt8 × UInt8)) (pullup : Option Bool) : RequestPacket :=
  .configuration (if mode = "" then none else some (mode, config)) psu direction value pullup

def expectConfigurationResponse (packet : RequestPacket) : Link Unit := do
  let response ← request packet
  Action.result (configurationOf response)

/-- `str::eq_ignore_ascii_case`. -/
def eqIgnoreAsciiCase (a b : String) : Bool := a.toList.map Char.toLower == b.toList.map Char.toLower

def requireDiscoveredMode (discovery : Option Bpio2Discovery) (mode : String) :
    Except InstrumentError Unit :=
  match discovery with
  | none =>
      .error (.deviceRejected "BPIO2 mode configuration requires a fresh status observation")
  | some discovery =>
      if mode = "" ∨ discovery.modesAvailable.any (eqIgnoreAsciiCase · mode) then .ok ()
      else .error (.deviceRejected ("firmware did not report " ++ mode ++ " mode"))

def configureMode (mode : String) (config : ModeConfig) : Link Unit := do
  Action.result (requireDiscoveredMode (← get).discovery mode)
  expectConfigurationResponse (buildConfigurationRequest mode config none none none none)

def setPsu (millivolts : UInt32) (milliamps : UInt16) : Link Unit :=
  let setting : PsuSetting :=
    if millivolts = 0 ∧ milliamps = 0 then .disable else .enable millivolts milliamps
  expectConfigurationResponse
    (buildConfigurationRequest "" ModeConfig.preset (some setting) none none none)

def setGpio (pin : UInt8) (high : Bool) : Link Unit := do
  Action.refuse (8 ≤ pin) (.protocolLimit pin.toNat 7)
  let mask : UInt8 := 1 <<< pin
  let value : UInt8 := if high then mask else 0
  expectConfigurationResponse
    (buildConfigurationRequest "" ModeConfig.preset none (some (mask, mask)) (some (mask, value))
      none)

/-- The limits of the last discovery. -/
def withinLimits (discovery : Option Bpio2Discovery) (write : Bytes) (readBytes : UInt16) :
    Except InstrumentError Unit :=
  match discovery with
  | none => .ok ()
  | some discovery =>
      if discovery.maxWriteBytes.toNat < write.length then
        .error (.protocolLimit write.length discovery.maxWriteBytes.toNat)
      else if discovery.maxReadBytes.toNat < readBytes.toNat then
        .error (.protocolLimit readBytes.toNat discovery.maxReadBytes.toNat)
      else .ok ()

def transferWithLengthPolicy (write : Bytes) (readBytes : UInt16) (start stop : Bool)
    (exactReadLength : Bool) : Link Bytes := do
  Action.result (withinLimits (← get).discovery write readBytes)
  let response ← request (.data start write readBytes stop)
  Action.result (readOf response (if exactReadLength then some readBytes else none))

def transfer (write : Bytes) (readBytes : UInt16) (start stop : Bool) : Link Bytes :=
  transferWithLengthPolicy write readBytes start stop true

def transferUpTo (write : Bytes) (readBytes : UInt16) (start stop : Bool) : Link Bytes :=
  transferWithLengthPolicy write readBytes start stop false

/-! ### Errors of an exchange -/

/-- An error that an exchange can end in, whatever was asked. -/
def FromExchange : InstrumentError → Prop
  | .io _ _ | .timeout _ | .endOfStream _ | .frameTooLarge _ | .malformedCobs
  | .malformedResponse _ | .deviceRejected _ | .unexpectedResponse _ _ => True
  | _ => False

omit [Crates]

theorem fromExchange_error (e : ExchangeError) : FromExchange e.error := by
  cases e <;> trivial

theorem received_error {limit : ℕ} {v : Except ExchangeError ResponsePacket} {e : InstrumentError}
    (h : received limit v = .error e) : FromExchange e := by
  unfold received at h
  split at h
  · cases h
    exact fromExchange_error _
  · split_ifs at h
    cases h
    trivial

/-- An answer that is received came in a frame within the limit. -/
theorem received_ok {limit : ℕ} {v : Except ExchangeError ResponsePacket}
    {response : ResponsePacket} :
    received limit v = .ok response ↔ v = .ok response ∧ response.frameBytes ≤ limit := by
  unfold received
  split
  · simp
  · next other =>
      split_ifs with hlong
      · simp only [Except.ok.injEq, false_iff, not_and]
        rintro rfl
        omega
      · simp only [Except.ok.injEq, iff_self_and]
        rintro rfl
        omega

/-- `received` is what reading the encoded bytes of a response comes to. -/
theorem readDelimited_received {limit : ℕ} {operation : String} {packet : Bytes}
    {stream : Cobs.ByteStream} {response : ResponsePacket}
    (h : response.frameBytes + 1 = (Cobs.encode packet).length) :
    (Cobs.readDelimited ((Cobs.encode packet).map .ok ++ stream) limit operation).1.map
      (fun _ => response) = received limit (.ok response) := by
  by_cases hlong : limit < response.frameBytes
  · obtain ⟨frame, hframe, hframed⟩ := Cobs.encode_framed packet
    rw [hframe, List.length_append, List.length_singleton] at h
    have hover : limit < ([] : Bytes).length + frame.length := by
      rw [List.length_nil]
      omega
    rw [received, if_pos hlong, hframe, List.map_append, List.append_assoc, Cobs.readDelimited,
      Cobs.readLoop_exceeds hframed.clean (Nat.zero_le limit) hover]
    rfl
  · rw [received, if_neg hlong, Cobs.readDelimited_encode packet (by omega)]
    rfl

theorem rejectPacketError_error {error : Option String} {e : InstrumentError}
    (h : rejectPacketError error = .error e) : FromExchange e := by
  unfold rejectPacketError at h
  split at h
  · cases h
  · split_ifs at h
    cases h
    trivial

theorem statusOf_error {response : ResponsePacket} {e : InstrumentError}
    (h : statusOf response = .error e) : FromExchange e := by
  unfold statusOf at h
  cases hr : rejectPacketError response.error with
  | error e' =>
      rw [hr] at h
      cases h
      exact rejectPacketError_error hr
  | ok u =>
      rw [hr] at h
      simp only [bind, Except.bind] at h
      split at h
      · cases h
        trivial
      · next error discovery _ =>
          cases he : rejectPacketError error with
          | error e' =>
              rw [he] at h
              cases h
              exact rejectPacketError_error he
          | ok u =>
              rw [he] at h
              cases h
      · cases h
        trivial

theorem configurationOf_error {response : ResponsePacket} {e : InstrumentError}
    (h : configurationOf response = .error e) : FromExchange e := by
  unfold configurationOf at h
  cases hr : rejectPacketError response.error with
  | error e' =>
      rw [hr] at h
      cases h
      exact rejectPacketError_error hr
  | ok u =>
      rw [hr] at h
      simp only [bind, Except.bind] at h
      split at h
      · cases h
        trivial
      · exact rejectPacketError_error h
      · cases h
        trivial

theorem readOf_error {response : ResponsePacket} {n : Option UInt16} {e : InstrumentError}
    (h : readOf response n = .error e) : FromExchange e := by
  unfold readOf at h
  cases hr : rejectPacketError response.error with
  | error e' =>
      rw [hr] at h
      cases h
      exact rejectPacketError_error hr
  | ok u =>
      rw [hr] at h
      simp only [bind, Except.bind] at h
      split at h
      · cases h
        trivial
      · next error dataRead _ =>
          cases he : rejectPacketError error with
          | error e' =>
              rw [he] at h
              cases h
              exact rejectPacketError_error he
          | ok u =>
              rw [he] at h
              simp only at h
              split_ifs at h
              · cases h
                trivial
              · cases h
      · cases h
        trivial

/-- An exact transfer returns as many bytes as it asked for. -/
theorem readOf_length {response : ResponsePacket} {n : UInt16} {read : Bytes}
    (h : readOf response (some n) = .ok read) : read.length = n.toNat := by
  unfold readOf at h
  cases hr : rejectPacketError response.error with
  | error e =>
      rw [hr] at h
      cases h
  | ok u =>
      rw [hr] at h
      simp only [bind, Except.bind] at h
      split at h
      · cases h
      · next error dataRead _ =>
          cases he : rejectPacketError error with
          | error e =>
              rw [he] at h
              cases h
          | ok u =>
              rw [he] at h
              simp only at h
              split_ifs at h with hn
              cases h
              simpa using hn
      · cases h

/-! ### What the operations can do -/

section rules

variable [Crates] {a : Bpio2Adapter} {I : List (Exchange hardware) → Prop}
  {E : InstrumentError → Bpio2Adapter → List (Exchange hardware) → Prop}

/-- A request is refused because of its length, or it is one exchange. -/
theorem request_meets {packet : RequestPacket}
    {Q : ResponsePacket → Bpio2Adapter → List (Exchange hardware) → Prop} (h₀ : I [])
    (h₁ : I [exchanged packet none]) (h₂ : ∀ v, I [exchanged packet (some v)])
    (hlong : E (.frameTooLarge a.frameLimit) a [])
    (herror : ∀ e v, received a.frameLimit v = .error e → E e a [exchanged packet (some v)])
    (hok : ∀ response, Q response a [exchanged packet (some (.ok response))]) :
    (request packet).Meets a I E Q := by
  unfold request
  refine .reading (.refused h₀ (fun _ => hlong) fun _ => ?_)
  refine .bind (R := fun v s tr => s = a ∧ tr = [exchanged packet (some v)])
    (.ask h₀ h₁ fun v => ⟨h₂ v, rfl, rfl⟩) ?_
  rintro v _ _ _ ⟨rfl, rfl⟩
  refine .result (h₂ _) (fun e he => herror e v he) fun response hresponse => ?_
  obtain ⟨rfl, _⟩ := received_ok.mp hresponse
  exact hok response

/-- A request whose response is read by `f`. -/
theorem answered_meets {α : Type} {packet : RequestPacket}
    {f : ResponsePacket → Except InstrumentError α}
    {Q : α → Bpio2Adapter → List (Exchange hardware) → Prop} (h₀ : I [])
    (h₁ : I [exchanged packet none]) (h₂ : ∀ v, I [exchanged packet (some v)])
    (hf : ∀ response e, f response = .error e → FromExchange e)
    (hunsent : ∀ e, FromExchange e → E e a [])
    (herror : ∀ e v, FromExchange e → E e a [exchanged packet (some v)])
    (hok : ∀ response b, f response = .ok b →
      Q b a [exchanged packet (some (.ok response))]) :
    (request packet >>= fun response => Action.result (f response)).Meets a I E Q := by
  refine .bind (R := fun response s tr => s = a ∧ tr = [exchanged packet (some (.ok response))])
    (request_meets h₀ h₁ h₂ (hunsent _ trivial) (fun e v he => herror e v (received_error he))
      fun response => ⟨rfl, rfl⟩) ?_
  rintro response _ _ _ ⟨rfl, rfl⟩
  exact .result (h₂ _) (fun e he => herror e _ (hf response e he)) fun b hb => hok response b hb

/-- A transfer is refused because of the limits, or it is one exchange. -/
theorem transfer_meets {write : Bytes} {n : UInt16} {start stop : Bool}
    {Q : Bytes → Bpio2Adapter → List (Exchange hardware) → Prop} (h₀ : I [])
    (h₁ : I [exchanged (.data start write n stop) none])
    (h₂ : ∀ v, I [exchanged (.data start write n stop) (some v)])
    (hlimits : ∀ e, withinLimits a.discovery write n = .error e → E e a [])
    (hunsent : ∀ e, FromExchange e → E e a [])
    (herror : ∀ e v, FromExchange e → E e a [exchanged (.data start write n stop) (some v)])
    (hok : ∀ response read, readOf response (some n) = .ok read →
      Q read a [exchanged (.data start write n stop) (some (.ok response))]) :
    (transfer write n start stop).Meets a I E Q := by
  unfold transfer transferWithLengthPolicy
  exact .reading (.checked h₀ hlimits fun _ _ =>
    answered_meets h₀ h₁ h₂ (fun _ _ => readOf_error) hunsent herror hok)

end rules

section asks

variable [Crates] {P : HardwareRequest → Prop}

theorem request_asks {packet : RequestPacket} (h : P (.bpio packet)) :
    Action.Asks (F := hardware) P (request packet) := by
  unfold request
  exact .bind .get fun _ => .bind (.refuse _) fun _ => .bind (.ask h) fun _ => .result _

theorem identify_asks (h : P (.bpio .status)) : Action.Asks (F := hardware) P identify := by
  unfold identify
  exact .bind (request_asks h) fun _ => .bind (.result _) fun _ => .bind (.set _) fun _ => .pure _

theorem configureMode_asks {mode : String} {config : ModeConfig}
    (h : P (.bpio (buildConfigurationRequest mode config none none none none))) :
    Action.Asks (F := hardware) P (configureMode mode config) := by
  unfold configureMode expectConfigurationResponse
  exact .bind .get fun _ => .bind (.result _) fun _ => .bind (request_asks h) fun _ => .result _

theorem setPsu_asks {millivolts : UInt32} {milliamps : UInt16}
    (h : ∀ setting, P (.bpio (.configuration none (some setting) none none none))) :
    Action.Asks (F := hardware) P (setPsu millivolts milliamps) := by
  unfold setPsu expectConfigurationResponse
  exact .bind (request_asks (h _)) fun _ => .result _

theorem setGpio_asks {pin : UInt8} {high : Bool}
    (h : ∀ direction value,
      P (.bpio (.configuration none none (some direction) (some value) none))) :
    Action.Asks (F := hardware) P (setGpio pin high) := by
  unfold setGpio expectConfigurationResponse
  exact .bind (.refuse _) fun _ => .bind (request_asks (h _ _)) fun _ => .result _

theorem transferWithLengthPolicy_asks {write : Bytes} {n : UInt16} {start stop exact : Bool}
    (h : P (.bpio (.data start write n stop))) :
    Action.Asks (F := hardware) P (transferWithLengthPolicy write n start stop exact) := by
  unfold transferWithLengthPolicy
  exact .bind .get fun _ => .bind (.result _) fun _ => .bind (request_asks h) fun _ => .result _

end asks

/-- A transfer is at most one exchange. -/
theorem transferWithLengthPolicy_within [Crates] {write : Bytes} {n : UInt16}
    {start stop exact : Bool} :
    Action.Within (F := hardware) 1 (transferWithLengthPolicy write n start stop exact) := by
  unfold transferWithLengthPolicy request
  refine .mono (.bind .get fun _ => .bind (.result _) fun _ => .bind (.bind .get fun _ =>
    .bind (.refuse _) fun _ => .bind (.ask _) fun _ => .result _) fun _ => .result _) ?_
  decide

end Bpio2Adapter

end Cheirismos
