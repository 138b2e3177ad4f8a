import Cheirismos.Declared
import Cheirismos.Rig

/-! # Reconciliation only observes

What a run of the device backend may do when it reconciles.

* `Observing` describes the requests of a reconciliation.  On a Bus Pirate they are status queries
  and, when the instrument may be configured, mode configurations and transfers that read a flash
  or a UART.  A relay controller is only read, and nothing waits.
* `storeStep` is a store file of which the session is the only user.  A reconciliation leaves the
  simulator in it as it is, and makes it only where there was none.
* `reconcile_observes` puts this together for every run of `DeviceBackend.run`, cut off or not. -/

namespace Cheirismos

open Process

/-! ### Observing requests -/

/-- Commands that read a flash, and bytes that are received after them. -/
def ReadsFlash (write : Bytes) : Prop :=
  write = [] ∨ write = [0x9f] ∨ write = [0x5a, 0, 0, 0, 0] ∨
    ∃ mode absolute, write = (Bus.opcodes mode).1 :: Bus.address mode absolute

/-- What may be written to a target for it to be read. -/
def ReadsTarget (write : Bytes) : PayloadKind → Prop
  | .raw => False
  | .uart => write = []
  | .flash => ReadsFlash write

def ObservingPacket (operation : Operation) (configure : Bool) : RequestPacket → Prop
  | .status => True
  | .configuration _ psu direction value pullup =>
      configure = true ∧ psu = none ∧ direction = none ∧ value = none ∧ pullup = none
  | .data _ write _ _ => configure = true ∧ ReadsTarget write (payloadKind operation)

/-- A request that only observes. -/
def Observing (operation : Operation) (configure : Bool) : HardwareRequest → Prop
  | .bpio packet => ObservingPacket operation configure packet
  | .numato line => line ∈ relayReadings
  | .writeStore _ | .sleep _ => False
  | _ => True

/-- Without configuring, a Bus Pirate is only asked for its status. -/
theorem observingPacket_unconfigured {operation : Operation} {packet : RequestPacket}
    (h : ObservingPacket operation false packet) : packet = .status := by
  cases packet with
  | status => rfl
  | configuration | data => cases h.1

theorem sends_observing {operation : Operation} {configure : Bool} {packet : RequestPacket}
    (h : Bus.Sends operation true configure packet) : ObservingPacket operation configure packet := by
  cases h with
  | status => trivial
  | mode _ allowed => exact ⟨allowed rfl, rfl, rfl, rfl, rfl⟩
  | raw _ effect | transmit _ _ effect | gpio _ effect | psu _ effect | writeEnable _ _ effect
  | poll _ effect | erase _ _ effect | program _ _ effect => cases effect
  | capture kind allowed =>
      refine ⟨allowed rfl, ?_⟩
      rw [kind]
      rfl
  | jedec kind allowed =>
      refine ⟨allowed rfl, ?_⟩
      rw [kind]
      exact Or.inr (Or.inl rfl)
  | sfdp kind allowed =>
      refine ⟨allowed rfl, ?_⟩
      rw [kind]
      exact Or.inr (Or.inr (Or.inl rfl))
  | receive kind allowed =>
      refine ⟨allowed rfl, ?_⟩
      rw [kind]
      exact Or.inl rfl
  | read kind allowed mode absolute =>
      refine ⟨allowed rfl, ?_⟩
      rw [kind]
      exact Or.inr (Or.inr (Or.inr ⟨mode, absolute, rfl⟩))

/-! ### The simulator -/

section simulator

variable [Crates] {P : HardwareRequest → Prop} {state : SimulatorState}

/-- Only the state itself is kept, and nothing is asked. -/
abbrev Untouched {α : Type} (P : HardwareRequest → Prop) (state : SimulatorState)
    (x : Simulated.Session α) : Prop := Action.Keeps (F := hardware) P some state x

theorem readFlash_untouched {offset length : ℕ} :
    Untouched P state (Simulated.linked (Simulator.readFlash offset length)) :=
  .failing (.reading (.checked fun _ _ => .pure _))

theorem simulated_candidate_untouched {artifacts : ArtifactResolver} {offset : UInt64}
    {source : ArtifactDigest} {length : UInt32} :
    Untouched P state (Simulated.candidateOperation artifacts false offset source length) := by
  unfold Simulated.candidateOperation
  exact .checked fun bytes _ => .bind (.pure _) fun _ _ _ => .bind readFlash_untouched
    fun _ _ _ => .pure _

theorem simulated_relay_untouched {relay : UInt16} {expected : Option Bool} :
    Untouched P state (Simulated.relayOperation relay expected true) := by
  unfold Simulated.relayOperation
  exact .bind (.pure _) fun _ _ _ => .reading (.checked fun _ _ => .pure _)

/-- A simulated reconciliation asks for nothing and leaves the simulator as it is. -/
theorem simulated_untouched {operation : Operation} {artifacts : ArtifactResolver} :
    Untouched P state (Simulated.execute operation artifacts true) := by
  unfold Simulated.execute
  refine .bind ?_ fun _ _ _ => .pure _
  unfold Simulated.perform
  cases operation with
  | instrumentStatus => exact .reading (.pure _)
  | flashIdentify => exact .reading (.pure _)
  | flashRead => exact .bind readFlash_untouched fun _ _ _ => .pure _
  | flashWrite => exact simulated_candidate_untouched
  | flashVerify => exact simulated_candidate_untouched
  | flashErase =>
      exact .bind (.pure _) fun _ _ _ => .bind readFlash_untouched fun _ _ _ => .pure _
  | relayRead => exact simulated_relay_untouched
  | relaySet => exact simulated_relay_untouched
  | _ => exact .throw _

end simulator

/-! ### The store file -/

/-- A store file that only the session uses; a write that fails may have happened. -/
def storeStep (file : Option SimulatorState) :
    Exchange hardware → Option SimulatorState → Prop
  | ⟨.readStore _, some (.ok found)⟩, file' => found = file ∧ file' = file
  | ⟨.writeStore state, some (.ok _)⟩, file' => file' = some state
  | ⟨.writeStore state, _⟩, file' => file' = file ∨ file' = some state
  | _, file' => file' = file

/-- The simulator in the file is as it was, or it is new. -/
def KeptStore (file file' : Option SimulatorState) : Prop :=
  file' = file ∨ file = none ∧ ∃ n, file' = some (Simulator.initial n)

/-- Only writing changes the file. -/
theorem storeStep_quiet {x : Exchange hardware} {file file' : Option SimulatorState}
    (h : storeStep file x file') (hx : ∀ state, x.request ≠ .writeStore state) : file' = file := by
  obtain ⟨request, answer⟩ := x
  cases request with
  | writeStore state => exact absurd rfl (hx state)
  | readStore config =>
      rcases answer with _ | _ | found
      · exact h
      · exact h
      · exact h.2
  | _ => exact h

theorem tracks_quiet {tr : List (Exchange hardware)} {file file' : Option SimulatorState}
    (h : Tracks storeStep file tr file')
    (hx : ∀ x ∈ tr, ∀ state, x.request ≠ .writeStore state) : file' = file := by
  induction h with
  | nil s => rfl
  | cons first rest ih =>
      rw [ih fun x hmem => hx x (List.mem_cons_of_mem _ hmem),
        storeStep_quiet first (hx _ List.mem_cons_self)]

/-- Exchanges in which the store file is kept. -/
def KeepsStore (tr : List (Exchange hardware)) : Prop :=
  ∀ file file', Tracks storeStep file tr file' → KeptStore file file'

/-- Exchanges that end with this state in the store file. -/
def EndsWith (state : SimulatorState) (tr : List (Exchange hardware)) : Prop :=
  ∀ file file', Tracks storeStep file tr file' → file' = some state

theorem keepsStore_quiet {tr : List (Exchange hardware)}
    (hx : ∀ x ∈ tr, ∀ state, x.request ≠ .writeStore state) : KeepsStore tr :=
  fun _ _ h => Or.inl (tracks_quiet h hx)

theorem KeepsStore.append {tr₁ tr₂ : List (Exchange hardware)} (h : KeepsStore tr₁)
    (hx : ∀ x ∈ tr₂, ∀ state, x.request ≠ .writeStore state) : KeepsStore (tr₁ ++ tr₂) := by
  intro file file' ht
  obtain ⟨file₁, ht₁, ht₂⟩ := ht.append_inv
  rw [tracks_quiet ht₂ hx]
  exact h _ _ ht₁

theorem KeepsStore.prepend {tr₁ tr₂ : List (Exchange hardware)} (h : KeepsStore tr₂)
    (hx : ∀ x ∈ tr₁, ∀ state, x.request ≠ .writeStore state) : KeepsStore (tr₁ ++ tr₂) := by
  intro file file' ht
  obtain ⟨file₁, ht₁, ht₂⟩ := ht.append_inv
  rw [← tracks_quiet ht₁ hx]
  exact h _ _ ht₂

theorem EndsWith.prepend {state : SimulatorState} (tr₁ : List (Exchange hardware))
    {tr₂ : List (Exchange hardware)} (h : EndsWith state tr₂) : EndsWith state (tr₁ ++ tr₂) := by
  intro file file' ht
  obtain ⟨file₁, _, ht₂⟩ := ht.append_inv
  exact h _ _ ht₂

theorem EndsWith.append {state : SimulatorState} {tr₁ tr₂ : List (Exchange hardware)}
    (h : EndsWith state tr₁) (hx : ∀ x ∈ tr₂, ∀ state, x.request ≠ .writeStore state) :
    EndsWith state (tr₁ ++ tr₂) := by
  intro file file' ht
  obtain ⟨file₁, ht₁, ht₂⟩ := ht.append_inv
  rw [tracks_quiet ht₂ hx]
  exact h _ _ ht₁

/-- What was read from the store file is in it. -/
theorem endsWith_read {config : SimulatorConfig} {state : SimulatorState} :
    EndsWith state [⟨HardwareRequest.readStore config, some (.ok (some state))⟩] := by
  intro file file' h
  obtain ⟨file₁, first, rest⟩ := h.cons_inv
  rw [rest.nil_inv, first.2, ← first.1]

/-- A store file is made only where there was none. -/
theorem keepsStore_made {config : SimulatorConfig} {n : ℕ}
    {answer : Option (Except InstrumentError Unit)} :
    KeepsStore [⟨HardwareRequest.readStore config, some (.ok none)⟩,
      ⟨HardwareRequest.writeStore (Simulator.initial n), answer⟩] := by
  intro file file' h
  obtain ⟨file₁, first, rest⟩ := h.cons_inv
  obtain ⟨file₂, second, rest⟩ := rest.cons_inv
  obtain ⟨hnone, rfl⟩ := first
  rw [rest.nil_inv]
  rcases answer with _ | _ | _
  · exact second.imp id fun h => ⟨hnone.symm, n, h⟩
  · exact second.imp id fun h => ⟨hnone.symm, n, h⟩
  · exact Or.inr ⟨hnone.symm, n, second⟩

theorem endsWith_made {config : SimulatorConfig} {n : ℕ} :
    EndsWith (Simulator.initial n) [⟨HardwareRequest.readStore config, some (.ok none)⟩,
      ⟨HardwareRequest.writeStore (Simulator.initial n), some (.ok ())⟩] := by
  intro file file' h
  obtain ⟨file₁, first, rest⟩ := h.cons_inv
  obtain ⟨file₂, second, rest⟩ := rest.cons_inv
  rw [rest.nil_inv]
  exact second

/-- Opening the store reads the simulator or makes a new one. -/
theorem openStore_meets {σ : Type} {s : σ} {config : SimulatorConfig} :
    (Simulator.openStore config).Meets s KeepsStore (fun _ s' _ => s' = s)
      (fun state s' tr => s' = s ∧ EndsWith state tr) := by
  have hread : ∀ answer, ∀ x ∈ [(⟨HardwareRequest.readStore config, answer⟩ : Exchange hardware)],
      ∀ state, x.request ≠ .writeStore state := by
    intro answer x hx state
    obtain rfl := List.mem_singleton.mp hx
    exact fun h => by cases h
  have hnil : KeepsStore [] := keepsStore_quiet fun _ h => absurd h List.not_mem_nil
  unfold Simulator.openStore
  refine .bind (R := fun v s' tr => s' = s ∧ tr = [⟨HardwareRequest.readStore config, some v⟩])
    (.ask hnil (keepsStore_quiet (hread none)) fun v =>
      ⟨keepsStore_quiet (hread (some v)), rfl, rfl⟩) ?_
  rintro v s₁ _ hkept ⟨rfl, rfl⟩
  refine .checked hkept (fun _ _ => rfl) fun stored hstored => ?_
  subst hstored
  cases stored with
  | some state =>
      refine .refused hkept (fun _ => rfl) fun _ => ?_
      exact .pure hkept ⟨rfl, endsWith_read⟩
  | none =>
      refine .bind (R := fun v s₂ tr => s₂ = s₁ ∧
        tr = [⟨HardwareRequest.writeStore (Simulator.initial config.flashBytes), some v⟩])
        (.ask hkept keepsStore_made fun v => ⟨keepsStore_made, rfl, rfl⟩) ?_
      rintro v _ _ hkept ⟨rfl, rfl⟩
      refine .checked hkept (fun _ _ => rfl) fun _ hv => ?_
      subst hv
      refine .refused hkept (fun _ => rfl) fun _ => ?_
      exact .pure hkept ⟨rfl, endsWith_made⟩

/-! ### The parts of a run -/

namespace DeviceBackend

/-- The simulator that the session is connected to. -/
def simulatorOf : Option Connected → Option SimulatorState
  | some (.simulator state) => some state
  | _ => none

variable [Crates] {operation : Operation} {configure : Bool} {c : Option Connected}

/-- Only observing requests are made, and `f` of the connection is kept. -/
abbrev Quiet {α γ : Type} (operation : Operation) (configure : Bool) (f : Option Connected → γ)
    (c : Option Connected) (x : Session α) : Prop :=
  Action.Keeps (F := hardware) (Observing operation configure) f c x

section unconnected

variable {γ : Type} {f : Option Connected → γ} {request : DispatchRequest}

theorem verifyUsb_quiet {config : InstrumentConfig} :
    Quiet operation configure f c (verifyUsb config) := by
  unfold verifyUsb
  refine .checked fun configured _ => ?_
  cases config.serial? with
  | none => exact .pure _
  | some serial =>
      refine .bind (.ask trivial) fun _ _ _ => .checked fun _ _ => .checked fun _ _ =>
        .checked fun _ _ => .checked fun _ _ => .bind (.refuse _) fun _ _ _ => .pure _

omit [Crates] in
theorem publishOne_quiet {publication : Publication} :
    Quiet operation configure f c (publishOne request publication) := by
  unfold publishOne
  exact .bind (.ask trivial) fun _ _ _ => .result _

omit [Crates] in
theorem publishBytes_quiet {body : Value} {bytes : Option Bytes} :
    Quiet operation configure f c (publishBytes request body bytes) := by
  cases bytes with
  | none => exact .pure _
  | some bytes =>
      exact .bind (.refuse _) fun _ _ _ => .bind publishOne_quiet fun _ _ _ => .pure _

theorem publish_quiet {fingerprint : ArtifactDigest} {body : Value} {bytes : Option Bytes} :
    Quiet operation configure f c (publish request fingerprint body bytes) := by
  unfold publish
  exact .bind publishBytes_quiet fun _ _ _ => .bind (.ask trivial) fun _ _ _ =>
    .bind publishOne_quiet fun _ _ _ => .pure _

/-- Reconciling a wait does not wait. -/
theorem waited_quiet {milliseconds : UInt64} :
    Quiet operation configure f c (waited request milliseconds true) := by
  unfold waited
  exact .bind (.refuse _) fun _ _ _ => .bind (.pure _) fun _ _ _ => .bind (.ask trivial)
    fun _ _ _ => .bind publish_quiet fun _ _ _ => .pure _

omit [Crates] in
theorem deadlineOf_quiet : Quiet operation configure f c (deadlineOf request) := by
  unfold deadlineOf
  cases request.interlocksValidUntil with
  | none => exact .pure _
  | some expires =>
      refine .bind (.ask trivial) fun now _ _ => ?_
      cases interlockLeft expires now with
      | none => exact .pure _
      | some left => exact .bind (.ask trivial) fun _ _ _ => .pure _

omit [Crates] in
theorem interlocksExpired_quiet : Quiet operation configure f c (interlocksExpired request) := by
  unfold interlocksExpired
  cases request.interlocksValidUntil with
  | none => exact .pure _
  | some expires => exact .bind (.ask trivial) fun _ _ _ => .pure _

theorem captureFrame_quiet {config : VideoConfig} {deadline : ℕ} {reconcile : Bool} :
    Quiet operation configure f c (captureFrame config deadline reconcile) := by
  unfold captureFrame
  exact .bind (.ask trivial) fun _ _ _ => .bind (.refuse _) fun _ _ _ => .checked fun _ _ =>
    .bind (.ask trivial) fun _ _ _ => .checked fun _ _ => .pure _

end unconnected

omit [Crates] in
theorem relayReadings_observing :
    ∀ line ∈ relayReadings, Observing operation configure (.numato line) := fun _ h => h

theorem observeConnected_quiet {config : InstrumentConfig} {configured usb : ArtifactDigest}
    {connected : Connected} (hc : simulatorOf (some connected) = simulatorOf c) :
    Quiet operation configure simulatorOf c (observeConnected config configured usb connected) := by
  cases connected with
  | bpio2 adapter =>
      refine .bind (.inside (.of_asks (.failing (Bpio2Adapter.identify_asks ?_)) fun _ => rfl) hc)
        fun _ _ _ => .bind (.refuse _) fun _ _ _ => .pure _
      trivial
  | numato =>
      refine .bind (.inside (.of_asks (.failing
        (NumatoAdapter.identify_asks relayReadings_observing)) fun _ => rfl) hc)
        fun _ _ _ => .pure _
  | simulator state => exact .pure _
  | video =>
      exact .checked fun _ _ => .bind (.ask trivial) fun _ _ _ => .checked fun _ _ =>
        .checked fun _ _ => .pure _

theorem observe_quiet {binding : DeviceBinding} {connected : Connected}
    (hc : simulatorOf (some connected) = simulatorOf c) :
    Quiet operation configure simulatorOf c (observe binding connected) := by
  unfold observe
  refine .checked fun _ _ => .bind verifyUsb_quiet fun _ c₁ h₁ =>
    .bind (observeConnected_quiet (hc.trans h₁.symm)) fun _ _ _ => ?_
  exact .bind (.refuse _) fun _ _ _ => .bind (.ask trivial) fun _ _ _ => .pure _

/-- Reconciling an operation on the connected instrument. -/
theorem operate_quiet {patience : ℕ} {binding : DeviceBinding} {request : DispatchRequest}
    {artifacts : ArtifactResolver} {observed : Observation} {deadline : ℕ} {connected : Connected}
    (hc : simulatorOf (some connected) = simulatorOf c) :
    Quiet request.operation request.configureInstrument simulatorOf c
      (operate patience binding request artifacts true observed deadline connected) := by
  unfold operate
  cases connected with
  | bpio2 adapter =>
      refine .inside (.of_asks (Bus.execute_requests.mono fun r h => ?_) fun _ => rfl) hc
      cases r with
      | bpio packet => exact sends_observing h
      | _ => exact h.elim
  | numato =>
      refine .inside (.of_asks (relayOperation_asks ?_ ?_) fun _ => rfl) hc
      · exact relayReadings_observing _ (by decide)
      · exact fun h => by cases h
  | simulator state => exact .inside simulated_untouched hc
  | video =>
      refine .checked fun config _ => ?_
      cases request.operation with
      | instrumentStatus => exact .pure _
      | videoCapture => exact captureFrame_quiet
      | _ => exact .throw _

/-! ### Whole runs -/

/-- A request of a reconciliation: it observes, or it makes a store file. -/
def Reconciling (operation : Operation) (configure : Bool) (request : HardwareRequest) : Prop :=
  Observing operation configure request ∨ ∃ n, request = .writeStore (Simulator.initial n)

/-- What holds of the exchanges of a reconciliation wherever it is cut off. -/
def Restrained (operation : Operation) (configure : Bool) (tr : List (Exchange hardware)) : Prop :=
  (∀ x ∈ tr, Reconciling operation configure x.request) ∧ KeepsStore tr

/-- A simulator that the session is connected to afterwards was connected before, or it is the one
in the store file. -/
def Simulates (c c' : Option Connected) (tr : List (Exchange hardware)) : Prop :=
  ∀ state, c' = some (.simulator state) →
    c = some (.simulator state) ∨ c = none ∧ EndsWith state tr

/-- A run from the connection is restrained, however it ends. -/
def RunsRestrained {α : Type} (operation : Operation) (configure : Bool) (c : Option Connected)
    (x : Session α) : Prop :=
  x.Meets c (Restrained operation configure) (fun _ c' tr => Simulates c c' tr)
    fun _ c' tr => Simulates c c' tr

section frames

omit [Crates]

theorem observing_quiet {request : HardwareRequest}
    (h : Observing operation configure request) (state : SimulatorState) :
    request ≠ .writeStore state := by
  rintro rfl
  exact h

theorem Restrained.of_quiet {tr : List (Exchange hardware)}
    (h : ∀ x ∈ tr, Observing operation configure x.request) :
    Restrained operation configure tr :=
  ⟨fun x hx => Or.inl (h x hx), keepsStore_quiet fun x hx => observing_quiet (h x hx)⟩

theorem Restrained.append {tr₁ tr₂ : List (Exchange hardware)}
    (h₁ : Restrained operation configure tr₁)
    (h₂ : ∀ x ∈ tr₂, Observing operation configure x.request) :
    Restrained operation configure (tr₁ ++ tr₂) := by
  refine ⟨fun x hx => ?_, h₁.2.append fun x hx => observing_quiet (h₂ x hx)⟩
  rcases List.mem_append.mp hx with hx | hx
  · exact h₁.1 x hx
  · exact Or.inl (h₂ x hx)

theorem simulatorOf_eq_some {state : SimulatorState} :
    simulatorOf c = some state ↔ c = some (.simulator state) := by
  rcases c with _ | (_ | _ | _ | _) <;> simp [simulatorOf]

/-- Quiet parts that keep the connection are restrained. -/
theorem RunsRestrained.of_quiet {α : Type} {x : Session α}
    (h : Quiet operation configure simulatorOf c x) : RunsRestrained operation configure c x := by
  refine Action.Meets.weaken h (fun tr htr => .of_quiet htr) ?_ ?_ <;>
  · intro _ c' tr _ hc state hstate
    exact Or.inl (simulatorOf_eq_some.mp (hc ▸ simulatorOf_eq_some.mpr hstate))

theorem Restrained.prepend {tr₁ tr₂ : List (Exchange hardware)}
    (h₁ : ∀ x ∈ tr₁, Observing operation configure x.request)
    (h₂ : Restrained operation configure tr₂) : Restrained operation configure (tr₁ ++ tr₂) := by
  refine ⟨fun x hx => ?_, h₂.2.prepend fun x hx => observing_quiet (h₁ x hx)⟩
  rcases List.mem_append.mp hx with hx | hx
  · exact Or.inl (h₁ x hx)
  · exact h₂.1 x hx

theorem Simulates.prepend {c' : Option Connected} (tr₁ : List (Exchange hardware))
    {tr₂ : List (Exchange hardware)} (h : Simulates c c' tr₂) : Simulates c c' (tr₁ ++ tr₂) :=
  fun state hstate => (h state hstate).imp id fun h => ⟨h.1, h.2.prepend tr₁⟩

/-- A quiet part that does not change the connection, and then the rest. -/
theorem RunsRestrained.after {α β : Type} {x : Session α} {f : α → Session β}
    (hx : Quiet operation configure id c x) (hf : ∀ a, RunsRestrained operation configure c (f a)) :
    RunsRestrained operation configure c (x >>= f) := by
  refine .bind (R := fun _ c' tr => c' = c ∧ ∀ e ∈ tr, Observing operation configure e.request)
    (Action.Meets.weaken hx (fun _ h => .of_quiet h) ?_ fun _ _ _ htr h => ⟨h, htr⟩) ?_
  · rintro _ c' tr _ rfl
    exact fun state hstate => Or.inl hstate
  · rintro a _ tr₁ _ ⟨rfl, htr₁⟩
    refine (hf a).weaken (fun _ h => h.prepend htr₁) ?_ ?_
    · exact fun _ _ _ _ h => h.prepend tr₁
    · exact fun _ _ _ _ h => h.prepend tr₁

/-- An error drops the connection. -/
theorem RunsRestrained.guarded {x : Session OperationReceipt}
    (h : RunsRestrained operation configure c x) :
    RunsRestrained operation configure c (guarded x) := by
  unfold DeviceBackend.guarded
  refine .bind (R := fun _ c' tr => Simulates c c' tr) (.outcome h) fun r c' tr₁ htr₁ hc => ?_
  have htr : Restrained operation configure (tr₁ ++ []) := by
    rw [List.append_nil]
    exact htr₁
  cases r with
  | ok receipt =>
      refine .pure htr ?_
      rw [List.append_nil]
      exact hc
  | error error => exact .writing (.throw htr fun state hstate => by cases hstate)

end frames

/-- What a fresh connection leaves behind: a simulator has what is in its store file. -/
def Opened (connected : Connected) (c' : Option Connected) (tr : List (Exchange hardware)) : Prop :=
  c' = none ∧ ∀ state, connected = .simulator state → EndsWith state tr

omit [Crates] in
theorem openStore_asks {σ : Type} {config : SimulatorConfig} :
    Action.Asks (F := hardware) (σ := σ) (Reconciling operation configure)
      (Simulator.openStore config) := by
  unfold Simulator.openStore
  refine .bind (.ask (Or.inl trivial)) fun _ => .bind (.result _) fun stored => ?_
  cases stored with
  | some state => exact .bind (.pure _) fun _ => .bind (.refuse _) fun _ => .pure _
  | none =>
      exact .bind (.ask (Or.inr ⟨_, rfl⟩)) fun _ => .bind (.result _) fun _ => .bind (.pure _)
        fun _ => .bind (.refuse _) fun _ => .pure _

theorem openSerial_meets {serial : SerialBinding} {connected : Connected}
    (hplain : ∀ state, connected ≠ .simulator state) :
    Action.Meets (F := hardware) (do
        let opened ← Action.ask (F := hardware) (HardwareRequest.openSerial serial)
        Action.result (opened.mapError transport)
        return connected : Session Connected)
      none (Restrained operation configure) (fun _ c' _ => c' = none) Opened := by
  have hone : ∀ answer, Restrained operation configure
      [⟨HardwareRequest.openSerial serial, answer⟩] := by
    intro answer
    refine .of_quiet fun x hx => ?_
    obtain rfl := List.mem_singleton.mp hx
    trivial
  refine .bind (R := fun v c' tr => c' = none ∧
    tr = [⟨HardwareRequest.openSerial serial, some v⟩])
    (.ask (.of_quiet fun _ h => absurd h List.not_mem_nil) (hone _) fun v => ⟨hone _, rfl, rfl⟩) ?_
  rintro v _ _ htr ⟨rfl, rfl⟩
  exact .checked htr (fun _ _ => rfl) fun _ _ =>
    .pure htr ⟨rfl, fun state h => absurd h (hplain state)⟩

theorem openConnection_meets {config : InstrumentConfig} :
    (openConnection config).Meets none (Restrained operation configure) (fun _ c' _ => c' = none)
      Opened := by
  have hnil : Restrained operation configure [] := .of_quiet fun _ h => absurd h List.not_mem_nil
  cases config with
  | bpio2 config => exact openSerial_meets fun _ h => by cases h
  | numato config => exact openSerial_meets fun _ h => by cases h
  | simulator config =>
      refine .checked hnil (fun _ _ => rfl) fun _ _ => ?_
      refine .bind (R := fun state c' tr => c' = none ∧ EndsWith state tr)
        (.failing (openStore_asks.and_meets openStore_meets)) ?_
      rintro state _ tr₁ htr ⟨rfl, hstate⟩
      have htr' : Restrained operation configure (tr₁ ++ []) := by
        rw [List.append_nil]
        exact htr
      refine .pure htr' ⟨rfl, fun _ h => ?_⟩
      cases h
      rw [List.append_nil]
      exact hstate
  | video config =>
      exact .checked hnil (fun _ _ => rfl) fun _ _ => .pure hnil ⟨rfl, fun _ h => by cases h⟩

/-- Connecting leaves a connection as it is, or makes one. -/
theorem connect_meets {binding : DeviceBinding} :
    (connect binding).Meets c (Restrained operation configure) (fun _ c' _ => c' = c)
      (fun connected c' tr => c' = some connected ∧ Simulates c c' tr) := by
  unfold connect
  refine .bind (R := fun _ c' tr => c' = c ∧ ∀ e ∈ tr, Observing operation configure e.request)
    (Action.Meets.weaken (verifyUsb_quiet (f := id)) (fun _ h => .of_quiet h)
      (fun _ _ _ _ h => h) fun _ _ _ htr h => ⟨h, htr⟩) ?_
  rintro _ c' tr₁ _ ⟨rfl, htr₁⟩
  refine .reading ?_
  cases c' with
  | some connected =>
      refine .pure (.prepend htr₁ (.of_quiet fun _ h => absurd h List.not_mem_nil)) ⟨rfl, ?_⟩
      exact fun state h => Or.inl h
  | none =>
      refine .bind (R := Opened) (Action.Meets.weaken openConnection_meets
        (fun _ h => h.prepend htr₁) (fun _ _ _ _ h => h) fun _ _ _ _ h => h) ?_
      rintro connected _ tr₂ htr₂ ⟨rfl, hopened⟩
      refine .writing (.pure ?_ ⟨rfl, fun state h => Or.inr ⟨rfl, ?_⟩⟩)
      · rw [List.append_nil]
        exact htr₂
      · rw [List.append_nil]
        exact (hopened state (Option.some.inj h)).prepend tr₁

variable {patience : ℕ} {binding : DeviceBinding} {id : InstrumentId} {request : DispatchRequest}
  {artifacts : ArtifactResolver} {deadline : ℕ}

/-- Nothing changes the simulator that a session is connected to. -/
theorem performReviewed_quiet {connected : Connected} :
    Quiet request.operation request.configureInstrument simulatorOf (some connected)
      (performReviewed patience binding id request artifacts true deadline connected) := by
  unfold performReviewed
  refine .bind (observe_quiet rfl) fun observed c₁ h₁ => ?_
  split
  · exact .pure _
  · refine .bind interlocksExpired_quiet fun expired c₂ h₂ => ?_
    split
    · exact .pure _
    · split
      · exact .pure _
      · refine .reading (.bind (operate_quiet ?_) fun _ _ _ =>
          .bind publish_quiet fun _ _ _ => .pure _)
        cases c₂ with
        | none => exact (h₂.trans h₁).symm
        | some current => rfl

theorem session_restrained :
    RunsRestrained request.operation request.configureInstrument c
      (session patience binding id request artifacts true deadline) := by
  unfold session
  refine .bind (R := fun connected c' tr => c' = some connected ∧ Simulates c c' tr)
    (connect_meets.weaken (fun _ h => h) ?_ fun _ _ _ _ h => h) ?_
  · rintro _ _ tr _ rfl
    exact fun state h => Or.inl h
  rintro connected _ tr₁ htr₁ ⟨rfl, hc⟩
  have hend : ∀ c' tr₂,
      (∀ x ∈ tr₂, Observing request.operation request.configureInstrument x.request) →
      simulatorOf c' = simulatorOf (some connected) → Simulates c c' (tr₁ ++ tr₂) := by
    intro c' tr₂ htr₂ h state hstate
    have hconnected : some connected = some (.simulator state) :=
      simulatorOf_eq_some.mp (h ▸ simulatorOf_eq_some.mpr hstate)
    exact (hc state hconnected).imp (fun h => h) fun h =>
      ⟨h.1, h.2.append fun x hx => observing_quiet (htr₂ x hx)⟩
  exact Action.Meets.weaken performReviewed_quiet (fun _ h => htr₁.append h)
    (fun _ c' tr₂ h hc' => hend c' tr₂ h hc') fun _ c' tr₂ h hc' => hend c' tr₂ h hc'

theorem onSession_restrained :
    RunsRestrained request.operation request.configureInstrument c
      (onSession patience binding id request artifacts true) := by
  unfold onSession
  split
  · exact .of_quiet (.pure _)
  · split
    · exact .of_quiet (.pure _)
    · refine .after deadlineOf_quiet fun deadline => ?_
      cases deadline with
      | none => exact .of_quiet (.pure _)
      | some deadline =>
          exact .after (.ask trivial) fun elapsed => .after (.refuse _) fun _ =>
            .guarded session_restrained

theorem run_restrained {backend : DeviceBackend} :
    RunsRestrained request.operation request.configureInstrument c
      (run patience backend request artifacts true) := by
  unfold run
  refine .after (.refuse _) fun _ => ?_
  split
  · exact .of_quiet waited_quiet
  · exact .after (.result _) fun id => .after (.result _) fun binding => onSession_restrained

/-- What a run that only observes has done, from a connection `c`, with these exchanges and this
end. -/
structure OnlyObserves (request : DispatchRequest) (c : Option Connected)
    (tr : List (Exchange hardware))
    (o : Option (Except BackendError OperationReceipt × Option Connected)) : Prop where
  /-- Its requests observe, apart from making a store file. -/
  requests : ∀ x ∈ tr, Observing request.operation request.configureInstrument x.request ∨
    ∃ n, x.request = .writeStore (Simulator.initial n)
  /-- Without leave to configure, a Bus Pirate is only asked for its status. -/
  unconfigured : request.configureInstrument = false →
    ∀ x ∈ tr, ∀ packet, x.request = .bpio packet → packet = .status
  /-- The simulator in the store file is as it was; a new file is made only where none is. -/
  store : ∀ file file', Tracks storeStep file tr file' →
    file' = file ∨ file = none ∧ ∃ n, file' = some (Simulator.initial n)
  /-- A simulator that is connected at the end was connected before, or it is the one in the
  store file. -/
  connected : ∀ r state, o = some (r, some (.simulator state)) → c = some (.simulator state) ∨
    c = none ∧ ∀ file file', Tracks storeStep file tr file' → file' = some state

/-- Whatever the devices answer and wherever the run ends, a reconciliation only observes. -/
theorem reconcile_observes {backend : DeviceBackend} {tr : List (Exchange hardware)}
    {o : Option (Except BackendError OperationReceipt × Option Connected)}
    (h : ((run patience backend request artifacts true).start c).Runs tr o) :
    OnlyObserves request c tr o := by
  obtain ⟨hi, he, hq⟩ := run_restrained tr o h
  refine ⟨hi.1, fun hconfigure x hx packet hpacket => ?_, hi.2, fun r state ho => ?_⟩
  · rcases hi.1 x hx with hobserving | ⟨n, hn⟩
    · rw [hpacket, hconfigure] at hobserving
      exact observingPacket_unconfigured hobserving
    · rw [hpacket] at hn
      cases hn
  · cases r with
    | error e => exact he e _ ho state rfl
    | ok receipt => exact hq receipt _ ho state rfl

end DeviceBackend

open DeviceBackend Rig in
/-- Reconciling an erase of a simulator that was used before: the run succeeds. -/
theorem reconcile_observes_rig :
    let erase := dispatch (.flashErase Bench.target simulator 0 4)
    let ended := ((run 0 backend erase (fun _ => .error (.io "absent")) true).start none).against
      respond ⟨some used, [], false⟩
    OnlyObserves erase none ended.1 (some ended.2.1) ∧ ended.2.1.1.isOk = true ∧
      simulatorOf ended.2.1.2 = some used :=
  ⟨reconcile_observes (Program.against_runs respond _ _), by decide +kernel⟩

end Cheirismos
