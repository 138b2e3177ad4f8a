import Cheirismos.Failures
import Cheirismos.Validation
import Cheirismos.Rig

/-! # What preflight accepts can be executed

`Executable` says of an operation on a binding that the checks of its execution pass which depend on
the binding, the operation and the artifacts alone, and that the execution fails only for reasons
that the device, the store file, the clock or the leave to configure decide:

* on a Bus Pirate, `Bus.DeviceDecided`;
* on a relay controller, `ControllerDecided`;
* on a simulator opened with the configured size, `SimulatedFailure`: an injected fault, a write that
  would set a bit, or a store file that could not be written.

`preflight_executable` proves it for every operation that preflight accepts.  On a simulator the
store file can fail at any effect (`store_file_fails`). -/

namespace Cheirismos

open Process

/-! ### Bus Pirate -/

namespace Bus

variable [Crates] {patience : ℕ} {binding : DeviceBinding} {config : Bpio2Config}
  {artifacts : ArtifactResolver} {operation : Operation} {reconcile configureInstrument : Bool}

/-- A failure of an execution that preflight has accepted. -/
def BusDecided (reconcile configureInstrument : Bool) (e : BackendError) : Prop :=
  DeviceDecided e ∨ reconcile = false ∧ configureInstrument = false ∧
    e = malformed "normal bus operation requires reviewed InstrumentConfigure authority"

theorem decided {α : Type} {x : Session α} (h : Action.Raises (F := hardware) DeviceDecided x) :
    Action.Raises (F := hardware) (BusDecided reconcile configureInstrument) x :=
  h.mono fun _ => Or.inl

/-- Only a run that is not a reconciliation needs leave to configure. -/
theorem authority_raises :
    Action.Raises (F := hardware) (BusDecided reconcile configureInstrument)
      (Action.when (!reconcile) (Action.result (requireConfigurationEffect configureInstrument)) :
        Session Unit) := by
  refine .when fun hreconcile => .result fun e he => Or.inr ?_
  unfold requireConfigurationEffect at he
  split_ifs at he with h
  cases he
  exact ⟨by simpa using hreconcile, by simpa using h, rfl⟩

theorem rawOperation_raises {mode reason : String} {speed : UInt32} {base : Value}
    {run : Limits → Session ResultData} (hspeed : speed ≠ 0)
    (hrun : ∀ limits, Action.Raises (F := hardware) DeviceDecided (run limits)) :
    Action.Raises (F := hardware) (BusDecided reconcile configureInstrument)
      (rawOperation mode speed base reason reconcile configureInstrument run) := by
  unfold rawOperation
  split_ifs with hreconcile
  · exact .pure _
  · refine .checked (fun e he => Or.inr ?_) fun _ _ => .bind (decided (ensureMode_raises hspeed))
      fun limits => decided (hrun limits)
    unfold requireConfigurationEffect at he
    split_ifs at he with h
    cases he
    exact ⟨by simpa using hreconcile, by simpa using h, rfl⟩

theorem configured_raises {mode : String} {limits : Session (Option Limits)} {base : Value}
    {run : Limits → Session ResultData}
    (hlimits : Action.Raises (F := hardware) DeviceDecided limits)
    (hrun : ∀ limits, Action.Raises (F := hardware) DeviceDecided (run limits)) :
    Action.Raises (F := hardware) (BusDecided reconcile configureInstrument)
      (configured mode limits base run) := by
  refine decided (.bind hlimits fun limits => ?_)
  cases limits with
  | none => exact .pure _
  | some limits => exact hrun limits

/-- An operation with leave to configure, in a mode. -/
theorem authorized_raises {mode : String} {limits : Session (Option Limits)} {base : Value}
    {run : Limits → Session ResultData}
    (hlimits : Action.Raises (F := hardware) DeviceDecided limits)
    (hrun : ∀ limits, Action.Raises (F := hardware) DeviceDecided (run limits)) :
    Action.Raises (F := hardware) (BusDecided reconcile configureInstrument)
      (Action.when (!reconcile) (Action.result (requireConfigurationEffect configureInstrument))
        >>= fun _ => configured mode limits base run) :=
  .bind authority_raises fun _ => configured_raises hlimits hrun

theorem candidateOperation_raises {base : Value} {writes : Bool} {offset : UInt64}
    {source : ArtifactDigest} {length : UInt32} {geometry : FlashGeometry} {bytes : Bytes}
    (hready : FlashReady binding offset length geometry)
    (hbytes : sourceBytes artifacts source length = .ok bytes) :
    Action.Raises (F := hardware) (BusDecided reconcile configureInstrument)
      (candidateOperation patience binding artifacts base reconcile configureInstrument writes offset
        source length) := by
  unfold candidateOperation
  rw [hready.qualified, hbytes]
  refine .checked (fun _ he => by cases he) fun profile hprofile =>
    .checked (fun _ he => by cases he) fun candidate hcandidate => ?_
  cases hprofile
  cases hcandidate
  refine authorized_raises (modeLimits_raises hready.speed) fun limits =>
    .bind (verifyFlashIdentity_raises hready.identity) fun _ => .bind (.when fun _ => ?_) fun _ =>
      .bind (flashRead_raises hready.bounded hready.range) fun _ => .pure _
  exact flashWrite_raises (sourceBytes_length hbytes) hready.range

/-- Once its checks pass, an execution fails only by the device or for want of authority. -/
theorem execute_raises (hconfig : binding.config = .bpio2 config)
    (hsupports : supports (.bpio2 config) operation = true)
    (h : BpioChecks binding config artifacts operation) :
    Action.Raises (F := hardware) (BusDecided reconcile configureInstrument)
      (execute patience binding operation artifacts reconcile configureInstrument) := by
  have hbpio : bpioConfig binding = .ok config := by
    rw [bpioConfig, hconfig]
  refine .bind (decided (linked_raises Bpio2Adapter.identify_raises)) fun fresh => ?_
  cases operation with
  | instrumentStatus => exact .pure _
  | spiTransfer target instrument tx rxBytes =>
      exact rawOperation_raises h.1 fun limits => .bind (spiTransfer_raises h.2) fun _ => .pure _
  | i2cTransfer target instrument address tx rxBytes =>
      obtain ⟨haddress, hspeed, hbounded, count, hcount⟩ := h
      exact .refused (fun hbad => absurd hbad haddress) fun _ =>
        rawOperation_raises hspeed fun limits =>
          .bind (i2cTransfer_raises hbounded hcount) fun _ => .pure _
  | i2cScan => exact rawOperation_raises h fun limits => .bind i2cScan_raises fun _ => .pure _
  | uartCapture target instrument maxBytes =>
      exact authorized_raises (modeLimits_raises h.1) fun limits =>
        .bind (uartCapture_raises h.2) fun _ => .pure _
  | uartTransmit target instrument bytes =>
      exact rawOperation_raises h fun limits => .bind uartWrites_raises fun _ => .pure _
  | gpioSet target instrument pin high =>
      obtain ⟨pin', hpin, hlt, hmem⟩ := h
      refine .checked (fun _ he => by cases hpin.symm.trans he) fun converted hconverted => ?_
      cases hpin.symm.trans hconverted
      refine .refused (fun hbad => absurd hbad hlt) fun _ =>
        .checked (fun _ he => by cases hbpio.symm.trans he) fun accepted haccepted => ?_
      cases hbpio.symm.trans haccepted
      exact .refused (fun hbad => absurd hmem hbad) fun _ =>
        .bind (.when fun _ => decided (linked_raises (Bpio2Adapter.setGpio_raises hlt))) fun _ =>
          .bind (decided (linked_raises Bpio2Adapter.identify_raises)) fun _ => .pure _
  | adcRead target instrument channel =>
      refine .bind (.result fun e he => ?_) fun _ => .pure _
      split at he
      · cases he
      · cases he
        exact Or.inl (.answer (by simp [deviceAnswers]))
  | psuSet target instrument millivolts milliamps =>
      obtain ⟨hlimits, milliamps', hamps⟩ := h
      refine .checked (fun _ he => by cases hbpio.symm.trans he) fun accepted haccepted => ?_
      cases hbpio.symm.trans haccepted
      exact .refused (fun hbad => absurd hbad hlimits) fun _ =>
        .checked (fun _ he => by cases hamps.symm.trans he) fun _ _ =>
          .bind (.when fun _ => decided (linked_raises Bpio2Adapter.setPsu_raises)) fun _ =>
            .bind (decided (linked_raises Bpio2Adapter.identify_raises)) fun _ => .pure _
  | flashIdentify =>
      exact authorized_raises (modeLimits_raises h) fun limits =>
        .bind identifyFlash_raises fun _ => .pure _
  | flashRead target instrument offset length =>
      obtain ⟨geometry, hready⟩ := h
      refine .checked (fun _ he => by cases hready.qualified.symm.trans he) fun profile hprofile => ?_
      cases hready.qualified.symm.trans hprofile
      exact authorized_raises (modeLimits_raises hready.speed) fun limits =>
        .bind (verifyFlashIdentity_raises hready.identity) fun _ =>
          .bind (flashRead_raises hready.bounded hready.range) fun _ => .pure _
  | flashErase target instrument offset length =>
      obtain ⟨geometry, hready, herase⟩ := h
      refine .checked (fun _ he => by cases hready.qualified.symm.trans he) fun profile hprofile => ?_
      cases hready.qualified.symm.trans hprofile
      exact authorized_raises (modeLimits_raises hready.speed) fun limits =>
        .bind (verifyFlashIdentity_raises hready.identity) fun _ =>
          .bind (.when fun _ => flashErase_raises herase) fun _ =>
            .bind (flashRead_raises hready.bounded hready.range) fun _ => .pure _
  | flashWrite target instrument offset source length =>
      obtain ⟨geometry, hready, bytes, hbytes⟩ := h
      exact candidateOperation_raises hready hbytes
  | flashVerify target instrument offset source length =>
      obtain ⟨geometry, hready, bytes, hbytes⟩ := h
      exact candidateOperation_raises hready hbytes
  | _ => cases hsupports

end Bus

/-! ### Relay controllers -/

section controllers

variable [Crates] {config : NumatoConfig} {operation : Operation} {reconcile : Bool}

/-- An error of an exchange, or an answer that does not show the relays. -/
def ControllerFault (e : InstrumentError) : Prop :=
  Bpio2Adapter.FromExchange e ∨ ∃ response, NumatoAdapter.parseRelays response = .error e

def ControllerDecided (e : BackendError) : Prop := ∃ e', ControllerFault e' ∧ e = transport e'

theorem command_raises {line : String} :
    Action.Raises (F := hardware) ControllerFault (NumatoAdapter.command line) := by
  refine .bind (.ask _) fun answer => .bind (.result fun e he => Or.inl ?_) fun transcript =>
    .result fun e he => Or.inl ?_
  · cases answer with
    | error e' =>
        cases he
        exact Bpio2Adapter.fromExchange_error e'
    | ok transcript => cases he
  · unfold NumatoAdapter.parseTranscript at he
    dsimp only at he
    split at he
    · cases he
    · cases he
    · cases he
      trivial

theorem readRelays_raises :
    Action.Raises (F := hardware) ControllerFault NumatoAdapter.readRelays :=
  .bind command_raises fun response => .result fun _ he => Or.inr ⟨response, he⟩

theorem setRelay_raises {relay : UInt8} {state : RelayState} (h : ¬ 4 ≤ relay) :
    Action.Raises (F := hardware) ControllerFault (NumatoAdapter.setRelay relay state) :=
  .refused (fun hbad => absurd hbad h) fun _ => .bind command_raises fun _ => readRelays_raises

theorem controller_raises {α : Type} {x : NumatoAdapter.Link α}
    (h : Action.Raises (F := hardware) ControllerFault x) :
    Action.Raises (F := hardware) ControllerDecided (Action.failing transport x) :=
  .failing (h.mono fun e he => ⟨e, he, rfl⟩)

theorem actuateRelay_raises {relay : UInt16} {relay' : UInt8} {expected : Option Bool}
    (hrelay : u8TryFrom relay = .ok relay') (hlt : ¬ 4 ≤ relay')
    (hmem : relay' ∈ config.relayMap.values) :
    Action.Raises (F := hardware) ControllerDecided
      (actuateRelay config relay expected reconcile) := by
  refine .checked (fun _ he => by cases hrelay.symm.trans he) fun converted hconverted => ?_
  cases hrelay.symm.trans hconverted
  refine .refused (fun hbad => absurd hmem hbad) fun _ => ?_
  cases expected with
  | none => exact .pure _
  | some closed =>
      refine .bind (.when fun _ => ?_) fun _ => .pure _
      exact .bind (controller_raises (setRelay_raises hlt)) fun _ => .pure _

theorem relayOperation_raises (hsupports : supports (.numato config) operation = true)
    (h : NumatoChecks config operation) :
    Action.Raises (F := hardware) ControllerDecided
      (relayOperation (.numato config) operation reconcile) := by
  have hread : ∀ relay expected, Action.Raises (F := hardware) (σ := Unit) ControllerDecided
      (Action.failing transport NumatoAdapter.readRelays >>= fun states =>
        pure (relayResult relay expected reconcile states)) :=
    fun _ _ => .bind (controller_raises readRelays_raises) fun _ => .pure _
  refine .checked (fun _ he => by cases he) fun accepted haccepted => ?_
  cases haccepted
  cases operation with
  | instrumentStatus =>
      refine .checked (fun _ he => by cases he) fun expected hexpected => ?_
      cases hexpected
      exact .bind (.pure _) fun _ => hread _ _
  | relaySet target instrument relay closed =>
      obtain ⟨relay', hrelay, hlt, hmem⟩ := h
      refine .checked (fun _ he => by cases he) fun expected hexpected => ?_
      cases hexpected
      exact .bind (.map some (actuateRelay_raises hrelay hlt hmem)) fun _ => hread _ _
  | relayRead target instrument relay =>
      obtain ⟨relay', hrelay, hlt, hmem⟩ := h
      refine .checked (fun _ he => by cases he) fun expected hexpected => ?_
      cases hexpected
      exact .bind (.map some (actuateRelay_raises hrelay hlt hmem)) fun _ => hread _ _
  | _ => cases hsupports

end controllers

/-! ### Simulator -/

namespace Simulator

/-- The text of a refused write. -/
def norRule : String := "NOR write would change a programmed bit from zero to one; erase first"

variable {state state' : SimulatorState} {offset length : ℕ} {bytes : Bytes}

/-- A store file that could not be written. -/
def StoreFailed (e : InstrumentError) (tr : List (Exchange hardware)) : Prop :=
  ∃ stored, (⟨HardwareRequest.writeStore stored, some (.error e)⟩ : Exchange hardware) ∈ tr

/-- A failure that an injected fault or the store file decides. -/
def EffectFailed (state : SimulatorState) (e : InstrumentError) (tr : List (Exchange hardware)) :
    Prop :=
  state.fault ≠ .none ∧ (∃ detail, e = .deviceRejected detail) ∨ StoreFailed e tr

theorem commit_meets : (commit state').Meets state (fun _ => True)
    (fun e _ tr => StoreFailed e tr) (fun _ s _ => s = state') := by
  refine .writing (.bind (R := fun v s tr => s = state' ∧
    tr = [⟨HardwareRequest.writeStore state', some v⟩])
    (.ask trivial trivial fun v => ⟨trivial, rfl, rfl⟩) ?_)
  rintro v _ _ _ ⟨rfl, rfl⟩
  refine .result trivial (fun e he => ?_) fun _ _ => rfl
  subst he
  exact ⟨_, List.mem_append_left _ (List.mem_singleton.mpr rfl)⟩

theorem abort_meets {α : Type} {detail : String} {Q : α → SimulatorState →
      List (Exchange hardware) → Prop} (hfault : state.fault ≠ .none) :
    (abort state' detail : Link α).Meets state (fun _ => True)
      (fun e _ tr => EffectFailed state e tr) Q := by
  refine .bind (commit_meets.weaken (fun _ _ => trivial) (fun _ _ _ _ h => Or.inr h)
    fun _ _ _ _ h => h) ?_
  exact fun _ _ _ _ _ => .throw trivial (Or.inl ⟨hfault, detail, rfl⟩)

theorem range_ok (h : offset + length ≤ state.flash.length) (hlt : state.flash.length < 2 ^ 64) :
    range state offset length = .ok () := by
  rw [range, if_neg (by omega), if_neg (by omega)]

theorem overlay_length {flash : Bytes} (h : offset + bytes.length ≤ flash.length) :
    (overlay flash offset bytes).length = flash.length := by
  rw [overlay, List.length_append, List.length_append, List.length_take, List.length_drop]
  omega

theorem programNor_length {flash : Bytes} (h : offset + bytes.length ≤ flash.length) :
    (programNor (window flash offset bytes.length) bytes).length = bytes.length := by
  rw [programNor, List.length_zipWith, window, List.length_take, List.length_drop]
  omega

theorem readFlash_meets (h : offset + length ≤ state.flash.length)
    (hlt : state.flash.length < 2 ^ 64) :
    (readFlash offset length).Meets state (fun _ => True) (fun _ _ _ => False)
      (fun _ s _ => s = state) := by
  refine .reading (.checked trivial (fun _ he => ?_) fun _ _ => .pure trivial rfl)
  cases (range_ok h hlt).symm.trans he

theorem setRelay_meets {relay : ℕ} {closed : Bool} (h : relay < 4) :
    (setRelay relay closed).Meets state (fun _ => True) (fun e _ tr => EffectFailed state e tr)
      (fun _ _ _ => True) := by
  refine .reading (.refused trivial (fun hbad => ?_) fun _ => ?_)
  · rw [state.relays] at hbad
    omega
  · dsimp only
    split_ifs with hfault
    · exact abort_meets (by rw [hfault]; exact fun h => by cases h)
    · exact commit_meets.weaken (fun _ _ => trivial) (fun _ _ _ _ h => Or.inr h)
        fun _ _ _ _ _ => trivial

/-- An erase in the flash leaves a flash of the same size. -/
theorem eraseFlash_meets (h : offset + length ≤ state.flash.length)
    (hlt : state.flash.length < 2 ^ 64) :
    (eraseFlash offset length).Meets state (fun _ => True)
      (fun e _ tr => EffectFailed state e tr)
      (fun _ s _ => s.flash.length = state.flash.length) := by
  refine .reading (.checked trivial (fun _ he => ?_) fun _ _ => ?_)
  · cases (range_ok h hlt).symm.trans he
  · dsimp only
    split_ifs with hfault
    · refine commit_meets.weaken (fun _ _ => trivial) (fun _ _ _ _ h => Or.inr h) ?_
      rintro _ _ _ _ rfl
      exact overlay_length (by rwa [List.length_replicate])
    · exact abort_meets hfault

theorem writeFlash_meets (h : offset + bytes.length ≤ state.flash.length)
    (hlt : state.flash.length < 2 ^ 64) :
    (writeFlash offset bytes).Meets state (fun _ => True)
      (fun e _ tr => EffectFailed state e tr ∨
        raisesBit (window state.flash offset bytes.length) bytes = true ∧ e = .deviceRejected norRule)
      (fun _ s _ => s.flash.length = state.flash.length) := by
  refine .reading (.checked trivial (fun _ he => ?_) fun _ _ => ?_)
  · cases (range_ok h hlt).symm.trans he
  refine .refused trivial (fun hbad => Or.inr ⟨hbad, rfl⟩) fun _ => ?_
  cases hfault : state.fault with
  | none =>
      refine commit_meets.weaken (fun _ _ => trivial) (fun _ _ _ _ h => Or.inl (Or.inr h)) ?_
      rintro _ _ _ _ rfl
      refine overlay_length ?_
      rw [show (begun state).flash = state.flash from rfl, programNor_length h]
      exact h
  | interruptNextEffect =>
      exact (abort_meets (by rw [hfault]; exact fun h => by cases h)).weaken (fun _ _ => trivial)
        (fun _ _ _ _ h => Or.inl h) fun _ _ _ _ h => h
  | interruptAfterBytes permitted =>
      exact (abort_meets (by rw [hfault]; exact fun h => by cases h)).weaken (fun _ _ => trivial)
        (fun _ _ _ _ h => Or.inl h) fun _ _ _ _ h => h

end Simulator

section simulated

variable [Crates] {artifacts : ArtifactResolver} {operation : Operation} {reconcile : Bool}
  {state : SimulatorState} {config : SimulatorConfig}

/-- The ways in which an operation on a simulator fails: an injected fault, a store file that was
not written, and a write that would set a bit. -/
def SimulatedFailure (operation : Operation) (artifacts : ArtifactResolver)
    (state : SimulatorState) (e : BackendError) (tr : List (Exchange hardware)) : Prop :=
  (∃ e', e = transport e' ∧ Simulator.EffectFailed state e' tr) ∨
    ∃ target instrument offset source length bytes,
      operation = .flashWrite target instrument offset source length ∧
      sourceBytes artifacts source length = .ok bytes ∧
      Simulator.raisesBit (Simulator.window state.flash offset.toNat bytes.length) bytes = true ∧
      e = transport (.deviceRejected Simulator.norRule)

/-- An effect that leaves a flash of the same size, unless it is a reconciliation. -/
theorem effect_meets {x : Simulator.Link Unit} {E : InstrumentError → List (Exchange hardware) → Prop}
    {E' : BackendError → List (Exchange hardware) → Prop} (hE : ∀ e tr, E e tr → E' (transport e) tr)
    (h : x.Meets state (fun _ => True) (fun e _ tr => E e tr)
      (fun _ s _ => s.flash.length = state.flash.length)) :
    (Action.when (!reconcile) (Simulated.linked x)).Meets state (fun _ => True)
      (fun e _ tr => E' e tr) (fun _ s _ => s.flash.length = state.flash.length) := by
  cases reconcile with
  | true => exact .pure trivial rfl
  | false => exact .failing (h.weaken (fun _ h => h) (fun e _ tr _ h => hE e tr h) fun _ _ _ _ h => h)

/-- Reading back cannot fail in the flash. -/
theorem readBack_meets {offset length : ℕ} {f : Bytes → ResultData}
    {E : BackendError → SimulatorState → List (Exchange hardware) → Prop}
    (h : offset + length ≤ state.flash.length) (hlt : state.flash.length < 2 ^ 64) :
    (Simulated.linked (Simulator.readFlash offset length) >>= fun bytes => pure (f bytes)).Meets
      state (fun _ => True) E (fun _ _ _ => True) := by
  refine .bind (.failing ((Simulator.readFlash_meets h hlt).weaken (fun _ h => h)
    (fun _ _ _ _ h => h.elim) fun _ _ _ _ h => h)) ?_
  exact fun _ _ _ _ _ => .pure trivial trivial

theorem candidate_meets {writes : Bool} {offset : UInt64} {source : ArtifactDigest}
    {length : UInt32} {bytes : Bytes} {E : BackendError → List (Exchange hardware) → Prop}
    (hbytes : sourceBytes artifacts source length = .ok bytes)
    (h : offset.toNat + length.toNat ≤ state.flash.length) (hlt : state.flash.length < 2 ^ 64)
    (heffect : ∀ e tr, Simulator.EffectFailed state e tr → E (transport e) tr)
    (hrule : writes = true → Simulator.raisesBit
      (Simulator.window state.flash offset.toNat bytes.length) bytes = true →
        ∀ tr, E (transport (.deviceRejected Simulator.norRule)) tr) :
    (Simulated.candidateOperation artifacts writes offset source length).Meets state
      (fun _ => True) (fun e _ tr => E e tr) (fun _ _ _ => True) := by
  have hlength := sourceBytes_length hbytes
  rw [← hlength] at h
  unfold Simulated.candidateOperation
  refine .checked trivial (fun _ he => by cases hbytes.symm.trans he) fun candidate hcandidate => ?_
  cases hbytes.symm.trans hcandidate
  have hwrite : (Action.when writes (Simulated.linked
      (Simulator.writeFlash offset.toNat bytes))).Meets state (fun _ => True)
      (fun e _ tr => E e tr) (fun _ s _ => s.flash.length = state.flash.length) := by
    cases writes with
    | false => exact .pure trivial rfl
    | true =>
        refine .failing ((Simulator.writeFlash_meets h hlt).weaken (fun _ h => h) ?_
          fun _ _ _ _ h => h)
        rintro e _ tr _ (hfailed | ⟨hraises, rfl⟩)
        · exact heffect e tr hfailed
        · exact hrule rfl hraises tr
  refine .bind hwrite fun _ s _ _ hs => ?_
  exact readBack_meets (by rw [hs]; exact h) (by rw [hs]; exact hlt)

theorem relay_meets {relay : UInt16} {expected : Option Bool} {E : BackendError →
      List (Exchange hardware) → Prop} (h : relay.toNat < 4)
    (heffect : ∀ e tr, Simulator.EffectFailed state e tr → E (transport e) tr) :
    (Simulated.relayOperation relay expected reconcile).Meets state (fun _ => True)
      (fun e _ tr => E e tr) (fun _ _ _ => True) := by
  refine .bind (R := fun _ _ _ => True) ?_ fun _ s _ _ _ => .reading (.checked trivial
    (fun e he => ?_) fun _ _ => .pure trivial trivial)
  · cases reconcile with
    | true => exact .pure trivial trivial
    | false =>
        cases expected with
        | none => exact .pure trivial trivial
        | some closed =>
            exact .failing ((Simulator.setRelay_meets h).weaken (fun _ h => h)
              (fun e _ tr _ h => heffect e tr h) fun _ _ _ _ h => h)
  have hsome : (Simulator.observe s).relayClosed[relay.toNat]?.isSome = true := by
    rw [Simulator.observe, List.getElem?_eq_getElem (by rw [s.relays]; exact h)]
    rfl
  split at he
  · cases he
  · next hnone =>
      rw [hnone] at hsome
      cases hsome

/-- Once its checks pass, an operation on a simulator fails in these ways only. -/
theorem simulated_meets (hsize : state.flash.length = config.flashBytes)
    (hsupports : supports (.simulator config) operation = true)
    (h : SimulatorChecks config.flashBytes artifacts operation) :
    (Simulated.execute operation artifacts reconcile).Meets state (fun _ => True)
      (fun e _ tr => SimulatedFailure operation artifacts state e tr) (fun _ _ _ => True) := by
  have heffect : ∀ e tr, Simulator.EffectFailed state e tr →
      SimulatedFailure operation artifacts state (transport e) tr :=
    fun e tr h => Or.inl ⟨e, rfl, h⟩
  have hperform : (Simulated.perform operation artifacts reconcile).Meets state (fun _ => True)
      (fun e _ tr => SimulatedFailure operation artifacts state e tr) (fun _ _ _ => True) := by
    rw [← hsize] at h
    cases operation with
    | instrumentStatus => exact .reading (.pure trivial trivial)
    | flashIdentify => exact .reading (.pure trivial trivial)
    | relaySet target instrument relay closed =>
        unfold Simulated.perform
        exact relay_meets h heffect
    | relayRead target instrument relay =>
        unfold Simulated.perform
        exact relay_meets h heffect
    | flashRead target instrument offset length => exact readBack_meets h.1 h.2
    | flashErase target instrument offset length =>
        refine .bind (effect_meets heffect (Simulator.eraseFlash_meets h.1 h.2))
          fun _ s _ _ hs => ?_
        exact readBack_meets (by rw [hs]; exact h.1) (by rw [hs]; exact h.2)
    | flashWrite target instrument offset source length =>
        obtain ⟨hle, hlt, bytes, hbytes⟩ := h
        refine candidate_meets hbytes hle hlt heffect fun _ hraises tr => Or.inr ?_
        exact ⟨target, instrument, offset, source, length, bytes, rfl, hbytes, hraises, rfl⟩
    | flashVerify target instrument offset source length =>
        obtain ⟨hle, hlt, bytes, hbytes⟩ := h
        exact candidate_meets hbytes hle hlt heffect fun hwrites => by cases hwrites
    | _ => cases hsupports
  exact .bind hperform fun _ _ _ _ _ => .pure trivial trivial

end simulated

/-! ### Video -/

section video

variable [Crates] {binding : DeviceBinding} {artifacts : ArtifactResolver} {reconcile : Bool}
  {config : VideoConfig}

/-- The capture failed, or its deadline leaves no time for it. -/
def VideoDecided (e : BackendError) : Prop :=
  (∃ e' : InstrumentError, e = transport e') ∨ e = .timeout "video capture deadline exhausted" ∨
    e = malformed conversionError

theorem captureFrame_raises {deadline : ℕ} :
    Action.Raises (F := hardware) VideoDecided
      (DeviceBackend.captureFrame config deadline reconcile) := by
  refine .bind (.ask _) fun elapsed => .bind (.refuse fun _ => Or.inr (Or.inl rfl)) fun _ =>
    .bind (.result fun e he => ?_) fun left => .bind (.ask _) fun frame =>
      .bind (.result fun e he => ?_) fun _ => .pure _
  · split_ifs at he
    cases he
    exact Or.inr (Or.inr rfl)
  · cases frame with
    | error e' =>
        cases he
        exact Or.inl ⟨e', rfl⟩
    | ok frame => cases he

theorem video_raises {patience : ℕ} {request : DispatchRequest} {observed : Observation}
    {deadline : ℕ} (hconfig : binding.config = .video config)
    (hsupports : supports (.video config) request.operation = true) :
    Action.Raises (F := hardware) VideoDecided (DeviceBackend.operate patience binding request
      artifacts reconcile observed deadline .video) := by
  unfold DeviceBackend.operate
  rw [hconfig]
  refine .checked (fun _ he => by cases he) fun accepted haccepted => ?_
  cases haccepted
  generalize request.operation = operation at hsupports
  cases operation with
  | instrumentStatus => exact .pure _
  | videoCapture => exact captureFrame_raises
  | _ => cases hsupports

end video

/-! ### Every kind of instrument -/

section executable

variable [Crates]

/-- The operation can be executed as its binding is configured. -/
structure Executable (binding : DeviceBinding) (operation : Operation)
    (artifacts : ArtifactResolver) : Prop where
  bpio2 : ∀ config, binding.config = .bpio2 config →
    BpioChecks binding config artifacts operation ∧
      ∀ patience reconcile configureInstrument,
        Action.Raises (F := hardware) (Bus.BusDecided reconcile configureInstrument)
          (Bus.execute patience binding operation artifacts reconcile configureInstrument)
  numato : ∀ config, binding.config = .numato config → NumatoChecks config operation ∧
    ∀ reconcile, Action.Raises (F := hardware) ControllerDecided
      (relayOperation binding.config operation reconcile)
  simulator : ∀ config state, binding.config = .simulator config →
    state.flash.length = config.flashBytes → ∀ reconcile tr e state',
      ((Simulated.execute operation artifacts reconcile).start state).Runs tr
        (some (.error e, state')) → SimulatedFailure operation artifacts state e tr
  video : ∀ config patience request reconcile observed deadline, binding.config = .video config →
    request.operation = operation → Action.Raises (F := hardware) VideoDecided
      (DeviceBackend.operate patience binding request artifacts reconcile observed deadline .video)

/-- The execution does nothing but say that the kind of operation is unsupported. -/
def Unsupported (binding : DeviceBinding) (operation : Operation) : Prop :=
  match binding.config with
  | .bpio2 _ => ∀ patience artifacts reconcile configureInstrument,
      Bus.execute patience binding operation artifacts reconcile configureInstrument =
        (Bus.linked Bpio2Adapter.identify >>= fun _ =>
          throw (malformed "operation is unsupported by Bus Pirate BPIO2"))
  | .numato config => ∀ reconcile, relayOperation (.numato config) operation reconcile =
      throw (malformed "operation is unsupported by Numato relay controller")
  | .simulator _ => ∀ artifacts reconcile, Simulated.execute operation artifacts reconcile =
      throw (malformed "operation is outside this simulator's flash/relay model")
  | .video _ => ∀ patience request artifacts reconcile observed deadline,
      request.operation = operation → DeviceBackend.operate patience binding request artifacts
        reconcile observed deadline .video =
          throw (malformed "operation is unsupported by video capture instrument")

/-- Some device identifies itself. -/
theorem identify_answered {β : Type} (x : Bus.Session β) {e : BackendError}
    (hx : ∀ a, x.start a = .pure (.error e, a)) : ∃ a tr a',
    ((Bus.linked Bpio2Adapter.identify >>= fun _ => x).start a).Runs tr (some (.error e, a')) := by
  let a : Bpio2Adapter := ⟨Crates.packetLength .status, none⟩
  let response : ResponsePacket := ⟨none, .status (some (none, Rig.discovery)), 0⟩
  have hrequest : Action.start (Bpio2Adapter.request .status) a =
      .ask (HardwareRequest.bpio .status) fun v =>
        (Action.result (Bpio2Adapter.received a.frameLimit v) :
          Bpio2Adapter.Link ResponsePacket).start a := by
    show Action.start (Action.refuse (a.frameLimit < Crates.packetLength .status)
      (.frameTooLarge a.frameLimit) >>= fun _ =>
        Action.ask (F := hardware) (HardwareRequest.bpio .status) >>= fun response =>
          Action.result (Bpio2Adapter.received a.frameLimit response) :
            Bpio2Adapter.Link ResponsePacket) a = _
    rw [Action.refuse, if_neg (lt_irrefl _)]
    rfl
  refine ⟨a, [⟨HardwareRequest.bpio .status, some (.ok response)⟩],
    ⟨Bpio2Adapter.frameLimitOf Rig.discovery, some Rig.discovery⟩, ?_⟩
  rw [Action.start_bind, Bus.linked, Action.start_failing, Bpio2Adapter.identify,
    Action.start_bind, hrequest]
  refine .answered ?_
  have hended := hx ⟨Bpio2Adapter.frameLimitOf Rig.discovery, some Rig.discovery⟩
  show Program.Runs (x.start _) [] _
  rw [hended]
  exact .ended _

theorem not_busDecided {message : String} {reconcile configureInstrument : Bool}
    (hanswer : message ∉ Bus.deviceAnswers)
    (hauthority : message ≠ "normal bus operation requires reviewed InstrumentConfigure authority") :
    ¬ Bus.BusDecided reconcile configureInstrument (malformed message) := by
  rintro (h | ⟨_, _, h⟩)
  · generalize he : malformed message = e at h
    cases h with
    | link h => cases he
    | answer h =>
        cases he
        exact hanswer h
    | deadline => cases he
  · cases h
    exact hauthority rfl

variable {binding : DeviceBinding} {operation : Operation} {artifacts : ArtifactResolver}

/-! The parts of `Executable`, one for each kind of instrument. -/

section accepted

variable (h : Preflight.validate binding operation artifacts = .ok ())

include h

theorem bpio2_executable {config : Bpio2Config} (hconfig : binding.config = .bpio2 config) :
    BpioChecks binding config artifacts operation ∧
      ∀ patience reconcile configureInstrument,
        Action.Raises (F := hardware) (Bus.BusDecided reconcile configureInstrument)
          (Bus.execute patience binding operation artifacts reconcile configureInstrument) := by
  unfold Preflight.validate at h
  rw [hconfig] at h
  obtain ⟨hchecks, hsupports⟩ := Preflight.validateBpio_checks hconfig h
  exact ⟨hchecks, fun _ _ _ => Bus.execute_raises hconfig hsupports hchecks⟩

theorem numato_executable {config : NumatoConfig} (hconfig : binding.config = .numato config) :
    NumatoChecks config operation ∧ ∀ reconcile, Action.Raises (F := hardware) ControllerDecided
      (relayOperation binding.config operation reconcile) := by
  unfold Preflight.validate at h
  rw [hconfig] at h ⊢
  obtain ⟨hchecks, hsupports⟩ := Preflight.validateNumato_checks h
  exact ⟨hchecks, fun _ => relayOperation_raises hsupports hchecks⟩

theorem simulator_executable {config : SimulatorConfig} {state : SimulatorState}
    (hconfig : binding.config = .simulator config)
    (hsize : state.flash.length = config.flashBytes) (reconcile : Bool) :
    (Simulated.execute operation artifacts reconcile).Meets state (fun _ => True)
      (fun e _ tr => SimulatedFailure operation artifacts state e tr) (fun _ _ _ => True) := by
  unfold Preflight.validate at h
  rw [hconfig] at h
  obtain ⟨hchecks, hsupports⟩ := Preflight.validateSimulator_checks h
  exact simulated_meets hsize hsupports hchecks

theorem video_executable {config : VideoConfig} {request : DispatchRequest} {patience : ℕ}
    {reconcile : Bool} {observed : Observation} {deadline : ℕ}
    (hconfig : binding.config = .video config) (hoperation : request.operation = operation) :
    Action.Raises (F := hardware) VideoDecided
      (DeviceBackend.operate patience binding request artifacts reconcile observed deadline
        .video) := by
  unfold Preflight.validate at h
  rw [hconfig] at h
  exact video_raises hconfig (hoperation ▸ Preflight.validateVideo_supports h)

/-- Preflight refuses the kinds of operations that an execution does not support. -/
theorem not_unsupported (request : DispatchRequest) (hrequest : request.operation = operation) :
    ¬ Unsupported binding operation := by
  intro hunsupported
  unfold Unsupported at hunsupported
  cases hconfig : binding.config with
  | bpio2 config =>
      rw [hconfig] at hunsupported
      have hraises := (bpio2_executable h hconfig).2 0 true false
      rw [hunsupported] at hraises
      obtain ⟨a, tr, a', hruns⟩ := identify_answered
        (throw (malformed "operation is unsupported by Bus Pirate BPIO2") : Bus.Session ResultData)
        fun _ => rfl
      refine not_busDecided ?_ (by decide +kernel) (hraises a tr _ a' hruns)
      decide +kernel
  | numato config =>
      have hraises := (numato_executable h hconfig).2 true
      rw [hconfig] at hunsupported hraises
      rw [hunsupported] at hraises
      obtain ⟨_, _, he⟩ := hraises () [] _ () (.ended _)
      cases he
  | simulator config =>
      rw [hconfig] at hunsupported
      have hmeets : (Simulated.execute operation artifacts true).Meets
          (Simulator.initial config.flashBytes) _ _ _ :=
        simulator_executable h hconfig List.length_replicate true
      rw [hunsupported] at hmeets
      rcases (hmeets [] _ (.ended _)).2.1 _ _ rfl with ⟨_, he, _⟩ | ⟨_, _, _, _, _, _, _, _, _, he⟩
      · cases he
      · cases he
  | video config =>
      have hraises : Action.Raises (F := hardware) VideoDecided (DeviceBackend.operate 0 binding
          request artifacts true ⟨"", request.expectedTargetFingerprint, .json [], none⟩ 0 .video) :=
        video_executable h hconfig hrequest
      rw [hconfig] at hunsupported
      rw [hunsupported 0 request artifacts true _ 0 hrequest] at hraises
      rcases hraises none [] _ none (.ended _) with ⟨_, he⟩ | he | he
      · cases he
      · cases he
      · exact absurd (BackendError.malformed.inj he) (by decide +kernel)

end accepted

/-- Whatever preflight accepts can be executed as configured. -/
theorem preflight_executable (h : Preflight.validate binding operation artifacts = .ok ()) :
    Executable binding operation artifacts ∧ ¬ Unsupported binding operation := by
  refine ⟨?_, not_unsupported h (Rig.dispatch operation) rfl⟩
  exact {
    bpio2 := fun _ hconfig => bpio2_executable h hconfig
    numato := fun _ hconfig => numato_executable h hconfig
    simulator := fun _ _ hconfig hsize reconcile tr e state' hruns =>
      (simulator_executable h hconfig hsize reconcile tr _ hruns).2.1 e state' rfl
    video := fun _ _ _ _ _ _ hconfig hoperation => video_executable h hconfig hoperation }

end executable

open Rig in
theorem preflight_executable_rig :
    Preflight.validate chipBinding writeOperation artifacts = .ok () ∧
      Executable chipBinding writeOperation artifacts ∧ ¬ Unsupported chipBinding writeOperation :=
  have haccepted := by decide +kernel
  ⟨haccepted, preflight_executable haccepted⟩

open Rig in
/-- An erase without an injected fault fails when its store file cannot be written. -/
theorem store_file_fails :
    let operation := .flashErase Bench.target simulator 0 4
    validateConfig simulatorBinding.config = .ok () ∧
      Preflight.validate simulatorBinding operation artifacts = .ok () ∧
      (Simulator.initial 4).flash.length = simulatorConfig.flashBytes ∧
      (Simulator.initial 4).fault = .none ∧
      ∃ tr e state', ((Simulated.execute operation artifacts false).start (Simulator.initial 4)).Runs
        tr (some (.error e, state')) := by
  refine ⟨by decide +kernel, by decide +kernel, rfl, rfl, ?_⟩
  let failed : Except InstrumentError Unit := .error (.io "write" "no space left on device")
  exact ⟨_, _, _, .answered (F := hardware) (r := HardwareRequest.writeStore _) (v := failed)
    (.ended _)⟩

end Cheirismos
